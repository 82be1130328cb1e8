import DeviceScript.Run.Vars
import DeviceScript.Script.Instruction
import DeviceScript.Text.Segment

/-!
Variables in parameters. References in braces are found first, then bare references in the
text between them, so a value that is put in is never looked at again.
-/

namespace DeviceScript

open Text

def leadingName (t : Text) : Text :=
  let name := t.takeWhile isNamePart
  if isName name then name else []

/-- The name of a reference in braces at the front of a text, and how wide the reference is. -/
def bracedReference? (t : Text) : Option (Text × Nat) :=
  (dropStart? [0x7b, ascii '$'] t).bind fun inside =>
    let name := leadingName inside
    if !name.isEmpty && (inside.drop name.length).head? == some 0x7d then
      some (name, name.length + 3)
    else none

def bareReference? (t : Text) : Option (Text × Nat) :=
  (dropStart? [ascii '$'] t).bind fun inside =>
    let name := leadingName inside
    if name.isEmpty then none else some (name, name.length + 1)

def references (t : Text) : List (Segment Text) :=
  (Segment.cut bracedReference? t).flatMap fun
    | .literal between => Segment.cut bareReference? between
    | braced => [braced]

def interpolate (vars : Vars) (t : Text) : Text :=
  (references t).flatMap (Segment.expand vars.get?)

/-- The variables that a text refers to and that are not set, in order and with repetition. -/
def missingVars (vars : Vars) (t : Text) : List Text :=
  ((references t).filterMap Segment.what?).filter fun name => (vars.get? name).isNone

namespace Value

def interpolate (vars : Vars) : Value → Value
  | .text t => .text (DeviceScript.interpolate vars t)
  | v => v

def missingVars (vars : Vars) : Value → List Text
  | .text t => DeviceScript.missingVars vars t
  | _ => []

end Value

namespace Instruction

/-- The parameters as they will be used. Context switches use theirs as written. -/
def interpolated (i : Instruction) (vars : Vars) : List Value :=
  if i.op.isContextSwitch then i.params else i.params.map (Value.interpolate vars)

def missingVars (i : Instruction) (vars : Vars) : List Text :=
  if i.op.isContextSwitch then [] else i.params.flatMap (Value.missingVars vars)

end Instruction
end DeviceScript

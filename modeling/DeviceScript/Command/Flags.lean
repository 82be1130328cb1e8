import DeviceScript.Text.Literal
import DeviceScript.Text.Quoted

/-! Flags of commands: a dash or two, a name, and a value after an equals sign or a blank. -/

namespace DeviceScript

open Text

inductive FlagKind where
  | text (fallback : Text)
  | switch
  | int (fallback : Int)
  /-- A name and a value around an equals sign; may be given several times. -/
  | assignment
deriving Repr, DecidableEq

structure FlagSpec where
  name : Text
  kind : FlagKind
  usage : Text
deriving Repr, DecidableEq

inductive FlagProblem where
  | help
  | badSyntax (written : Text)
  | undefined (name : Text)
  | noArgument (name : Text)
  | badSwitch (name value : Text)
  | badInt (name value : Text) (problem : LiteralProblem)
  | badAssignment (name value : Text)
deriving Repr, DecidableEq

namespace FlagProblem

private def intProblem : LiteralProblem → Text
  | .malformed => "parse error"
  | .outOfRange => "value out of range"

def message : FlagProblem → Text
  | help => "flag: help requested"
  | badSyntax written => "bad flag syntax: " ++ written
  | undefined name => "flag provided but not defined: -" ++ name
  | noArgument name => "flag needs an argument: -" ++ name
  | badSwitch name value =>
      "invalid boolean value " ++ quote value ++ " for -" ++ name ++ ": parse error"
  | badInt name value problem =>
      "invalid value " ++ quote value ++ " for flag -" ++ name ++ ": " ++ intProblem problem
  | badAssignment name value =>
      "invalid value " ++ quote value ++ " for flag -" ++ name ++ ": expected name=value, got "
        ++ quote value

end FlagProblem

/-- Flags with their values in the order they were given, and the arguments after them. -/
structure Parsed where
  values : List (Text × Text)
  rest : List Text
deriving Repr, DecidableEq

def readSwitch (t : Text) : Option Bool :=
  let among (words : List String) : Bool := words.any fun w => ofString w == t
  if among ["1", "t", "T", "TRUE", "true", "True"] then some true
  else if among ["0", "f", "F", "FALSE", "false", "False"] then some false
  else none

namespace FlagSpec

def check (f : FlagSpec) (value : Text) : Except FlagProblem Unit :=
  match f.kind with
  | .text _ => .ok ()
  | .switch => if (readSwitch value).isSome then .ok () else .error (.badSwitch f.name value)
  | .int _ =>
      match readLiteral value with
      | .ok _ => .ok ()
      | .error problem => .error (.badInt f.name value problem)
  | .assignment =>
      match cut (ascii '=') value with
      | some (_ :: _, _) => .ok ()
      | _ => .error (.badAssignment f.name value)

def usageLine (f : FlagSpec) : Text :=
  let type : Text :=
    match f.kind with
    | .text _ => " string"
    | .switch => []
    | .int _ => " int"
    | .assignment => " value"
  let fallback : Text :=
    match f.kind with
    | .text t => if t.isEmpty then [] else " (default " ++ quote t ++ ")"
    | .int n => if n = 0 then [] else " (default " ++ ofInt n ++ ")"
    | _ => []
  "  -" ++ f.name ++ type ++ "\n    \t" ++ f.usage ++ fallback ++ "\n"

end FlagSpec

structure FlagSet where
  command : Text
  flags : List FlagSpec
deriving Repr, DecidableEq

namespace FlagSet

def usage (s : FlagSet) : Text :=
  "Usage of " ++ s.command ++ ":\n"
    ++ (s.flags.mergeSort fun a b => precedes a.name b.name).flatMap FlagSpec.usageLine

def find? (s : FlagSet) (name : Text) : Option FlagSpec := s.flags.find? fun f => f.name == name

/-- The name and the value, if it holds one, of an argument that is a flag. -/
def split (written : Text) : Except FlagProblem (Text × Option Text) :=
  let body := (dropStart? "--" written).getD (written.drop 1)
  match body with
  | [] => .error (.badSyntax written)
  | first :: rest =>
      if first == ascii '-' || first == ascii '=' then .error (.badSyntax written)
      else
        match cut (ascii '=') rest with
        | some (name, value) => .ok (first :: name, some value)
        | none => .ok (body, none)

/-- Reads flags up to the first argument that is none, or past two dashes alone. -/
def parse (s : FlagSet) : List Text → Except FlagProblem Parsed
  | [] => .ok ⟨[], []⟩
  | written :: rest =>
      if written.length < 2 || written.head? != some (ascii '-') then .ok ⟨[], written :: rest⟩
      else if written == ofString "--" then .ok ⟨[], rest⟩
      else
        match split written with
        | .error problem => .error problem
        | .ok (name, inline) =>
            match s.find? name with
            | none =>
                .error (if name == ofString "help" || name == ofString "h" then .help
                  else .undefined name)
            | some flag =>
                let add (value : Text) (p : Parsed) : Parsed :=
                  { p with values := (name, value) :: p.values }
                match flag.kind, inline, rest with
                | .switch, none, rest => (s.parse rest).map (add "true")
                | _, some value, rest =>
                    (flag.check value).bind fun _ => (s.parse rest).map (add value)
                | _, none, value :: rest =>
                    (flag.check value).bind fun _ => (s.parse rest).map (add value)
                | _, none, [] => .error (.noArgument name)

end FlagSet

namespace Parsed

def value? (p : Parsed) (name : String) : Option Text :=
  (p.values.reverse.find? fun entry => entry.1 == ofString name).map Prod.snd

def text (p : Parsed) (name : String) : Text := (p.value? name).getD []

def switch (p : Parsed) (name : String) : Bool := ((p.value? name).bind readSwitch).getD false

def assignments (p : Parsed) (name : String) : List (Text × Text) :=
  p.values.filterMap fun entry =>
    if entry.1 == ofString name then cut (ascii '=') entry.2 else none

end Parsed
end DeviceScript

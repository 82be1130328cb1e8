import DeviceScript.Pattern.Reader
import DeviceScript.Script.Value
import DeviceScript.Text.Quoted

/-!
What can go wrong. A fault is a reason, possibly in the context of what was being done, or a
report that places it in a script; the wording of every reason stands in one function.
-/

namespace DeviceScript

open Text

inductive FaultKind where
  | syntaxError
  | unknownOperation
  | expression
  | handler
  | abort
  | missingVariable
  | other (name : Text)
deriving Repr, DecidableEq

namespace FaultKind

def name : FaultKind → Text
  | syntaxError => "SyntaxError"
  | unknownOperation => "UnknownOperationError"
  | expression => "ExpressionEvaluationError"
  | handler => "HandlerError"
  | abort => "AbortError"
  | missingVariable => "MissingVariableWarning"
  | other name => name

def ofName (n : Text) : FaultKind :=
  ([syntaxError, unknownOperation, expression, handler, abort, missingVariable].find?
    fun kind => kind.name == n).getD (other n)

end FaultKind

structure Frame where
  file : Text
  line : Int
  pc : Int
deriving Repr, DecidableEq

def pcText (pc : Int) : Text := if 0 ≤ pc then " (pc " ++ ofInt pc ++ ")" else []

def Frame.message (f : Frame) : Text :=
  "\n  included from " ++ f.file ++ ":" ++ ofInt f.line ++ pcText f.pc

/-- A fault placed in a script. The instruction is -1 for what is found while compiling. -/
structure Report where
  kind : FaultKind
  text : Text
  file : Text
  line : Int
  pc : Int
  source : Text
  frames : List Frame
deriving Repr, DecidableEq

namespace Report

def atLine (kind : FaultKind) (text file : Text) (line : Int) : Report :=
  ⟨kind, text, file, line, -1, [], []⟩

def atInstruction (kind : FaultKind) (text file : Text) (line pc : Int) : Report :=
  ⟨kind, text, file, line, pc, [], []⟩

def addFrame (r : Report) (f : Frame) : Report := { r with frames := r.frames ++ [f] }

def message (r : Report) : Text :=
  let quotation : Text :=
    if r.source.isEmpty then [] else "\n\n  " ++ ofInt r.line ++ " | " ++ r.source
  let place : Text :=
    if !r.file.isEmpty || r.line > 0 then
      "\n  at " ++ r.file ++ ":" ++ ofInt r.line ++ pcText r.pc ++ quotation
    else []
  let trail : Text :=
    if r.frames.isEmpty then [] else "\n\nInclude Stack:" ++ r.frames.flatMap Frame.message
  r.kind.name ++ ": " ++ r.text ++ place ++ trail

end Report

inductive Reason where
  /-- In words that a script, a device or a recorder chose. -/
  | said (text : Text)
  /-- The session is lost; the script cannot go on. -/
  | deviceFailure (detail : Text)
  | canceled
  | noSession (op : Text)
  | stackUnderflow
  | stackEmpty
  | noJumpTarget
  | jumpTargetNotLine (given : Value)
  | noLoopStart (op : Text)
  | loopStartNotLine (op : Text) (given : Value)
  | jumpNotFound (line : Int)
  | noLoader (path : Text)
  | nestedTooDeep (path : Text) (limit : Nat)
  | malformedCondition (text : Text)
  | unknownConjunction (word : Text)
  | unknownOperator (word : Text)
  | notNumeric (op left right : Text)
  | invalidPattern (pattern : Text) (refusal : Pattern.Refusal)
  | captureRefused (refusal : Pattern.Refusal)
  | tooManyParams (op : Text) (most given : Nat)
  | missingParam (op label : Text)
  | textNotInt (op label : Text) (given : Text)
  | valueNotInt (op label : Text) (given : Value)
  | variableNotInt (name value : Text)
deriving Repr, DecidableEq

def Reason.message : Reason → Text
  | said text => text
  | deviceFailure detail => "device session failure: " ++ detail
  | canceled => "context canceled"
  | noSession op => op ++ ": no device session"
  | stackUnderflow => "control-flow stack underflow"
  | stackEmpty => "control-flow stack is empty"
  | noJumpTarget => "missing jump target"
  | jumpTargetNotLine given => "jump target " ++ given.describe ++ " is not a line"
  | noLoopStart op => op ++ ": missing loop start"
  | loopStartNotLine op given => op ++ ": loop start " ++ given.describe ++ " is not a line"
  | jumpNotFound line => "jump target line " ++ ofInt line ++ " not found"
  | noLoader path => "include " ++ path ++ ": no loader configured"
  | nestedTooDeep path limit => "include " ++ path ++ ": nesting deeper than " ++ ofNat limit
  | malformedCondition text => "malformed condition " ++ text
  | unknownConjunction word => "unknown conjunction '" ++ word ++ "'"
  | unknownOperator word => "unknown operator '" ++ word ++ "'"
  | notNumeric op left right =>
      "'" ++ op ++ "' needs numeric operands, got " ++ quote left ++ " and " ++ quote right
  | invalidPattern pattern refusal =>
      "invalid pattern " ++ quote pattern ++ ": " ++ refusal.message
  | captureRefused refusal => "capture: " ++ refusal.message
  | tooManyParams op most given =>
      op ++ ": takes " ++ ofNat most ++ " parameters, got " ++ ofNat given
  | missingParam op label => op ++ ": missing required parameter '" ++ label ++ "'"
  | textNotInt op label given =>
      op ++ ": parameter '" ++ label ++ "': " ++ quote given ++ " is not an int"
  | valueNotInt op label given =>
      op ++ ": parameter '" ++ label ++ "': " ++ given.describe ++ " is not an int"
  | variableNotInt name value =>
      "variable " ++ name ++ " holds " ++ quote value ++ ", not an int"

inductive Fault where
  | plain (reason : Reason)
  | wrapped (context : Text) (inner : Fault)
  | located (report : Report) (cause : Option Fault)
deriving Repr

namespace Fault

def said (text : Text) : Fault := plain (.said text)

def message : Fault → Text
  | plain reason => reason.message
  | wrapped context inner => context ++ ": " ++ inner.message
  | located report _ => report.message

/-- The report of a fault, through whatever context it stands in. -/
def report? : Fault → Option Report
  | plain _ => none
  | wrapped _ inner => inner.report?
  | located report _ => some report

/-- The cause that the report of a fault records. -/
def cause? : Fault → Option Fault
  | plain _ => none
  | wrapped _ inner => inner.cause?
  | located _ cause => cause

def isKind (kind : FaultKind) (f : Fault) : Bool := f.report?.any fun r => r.kind == kind

/-- The session is lost. -/
def isFatal : Fault → Bool
  | plain (.deviceFailure _) => true
  | plain _ => false
  | wrapped _ inner => inner.isFatal
  | located _ (some cause) => cause.isFatal
  | located _ none => false

def syntaxError (text file : Text) (line : Int) : Fault :=
  located (Report.atLine .syntaxError text file line) none

def unknownOperation (name file : Text) (line : Int) : Fault :=
  located (Report.atLine .unknownOperation ("unknown operation '" ++ name ++ "'") file line) none

end Fault

inductive Breakdown where
  | fault (f : Fault)
  /-- Something was asked of a text or an instruction that it cannot have. -/
  | crash
  /-- The bound on the number of steps was reached. -/
  | outOfFuel
deriving Repr

end DeviceScript

import DeviceScript.Schema.Basic
import DeviceScript.Script.Problem

/-! From the argument tokens of a statement to the parameters of its instruction. -/

namespace DeviceScript

open Text

structure Located where
  problem : SyntaxProblem
  line : Int
deriving Repr, DecidableEq

namespace Statement

def problem (s : Statement) (p : SyntaxProblem) : Except Located α := .error ⟨p, s.head.line⟩

private def dollar : UInt8 := ascii '$'

/-- The value of one argument. A text with a dollar sign waits for its variables, whatever the
type of the parameter. -/
def argumentValue (op : Text) (spec : ParamSpec) (t : Token) : Except Located Value :=
  if spec.type != .int || t.text.contains dollar then .ok (.text t.text)
  else
    match readInt t.text with
    | some n => .ok (.int n)
    | none => .error ⟨.notInt op spec.label t.text, t.line⟩

def positionalFrom (s : Statement) (op : OperationSpec) :
    List ParamSpec → List Token → Except Located (List Value)
  | [], [] => .ok []
  | [], _ :: _ => s.problem (.tooManyParams op.name op.params.length s.args.length)
  | spec :: _, [] => if spec.required then s.problem (.missingParam op.name spec.label) else .ok []
  | spec :: specs, arg :: args =>
      if spec.rest then .ok [.text (joinWith " " ((arg :: args).map Token.text))]
      else
        match argumentValue op.name spec arg with
        | .error located => .error located
        | .ok value =>
            match s.positionalFrom op specs args with
            | .error located => .error located
            | .ok values => .ok (value :: values)

def positional (s : Statement) (op : OperationSpec) : Except Located (List Value) :=
  s.positionalFrom op op.params s.args

/-- Values given so far, by position. -/
abbrev Given := List (Int × Value)

def Given.value? (g : Given) (position : Int) : Option Value :=
  (g.find? fun entry => entry.1 == position).map Prod.snd

def optionsFrom (s : Statement) (op : OperationSpec) (given : Given) :
    List Token → Except Located Given
  | [] => .ok given
  | flag :: rest =>
      match flag.text with
      | [] => s.problem (.notAFlag op.name flag.text)
      | mark :: label =>
          if flag.kind != .word || mark != ascii '-' then s.problem (.notAFlag op.name flag.text)
          else
            match op.param? label with
            | none => s.problem (.unknownFlag op.name flag.text)
            | some spec =>
                if (given.value? spec.position).isSome then s.problem (.repeatedFlag op.name flag.text)
                else
                  match rest with
                  | [] => s.problem (.flagWithoutValue op.name flag.text)
                  | arg :: args =>
                      match argumentValue op.name spec arg with
                      | .error located => .error located
                      | .ok value => s.optionsFrom op ((spec.position, value) :: given) args

/-- The values in the order of the slots, the ones not given absent, up to the last given. -/
def slotValues (given : Given) : Nat → List ParamSpec → List Value
  | _, [] => []
  | slot, _ :: specs =>
      match given.value? slot, slotValues given (slot + 1) specs with
      | none, [] => []
      | found, values => found.getD .absent :: values

/-- The first required parameter whose slot is not given. -/
def missingRequired? (given : Given) : Nat → List ParamSpec → Option ParamSpec
  | _, [] => none
  | slot, spec :: specs =>
      if spec.required && (given.value? slot).isNone then some spec
      else missingRequired? given (slot + 1) specs

def options (s : Statement) (op : OperationSpec) : Except Located (List Value) :=
  match s.optionsFrom op [] s.args with
  | .error located => .error located
  | .ok given =>
      match missingRequired? given 0 op.params with
      | some spec => s.problem (.missingOption op.name spec.label)
      | none => .ok (slotValues given 0 op.params)

def isOperand (t : Token) : Bool :=
  match t.kind with
  | .variableRef | .word | .number | .quoted => true
  | _ => false

def isConjunction (t : Text) : Bool := t == ofString "and" || t == ofString "or"

/-- Comparisons joined by conjunctions, as the texts of their words. -/
def conditionFrom (s : Statement) : List Token → Except Located (List Value)
  | left :: op :: right :: rest =>
      if !isOperand left || !isOperand right then s.problem (.badOperand s.head.text)
      else if op.kind != .comparison || isConjunction op.text then
        s.problem (.notComparison s.head.text op.text)
      else
        let triple : List Value := [.text left.text, .text op.text, .text right.text]
        match rest with
        | [] => .ok triple
        | joint :: rest =>
            if joint.kind != .comparison || !isConjunction joint.text then
              s.problem (.notConjunction s.head.text joint.text)
            else
              match s.conditionFrom rest with
              | .error located => .error located
              | .ok values => .ok (triple ++ .text joint.text :: values)
  | _ => s.problem (.conditionShape s.head.text)

def condition (s : Statement) (optional : Bool) : Except Located (List Value) :=
  match s.args with
  | [] => if optional then .ok [] else s.problem (.conditionRequired s.head.text)
  | args => s.conditionFrom args

end Statement
end DeviceScript

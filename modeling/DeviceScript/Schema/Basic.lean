import DeviceScript.Fault
import DeviceScript.Script.Instruction
import DeviceScript.Token.Line

/-!
The schema of a script language: its operations with their parameters, and its control-flow
keywords with the shape of their blocks.
-/

namespace DeviceScript

open Text

inductive Mode where
  | positional
  | options
  | other (name : Text)
deriving Repr, DecidableEq

namespace Mode

def name : Mode → Text
  | positional => "positional"
  | options => "options"
  | other name => name

def ofName (n : Text) : Mode :=
  if n == ofString "positional" then positional
  else if n == ofString "options" then options
  else other n

end Mode

inductive ParamType where
  | text
  | int
  | other (name : Text)
deriving Repr, DecidableEq

namespace ParamType

def name : ParamType → Text
  | text => "string"
  | int => "int"
  | other name => name

def ofName (n : Text) : ParamType :=
  if n == ofString "string" then text
  else if n == ofString "int" then int
  else other n

end ParamType

/-- One parameter of an operation. A `rest` parameter takes all remaining words. -/
structure ParamSpec where
  label : Text
  position : Int
  required : Bool
  fallback : Value
  type : ParamType
  rest : Bool
deriving Repr, DecidableEq

structure OperationSpec where
  name : Text
  mode : Mode
  params : List ParamSpec
deriving Repr, DecidableEq

namespace OperationSpec

def param? (o : OperationSpec) (label : Text) : Option ParamSpec :=
  o.params.find? fun p => p.label == label

/-- The spec of an operation that no schema describes: one optional text of all its words. -/
def anyWords (name : Text) : OperationSpec :=
  ⟨name, .positional, [⟨"args", 0, false, .absent, .text, true⟩]⟩

/-- One parameter as a listing shows it: options with a dash, optional ones in brackets. -/
def describeParam (o : OperationSpec) (p : ParamSpec) : Text :=
  let name : Text := if o.mode = .options then ascii '-' :: p.label else p.label
  let typed := if p.type = .int then name ++ ":int" else name
  let rest := if p.rest then typed ++ "..." else typed
  let full := if p.fallback = .absent then rest else rest ++ "=" ++ p.fallback.render
  if p.required then full else "[" ++ full ++ "]"

def describe (o : OperationSpec) : Text := joinWith " " (o.params.map o.describeParam)

end OperationSpec

inductive KeywordKind where
  | ifBlock
  | elseIf
  | elseBranch
  | fi
  | loop
  | endWhile
  | untilMet
deriving Repr, DecidableEq

namespace KeywordKind

def all : List KeywordKind := [ifBlock, elseIf, elseBranch, fi, loop, endWhile, untilMet]

def name : KeywordKind → Text
  | ifBlock => "if"
  | elseIf => "elseif"
  | elseBranch => "else"
  | fi => "fi"
  | loop => "loop"
  | endWhile => "endwhile"
  | untilMet => "until"

def ofName? (n : Text) : Option KeywordKind := all.find? fun kind => kind.name == n

def opcode : KeywordKind → Opcode
  | ifBlock => .ifNotGoto
  | elseIf => .elseIf
  | elseBranch => .elseBranch
  | fi => .fi
  | loop => .loop
  | endWhile => .endWhile
  | untilMet => .untilMet

end KeywordKind

inductive FlowElem where
  | expression (optional : Bool)
  | body
  | terminators (names : List Text)
deriving Repr, DecidableEq

namespace FlowElem

def isExpression : FlowElem → Bool
  | expression _ => true
  | _ => false

def isTerminatorSet : FlowElem → Bool
  | terminators _ => true
  | _ => false

def terminatorNames : FlowElem → List Text
  | terminators names => names
  | _ => []

end FlowElem

/-- A control-flow keyword. `backLink` makes it jump back to the loop it closes, and `opener`
lets it begin a block. -/
structure KeywordSpec where
  name : Text
  kind : KeywordKind
  flow : List FlowElem
  backLink : Bool
  opener : Bool
deriving Repr, DecidableEq

/-- Operations and keywords, each name once. -/
structure Schema where
  operations : List OperationSpec
  keywords : List KeywordSpec
deriving Repr, DecidableEq

inductive Rule where
  | positional (spec : OperationSpec)
  | options (spec : OperationSpec)
  | control (spec : KeywordSpec)
deriving Repr, DecidableEq

namespace Schema

def empty : Schema := ⟨[], []⟩

def operation? (s : Schema) (name : Text) : Option OperationSpec :=
  s.operations.find? fun op => op.name == name

def keyword? (s : Schema) (name : Text) : Option KeywordSpec :=
  s.keywords.find? fun kw => kw.name == name

/-- Longer names come first, names of one length in their own order. -/
def longerFirst (a b : Text) : Bool :=
  if a.length == b.length then precedes a b else b.length < a.length

def operationNames (s : Schema) : List Text :=
  (s.operations.map OperationSpec.name).mergeSort longerFirst

def keywordNames (s : Schema) : List Text :=
  (s.keywords.map KeywordSpec.name).mergeSort longerFirst

def vocabulary (s : Schema) : Vocabulary := ⟨s.operationNames, s.keywordNames⟩

def resolve (s : Schema) (t : Token) (file : Text) : Except Fault Rule :=
  match t.kind with
  | .keyword =>
      match s.keyword? t.text with
      | some kw => .ok (.control kw)
      | none => .error (Fault.unknownOperation t.text file t.line)
  | .operation =>
      match s.operation? t.text with
      | some op => .ok (if op.mode = .options then .options op else .positional op)
      | none => .error (Fault.unknownOperation t.text file t.line)
  | kind =>
      .error (Fault.syntaxError ("unexpected " ++ kind.name ++ " token '" ++ t.text ++ "'") file t.line)

def addOperation (s : Schema) (spec : OperationSpec) : Schema :=
  if (s.operation? spec.name).isSome then s else { s with operations := s.operations ++ [spec] }

def knowsAll (s : Schema) (specs : List OperationSpec) : Bool :=
  specs.all fun spec => (s.operation? spec.name).isSome

/-- Adds operations; a name that is taken keeps its spec, and so does the first of two. A schema
that knows them all is left as it is. -/
def merge (s : Schema) (specs : List OperationSpec) : Schema :=
  if s.knowsAll specs then s else specs.foldl addOperation s

/-- Adds the spec of any words for every name that is not known. -/
def refresh (s : Schema) (names : List Text) : Schema := s.merge (names.map OperationSpec.anyWords)

end Schema

/-- A schema that compilers share and that is extended at most once. -/
structure SharedSchema where
  schema : Schema
  refreshed : Bool
deriving Repr, DecidableEq

namespace SharedSchema

def new (s : Schema) : SharedSchema := ⟨s, false⟩

/-- Merges the specs the first time, and does nothing later. -/
def refreshOnce (m : SharedSchema) (specs : List OperationSpec) : SharedSchema :=
  if m.refreshed then m else ⟨m.schema.merge specs, true⟩

end SharedSchema
end DeviceScript

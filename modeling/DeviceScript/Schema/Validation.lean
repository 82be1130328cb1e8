import DeviceScript.Schema.Basic
import DeviceScript.Schema.Document

/-! From schema documents to schemas, and what makes a document invalid. -/

namespace DeviceScript

open Text

inductive SchemaFault where
  | undecodable
  | operationName (name : Text)
  | unknownMode (op mode : Text)
  | invalidAlias (op : Text) (index : Nat) (label : Text)
  | repeatedAlias (op label : Text)
  | unknownType (op label type : Text)
  | textDefault (op label given : Text)
  | otherDefault (op label given : Text)
  | requiredDefault (op label : Text)
  | positionGap (op : Text) (position : Int) (slot : Nat)
  | restMode (op label : Text)
  | restNotLast (op label : Text)
  | unknownKind (keyword kind : Text)
  | unknownFlow (keyword element : Text)
  | terminatorNotName (keyword : Text)
  | noTerminators (keyword : Text)
  | terminatorsNotLast (keyword : Text)
  | invalidFlow (keyword element : Text)
  | expressionNotFirst (keyword : Text)
  | backLinkKind (keyword : Text)
  | terminatorUnknown (keyword terminator : Text)
  | loopTerminator (keyword terminator : Text)
  | cannotOpen (keyword : Text) (kind : KeywordKind)
  | openerUnterminated (keyword : Text)
  | clash (name : Text)
deriving Repr, DecidableEq

def SchemaFault.message : SchemaFault → Text
  | undecodable => "decode schema"
  | operationName name => "operation name '" ++ name ++ "' is not an identifier"
  | unknownMode op mode => "operation " ++ op ++ ": unknown mode '" ++ mode ++ "'"
  | invalidAlias op index label =>
      "operation " ++ op ++ ": param " ++ ofNat index ++ " has invalid alias '" ++ label ++ "'"
  | repeatedAlias op label => "operation " ++ op ++ ": duplicate alias '" ++ label ++ "'"
  | unknownType op label type =>
      "operation " ++ op ++ ": param " ++ label ++ " has unknown type '" ++ type ++ "'"
  | textDefault op label given =>
      "operation " ++ op ++ ": param " ++ label ++ ": default " ++ quote given ++ " is not an int"
  | otherDefault op label given =>
      "operation " ++ op ++ ": param " ++ label ++ ": default " ++ given ++ " is not an int"
  | requiredDefault op label =>
      "operation " ++ op ++ ": required param " ++ label ++ " cannot have a default"
  | positionGap op position slot =>
      "operation " ++ op ++ ": positions must be contiguous from 0, got " ++ ofInt position
        ++ " at slot " ++ ofNat slot
  | restMode op label => "operation " ++ op ++ ": rest param " ++ label ++ " requires positional mode"
  | restNotLast op label => "operation " ++ op ++ ": rest param " ++ label ++ " must be last"
  | unknownKind keyword kind => "keyword " ++ keyword ++ ": unknown kind '" ++ kind ++ "'"
  | unknownFlow keyword element =>
      "keyword " ++ keyword ++ ": unknown flow element '" ++ element ++ "'"
  | terminatorNotName keyword => "keyword " ++ keyword ++ ": terminator set must list names"
  | noTerminators keyword => "keyword " ++ keyword ++ ": empty terminator set"
  | terminatorsNotLast keyword => "keyword " ++ keyword ++ ": terminator set must end the flow"
  | invalidFlow keyword element => "keyword " ++ keyword ++ ": invalid flow element " ++ element
  | expressionNotFirst keyword => "keyword " ++ keyword ++ ": expression must open the flow"
  | backLinkKind keyword => "keyword " ++ keyword ++ ": only loop terminators may link backwards"
  | terminatorUnknown keyword terminator =>
      "keyword " ++ keyword ++ ": terminator '" ++ terminator ++ "' is not a keyword"
  | loopTerminator keyword terminator =>
      "keyword " ++ keyword ++ ": loop terminator '" ++ terminator ++ "' must link backwards"
  | cannotOpen keyword kind => "keyword " ++ keyword ++ ": " ++ kind.name ++ " cannot open a block"
  | openerUnterminated keyword =>
      "keyword " ++ keyword ++ ": block opener needs a terminator set"
  | clash name => "'" ++ name ++ "' is both an operation and a keyword"

namespace Schema

def checkFallback (op label : Text) (type : ParamType) : Datum → Except SchemaFault Value
  | .null => .ok .absent
  | given =>
      match type with
      | .int =>
          match given with
          | .int n => if n ≤ maxInt then .ok (.int n) else .error (.otherDefault op label given.render)
          | .text t =>
              match readInt t with
              | some n => .ok (.int n)
              | none => .error (.textDefault op label t)
          | _ => .error (.otherDefault op label given.render)
      | _ => .ok (.text given.render)

/-- One parameter, the `index`-th of its list; `seen` are the aliases before it. -/
def checkParam (op : Text) (seen : List Text) (index : Nat) (doc : ParamDoc) :
    Except SchemaFault ParamSpec :=
  if !isName doc.label then .error (.invalidAlias op index doc.label)
  else if seen.contains doc.label then .error (.repeatedAlias op doc.label)
  else
    match (if doc.type.isEmpty then ParamType.text else ParamType.ofName doc.type) with
    | .other name => .error (.unknownType op doc.label name)
    | type =>
        match checkFallback op doc.label type doc.fallback with
        | .error fault => .error fault
        | .ok fallback =>
            if doc.required && fallback != .absent then .error (.requiredDefault op doc.label)
            else .ok ⟨doc.label, doc.position.getD index, doc.required, fallback, type, doc.rest⟩

def checkParams (op : Text) : List Text → Nat → List ParamDoc → Except SchemaFault (List ParamSpec)
  | _, _, [] => .ok []
  | seen, index, doc :: rest =>
      match checkParam op seen index doc with
      | .error fault => .error fault
      | .ok first =>
          match checkParams op (doc.label :: seen) (index + 1) rest with
          | .error fault => .error fault
          | .ok others => .ok (first :: others)

/-- Parameters stand at the positions 0, 1, … and only the last of a positional operation may
take the rest. -/
def checkSlots (op : Text) (mode : Mode) : Nat → List ParamSpec → Except SchemaFault Unit
  | _, [] => .ok ()
  | slot, p :: rest =>
      if p.position != slot then .error (.positionGap op p.position slot)
      else if p.rest && mode != .positional then .error (.restMode op p.label)
      else if p.rest && !rest.isEmpty then .error (.restNotLast op p.label)
      else checkSlots op mode (slot + 1) rest

def byPosition (ps : List ParamSpec) : List ParamSpec :=
  ps.mergeSort fun a b => a.position ≤ b.position

def checkOperation (name : Text) (doc : OperationDoc) : Except SchemaFault OperationSpec :=
  if !isName name then .error (.operationName name)
  else
    match (if doc.mode.isEmpty then Mode.positional else Mode.ofName doc.mode) with
    | .other mode => .error (.unknownMode name mode)
    | mode =>
        match checkParams name [] 0 doc.params with
        | .error fault => .error fault
        | .ok params =>
            match checkSlots name mode 0 (byPosition params) with
            | .error fault => .error fault
            | .ok () => .ok ⟨name, mode, byPosition params⟩

def checkTerminators (keyword : Text) : List Datum → Except SchemaFault (List Text)
  | [] => .ok []
  | .text t :: rest =>
      match checkTerminators keyword rest with
      | .error fault => .error fault
      | .ok names => .ok (t :: names)
  | _ :: _ => .error (.terminatorNotName keyword)

/-- The element of a flow at `index`, the last one if `last`. -/
def checkFlowElem (keyword : Text) (index : Nat) (last : Bool) (given : Datum) :
    Except SchemaFault FlowElem :=
  let checked : Except SchemaFault FlowElem :=
    match given with
    | .text t =>
        if t == ofString "expression" then .ok (.expression false)
        else if t == ofString "expression?" then .ok (.expression true)
        else if t == ofString "body" then .ok .body
        else .error (.unknownFlow keyword t)
    | .list items =>
        match checkTerminators keyword items with
        | .error fault => .error fault
        | .ok names =>
            if names.isEmpty then .error (.noTerminators keyword)
            else if !last then .error (.terminatorsNotLast keyword)
            else .ok (.terminators names)
    | other => .error (.invalidFlow keyword other.render)
  match checked with
  | .error fault => .error fault
  | .ok element =>
      if element.isExpression && index != 0 then .error (.expressionNotFirst keyword)
      else .ok element

def checkFlow (keyword : Text) : Nat → List Datum → Except SchemaFault (List FlowElem)
  | _, [] => .ok []
  | index, given :: rest =>
      match checkFlowElem keyword index rest.isEmpty given with
      | .error fault => .error fault
      | .ok first =>
          match checkFlow keyword (index + 1) rest with
          | .error fault => .error fault
          | .ok others => .ok (first :: others)

def checkKeyword (name : Text) (doc : KeywordDoc) : Except SchemaFault KeywordSpec :=
  match KeywordKind.ofName? doc.kind with
  | none => .error (.unknownKind name doc.kind)
  | some kind =>
      match checkFlow name 0 doc.flow with
      | .error fault => .error fault
      | .ok flow =>
          if doc.backLink && kind != .endWhile && kind != .untilMet then .error (.backLinkKind name)
          else .ok ⟨name, kind, flow, doc.backLink, false⟩

def checkAll (check : Text → α → Except SchemaFault β) : List (Text × α) → Except SchemaFault (List β)
  | [] => .ok []
  | (name, doc) :: rest =>
      match check name doc with
      | .error fault => .error fault
      | .ok first =>
          match checkAll check rest with
          | .error fault => .error fault
          | .ok others => .ok (first :: others)

def terminatorsOf (kw : KeywordSpec) : List Text := kw.flow.flatMap FlowElem.terminatorNames

/-- A terminator is a keyword, and one of a loop links backwards. -/
def terminatorFault? (keywords : List KeywordSpec) (kw : KeywordSpec) (name : Text) :
    Option SchemaFault :=
  match keywords.find? fun k => k.name == name with
  | none => some (.terminatorUnknown kw.name name)
  | some terminator =>
      if kw.kind = .loop && !terminator.backLink then some (.loopTerminator kw.name name) else none

/-- A keyword that closes no block opens one, so it is an if or a loop and names its terminators. -/
def openerFault? (kw : KeywordSpec) : Option SchemaFault :=
  if !kw.opener then none
  else if kw.kind != .ifBlock && kw.kind != .loop then some (.cannotOpen kw.name kw.kind)
  else if kw.flow.getLast?.any FlowElem.isTerminatorSet then none
  else some (.openerUnterminated kw.name)

def markOpeners (keywords : List KeywordSpec) : List KeywordSpec :=
  let closing := keywords.flatMap terminatorsOf
  keywords.map fun kw => { kw with opener := !closing.contains kw.name }

def keywordsFault? (keywords : List KeywordSpec) : Option SchemaFault :=
  (keywords.findSome? fun kw => (terminatorsOf kw).findSome? (terminatorFault? keywords kw)).or
    ((markOpeners keywords).findSome? openerFault?)

def ofDoc (doc : SchemaDoc) : Except SchemaFault Schema :=
  match checkAll checkOperation doc.operations with
  | .error fault => .error fault
  | .ok operations =>
      match checkAll checkKeyword doc.keywords with
      | .error fault => .error fault
      | .ok keywords =>
          match keywordsFault? keywords with
          | some fault => .error fault
          | none =>
              match operations.find? fun op => keywords.any fun kw => kw.name == op.name with
              | some op => .error (.clash op.name)
              | none => .ok ⟨operations, markOpeners keywords⟩

def load (source : Text) : Except SchemaFault Schema :=
  match SchemaDoc.read source with
  | none => .error .undecodable
  | some doc => ofDoc doc

end Schema
end DeviceScript

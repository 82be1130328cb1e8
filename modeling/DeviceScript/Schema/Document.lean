import DeviceScript.Yaml.Reader

/-!
Schema documents: the fields a schema file may have, before their meaning is checked.
-/

namespace DeviceScript

open Text Yaml

structure ParamDoc where
  label : Text
  position : Option Int
  required : Bool
  fallback : Datum
  type : Text
  rest : Bool
deriving Repr

structure OperationDoc where
  mode : Text
  params : List ParamDoc
deriving Repr

structure KeywordDoc where
  kind : Text
  flow : List Datum
  backLink : Bool
deriving Repr

structure SchemaDoc where
  operations : List (Text × OperationDoc)
  keywords : List (Text × KeywordDoc)
deriving Repr

namespace SchemaDoc

def isNull : Node → Bool
  | .scalar tag quoted value =>
      match resolveScalar tag quoted value with
      | some .null => true
      | _ => false
  | _ => false

def decodeText : Node → Option Text
  | .scalar tag quoted value =>
      (resolveScalar tag quoted value).map fun
        | .null => []
        | _ => value
  | _ => none

private def oneOf (ws : List String) (t : Text) : Bool := ws.any fun w => ofString w == t

private def decodeBool : Node → Option Bool
  | .scalar tag quoted value =>
      match resolveScalar tag quoted value with
      | some .null => some false
      | some (.bool b) => some b
      | some (.text t) =>
          if oneOf ["y", "Y", "yes", "Yes", "YES", "on", "On", "ON"] t then some true
          else if oneOf ["n", "N", "no", "No", "NO", "off", "Off", "OFF"] t then some false
          else none
      | _ => none
  | _ => none

/-- A whole number; a fraction loses what stands after its point. -/
private def decodeInt : Node → Option (Option Int)
  | .scalar tag quoted value =>
      match resolveScalar tag quoted value with
      | some .null => some none
      | some (.int n) => if n ≤ maxInt then some (some n) else none
      | some (.float f) =>
          f.units?.bind fun units =>
            let whole := units.tdiv (Nat.pow 2 Binary64.unitExponent)
            if minInt ≤ whole && whole ≤ maxInt then some (some whole) else none
      | _ => none
  | _ => none

private def decodeList (item : Node → Option α) : Node → Option (List α)
  | .sequence _ items => items.mapM item
  | node => if isNull node then some [] else none

def isMerge : Node → Bool
  | .scalar tag quoted value =>
      !quoted && value == ofString "<<" && (tag.isEmpty || tag == ofString "!!merge")
  | _ => false

def mergedEntries : Node → Option (List (Node × Node))
  | .mapping _ entries => some entries
  | .sequence _ items =>
      items.foldlM (fun found item =>
        match item with
        | .mapping _ entries => some (found ++ entries)
        | _ => none) []
  | _ => none

def addMissing (entries : List (Node × Node)) (more : List (Node × Node)) :
    List (Node × Node) :=
  more.foldl (fun found entry =>
    if found.any fun e => e.1.keyText == entry.1.keyText then found else found ++ [entry]) entries

/-- The entries of a mapping with those it merges in; a null has none. -/
def entriesOf : Node → Option (List (Node × Node))
  | .mapping _ entries =>
      if hasRepeatedKey (entries.map fun entry => entry.1.keyText) then none
      else
        let own := entries.filter fun entry => !isMerge entry.1
        match entries.find? fun entry => isMerge entry.1 with
        | none => some own
        | some (_, source) => (mergedEntries source).map (addMissing own)
  | node => if isNull node then some [] else none

/-- Reads a mapping with a fixed set of fields into a record. -/
def decodeFields (start : α) (field : Text → Node → α → Option α) (node : Node) : Option α := do
  let entries ← entriesOf node
  entries.foldlM (fun record (key, value) => do
    let name ← decodeText key
    if isNull key then return record
    field name value record) start

def decodeNamed (item : Node → Option α) (node : Node) : Option (List (Text × α)) := do
  let entries ← entriesOf node
  let named := entries.filter fun entry => !isNull entry.1
  named.mapM fun (key, value) => do
    let name ← decodeText key
    let decoded ← item value
    return (name, decoded)

private def is (name : Text) (field : String) : Bool := name == ofString field

private def decodeParam : Node → Option ParamDoc :=
  decodeFields ⟨[], none, false, .null, [], false⟩ fun name value p =>
    if is name "alias" then (decodeText value).map fun t => { p with label := t }
    else if is name "position" then (decodeInt value).map fun n => { p with position := n }
    else if is name "required" then (decodeBool value).map fun b => { p with required := b }
    else if is name "default" then value.toDatum.map fun d => { p with fallback := d }
    else if is name "type" then (decodeText value).map fun t => { p with type := t }
    else if is name "rest" then (decodeBool value).map fun b => { p with rest := b }
    else none

def decodeOperation : Node → Option OperationDoc :=
  decodeFields ⟨[], []⟩ fun name value o =>
    if is name "mode" then (decodeText value).map fun t => { o with mode := t }
    else if is name "params" then (decodeList decodeParam value).map fun ps => { o with params := ps }
    else none

def decodeKeyword : Node → Option KeywordDoc :=
  decodeFields ⟨[], [], false⟩ fun name value k =>
    if is name "kind" then (decodeText value).map fun t => { k with kind := t }
    else if is name "flow" then (decodeList Node.toDatum value).map fun ds => { k with flow := ds }
    else if is name "backlink" then (decodeBool value).map fun b => { k with backLink := b }
    else none

def ofNode : Node → Option SchemaDoc :=
  decodeFields ⟨[], []⟩ fun name value d =>
    if is name "operations" then
      (decodeNamed decodeOperation value).map fun ops => { d with operations := ops }
    else if is name "keywords" then
      (decodeNamed decodeKeyword value).map fun kws => { d with keywords := kws }
    else none

/-- Reads a schema document; nothing if it is malformed or has a field of no meaning. -/
def read (source : Text) : Option SchemaDoc := (Yaml.read source).bind ofNode

end SchemaDoc
end DeviceScript

import DeviceScript.Data.Datum

/-!
A document while it is being read. Tables come into being when they are named, or on the way to
something below them; the latter are implicit and may be named once more.
-/

namespace DeviceScript.Toml

inductive Node where
  | leaf (value : Datum)
  | table (entries : List (Text × Node))
  /-- A table that may be given several times; the last one is being filled. -/
  | tables (items : List (List (Text × Node)))

abbrev Entries := List (Text × Node)

namespace Node

mutual

def toDatum : Node → Datum
  | leaf value => value
  | table entries => .table (toDatumEntries entries)
  | tables items => .list (toDatumItems items)

def toDatumEntries : List (Text × Node) → List (Datum × Datum)
  | [] => []
  | (key, node) :: rest => (.text key, node.toDatum) :: toDatumEntries rest

def toDatumItems : List (List (Text × Node)) → List Datum
  | [] => []
  | entries :: rest => .table (toDatumEntries entries) :: toDatumItems rest

end

end Node

namespace Entries

def get? (es : Entries) (key : Text) : Option Node :=
  (es.find? fun entry => entry.1 == key).map Prod.snd

def set (es : Entries) (key : Text) (node : Node) : Entries :=
  if (es.get? key).isSome then es.map fun entry => if entry.1 == key then (key, node) else entry
  else es ++ [(key, node)]

/-- Changes the entries at the end of a path; all tables on the way exist. -/
def modifyAt (change : Entries → Option Entries) : List Text → Entries → Option Entries
  | [], es => change es
  | key :: path, es =>
      match es.get? key with
      | some (.table inner) => (modifyAt change path inner).map fun inner => es.set key (.table inner)
      | some (.tables items) =>
          items.getLast?.bind fun last =>
            (modifyAt change path last).map fun last =>
              es.set key (.tables (items.dropLast ++ [last]))
      | _ => none

def find? : List Text → Entries → Option Entries
  | [], es => some es
  | key :: path, es =>
      match es.get? key with
      | some (.table inner) => find? path inner
      | some (.tables items) => items.getLast?.bind fun last => find? path last
      | _ => none

/-- Sets an entry below tables that are made where they are missing. -/
def setBelow (key : Text) (node : Node) : List Text → Entries → Option Entries
  | [], es => some (es.set key node)
  | step :: path, es =>
      match (es.get? step).getD (.table []) with
      | .table inner => (setBelow key node path inner).map fun inner => es.set step (.table inner)
      | _ => none

end Entries

/-- What has been read, the table that keys go to, the tables that nobody has named yet, and the
keys that hold arrays. -/
structure Draft where
  root : Entries
  context : List Text
  implicit : List (List Text)
  arrays : List (List Text)

namespace Draft

def empty : Draft := ⟨[], [], [], []⟩

def markImplicit (d : Draft) (path : List Text) : Draft := { d with implicit := path :: d.implicit }

def isImplicit (d : Draft) (path : List Text) : Bool := d.implicit.contains path

def isArray (d : Draft) (path : List Text) : Bool := d.arrays.contains path

/-- Remembers whether a key of the current table holds an array. The empty key stands for the
table itself, and at the top for its own name. -/
def noteArray (d : Draft) (key : Text) (holds : Bool) : Draft :=
  let path := if key.isEmpty then if d.context.isEmpty then [[]] else d.context else d.context ++ [key]
  let others := d.arrays.filter (· != path)
  { d with arrays := if holds then path :: others else others }

/-- Sets a key of the current table. A key that is taken may be set again only if it came into
being on the way to something else; a table then keeps what it has. -/
def setValue (d : Draft) (key : Text) (node : Node) : Option Draft := do
  let path := d.context ++ [key]
  let here ← Entries.find? d.context d.root
  let replaced := (Entries.modifyAt (fun es => some (Entries.set es key node)) d.context d.root).map
    fun root => { d with root := root }
  if (Entries.get? here key).isSome then
    if d.isImplicit path then
      let d' ← if d.isArray path then replaced else some d
      return { d' with implicit := d.implicit.filter (· != path) }
    else none
  else replaced

/-- Makes the tables on the way to a path where they are missing. -/
def makeParents (d : Draft) (before : List Text) : List Text → Option Draft
  | [] => some d
  | key :: rest => do
      let here ← Entries.find? before d.root
      let path := before ++ [key]
      let d ← match Entries.get? here key with
        | some _ => some d
        | none =>
            (Entries.modifyAt (fun es => some (Entries.set es key (.table []))) before d.root).map
              fun root => { d.markImplicit path with root := root }
      makeParents d path rest

/-- Goes to a table, making it. With `repeated`, it is one more of several. -/
def enter (d : Draft) (path : List Text) (repeated : Bool) : Option Draft := do
  let parents := path.dropLast
  let key ← path.getLast?
  let d ← d.makeParents [] parents
  let here ← Entries.find? parents d.root
  let d := { d with context := parents }
  let d ←
    if repeated then
      let items ← match Entries.get? here key with
        | none => some []
        | some (.tables items) => some items
        | _ => none
      (Entries.modifyAt (fun es => some (Entries.set es key (.tables (items ++ [[]])))) parents d.root).map
        fun root => { d with root := root }
    else d.setValue key (.table [])
  return { d with context := path }

def enterImplicit (d : Draft) (path : List Text) : Option Draft :=
  (d.markImplicit path).enter path false

/-- Goes down a dotted key up to its last part. -/
def descend (d : Draft) : List Text → Option Draft
  | [] => some d
  | key :: rest => (d.enterImplicit (d.context ++ [key])).bind fun d => descend d rest

end Draft
end DeviceScript.Toml

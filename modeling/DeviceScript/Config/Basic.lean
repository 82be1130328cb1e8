import DeviceScript.Files.Tree
import DeviceScript.Library.Placeholder
import DeviceScript.Run.Vars
import DeviceScript.Text.Fold
import DeviceScript.Toml.Reader

/-!
Configurations. Four tables hold settings; every other table is a section of values for the
placeholders of scripts.
-/

namespace DeviceScript

open Text

structure Config where
  strict : Bool
  missing : MissingPolicy
  schema : Text
  includePaths : List Text
  driver : Text
  dsn : Text
  /-- Addresses by device. -/
  devices : List (Text × Text)
  /-- Device commands by the operation that sends them. -/
  operations : List (Text × Text)
  sections : List (Text × List (Text × Text))
deriving Repr, DecidableEq

inductive ConfigProblem where
  /-- The text is no document, or a setting has a value of another kind. -/
  | undecoded
  | unknownPolicy (name : Text)
  | unreadable (path : Text) (problem : PathProblem)
  | inFile (path : Text) (problem : ConfigProblem)
deriving Repr, DecidableEq

def ConfigProblem.message : ConfigProblem → Text
  | undecoded => "decode settings"
  | unknownPolicy name => "settings.missing_variable: unknown policy " ++ quote name
  | unreadable path problem => "read config: " ++ problem.message path
  | inFile path problem => "config " ++ path ++ ": " ++ problem.message

def equalUpToCase (a b : Text) : Bool :=
  (runes a).length == (runes b).length
    && ((runes a).zip (runes b)).all fun (r, s) => foldCode r.code == foldCode s.code

/-- The name in a list that a key stands for: itself, or else up to case. -/
def nameFor? (names : List String) (key : Text) : Option String :=
  (names.find? fun n => ofString n == key).or
    (names.find? fun n => equalUpToCase (ofString n) key)

/-- Entries of a mapping, the last of two with one key. -/
def setEntry {α : Type} (entries : List (Text × α)) (key : Text) (value : α) : List (Text × α) :=
  if entries.any fun entry => entry.1 == key then
    entries.map fun entry => if entry.1 == key then (key, value) else entry
  else entries ++ [(key, value)]

namespace Datum

def text? : Datum → Option Text
  | .text t => some t
  | _ => none

def bool? : Datum → Option Bool
  | .bool b => some b
  | _ => none

def list? : Datum → Option (List Datum)
  | .list items => some items
  | _ => none

def table? : Datum → Option (List (Text × Datum))
  | .table entries =>
      some (entries.filterMap fun (key, value) => key.text?.map fun name => (name, value))
  | _ => none

end Datum

namespace Config

def standard : Config := ⟨true, .warn, [], [], [], [], [], [], []⟩

/-- Settings while they are read: the policy is still a name. -/
private structure Raw where
  config : Config
  policy : Text

private def setting (raw : Raw) (entry : Text × Datum) : Option Raw :=
  let (key, value) := entry
  match nameFor? ["strict", "missing_variable", "schema", "include_paths"] key with
  | some "strict" => value.bool?.map fun b => { raw with config := { raw.config with strict := b } }
  | some "missing_variable" => value.text?.map fun t => { raw with policy := t }
  | some "schema" => value.text?.map fun t => { raw with config := { raw.config with schema := t } }
  | some "include_paths" => do
      let paths ← (← value.list?).mapM Datum.text?
      return { raw with config := { raw.config with includePaths := paths } }
  | _ => some raw

private def resultSetting (raw : Raw) (entry : Text × Datum) : Option Raw :=
  let (key, value) := entry
  match nameFor? ["driver", "dsn"] key with
  | some "driver" => value.text?.map fun t => { raw with config := { raw.config with driver := t } }
  | some "dsn" => value.text?.map fun t => { raw with config := { raw.config with dsn := t } }
  | _ => some raw

private def deviceUrl (value : Datum) : Option Text := do
  (← value.table?).foldlM (fun url (key, value) =>
    if (nameFor? ["url"] key).isSome then value.text? else some url) []

private def device (raw : Raw) (entry : Text × Datum) : Option Raw := do
  let url ← deviceUrl entry.2
  return { raw with config :=
    { raw.config with devices := setEntry raw.config.devices entry.1 url } }

private def operation (raw : Raw) (entry : Text × Datum) : Option Raw := do
  let command ← entry.2.text?
  return { raw with config :=
    { raw.config with operations := setEntry raw.config.operations entry.1 command } }

/-- Reads one top-level entry as far as it holds settings. Devices and operations that are no
tables are passed over. -/
private def topLevel (raw : Raw) (entry : Text × Datum) : Option Raw :=
  let (key, value) := entry
  match nameFor? ["settings", "results", "devices", "operations"] key with
  | some "settings" => value.table?.bind fun entries => entries.foldlM setting raw
  | some "results" => value.table?.bind fun entries => entries.foldlM resultSetting raw
  | some "devices" => (value.table?.getD []).foldlM device raw
  | some "operations" => (value.table?.getD []).foldlM operation raw
  | _ => some raw

private def isReserved (key : Text) : Bool :=
  ["settings", "results", "devices", "operations"].any fun n => ofString n == key

/-- The sections: the tables that are not reserved, with their values as texts. -/
private def sectionsOf (entries : List (Text × Datum)) : List (Text × List (Text × Text)) :=
  entries.filterMap fun (key, value) =>
    if isReserved key then none
    else value.table?.map fun inner => (key, inner.map fun (name, v) => (name, v.render))

def read (t : Text) : Except ConfigProblem Config :=
  match Toml.read t with
  | none => .error .undecoded
  | some entries =>
      match entries.foldlM topLevel ⟨standard, MissingPolicy.name .warn⟩ with
      | none => .error .undecoded
      | some raw =>
          let config := { raw.config with sections := sectionsOf entries }
          if raw.policy.isEmpty then .ok { config with missing := .warn }
          else
            match MissingPolicy.ofName? raw.policy with
            | some policy => .ok { config with missing := policy }
            | none => .error (.unknownPolicy raw.policy)

def load (files : FileTree) (path : Text) : Except ConfigProblem Config :=
  match files.read path with
  | .error problem => .error (.unreadable path problem)
  | .ok content => (read content).mapError (.inFile path)

def lookup (c : Config) : Lookup := fun sectionName name =>
  (c.sections.find? fun entry => entry.1 == sectionName).bind fun entry =>
    (entry.2.find? fun inner => inner.1 == name).map Prod.snd

def set (c : Config) (sectionName name value : Text) : Config :=
  let inner := ((c.sections.find? fun entry => entry.1 == sectionName).map Prod.snd).getD []
  { c with sections := setEntry c.sections sectionName (setEntry inner name value) }

def sectionNames (c : Config) : List Text := sorted (c.sections.map Prod.fst)

end Config
end DeviceScript

import DeviceScript.Text.Basic

/-! The variables of a running script, and what to do about one that is not set. -/

namespace DeviceScript

/-- Names with their values, each name once. -/
structure Vars where
  entries : List (Text × Text)
deriving Repr, DecidableEq

namespace Vars

def empty : Vars := ⟨[]⟩

def get? (v : Vars) (name : Text) : Option Text :=
  (v.entries.find? fun entry => entry.1 == name).map Prod.snd

def set (v : Vars) (name value : Text) : Vars :=
  if v.entries.any fun entry => entry.1 == name then
    ⟨v.entries.map fun entry => if entry.1 == name then (name, value) else entry⟩
  else ⟨v.entries ++ [(name, value)]⟩

def erase (v : Vars) (name : Text) : Vars := ⟨v.entries.filter fun entry => entry.1 != name⟩

def ofList (entries : List (Text × Text)) : Vars :=
  entries.foldl (fun v entry => v.set entry.1 entry.2) empty

def names (v : Vars) : List Text := Text.sorted (v.entries.map Prod.fst)

end Vars

/-- What to do about a reference to a variable that is not set. -/
inductive MissingPolicy where
  | ignore
  | warn
  | error
deriving Repr, DecidableEq

namespace MissingPolicy

def name : MissingPolicy → Text
  | ignore => "ignore"
  | warn => "warn"
  | error => "error"

def ofName? (n : Text) : Option MissingPolicy := [ignore, warn, error].find? fun p => p.name == n

end MissingPolicy

end DeviceScript

import DeviceScript.Operation.Standard
import DeviceScript.Text.Blank

/-! Operations by name: the standard ones and those found elsewhere. -/

namespace DeviceScript

open Text

/-- An operation to be registered. Without a spec, the schema's is used if it has one. -/
structure Descriptor (ω : Type) where
  name : Text
  spec : Option OperationSpec
  handler : Option (Handler ω)

structure Operation (ω : Type) where
  name : Text
  spec : OperationSpec
  handler : Handler ω

/-- Operations, each name once, in the order they were registered. -/
structure Registry (ω : Type) where
  operations : List (Operation ω)

inductive RegistryProblem where
  | noHandler (name : Text)
  | registeredTwice (name : Text)
  | foreignSpec (name carried : Text)
  | undiscovered (problem : Text)
deriving Repr, DecidableEq

def RegistryProblem.message : RegistryProblem → Text
  | noHandler name => "operation " ++ name ++ " has no handler"
  | registeredTwice name => "operation " ++ name ++ " registered twice"
  | foreignSpec name carried => "operation " ++ name ++ " carries a spec for " ++ carried
  | undiscovered problem => "discover operations: " ++ problem

namespace Registry

variable {ω : Type}

def empty : Registry ω := ⟨[]⟩

def lookup? (r : Registry ω) (name : Text) : Option (Operation ω) :=
  r.operations.find? fun op => op.name == name

def names (r : Registry ω) : List Text := sorted (r.operations.map Operation.name)

def specs (r : Registry ω) : List OperationSpec :=
  r.names.filterMap fun name => (r.lookup? name).map Operation.spec

/-- The spec that a descriptor is registered with: the schema's, its own, or any words. -/
def specOf (schema : Schema) (d : Descriptor ω) : Except RegistryProblem OperationSpec :=
  match schema.operation? d.name, d.spec with
  | some spec, _ => .ok spec
  | none, none => .ok (OperationSpec.anyWords d.name)
  | none, some spec => if spec.name = d.name then .ok spec else .error (.foreignSpec d.name spec.name)

def register (schema : Schema) (r : Registry ω) (d : Descriptor ω) :
    Except RegistryProblem (Registry ω) :=
  match d.handler with
  | none => .error (.noHandler d.name)
  | some handler =>
      if (r.lookup? d.name).isSome then .error (.registeredTwice d.name)
      else (specOf schema d).map fun spec => ⟨r.operations ++ [⟨d.name, spec, handler⟩]⟩

def ofDescriptors (schema : Schema) (ds : List (Descriptor ω)) :
    Except RegistryProblem (Registry ω) :=
  ds.foldlM (register schema) empty

end Registry

def standardOperations {ω : Type} : List (Descriptor ω) :=
  [("comment", Standard.comment), ("setvar", Standard.setVar), ("unsetvar", Standard.unsetVar),
   ("incr", Standard.count 1), ("decr", Standard.count (-1)), ("sleep", Standard.sleep),
   ("send", Standard.send), ("expect", Standard.expect), ("capture", Standard.capture),
   ("fail", Standard.fail), ("stop", Standard.stop)].map
    fun (entry : String × Handler ω) => ⟨ofString entry.1, none, some entry.2⟩

inductive AliasProblem where
  | badName (name : Text)
  | noCommand (name : Text)
deriving Repr, DecidableEq

def AliasProblem.message : AliasProblem → Text
  | badName name => "alias " ++ quote name ++ " is not a valid operation name"
  | noCommand name => "alias " ++ name ++ " has no command"

structure Aliases where
  commands : List (Text × Text)
deriving Repr, DecidableEq

namespace Aliases

/-- Characters that a name may not hold. -/
def reservedBytes : Text := [32, 9, 0x3c, 0x3e, 0x5b, 0x5d, 0x7b, 0x7d, 0x24]

def isOperationName (name : Text) : Bool :=
  !name.isEmpty && name.all fun b => !reservedBytes.contains b

def descriptor {ω : Type} (name command : Text) : Except AliasProblem (Descriptor ω) :=
  if !isOperationName name then .error (.badName name)
  else if (trim command).isEmpty then .error (.noCommand name)
  else .ok ⟨name, none, some (Standard.commandFor (trim command))⟩

def operations {ω : Type} (a : Aliases) : Except AliasProblem (List (Descriptor ω)) :=
  (a.commands.mergeSort fun l r => precedes l.1 r.1).mapM fun entry => descriptor entry.1 entry.2

end Aliases

namespace Registry

variable {ω : Type}

/-- The standard operations, if wanted, and what a search for others came to. -/
def discovered (schema : Schema) (base : List (Descriptor ω))
    (found : Except Text (List (Descriptor ω))) : Except RegistryProblem (Registry ω) :=
  match found with
  | .error problem => .error (.undiscovered problem)
  | .ok ds => ofDescriptors schema (base ++ ds)

def withAliases (schema : Schema) (aliases : Aliases) : Except RegistryProblem (Registry ω) :=
  discovered schema standardOperations (aliases.operations.mapError AliasProblem.message)

end Registry
end DeviceScript

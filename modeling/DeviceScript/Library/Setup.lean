import DeviceScript.Config.Basic
import DeviceScript.Library.Basic
import DeviceScript.Operation.Registry

/-! What scripts are compiled and run with: a configuration and a schema put together. -/

namespace DeviceScript

structure Setup (ω : Type) where
  registry : Registry ω
  settings : CompileSettings

/-- The standard operations and the aliases of a configuration are registered, and the schema
learns the names that it does not have, so that they are read as operations. -/
def Setup.of {ω : Type} (config : Config) (schema : Schema) (lenient : Bool) :
    Except RegistryProblem (Setup ω) :=
  (Registry.withAliases schema ⟨config.operations⟩).map fun registry =>
    { registry
      settings :=
        { schema := ((SharedSchema.new schema).refreshOnce registry.specs).schema
          lookup := config.lookup
          lenient := !config.strict || lenient
          includePaths := config.includePaths } }

end DeviceScript

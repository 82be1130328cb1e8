import DeviceScript.Library.Setup
import DeviceScript.Proofs.Operation.Registered
import DeviceScript.Proofs.Schema.Vocabulary

/-!
The operation of an alias. A name that is accepted with its command is registered for that command,
and the language learns it as an operation that takes any words.
-/

namespace DeviceScript

open Text

variable {ω : Type}

theorem registered_names {schema : Schema} {ds : List (Descriptor ω)} {ops : List (Operation ω)}
    (each : List.Forall₂ (Registry.Registered schema) ds ops) :
    ops.map Operation.name = ds.map Descriptor.name := by
  induction each with
  | nil => rfl
  | cons registered _ ih => simp [registered.name, ih]

theorem standard_names :
    (standardOperations (ω := ω)).map Descriptor.name =
      Schema.standard.operations.map OperationSpec.name := rfl

theorem spec_of_name {schema : Schema} {d : Descriptor ω} {spec : OperationSpec}
    (specified : Registry.specOf schema d = .ok spec) : spec.name = d.name := by
  unfold Registry.specOf at specified
  split at specified
  · next found =>
      cases specified
      simpa using List.find?_some found
  · cases specified
    rfl
  · split at specified
    · next same =>
        cases specified
        exact same
    · cases specified

/-- What is registered for an alias. -/
structure Registry.Serves (r : Registry ω) (name command : Text) : Prop where
  valid : Aliases.isOperationName name = true
  unknown : Schema.standard.operation? name = none
  operation : r.lookup? name =
    some ⟨name, OperationSpec.anyWords name, Standard.commandFor (trim command)⟩

theorem alias_served {aliases : Aliases} {r : Registry ω}
    (built : Registry.withAliases Schema.standard aliases = .ok r) {name command : Text}
    (listed : (name, command) ∈ aliases.commands) : r.Serves name command := by
  obtain ⟨distinct, found, given, each⟩ := Registry.with_aliases_ok built
  obtain ⟨d, among, described⟩ := (alias_operations given).2 _ listed
  obtain ⟨valid, -, rfl⟩ := alias_descriptor described
  -- Standard operations are registered first, so an alias has none of their names.
  have unknown : Schema.standard.operation? name = none := by
    by_contra known
    obtain ⟨spec, there⟩ := Option.ne_none_iff_exists'.mp known
    have standard : name ∈ (standardOperations (ω := ω)).map Descriptor.name := by
      rw [standard_names, ← show spec.name = name by simpa using List.find?_some there]
      exact List.mem_map_of_mem (List.mem_of_find?_eq_some there)
    unfold Registry.Distinct at distinct
    rw [registered_names each, List.map_append] at distinct
    exact (List.nodup_append.mp distinct).2.2 name standard name
      (List.mem_map.mpr ⟨_, among, rfl⟩) rfl
  obtain ⟨op, member, registered⟩ :=
    mem_of_forall₂ each.flip _ (List.mem_append_right standardOperations among)
  have same : op = ⟨name, OperationSpec.anyWords name, Standard.commandFor (trim command)⟩ := by
    have spec := registered.spec
    unfold Registry.specOf at spec
    rw [unknown] at spec
    obtain ⟨opName, opSpec, handler⟩ := op
    cases registered.name
    cases registered.handler
    cases spec
    rfl
  refine ⟨valid, unknown, ?_⟩
  have looked := Registry.lookup_registered distinct member
  rw [same] at looked
  exact looked

theorem registered_spec {schema : Schema} {ds : List (Descriptor ω)} {r : Registry ω}
    (each : List.Forall₂ (Registry.Registered schema) ds r.operations) {spec : OperationSpec}
    (member : spec ∈ r.specs) : ∃ op ∈ r.operations, r.lookup? spec.name = some op ∧
      op.name = spec.name ∧ op.spec = spec := by
  obtain ⟨name, -, looked⟩ := List.mem_filterMap.mp member
  obtain ⟨op, there, rfl⟩ := Option.map_eq_some_iff.mp looked
  have among := List.mem_of_find?_eq_some there
  obtain ⟨d, -, registered⟩ := mem_of_forall₂ each op among
  have same : op.spec.name = op.name :=
    (spec_of_name registered.spec).trans registered.name.symm
  have own : op.name = name := by simpa using List.find?_some there
  exact ⟨op, among, by rw [same, own, there], same.symm, rfl⟩

theorem lookup_spec_listed {r : Registry ω} {name : Text} {op : Operation ω}
    (looked : r.lookup? name = some op) : op.spec ∈ r.specs := by
  have named : op.name = name := by simpa using List.find?_some looked
  have listed : op.name ∈ r.names :=
    List.mem_mergeSort.mpr (List.mem_map_of_mem (List.mem_of_find?_eq_some looked))
  rw [named] at listed
  exact List.mem_filterMap.mpr ⟨name, listed, by rw [looked]; rfl⟩

/-- The specs that a registry hands over, by name, are those of its operations. -/
theorem specs_lookup {schema : Schema} {ds : List (Descriptor ω)} {r : Registry ω}
    (each : List.Forall₂ (Registry.Registered schema) ds r.operations) (name : Text) :
    (r.specs.find? fun spec => spec.name == name) = (r.lookup? name).map Operation.spec := by
  cases looked : r.lookup? name with
  | none =>
      apply List.find?_eq_none.mpr
      intro spec member named
      obtain ⟨op, -, there, -, -⟩ := registered_spec each member
      rw [beq_iff_eq.mp named, looked] at there
      cases there
  | some op =>
      have own : op.name = name := by simpa using List.find?_some looked
      obtain ⟨d, -, registered⟩ := mem_of_forall₂ each op (List.mem_of_find?_eq_some looked)
      have named : op.spec.name = name :=
        (spec_of_name registered.spec).trans (registered.name.symm.trans own)
      have some : (r.specs.find? fun spec => spec.name == name).isSome = true :=
        List.find?_isSome.mpr ⟨_, lookup_spec_listed looked, beq_iff_eq.mpr named⟩
      obtain ⟨spec, found⟩ := Option.isSome_iff_exists.mp some
      -- Another spec of the name would belong to another operation of the name.
      have same : spec.name = name := by simpa using List.find?_some found
      obtain ⟨other, -, there, -, rfl⟩ := registered_spec each (List.mem_of_find?_eq_some found)
      rw [same, looked] at there
      cases there
      exact found

theorem alias_learnt {aliases : Aliases} {r : Registry ω}
    (built : Registry.withAliases Schema.standard aliases = .ok r) {name command : Text}
    (serves : r.Serves name command) :
    (Schema.standard.merge r.specs).operation? name = some (OperationSpec.anyWords name) := by
  obtain ⟨-, found, -, each⟩ := Registry.with_aliases_ok built
  rw [Schema.merge_lookup, serves.unknown, Option.none_or, specs_lookup each, serves.operation]
  rfl

theorem operation_name_spaceless {name : Text} (valid : Aliases.isOperationName name = true) :
    ∀ b ∈ Aliases.reservedBytes, b ∉ name := by
  intro b reserved member
  simp only [Aliases.isOperationName, Bool.and_eq_true, List.all_eq_true] at valid
  have free := valid.2 b member
  rw [List.contains_iff_mem.mpr reserved] at free
  cases free

theorem names_spaceless {aliases : Aliases} {r : Registry ω}
    (built : Registry.withAliases Schema.standard aliases = .ok r) :
    ∀ m ∈ (Schema.standard.merge r.specs).vocabulary.operations, (32 : UInt8) ∉ m := by
  have standard : ∀ op ∈ Schema.standard.operations, (32 : UInt8) ∉ op.name := by decide
  intro m member
  obtain ⟨spec, among, rfl⟩ := Schema.mem_operation_names.mp member
  rcases Schema.merge_operations among with known | learnt
  · exact standard spec known
  · obtain ⟨-, found, given, each⟩ := Registry.with_aliases_ok built
    obtain ⟨op, registered, -, same, -⟩ := registered_spec each learnt
    obtain ⟨d, described, own⟩ := mem_of_forall₂ each op registered
    rw [← same, own.name]
    rcases List.mem_append.mp described with builtIn | discovered
    · have among : d.name ∈ Schema.standard.operations.map OperationSpec.name := by
        rw [← standard_names (ω := ω)]
        exact List.mem_map_of_mem builtIn
      obtain ⟨op, known, same⟩ := List.mem_map.mp among
      exact same ▸ standard op known
    · obtain ⟨entry, -, accepted⟩ := (alias_operations given).1 d discovered
      obtain ⟨valid, -, rfl⟩ := alias_descriptor accepted
      exact operation_name_spaceless valid 32 (by decide)

theorem setup_ready {config : Config} {lenient : Bool} {setup : Setup ω}
    (ready : Setup.of config Schema.standard lenient = .ok setup) :
    Registry.withAliases Schema.standard ⟨config.operations⟩ = .ok setup.registry ∧
      setup.settings.schema = Schema.standard.merge setup.registry.specs := by
  unfold Setup.of at ready
  cases built : Registry.withAliases (ω := ω) Schema.standard ⟨config.operations⟩ with
  | error problem =>
      rw [built] at ready
      cases ready
  | ok registry =>
      rw [built] at ready
      cases ready
      exact ⟨rfl, rfl⟩

end DeviceScript

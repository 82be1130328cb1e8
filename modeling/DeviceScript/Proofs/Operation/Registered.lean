import DeviceScript.Library.Setup
import DeviceScript.Proofs.Library.Inclusions

/-!
Registries as they are built. Each operation comes from one descriptor and has its handler, no two
have one name, and an alias is an operation that sends its command.
-/

namespace DeviceScript

open Text

variable {ω : Type}

namespace Registry

structure Registered (schema : Schema) (d : Descriptor ω) (op : Operation ω) : Prop where
  name : op.name = d.name
  handler : d.handler = some op.handler
  spec : specOf schema d = .ok op.spec

def Distinct (r : Registry ω) : Prop := (r.operations.map Operation.name).Nodup

theorem register_ok {schema : Schema} {r r' : Registry ω} {d : Descriptor ω}
    (ok : register schema r d = .ok r') :
    ∃ op, Registered schema d op ∧ r.lookup? op.name = none ∧
      r'.operations = r.operations ++ [op] := by
  unfold register at ok
  split at ok
  · cases ok
  · next handler given =>
      split at ok
      · cases ok
      · next free =>
          obtain ⟨spec, specified, rfl⟩ := map_ok_exists ok
          have absent : r.lookup? d.name = none := by simpa using free
          exact ⟨⟨d.name, spec, handler⟩, ⟨rfl, given, specified⟩, absent, rfl⟩

theorem register_distinct {r : Registry ω} {op : Operation ω} (distinct : r.Distinct)
    (free : r.lookup? op.name = none) : Distinct ⟨r.operations ++ [op]⟩ := by
  have other : ∀ o ∈ r.operations, o.name ≠ op.name := by
    intro o member
    simpa using List.find?_eq_none.mp free o member
  simp only [Distinct, List.map_append, List.map_cons, List.map_nil]
  refine List.nodup_append.mpr ⟨distinct, List.nodup_singleton _, ?_⟩
  intro name member last same
  obtain ⟨o, among, rfl⟩ := List.mem_map.mp member
  exact fun equal => other o among (equal.trans (List.mem_singleton.mp same))

theorem register_all {schema : Schema} {ds : List (Descriptor ω)} {r r' : Registry ω}
    (ok : ds.foldlM (register schema) r = .ok r') (distinct : r.Distinct) :
    r'.Distinct ∧ ∃ ops, List.Forall₂ (Registered schema) ds ops ∧
      r'.operations = r.operations ++ ops := by
  induction ds generalizing r with
  | nil =>
      cases ok
      exact ⟨distinct, [], .nil, by simp⟩
  | cons d rest ih =>
      rw [List.foldlM_cons] at ok
      cases first : register schema r d with
      | error problem =>
          rw [first] at ok
          cases ok
      | ok next =>
          rw [first] at ok
          obtain ⟨op, registered, free, added⟩ := register_ok first
          obtain ⟨operations⟩ := next
          subst added
          obtain ⟨all, ops, each, same⟩ := ih ok (register_distinct distinct free)
          exact ⟨all, op :: ops, .cons registered each, by simp [same]⟩

theorem lookup_registered {r : Registry ω} (distinct : r.Distinct) {op : Operation ω}
    (member : op ∈ r.operations) : r.lookup? op.name = some op := by
  obtain ⟨ops⟩ := r
  unfold lookup?
  simp only at member ⊢
  induction ops with
  | nil => cases member
  | cons first rest ih =>
      obtain ⟨apart, distinct⟩ := List.nodup_cons.mp distinct
      rcases List.mem_cons.mp member with rfl | later
      · simp
      · have other : (first.name == op.name) = false := by
          simp only [beq_eq_false_iff_ne]
          exact fun same => apart (same ▸ List.mem_map_of_mem later)
        rw [List.find?_cons, other]
        exact ih distinct later

end Registry

/-- The operation of an alias takes any words and sends its command. -/
theorem alias_descriptor {name command : Text} {d : Descriptor ω}
    (ok : Aliases.descriptor name command = .ok d) :
    Aliases.isOperationName name = true ∧ trim command ≠ [] ∧
      d = ⟨name, none, some (Standard.commandFor (trim command))⟩ := by
  unfold Aliases.descriptor at ok
  split at ok
  · cases ok
  · split at ok
    · cases ok
    · next valid given =>
        cases ok
        exact ⟨by simpa using valid, by simpa using given, rfl⟩

theorem alias_operations {aliases : Aliases} {found : List (Descriptor ω)}
    (ok : aliases.operations = .ok found) :
    (∀ d ∈ found, ∃ entry ∈ aliases.commands, Aliases.descriptor entry.1 entry.2 = .ok d) ∧
      ∀ entry ∈ aliases.commands, ∃ d ∈ found, Aliases.descriptor entry.1 entry.2 = .ok d := by
  have each := mapM_ok ok
  constructor
  · intro d member
    obtain ⟨entry, among, described⟩ := mem_of_forall₂ each d member
    exact ⟨entry, List.mem_mergeSort.mp among, described⟩
  · intro entry member
    exact mem_of_forall₂ each.flip entry (List.mem_mergeSort.mpr member)

namespace Registry

/-- Descriptors are registered one by one, those that were found after the others. -/
theorem discovered_ok {schema : Schema} {base : List (Descriptor ω)}
    {found : Except Text (List (Descriptor ω))} {r : Registry ω}
    (ok : discovered schema base found = .ok r) :
    r.Distinct ∧ ∃ ds, found = .ok ds ∧
      List.Forall₂ (Registered schema) (base ++ ds) r.operations := by
  cases found with
  | error problem => cases ok
  | ok ds =>
      obtain ⟨distinct, ops, each, same⟩ := register_all ok List.nodup_nil
      refine ⟨distinct, ds, rfl, ?_⟩
      rw [same]
      exact each

theorem with_aliases_ok {schema : Schema} {aliases : Aliases} {r : Registry ω}
    (ok : withAliases schema aliases = .ok r) :
    r.Distinct ∧ ∃ found, aliases.operations = .ok found ∧
      List.Forall₂ (Registered schema) (standardOperations ++ found) r.operations := by
  obtain ⟨distinct, found, given, each⟩ := discovered_ok ok
  refine ⟨distinct, found, ?_, each⟩
  cases named : aliases.operations (ω := ω) with
  | error problem =>
      rw [named] at given
      cases given
  | ok ds =>
      rw [named] at given
      cases given
      rfl

/-- A registered operation is a standard one or sends a command. -/
theorem with_aliases_handler {schema : Schema} {aliases : Aliases} {r : Registry ω}
    (ok : withAliases schema aliases = .ok r) {op : Operation ω} (member : op ∈ r.operations) :
    (∃ d ∈ standardOperations, op.name = d.name ∧ d.handler = some op.handler) ∨
      ∃ command, op.handler = Standard.commandFor command := by
  obtain ⟨-, found, given, each⟩ := with_aliases_ok ok
  obtain ⟨d, among, registered⟩ := mem_of_forall₂ each op member
  rcases List.mem_append.mp among with standard | discovered
  · exact .inl ⟨d, standard, registered.name, registered.handler⟩
  · obtain ⟨entry, -, described⟩ := (alias_operations given).1 d discovered
    obtain ⟨-, -, rfl⟩ := alias_descriptor described
    exact .inr ⟨_, (Option.some.inj registered.handler).symm⟩

theorem with_aliases_standard {schema : Schema} {aliases : Aliases} {r : Registry ω}
    (ok : withAliases schema aliases = .ok r) {d : Descriptor ω} (standard : d ∈ standardOperations)
    {op : Operation ω} (found : r.lookup? d.name = some op) : d.handler = some op.handler := by
  obtain ⟨distinct, others, -, each⟩ := with_aliases_ok ok
  obtain ⟨own, member, registered⟩ :=
    mem_of_forall₂ each.flip d (List.mem_append_left others standard)
  have same := lookup_registered distinct member
  rw [registered.name, found] at same
  cases same
  exact registered.handler

end Registry
end DeviceScript

import DeviceScript.Proofs.Operation.Aliases

/-!
One spec for both sides of a call. A schema that has learnt the specs of a registry reads the
arguments of every registered operation by the spec that the registry binds them with.
-/

namespace DeviceScript

open Text

variable {ω : Type}

namespace Registry

/-- A spec wins over others in the order of schema, descriptor, any words; where the schema has the
name, all that matters is the schema. -/
theorem registered_spec_known {schema : Schema} {d : Descriptor ω} {op : Operation ω}
    (registered : Registered schema d op) {spec : OperationSpec}
    (known : schema.operation? op.name = some spec) : op.spec = spec := by
  have chosen := registered.spec
  unfold specOf at chosen
  rw [← registered.name, known] at chosen
  cases chosen
  rfl

theorem lookup_merged {schema : Schema} {ds : List (Descriptor ω)} {r : Registry ω}
    (each : List.Forall₂ (Registered schema) ds r.operations) {name : Text} {op : Operation ω}
    (looked : r.lookup? name = some op) :
    (schema.merge r.specs).operation? name = some op.spec := by
  rw [Schema.merge_lookup, specs_lookup each, looked]
  cases known : schema.operation? name with
  | none => rfl
  | some spec =>
      have named : op.name = name := by simpa using List.find?_some looked
      obtain ⟨d, -, registered⟩ := mem_of_forall₂ each op (List.mem_of_find?_eq_some looked)
      rw [registered_spec_known registered (named ▸ known)]
      rfl

end Registry

/-- A registry of any operations, given and found, over any schema, and the schema that has learnt
its specs. Each descriptor is registered under its name; for every registered name the schema has
the spec that calls are bound with, and reads a statement of that name by it; operations and
keywords of the schema are as they were, and nothing but registered names has come to it. -/
theorem registered_specs_shared {schema : Schema} {base : List (Descriptor ω)}
    {found : Except Text (List (Descriptor ω))} {r : Registry ω}
    (built : Registry.discovered schema base found = .ok r) :
    let learnt := ((SharedSchema.new schema).refreshOnce r.specs).schema
    (∃ ds, found = .ok ds ∧ ∀ d ∈ base ++ ds, ∃ op, r.lookup? d.name = some op) ∧
    (∀ name op, r.lookup? name = some op → learnt.operation? name = some op.spec ∧
      ∀ line file, learnt.resolve ⟨.operation, name, line⟩ file =
        .ok (if op.spec.mode = .options then .options op.spec else .positional op.spec)) ∧
    (∀ name spec, schema.operation? name = some spec → learnt.operation? name = some spec) ∧
    schema.operations <+: learnt.operations ∧
    learnt.keywords = schema.keywords ∧
    ∀ name spec, learnt.operation? name = some spec →
      schema.operation? name = some spec ∨ ∃ op, r.lookup? name = some op ∧ op.spec = spec := by
  intro learnt
  obtain ⟨distinct, ds, given, each⟩ := Registry.discovered_ok built
  have lookup := Schema.merge_lookup schema r.specs
  refine ⟨⟨ds, given, ?_⟩, ?_, ?_, Schema.merge_prefix .., Schema.merge_keywords .., ?_⟩
  · intro d member
    obtain ⟨op, among, registered⟩ := mem_of_forall₂ each.flip d member
    rw [← registered.name]
    exact ⟨op, Registry.lookup_registered distinct among⟩
  · intro name op looked
    have same : learnt.operation? name = some op.spec := Registry.lookup_merged each looked
    refine ⟨same, fun line file => ?_⟩
    simp only [Schema.resolve, same]
  · intro name spec known
    exact (lookup name).trans (by rw [known]; rfl)
  · intro name spec there
    rw [show learnt.operation? name = _ from lookup name, specs_lookup each,
      Option.or_eq_some_iff] at there
    rcases there with known | ⟨-, registered⟩
    · exact .inl known
    · exact .inr (Option.map_eq_some_iff.mp registered)

def probeSpec : OperationSpec := ⟨"probe", .options, [⟨"port", 0, true, .absent, .int, false⟩]⟩

/-- One operation that describes itself, one that the standard schema describes in another way, and
one that nothing describes. -/
def probing : List (Descriptor Unit) :=
  [⟨"probe", some probeSpec, some Standard.sleep⟩,
   ⟨"stop", some ⟨"stop", .options, []⟩, some Standard.stop⟩,
   ⟨"note", none, some Standard.comment⟩]

theorem probing_specs_shared :
    ∃ r, Registry.discovered Schema.standard standardOperations.dropLast (.ok probing) = .ok r ∧
      let learnt := ((SharedSchema.new Schema.standard).refreshOnce r.specs).schema
      learnt.operation? "probe" = some probeSpec ∧
      learnt.operation? "stop" = Schema.standard.operation? "stop" ∧
      learnt.operation? "note" = some (OperationSpec.anyWords "note") ∧
      learnt.keywords = Schema.standard.keywords := by
  refine ⟨_, rfl, ?_⟩
  obtain ⟨-, shared, known, -, keywords, -⟩ :=
    registered_specs_shared (show Registry.discovered Schema.standard
      standardOperations.dropLast (.ok probing) = .ok _ from rfl)
  exact ⟨(shared "probe" _ rfl).1, known "stop" _ rfl, (shared "note" _ rfl).1, keywords⟩

end DeviceScript

import DeviceScript.Schema.Standard

/-! The names by which lines of a script are recognised. -/

namespace DeviceScript

open Text

namespace Schema

/-- The names of the standard language in the order in which they are tried. -/
theorem standard_vocabulary :
    standard.vocabulary =
      ⟨["unsetvar", "capture", "comment", "expect", "setvar", "sleep", "decr", "fail", "incr",
        "send", "stop"],
       ["endwhile", "elseif", "endif", "until", "while", "else", "loop", "fi", "if"]⟩ := by
  simp +decide [vocabulary, operationNames, keywordNames, standard, List.mergeSort,
    List.MergeSort.Internal.splitInTwo]

theorem mem_operation_names {s : Schema} {name : Text} :
    name ∈ s.vocabulary.operations ↔ ∃ op ∈ s.operations, op.name = name := by
  unfold vocabulary operationNames
  rw [List.mem_mergeSort, List.mem_map]

theorem add_operation_lookup (s : Schema) (spec : OperationSpec) (name : Text) :
    (s.addOperation spec).operation? name =
      (s.operation? name).or (if spec.name == name then some spec else none) := by
  unfold addOperation
  by_cases taken : (s.operation? spec.name).isSome = true
  · rw [if_pos taken]
    by_cases same : spec.name = name
    · obtain ⟨op, found⟩ := Option.isSome_iff_exists.mp taken
      rw [← same, found]
      rfl
    · simp [same]
  · rw [if_neg taken]
    unfold operation?
    rw [List.find?_append, List.find?_singleton]

theorem knows_all_iff {s : Schema} {specs : List OperationSpec} :
    s.knowsAll specs = true ↔ ∀ spec ∈ specs, (s.operation? spec.name).isSome = true :=
  List.all_eq_true

/-- What a schema that knows them all is left as is what adding them one by one comes to. -/
theorem merge_eq_foldl (s : Schema) (specs : List OperationSpec) :
    s.merge specs = specs.foldl addOperation s := by
  unfold merge
  split
  · next known =>
      rw [knows_all_iff] at known
      induction specs with
      | nil => rfl
      | cons spec rest ih =>
          obtain ⟨here, others⟩ := List.forall_mem_cons.mp known
          have same : s.addOperation spec = s := if_pos here
          rw [List.foldl_cons, same]
          exact ih others
  · rfl

theorem merge_cons (s : Schema) (spec : OperationSpec) (rest : List OperationSpec) :
    s.merge (spec :: rest) = (s.addOperation spec).merge rest := by
  rw [merge_eq_foldl, merge_eq_foldl, List.foldl_cons]

theorem merge_lookup (s : Schema) (specs : List OperationSpec) (name : Text) :
    (s.merge specs).operation? name =
      (s.operation? name).or (specs.find? fun spec => spec.name == name) := by
  induction specs generalizing s with
  | nil => simp [merge]
  | cons spec rest ih =>
      rw [merge_cons, ih, add_operation_lookup, Option.or_assoc, List.find?_cons]
      cases spec.name == name <;> rfl

theorem merge_operations {s : Schema} {specs : List OperationSpec} {op : OperationSpec}
    (member : op ∈ (s.merge specs).operations) : op ∈ s.operations ∨ op ∈ specs := by
  induction specs generalizing s with
  | nil => exact .inl (by simpa [merge] using member)
  | cons spec rest ih =>
      rw [merge_cons] at member
      rcases ih member with early | later
      · unfold addOperation at early
        split at early
        · exact .inl early
        · rcases List.mem_append.mp early with known | added
          · exact .inl known
          · exact .inr (List.mem_cons.mpr (.inl (List.mem_singleton.mp added)))
      · exact .inr (List.mem_cons_of_mem spec later)

theorem merge_keywords (s : Schema) (specs : List OperationSpec) :
    (s.merge specs).keywords = s.keywords := by
  induction specs generalizing s with
  | nil => simp [merge]
  | cons spec rest ih =>
      rw [merge_cons, ih]
      unfold addOperation
      split <;> rfl

/-- What a schema has stays where it is; new operations come after it. -/
theorem merge_prefix (s : Schema) (specs : List OperationSpec) :
    s.operations <+: (s.merge specs).operations := by
  induction specs generalizing s with
  | nil => simp [merge]
  | cons spec rest ih =>
      rw [merge_cons]
      have first : s.operations <+: (s.addOperation spec).operations := by
        unfold addOperation
        split
        · exact List.prefix_rfl
        · exact List.prefix_append ..
      exact first.trans (ih (s.addOperation spec))

end Schema
end DeviceScript

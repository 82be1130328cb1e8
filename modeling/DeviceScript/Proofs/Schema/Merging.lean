import DeviceScript.Proofs.Schema.Vocabulary
import Mathlib.Data.List.Nodup
import Mathlib.Data.List.Perm.Basic

/-!
Merging. A schema learns the operations whose names it does not have, the first of each name, and
keeps all else. What is known in the end is a matter of what was merged first, not of how often.
-/

namespace DeviceScript

open Text

namespace Schema

variable {s : Schema} {specs : List OperationSpec}

/-- Two schemas that answer alike, whatever is asked of them. -/
structure Agrees (s t : Schema) : Prop where
  operation : ∀ name, s.operation? name = t.operation? name
  keyword : ∀ name, s.keyword? name = t.keyword? name
  vocabulary : s.vocabulary = t.vocabulary

/-- What a schema is that has learnt operations. -/
structure Extends (t s : Schema) (specs : List OperationSpec) : Prop where
  known : ∀ name op, s.operation? name = some op → t.operation? name = some op
  learnt : ∀ name, s.operation? name = none →
    t.operation? name = specs.find? fun spec => spec.name == name
  operations : s.operations <+: t.operations
  keywords : t.keywords = s.keywords

theorem merge_extends (s : Schema) (specs : List OperationSpec) :
    (s.merge specs).Extends s specs := by
  constructor
  · intro name op known
    rw [merge_lookup, known, Option.some_or]
  · intro name unknown
    rw [merge_lookup, unknown, Option.none_or]
  · exact merge_prefix s specs
  · exact merge_keywords s specs

theorem merge_append (s : Schema) (specs more : List OperationSpec) :
    (s.merge specs).merge more = s.merge (specs ++ more) := by
  simp only [merge_eq_foldl, List.foldl_append]

theorem merge_known (known : s.knowsAll specs = true) : s.merge specs = s := if_pos known

theorem merge_knows_all (s : Schema) (specs : List OperationSpec) :
    (s.merge specs).knowsAll specs = true := by
  rw [knows_all_iff]
  intro spec member
  rw [merge_lookup, Option.isSome_or, Bool.or_eq_true]
  right
  rw [List.find?_isSome]
  exact ⟨spec, member, beq_self_eq_true _⟩

theorem merge_eq_self_iff : s.merge specs = s ↔ s.knowsAll specs = true := by
  constructor
  · intro same
    have known := merge_knows_all s specs
    rwa [same] at known
  · exact merge_known

theorem knows_all_iff_no_name : s.knowsAll specs = true ↔
    ∀ name, ((s.merge specs).operation? name).isSome = true →
      (s.operation? name).isSome = true := by
  constructor
  · intro known name there
    rwa [merge_known known] at there
  · intro kept
    rw [knows_all_iff]
    intro spec member
    apply kept
    exact knows_all_iff.mp (merge_knows_all s specs) spec member

/-- The operations that are learnt: no two of one name, each the first of its name. -/
theorem merge_added (s : Schema) (specs : List OperationSpec) :
    ∃ added, (s.merge specs).operations = s.operations ++ added ∧
      (added.map OperationSpec.name).Nodup ∧
      ∀ op, op ∈ added ↔ s.operation? op.name = none ∧
        specs.find? (fun spec => spec.name == op.name) = some op := by
  induction specs generalizing s with
  | nil => exact ⟨[], by simp [merge], List.nodup_nil, by simp⟩
  | cons spec rest ih =>
      obtain ⟨added, operations, distinct, among⟩ := ih (s.addOperation spec)
      have merged : (s.merge (spec :: rest)).operations =
          (s.addOperation spec).operations ++ added := (merge_cons s spec rest) ▸ operations
      by_cases taken : (s.operation? spec.name).isSome = true
      · -- The spec is passed over, and no name that is learnt is its own.
        have same : s.addOperation spec = s := if_pos taken
        rw [same] at merged among
        refine ⟨added, merged, distinct, fun op => (among op).trans ?_⟩
        apply and_congr_right
        intro unknown
        have other : ¬ spec.name = op.name := by
          intro same
          rw [same, unknown] at taken
          cases taken
        rw [List.find?_cons_of_neg (by simpa using other)]
      · -- The spec is the first of its name, which is known to all that come after it.
        have grown : s.addOperation spec = { s with operations := s.operations ++ [spec] } :=
          if_neg taken
        refine ⟨spec :: added, ?_, ?_, ?_⟩
        · rw [merged, grown, List.append_assoc, List.singleton_append]
        · rw [List.map_cons, List.nodup_cons]
          refine ⟨?_, distinct⟩
          intro again
          obtain ⟨op, member, same⟩ := List.mem_map.mp again
          have unknown := ((among op).mp member).1
          simp [add_operation_lookup, same] at unknown
        · intro op
          rw [List.mem_cons, among, add_operation_lookup]
          by_cases same : spec.name = op.name
          · rw [List.find?_cons_of_pos (by simpa using same)]
            have unknown : s.operation? op.name = none := by simpa [same] using taken
            simp [same, unknown, eq_comm]
          · rw [List.find?_cons_of_neg (by simpa using same), beq_false_of_ne same]
            have apart : op ≠ spec := fun equal => same (congrArg OperationSpec.name equal).symm
            simp [apart]

theorem longer_first_iff (a b : Text) :
    longerFirst a b = true ↔ b.length < a.length ∨ a.length = b.length ∧ a ≤ b := by
  by_cases same : a.length = b.length
  · simp [longerFirst, precedes, same]
  · simp [longerFirst, same]

theorem longer_first_total (a b : Text) : longerFirst a b = true ∨ longerFirst b a = true := by
  rw [longer_first_iff, longer_first_iff]
  rcases Nat.lt_trichotomy a.length b.length with less | same | more
  · exact .inr (.inl less)
  · rcases List.le_total a b with le | le
    · exact .inl (.inr ⟨same, le⟩)
    · exact .inr (.inr ⟨same.symm, le⟩)
  · exact .inl (.inl more)

theorem longer_first_trans (a b c : Text) (first : longerFirst a b = true)
    (second : longerFirst b c = true) : longerFirst a c = true := by
  rw [longer_first_iff] at first second ⊢
  rcases first with longer | ⟨same, le⟩
  · left
    rcases second with further | ⟨same, -⟩ <;> omega
  · rcases second with longer | ⟨same', le'⟩
    · left
      omega
    · exact .inr ⟨same.trans same', List.le_trans le le'⟩

theorem longer_first_antisymm (a b : Text) (first : longerFirst a b = true)
    (second : longerFirst b a = true) : a = b := by
  rw [longer_first_iff] at first second
  rcases first with longer | ⟨same, le⟩
  · rcases second with other | ⟨same, -⟩ <;> omega
  · rcases second with longer | ⟨-, le'⟩
    · omega
    · exact List.le_antisymm le le'

/-- Sorted names do not tell in which order they were found. -/
theorem sorted_names_eq {names names' : List Text} (same : names.Perm names') :
    names.mergeSort longerFirst = names'.mergeSort longerFirst := by
  have sorted (ns : List Text) :
      (ns.mergeSort longerFirst).Pairwise fun a b => longerFirst a b := by
    apply List.pairwise_mergeSort
    · exact longer_first_trans
    · intro a b
      simpa using longer_first_total a b
  have permuted := ((List.mergeSort_perm names longerFirst).trans same).trans
    (List.mergeSort_perm names' longerFirst).symm
  exact permuted.eq_of_pairwise (fun a b _ _ => longer_first_antisymm a b) (sorted _) (sorted _)

theorem any_words_found {names : List Text} {name : Text} {op : OperationSpec} :
    (names.map OperationSpec.anyWords).find? (fun spec => spec.name == name) = some op ↔
      name ∈ names ∧ op = OperationSpec.anyWords name := by
  induction names with
  | nil => simp
  | cons first rest ih =>
      rw [List.map_cons, List.mem_cons]
      by_cases same : first = name
      · rw [List.find?_cons_of_pos (by simpa [OperationSpec.anyWords] using same)]
        simp [same, eq_comm]
      · rw [List.find?_cons_of_neg (by simpa [OperationSpec.anyWords] using same), ih]
        simp [Ne.symm same]

/-- Names are refreshed alike in any order and however often they are given: the same operations
come to the schema, and nothing is known of their order. -/
theorem refresh_perm (s : Schema) {names names' : List Text}
    (same : ∀ name, name ∈ names ↔ name ∈ names') :
    (s.refresh names).operations.Perm (s.refresh names').operations := by
  obtain ⟨added, operations, distinct, among⟩ := merge_added s (names.map OperationSpec.anyWords)
  obtain ⟨added', operations', distinct', among'⟩ :=
    merge_added s (names'.map OperationSpec.anyWords)
  simp only [refresh, operations, operations']
  apply List.Perm.append_left
  rw [List.perm_ext_iff_of_nodup distinct.of_map distinct'.of_map]
  intro op
  rw [among, among', any_words_found, any_words_found, same]

theorem refresh_agrees (s : Schema) {names names' : List Text}
    (same : ∀ name, name ∈ names ↔ name ∈ names') :
    (s.refresh names).Agrees (s.refresh names') := by
  have keywords : (s.refresh names).keywords = (s.refresh names').keywords := by
    simp only [refresh, merge_keywords]
  constructor
  · intro name
    simp only [refresh, merge_lookup]
    congr 1
    apply Option.ext
    intro op
    rw [any_words_found, any_words_found, same]
  · intro name
    simp only [keyword?, keywords]
  · have names := (refresh_perm s same).map OperationSpec.name
    simp only [vocabulary, operationNames, keywordNames, keywords, sorted_names_eq names]

end Schema

namespace SharedSchema

theorem refreshed_kept {m : SharedSchema} (done : m.refreshed = true)
    (later : List (List OperationSpec)) : later.foldl refreshOnce m = m := by
  induction later with
  | nil => rfl
  | cons specs rest ih =>
      have same : m.refreshOnce specs = m := if_pos done
      rw [List.foldl_cons, same]
      exact ih

theorem refreshed_once (s : Schema) (specs : List OperationSpec)
    (later : List (List OperationSpec)) :
    ((specs :: later).foldl refreshOnce (new s)).schema = s.merge specs := by
  have first : (new s).refreshOnce specs = ⟨s.merge specs, true⟩ := rfl
  rw [List.foldl_cons, first, refreshed_kept rfl]

end SharedSchema

/-- Merging is done once and for all. Merging one list after another is merging them together;
merging a list again changes nothing, and a schema stays as it is exactly if no name is added.
Operations and keywords that a schema has are kept, and of several operations of a new name the
first is learnt. Refreshing learns new names as operations of any words; in what order they are
given and how often does not show. A shared schema is, after any number of refreshes, the one that
the first of them made. -/
theorem merged_once_and_for_all (s : Schema) (specs : List OperationSpec) :
    (∀ more, (s.merge specs).merge more = s.merge (specs ++ more)) ∧
    ((s.merge specs).merge specs = s.merge specs ∧ (s.merge specs).knowsAll specs = true) ∧
    (s.knowsAll specs = true ↔ s.merge specs = s) ∧
    (s.knowsAll specs = true ↔ ∀ name,
      ((s.merge specs).operation? name).isSome = true → (s.operation? name).isSome = true) ∧
    (s.merge specs).Extends s specs ∧
    (∀ names, (s.refresh names).Extends s (names.map OperationSpec.anyWords) ∧
      ∀ names', (∀ name, name ∈ names ↔ name ∈ names') →
        (s.refresh names).Agrees (s.refresh names')) ∧
    ∀ later : List (List OperationSpec),
      ((specs :: later).foldl SharedSchema.refreshOnce (.new s)).schema = s.merge specs := by
  have known := Schema.merge_knows_all s specs
  refine ⟨Schema.merge_append s specs, ⟨Schema.merge_known known, known⟩,
    Schema.merge_eq_self_iff.symm, Schema.knows_all_iff_no_name, Schema.merge_extends s specs,
    ?_, SharedSchema.refreshed_once s specs⟩
  intro names
  constructor
  · exact Schema.merge_extends s _
  · intro names' same
    exact Schema.refresh_agrees s same

end DeviceScript

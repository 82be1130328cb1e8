import DeviceScript.Proofs.Schema.Accepted

/-!
Flows. A keyword is declared with the shape of its block: an expression at its beginning, bodies,
and the set of its terminators at its end. What is accepted of it is said for each place of the flow.
-/

namespace DeviceScript

open Text

namespace Datum

/-- What may stand at a place of a flow. -/
inductive Flows (index length : Nat) : Datum → Prop where
  | expression (first : index = 0) : Flows index length (.text "expression")
  | optional (first : index = 0) : Flows index length (.text "expression?")
  | body : Flows index length (.text "body")
  | terminators (names : List Text) (some : names ≠ []) (last : index + 1 = length) :
      Flows index length (.list (names.map .text))

/-- The terminators that an element of a flow lists. -/
def terminators : Datum → List Text
  | .list items => items.filterMap fun | .text t => some t | _ => none
  | _ => []

end Datum

namespace KeywordDoc

def IsOf (k : KeywordDoc) (kind : KeywordKind) : Prop := k.kind = kind.name

/-- What the declaration of a keyword is to be. -/
structure Valid (k : KeywordDoc) : Prop where
  kind : ∃ kind, k.IsOf kind
  flow : ∀ (i : Nat) (given : Datum), k.flow[i]? = some given → given.Flows i k.flow.length
  backLink : k.backLink = true → k.IsOf .endWhile ∨ k.IsOf .untilMet

def terminators (k : KeywordDoc) : List Text := k.flow.flatMap Datum.terminators

def Terminated (k : KeywordDoc) : Prop := ∃ items, k.flow.getLast? = some (.list items)

end KeywordDoc

namespace Schema

variable {keyword : Text}

theorem check_terminators_iff {items : List Datum} {names : List Text} :
    checkTerminators keyword items = .ok names ↔ items = names.map .text := by
  induction items generalizing names with
  | nil => cases names <;> simp [checkTerminators]
  | cons item rest ih =>
      cases item with
      | text t =>
          simp only [checkTerminators]
          cases names with
          | nil => cases checkTerminators keyword rest <;> simp
          | cons name names =>
              rw [List.map_cons, List.cons.injEq, ← ih]
              cases checkTerminators keyword rest <;> simp
      | _ => cases names <;> simp [checkTerminators]

/-- The element that a declared one is read as, where it may stand. -/
inductive Reads (index : Nat) (last : Bool) : Datum → FlowElem → Prop where
  | expression (first : index = 0) : Reads index last (.text "expression") (.expression false)
  | optional (first : index = 0) : Reads index last (.text "expression?") (.expression true)
  | body : Reads index last (.text "body") .body
  | terminators (names : List Text) (some : names ≠ []) (ends : last = true) :
      Reads index last (.list (names.map .text)) (.terminators names)

variable {index : Nat} {last : Bool} {given : Datum} {element : FlowElem}

theorem Reads.terminators_eq (reads : Reads index last given element) :
    element.terminatorNames = given.terminators := by
  cases reads with
  | terminators names some ends =>
      simp [FlowElem.terminatorNames, Datum.terminators, List.filterMap_map]
  | _ => rfl

theorem Reads.set_iff (reads : Reads index last given element) :
    element.isTerminatorSet = true ↔ ∃ items, given = .list items := by
  cases reads <;> simp [FlowElem.isTerminatorSet]

theorem reads_iff {length : Nat} (ends : last = true ↔ index + 1 = length) :
    (∃ element, Reads index last given element) ↔ given.Flows index length := by
  constructor
  · rintro ⟨element, reads⟩
    cases reads with
    | expression first => exact .expression first
    | optional first => exact .optional first
    | body => exact .body
    | terminators names some last => exact .terminators names some (ends.mp last)
  · intro flows
    cases flows with
    | expression first => exact ⟨_, .expression first⟩
    | optional first => exact ⟨_, .optional first⟩
    | body => exact ⟨_, .body⟩
    | terminators names some last => exact ⟨_, .terminators names some (ends.mpr last)⟩

theorem check_flow_elem_iff : checkFlowElem keyword index last given = .ok element ↔
    Reads index last given element := by
  constructor
  · intro checked
    simp only [checkFlowElem] at checked
    split at checked
    · cases checked
    · next found read =>
        split at checked
        · cases checked
        · next placed =>
            cases checked
            have first : element.isExpression = true → index = 0 := by simpa using placed
            -- A word or a list of terminators, tried in the order of the check.
            split at read
            · next t =>
                split at read
                · next named =>
                    cases read
                    rw [beq_iff_eq.mp named]
                    exact .expression (first rfl)
                · split at read
                  · next named =>
                      cases read
                      rw [beq_iff_eq.mp named]
                      exact .optional (first rfl)
                  · split at read
                    · next named =>
                        cases read
                        rw [beq_iff_eq.mp named]
                        exact .body
                    · cases read
            · next items =>
                split at read
                · cases read
                · next names listed =>
                    split at read
                    · cases read
                    · next some =>
                        split at read
                        · cases read
                        · next ends =>
                            cases read
                            rw [check_terminators_iff.mp listed]
                            exact .terminators names (by simpa using some) (by simpa using ends)
            · cases read
  · intro reads
    cases reads with
    | expression first => simp +decide [checkFlowElem, first]
    | optional first => simp +decide [checkFlowElem, first]
    | body => simp +decide [checkFlowElem, FlowElem.isExpression]
    | terminators names some ends =>
        have listed : checkTerminators keyword (names.map .text) = .ok names :=
          check_terminators_iff.mpr rfl
        simp [checkFlowElem, listed, some, ends, FlowElem.isExpression]

section Flow

variable {flow : List Datum} {elements : List FlowElem}

theorem check_flow_cons : checkFlow keyword index (given :: flow) = .ok elements ↔
    ∃ first others, Reads index flow.isEmpty given first ∧
      checkFlow keyword (index + 1) flow = .ok others ∧ elements = first :: others := by
  rw [checkFlow.eq_2]
  simp only [← @check_flow_elem_iff keyword]
  cases checkFlowElem keyword index flow.isEmpty given with
  | error fault => simp
  | ok first => cases checkFlow keyword (index + 1) flow <;> simp [eq_comm]

theorem check_flow_valid_iff : (∃ elements, checkFlow keyword index flow = .ok elements) ↔
    ∀ (i : Nat) (given : Datum), flow[i]? = some given →
      given.Flows (index + i) (index + flow.length) := by
  induction flow generalizing index with
  | nil => simp [checkFlow]
  | cons given rest ih =>
      have ends : rest.isEmpty = true ↔ index + 1 = index + (rest.length + 1) := by
        rw [List.isEmpty_iff, ← List.length_eq_zero_iff]
        omega
      have split : (∃ elements, checkFlow keyword index (given :: rest) = .ok elements) ↔
          given.Flows index (index + (rest.length + 1)) ∧
            ∃ others, checkFlow keyword (index + 1) rest = .ok others := by
        simp only [check_flow_cons, ← reads_iff ends]
        constructor
        · rintro ⟨_, first, others, reads, checked, rfl⟩
          exact ⟨⟨first, reads⟩, others, checked⟩
        · rintro ⟨⟨first, reads⟩, others, checked⟩
          exact ⟨first :: others, first, others, reads, checked, rfl⟩
      have shift (i : Nat) : index + 1 + i = index + (i + 1) := by omega
      rw [split, ih, forall_placed_cons]
      simp only [shift, Nat.add_zero, List.length_cons]

/-- What is read of a flow tells its terminators, and whether it ends in a set of them. -/
theorem check_flow_terminators (checked : checkFlow keyword index flow = .ok elements) :
    elements.flatMap FlowElem.terminatorNames = flow.flatMap Datum.terminators ∧
      (elements.getLast?.any FlowElem.isTerminatorSet = true ↔
        ∃ items, flow.getLast? = some (.list items)) := by
  induction flow generalizing index elements with
  | nil =>
      cases checked
      simp
  | cons given rest ih =>
      obtain ⟨first, others, reads, later, rfl⟩ := check_flow_cons.mp checked
      obtain ⟨names, ends⟩ := ih later
      constructor
      · rw [List.flatMap_cons, List.flatMap_cons, names, reads.terminators_eq]
      · cases rest with
        | nil =>
            cases later
            simpa using reads.set_iff
        | cons next rest =>
            obtain ⟨second, further, -, -, rfl⟩ := check_flow_cons.mp later
            simpa only [List.getLast?_cons_cons] using ends

end Flow

theorem of_name_iff {name : Text} {kind : KeywordKind} :
    KeywordKind.ofName? name = some kind ↔ name = kind.name := by
  constructor
  · intro found
    have named := List.find?_some found
    exact (beq_iff_eq.mp named).symm
  · rintro rfl
    cases kind <;> decide

theorem is_of_unique {k : KeywordDoc} {kind other : KeywordKind} (first : k.IsOf kind)
    (second : k.IsOf other) : kind = other :=
  Option.some.inj ((of_name_iff.mpr first).symm.trans (of_name_iff.mpr second))

structure Declares (entry : Text × KeywordDoc) (kw : KeywordSpec) : Prop where
  name : kw.name = entry.1
  kind : entry.2.IsOf kw.kind
  terminators : terminatorsOf kw = entry.2.terminators
  terminated : kw.flow.getLast?.any FlowElem.isTerminatorSet = true ↔ entry.2.Terminated
  backLink : kw.backLink = entry.2.backLink

theorem Declares.kind_iff {entry : Text × KeywordDoc} {kw : KeywordSpec}
    (declares : Declares entry kw) {kind : KeywordKind} :
    entry.2.IsOf kind ↔ kw.kind = kind := by
  constructor
  · exact is_of_unique declares.kind
  · rintro rfl
    exact declares.kind

theorem check_keyword_iff {k : KeywordDoc} {kw : KeywordSpec} :
    checkKeyword keyword k = .ok kw ↔ ∃ kind flow, k.IsOf kind ∧
      checkFlow keyword 0 k.flow = .ok flow ∧
      (k.backLink = true → kind = .endWhile ∨ kind = .untilMet) ∧
      kw = ⟨keyword, kind, flow, k.backLink, false⟩ := by
  simp only [checkKeyword, KeywordDoc.IsOf, ← of_name_iff]
  cases KeywordKind.ofName? k.kind with
  | none => simp
  | some kind =>
      cases checkFlow keyword 0 k.flow with
      | error fault => simp
      | ok flow =>
          have links : (k.backLink && kind != .endWhile && kind != .untilMet) = true ↔
              ¬ (k.backLink = true → kind = .endWhile ∨ kind = .untilMet) := by
            simp [and_assoc]
          dsimp only
          by_cases back : k.backLink = true → kind = .endWhile ∨ kind = .untilMet
          · rw [if_neg fun wrong => links.mp wrong back]
            constructor
            · rintro ⟨⟩
              exact ⟨kind, flow, rfl, rfl, back, rfl⟩
            · rintro ⟨_, _, ⟨⟩, ⟨⟩, -, rfl⟩
              rfl
          · rw [if_pos (links.mpr back)]
            constructor
            · nofun
            · rintro ⟨_, _, ⟨⟩, -, back', -⟩
              exact absurd back' back

/-- A keyword is accepted exactly if it is declared as it is to be. -/
theorem check_keyword_valid_iff {k : KeywordDoc} :
    (∃ kw, checkKeyword keyword k = .ok kw) ↔ k.Valid := by
  have flows := @check_flow_valid_iff keyword 0 k.flow
  simp only [Nat.zero_add] at flows
  constructor
  · rintro ⟨kw, checked⟩
    obtain ⟨kind, flow, of, read, back, -⟩ := check_keyword_iff.mp checked
    refine ⟨⟨kind, of⟩, flows.mp ⟨flow, read⟩, ?_⟩
    intro linked
    rcases back linked with rfl | rfl
    · exact .inl of
    · exact .inr of
  · rintro ⟨⟨kind, of⟩, flow, back⟩
    obtain ⟨elements, read⟩ := flows.mpr flow
    refine ⟨_, check_keyword_iff.mpr ⟨kind, elements, of, read, ?_, rfl⟩⟩
    intro linked
    rcases back linked with endWhile | untilMet
    · exact .inl (is_of_unique of endWhile)
    · exact .inr (is_of_unique of untilMet)

theorem check_keyword_declares {k : KeywordDoc} {kw : KeywordSpec}
    (checked : checkKeyword keyword k = .ok kw) : Declares (keyword, k) kw := by
  obtain ⟨kind, flow, of, read, -, rfl⟩ := check_keyword_iff.mp checked
  obtain ⟨names, ends⟩ := check_flow_terminators read
  exact ⟨rfl, of, names, ends, rfl⟩

end Schema
end DeviceScript

import DeviceScript.Proofs.Schema.Accepted
import Mathlib.Data.List.Forall2
import Mathlib.Data.List.Nodup
import Mathlib.Data.List.Perm.Basic

/-!
Placing. The parameters of an operation may be listed in any order, each with its position or
without one. They are accepted exactly if they make sense one by one and fill the slots together,
and what comes of them does not tell in which order they were listed.
-/

namespace DeviceScript

open Text

/-- A default of an int parameter: none, an int that fits, or a text that reads as an int. -/
def Datum.HoldsInt : Datum → Prop
  | .null => True
  | .int n => n ≤ maxInt
  | .text t => readInt t ≠ none
  | _ => False

/-- What the declaration of a parameter is to be. -/
structure ParamDoc.Valid (p : ParamDoc) : Prop where
  label : isName p.label = true
  type : p.type = [] ∨ p.type = "string" ∨ p.type = "int"
  fallback : p.type = "int" → p.fallback.HoldsInt
  required : p.required = true → p.fallback = .null

def ParamDoc.place (p : ParamDoc) : Int := p.position.getD 0

def slotPositions (count : Nat) : List Int := (List.range count).map Int.ofNat

namespace OperationDoc

def placed (d : OperationDoc) : List ParamDoc := placedFrom 0 d.params

/-- What the declaration of an operation is to be. -/
structure Valid (d : OperationDoc) : Prop where
  mode : d.mode = [] ∨ d.mode = "positional" ∨ d.mode = "options"
  params : ∀ p ∈ d.placed, p.Valid
  labels : (d.placed.map ParamDoc.label).Nodup
  positions : (d.placed.map ParamDoc.place).Perm (slotPositions d.placed.length)
  rest : ∀ p ∈ d.placed, p.rest = true → d.mode ≠ "options" ∧ p.place + 1 = d.placed.length

/-- Two declarations of the same parameters, listed in another order. -/
structure Relisted (d e : OperationDoc) : Prop where
  mode : d.mode = e.mode
  params : d.placed.Perm e.placed

end OperationDoc

namespace Schema

variable {op : Text} {seen : List Text} {index : Nat} {doc : ParamDoc} {docs : List ParamDoc}
  {p : ParamSpec} {ps : List ParamSpec}

theorem type_of_text : typeOf doc = .text ↔ doc.type = [] ∨ doc.type = "string" := by
  by_cases empty : doc.type = []
  · simp [typeOf, empty]
  · simp only [typeOf, ParamType.ofName, List.isEmpty_iff, empty, ↓reduceIte, false_or]
    split
    · simp_all
    · split <;> simp_all

theorem type_of_int : typeOf doc = .int ↔ doc.type = "int" := by
  by_cases empty : doc.type = []
  · simp +decide [typeOf, empty]
  · simp only [typeOf, ParamType.ofName, List.isEmpty_iff, empty, ↓reduceIte]
    split
    · next text =>
        have other : doc.type = ofString "string" := by simpa using text
        simp +decide [other]
    · split <;> simp_all

theorem check_fallback_ok_iff {label : Text} {type : ParamType} {given : Datum}
    (known : type = .text ∨ type = .int) :
    (∃ v, checkFallback op label type given = .ok v) ↔ (type = .int → given.HoldsInt) := by
  rcases known with rfl | rfl
  · cases given <;> simp [checkFallback]
  · cases given with
    | int n => by_cases fits : n ≤ maxInt <;> simp [checkFallback, Datum.HoldsInt, fits]
    | text t => cases reads : readInt t <;> simp [checkFallback, Datum.HoldsInt, reads]
    | _ => simp [checkFallback, Datum.HoldsInt]

theorem check_fallback_absent {label : Text} {type : ParamType} {given : Datum} {v : Value}
    (checked : checkFallback op label type given = .ok v) : v = .absent ↔ given = .null := by
  cases given with
  | null =>
      cases checked
      simp
  | _ =>
      simp only [checkFallback] at checked
      repeat' split at checked
      all_goals cases checked
      all_goals simp

theorem check_param_valid_iff : (∃ p, checkParam op [] 0 doc = .ok p) ↔ doc.Valid := by
  constructor
  · rintro ⟨p, checked⟩
    obtain ⟨named, -, known, fallback, value, free, -⟩ := check_param_iff.mp checked
    have fits := (check_fallback_ok_iff known).mp ⟨fallback, value⟩
    constructor
    · exact named
    · rwa [type_of_text, type_of_int, or_assoc] at known
    · rwa [type_of_int] at fits
    · intro required
      exact (check_fallback_absent value).mp (free required)
  · rintro ⟨named, known, fits, free⟩
    rw [← or_assoc, ← type_of_text, ← type_of_int] at known
    rw [← type_of_int] at fits
    obtain ⟨fallback, value⟩ := (check_fallback_ok_iff known).mpr fits
    exact ⟨_, check_param_iff.mpr ⟨named, List.not_mem_nil, known, fallback, value,
      fun required => (check_fallback_absent value).mpr (free required), rfl⟩⟩

section Sorted

variable {ps' : List ParamSpec}

theorem by_position_sorted (ps : List ParamSpec) :
    (byPosition ps).Pairwise fun a b => a.position ≤ b.position := by
  have sorted : (byPosition ps).Pairwise fun a b => decide (a.position ≤ b.position) = true := by
    apply List.pairwise_mergeSort
    · intro a b c first second
      simp only [decide_eq_true_eq] at first second ⊢
      omega
    · intro a b
      simp only [Bool.or_eq_true, decide_eq_true_eq]
      omega
  simpa using sorted

theorem slot_positions_ascend (count : Nat) : (slotPositions count).Pairwise (· ≤ ·) := by
  rw [slotPositions, List.pairwise_map]
  exact List.pairwise_lt_range.imp fun less => Int.ofNat_le.mpr (Nat.le_of_lt less)

theorem in_slots_iff : (∀ (i : Nat) (p : ParamSpec), ps[i]? = some p → p.position = i) ↔
    ps.map ParamSpec.position = slotPositions ps.length := by
  constructor
  · intro placed
    apply List.ext_getElem
    · simp [slotPositions]
    · intro i inside _
      rw [List.length_map] at inside
      simpa [slotPositions] using placed i ps[i] (List.getElem?_eq_getElem inside)
  · intro positions i p found
    have inside := (List.getElem?_eq_some_iff.mp found).1
    have here := congrArg (fun list => list[i]?) positions
    simpa [slotPositions, found, List.getElem?_range inside] using here

/-- Sorted parameters are in their slots exactly if their positions are those of the slots. -/
theorem by_position_in_slots :
    (∀ (i : Nat) (p : ParamSpec), (byPosition ps)[i]? = some p → p.position = i) ↔
      (ps.map ParamSpec.position).Perm (slotPositions ps.length) := by
  have sorted := by_position_perm ps
  rw [in_slots_iff, sorted.length_eq]
  constructor
  · intro positions
    rw [← positions]
    exact (sorted.map _).symm
  · intro slots
    -- The positions of the slots can be sorted in one way only.
    have permuted := (sorted.map ParamSpec.position).trans slots
    have ascending : ((byPosition ps).map ParamSpec.position).Pairwise (· ≤ ·) := by
      rw [List.pairwise_map]
      exact by_position_sorted ps
    exact permuted.eq_of_pairwise (fun a b _ _ => Int.le_antisymm) ascending
      (slot_positions_ascend _)

/-- Sorting forgets in which order the parameters were listed. -/
theorem by_position_eq (same : ps.Perm ps') (distinct : (ps.map ParamSpec.position).Nodup) :
    byPosition ps = byPosition ps' := by
  have permuted := ((by_position_perm ps).trans same).trans (by_position_perm ps').symm
  apply permuted.eq_of_pairwise
  · intro a b first second le ge
    have here := (by_position_perm ps).mem_iff.mp first
    have there := same.mem_iff.mpr ((by_position_perm ps').mem_iff.mp second)
    exact List.inj_on_of_nodup_map distinct here there (Int.le_antisymm le ge)
  · exact by_position_sorted ps
  · exact by_position_sorted ps'

theorem check_sorted_iff {mode : Mode} : checkSlots op mode 0 (byPosition ps) = .ok () ↔
    (ps.map ParamSpec.position).Perm (slotPositions ps.length) ∧
      ∀ p ∈ ps, p.rest = true → mode = .positional ∧ p.position + 1 = ps.length := by
  have sorted := by_position_perm ps
  rw [check_slots_iff, ← by_position_in_slots, sorted.length_eq]
  simp only [Nat.zero_add]
  constructor
  · intro each
    refine ⟨fun i p found => (each i p found).1, ?_⟩
    intro p member rest
    obtain ⟨i, found⟩ := List.getElem?_of_mem (sorted.mem_iff.mpr member)
    obtain ⟨position, last⟩ := each i p found
    obtain ⟨positional, last⟩ := last rest
    exact ⟨positional, by omega⟩
  · rintro ⟨placed, last⟩ i p found
    have position := placed i p found
    refine ⟨position, fun rest => ?_⟩
    obtain ⟨positional, last⟩ := last p (sorted.mem_iff.mp (List.mem_of_getElem? found)) rest
    exact ⟨positional, by omega⟩

end Sorted

theorem mode_positional {d : OperationDoc} :
    modeOf d = .positional ↔ d.mode = [] ∨ d.mode = "positional" := by
  by_cases empty : d.mode = []
  · simp [modeOf, empty]
  · simp only [modeOf, Mode.ofName, List.isEmpty_iff, empty, ↓reduceIte, false_or]
    split
    · simp_all
    · split <;> simp_all

theorem mode_options {d : OperationDoc} : modeOf d = .options ↔ d.mode = "options" := by
  by_cases empty : d.mode = []
  · simp +decide [modeOf, empty]
  · simp only [modeOf, Mode.ofName, List.isEmpty_iff, empty, ↓reduceIte]
    split
    · next positional =>
        have other : d.mode = ofString "positional" := by simpa using positional
        simp +decide [other]
    · split <;> simp_all

theorem check_param_position (checked : checkParam op [] 0 doc = .ok p) :
    doc.place = p.position ∧ doc.rest = p.rest := by
  obtain ⟨-, -, -, fallback, -, -, rfl⟩ := check_param_iff.mp checked
  exact ⟨rfl, rfl⟩

/-- A condition on the parameters that take the rest may be put to what they are declared as. -/
theorem params_rest_iff (each : List.Forall₂ (fun doc p => checkParam op [] 0 doc = .ok p) docs ps)
    (holds : Int → Prop) : (∀ doc ∈ docs, doc.rest = true → holds doc.place) ↔
      ∀ p ∈ ps, p.rest = true → holds p.position := by
  apply forall_related each
  intro doc p checked
  obtain ⟨position, rest⟩ := check_param_position checked
  rw [position, rest]

theorem params_valid_iff :
    (∃ ps, List.Forall₂ (fun doc p => checkParam op [] 0 doc = .ok p) docs ps) ↔
      ∀ doc ∈ docs, doc.Valid := by
  simp only [related_exists_iff, check_param_valid_iff]

/-- An operation is accepted exactly if it is declared as it is to be. -/
theorem check_operation_valid_iff {name : Text} {d : OperationDoc} :
    (∃ op, checkOperation name d = .ok op) ↔ isName name = true ∧ d.Valid := by
  have modes : (modeOf d = .positional ∨ modeOf d = .options) ↔
      d.mode = [] ∨ d.mode = "positional" ∨ d.mode = "options" := by
    rw [mode_positional, mode_options, or_assoc]
  constructor
  · rintro ⟨op, checked⟩
    obtain ⟨named, known, ps, params, slots, -⟩ := check_operation_iff.mp checked
    obtain ⟨labels, -, each⟩ := check_params_iff.mp params
    obtain ⟨positions, last⟩ := check_sorted_iff.mp slots
    have places := map_related each fun _ _ checked => (check_param_position checked).1
    refine ⟨named, modes.mp known, params_valid_iff.mp ⟨ps, each⟩, labels, ?_, ?_⟩
    · rwa [OperationDoc.placed, places, each.length_eq]
    -- What is said of the parameters as they are read is said of them as they are declared.
    · rw [← params_rest_iff each fun at_ => modeOf d = .positional ∧ at_ + 1 = ps.length] at last
      rw [OperationDoc.placed, each.length_eq]
      intro p member rest
      obtain ⟨positional, position⟩ := last p member rest
      refine ⟨?_, position⟩
      intro options
      rw [mode_options.mpr options] at positional
      cases positional
  · rintro ⟨named, valid⟩
    obtain ⟨ps, each⟩ := (@params_valid_iff name _).mpr valid.params
    have places := map_related each fun _ _ checked => (check_param_position checked).1
    have params := check_params_iff.mpr ⟨valid.labels, fun _ _ => List.not_mem_nil, each⟩
    have slots : checkSlots name (modeOf d) 0 (byPosition ps) = .ok () := by
      rw [check_sorted_iff, ← places, ← each.length_eq]
      refine ⟨valid.positions, ?_⟩
      rw [← params_rest_iff each fun at_ => modeOf d = .positional ∧ at_ + 1 = d.placed.length]
      intro p member rest
      obtain ⟨other, position⟩ := valid.rest p member rest
      refine ⟨?_, position⟩
      rcases modes.mpr valid.mode with positional | options
      · exact positional
      · exact absurd (mode_options.mp options) other
    exact ⟨_, check_operation_iff.mpr ⟨named, modes.mpr valid.mode, ps, params, slots, rfl⟩⟩

/-- In which order parameters were listed does not show, once they have their positions. -/
theorem check_operation_relisted {name : Text} {d e : OperationDoc} {spec : OperationSpec}
    (same : d.Relisted e) (checked : checkOperation name d = .ok spec) :
    checkOperation name e = .ok spec := by
  obtain ⟨named, known, ps, params, slots, rfl⟩ := check_operation_iff.mp checked
  obtain ⟨labels, -, each⟩ := check_params_iff.mp params
  obtain ⟨ps', each', permuted⟩ := List.perm_comp_forall₂ same.params.symm each
  have distinct : (ps'.map ParamSpec.position).Nodup := by
    rw [(permuted.map _).nodup_iff, (check_sorted_iff.mp slots).1.nodup_iff]
    exact List.nodup_range.map fun _ _ => Int.ofNat.inj
  have sorted := by_position_eq permuted distinct
  have mode : modeOf e = modeOf d := by simp only [modeOf, same.mode]
  have listed : checkParams name [] 0 e.params = .ok ps' := by
    apply check_params_iff.mpr
    exact ⟨(same.params.map _).nodup_iff.mp labels, fun _ _ => List.not_mem_nil, each'⟩
  rw [check_operation_iff, mode]
  exact ⟨named, known, ps', listed, by rwa [sorted], by rw [sorted]⟩

end Schema
end DeviceScript

import DeviceScript.Pattern.Search
import Mathlib.Logic.Relation

/-!
What a pattern matches, said without a search: the spans of a text that it covers.
-/

namespace DeviceScript.Pattern

open Text

def Times (R : Nat → Nat → Prop) : Nat → Nat → Nat → Prop
  | 0, i, j => i = j
  | count + 1, i, j => ∃ k, R i k ∧ Times R count k j

def Star (R : Nat → Nat → Prop) (i j : Nat) : Prop := ∃ count, Times R count i j

def codeAt? (whole : List Rune) (i : Nat) : Option Nat := (whole[i]?).map Rune.code

def codeBefore? (whole : List Rune) : Nat → Option Nat
  | 0 => none
  | i + 1 => codeAt? whole i

/-- The pattern covers the runes from the place `i` up to the place `j`. An assertion covers
none and looks at the runes on both sides. -/
def Spans (whole : List Rune) : Pattern → Nat → Nat → Prop
  | .empty, i, j => i = j
  | .char c, i, j => (codeAt? whole i).any c.mem = true ∧ j = i + 1
  | .assertion a, i, j => Assertion.holds a (codeBefore? whole i) (codeAt? whole i) = true ∧ j = i
  | .capture _ body, i, j => body.Spans whole i j
  | .seq first second, i, j => ∃ k, first.Spans whole i k ∧ second.Spans whole k j
  | .alt first second, i, j => first.Spans whole i j ∨ second.Spans whole i j
  | .repetition body least most _, i, j =>
      ∃ count, least ≤ count ∧ (∀ bound ∈ most, count ≤ max least bound) ∧
        Times (body.Spans whole) count i j

theorem times_add {R : Nat → Nat → Prop} (m n i j : Nat) :
    Times R (m + n) i j ↔ ∃ k, Times R m i k ∧ Times R n k j := by
  induction m generalizing i with
  | zero => simp [Times]
  | succ m ih =>
      rw [Nat.succ_add]
      simp only [Times, ih]
      constructor
      · rintro ⟨k, first, l, more, last⟩
        exact ⟨l, ⟨k, first, more⟩, last⟩
      · rintro ⟨l, ⟨k, first, more⟩, last⟩
        exact ⟨k, first, l, more, last⟩

theorem spans_at_least {whole : List Rune} {body : Pattern} {least i j : Nat} {greedy : Bool} :
    Relation.Comp (Times (body.Spans whole) least)
        (Relation.Comp (body.Spans whole) (Star (body.Spans whole))) i j ↔
      (repetition body (least + 1) none greedy).Spans whole i j := by
  constructor
  · rintro ⟨k, before, l, pass, count, after⟩
    refine ⟨least + (count + 1), by omega, by simp, ?_⟩
    exact (times_add _ _ _ _).mpr ⟨k, before, l, pass, after⟩
  · rintro ⟨count, enough, -, passes⟩
    obtain ⟨more, rfl⟩ := Nat.exists_eq_add_of_le enough
    rw [Nat.add_assoc, Nat.add_comm 1, times_add] at passes
    obtain ⟨k, before, l, pass, after⟩ := passes
    exact ⟨k, before, l, pass, more, after⟩

theorem spans_between {whole : List Rune} {body : Pattern} {least most i j : Nat}
    {greedy : Bool} :
    Relation.Comp (Times (body.Spans whole) least)
        (fun i j => ∃ count ≤ most - least, Times (body.Spans whole) count i j) i j ↔
      (repetition body least (some most) greedy).Spans whole i j := by
  constructor
  · rintro ⟨k, before, count, few, after⟩
    refine ⟨least + count, by omega, fun bound held => ?_, ?_⟩
    · cases held
      omega
    · exact (times_add _ _ _ _).mpr ⟨k, before, after⟩
  · rintro ⟨count, enough, few, passes⟩
    obtain ⟨more, rfl⟩ := Nat.exists_eq_add_of_le enough
    obtain ⟨k, before, after⟩ := (times_add _ _ _ _).mp passes
    have within := few most rfl
    exact ⟨k, before, more, by omega, after⟩

end DeviceScript.Pattern

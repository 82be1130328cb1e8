import DeviceScript.Run.Condition

/-!
The laws of comparisons. Numbers are in order, but for what is not a number; operands are equal as
numbers or as texts, and which of the two it is depends on both of them.
-/

namespace DeviceScript

namespace Binary64

def signed (negative : Bool) (units : Nat) : Int := if negative then -(units : Int) else units

theorem less_finite (a b : Bool) (m n : Nat) :
    less (finite a m) (finite b n) = decide (signed a m < signed b n) := rfl

theorem equal_finite (a b : Bool) (m n : Nat) :
    equal (finite a m) (finite b n) = decide (signed a m = signed b n) := rfl

theorem equal_self_iff (a : Binary64) : equal a a = true ↔ a ≠ nan := by
  cases a with
  | nan => simp [equal]
  | infinite negative => simp [equal]
  | finite negative units => simp [equal]

theorem equal_comm (a b : Binary64) : equal a b = equal b a := by
  cases a with
  | nan => cases b <;> rfl
  | infinite a =>
      cases b with
      | infinite b => exact Bool.beq_comm
      | _ => rfl
  | finite a m =>
      cases b with
      | finite b n => simp only [equal_finite, eq_comm]
      | _ => rfl

theorem equal_trans {a b c : Binary64} (first : equal a b = true) (second : equal b c = true) :
    equal a c = true := by
  cases b with
  | nan => cases a <;> cases first
  | infinite b =>
      cases a with
      | infinite a =>
          obtain rfl : a = b := beq_iff_eq.mp first
          exact second
      | _ => cases first
  | finite b n =>
      cases a with
      | finite a m =>
          cases c with
          | finite c k =>
              simp only [equal_finite, decide_eq_true_eq] at first second ⊢
              exact first.trans second
          | _ => cases second
      | _ => cases first

theorem infinite_ne_nan (negative : Bool) : infinite negative ≠ nan := by
  intro same
  cases same

theorem finite_ne_nan (negative : Bool) (units : Nat) : finite negative units ≠ nan := by
  intro same
  cases same

/-- Of two numbers one is less, or they are equal, or the other is less. -/
theorem ordered_once {a b : Binary64} (left : a ≠ nan) (right : b ≠ nan) :
    [less a b, equal a b, less b a].count true = 1 := by
  cases a with
  | nan => exact absurd rfl left
  | infinite a =>
      cases b with
      | nan => exact absurd rfl right
      | infinite b => cases a <;> cases b <;> rfl
      | finite b n => cases a <;> rfl
  | finite a m =>
      cases b with
      | nan => exact absurd rfl right
      | infinite b => cases b <;> rfl
      | finite b n =>
          simp only [less_finite, equal_finite]
          rcases Int.lt_trichotomy (signed a m) (signed b n) with lower | same | higher
          · have apart : signed a m ≠ signed b n := by omega
            have behind : ¬ signed b n < signed a m := by omega
            simp [lower, apart, behind]
          · simp [same]
          · have apart : signed a m ≠ signed b n := by omega
            have behind : ¬ signed a m < signed b n := by omega
            simp [higher, apart, behind]

/-- What is not a number is neither less than anything nor equal to it. -/
theorem nan_unordered {a b : Binary64} (unordered : a = nan ∨ b = nan) :
    less a b = false ∧ equal a b = false := by
  rcases unordered with rfl | rfl
  · exact ⟨by cases b <;> rfl, by cases b <;> rfl⟩
  · exact ⟨by cases a <;> rfl, by cases a <;> rfl⟩

end Binary64

namespace Condition

open Text

/-! Equality of operands. -/

theorem equal_numbers {a b : Text} {x y : Binary64} (left : number? a = some x)
    (right : number? b = some y) : equal a b = Binary64.equal x y := by
  simp only [equal, left, right]

theorem equal_texts {a b : Text} (other : number? a = none ∨ number? b = none) :
    equal a b = (a == b) := by
  unfold equal
  rcases other with none | none
  · rw [none]
  · rw [none]
    cases number? a <;> rfl

theorem equal_self_iff (a : Text) : equal a a = true ↔ number? a ≠ some .nan := by
  cases read : number? a with
  | none => simp [equal_texts (.inl read)]
  | some x => simp [equal_numbers read read, Binary64.equal_self_iff]

theorem equal_comm (a b : Text) : equal a b = equal b a := by
  cases left : number? a with
  | none => rw [equal_texts (.inl left), equal_texts (.inr left), Bool.beq_comm]
  | some x =>
      cases right : number? b with
      | none => rw [equal_texts (.inr right), equal_texts (.inl right), Bool.beq_comm]
      | some y => rw [equal_numbers left right, equal_numbers right left, Binary64.equal_comm]

theorem equal_trans {a b c : Text} (first : equal a b = true) (second : equal b c = true) :
    equal a c = true := by
  -- A text that is no number equals only itself, so all three are numbers or two are one text.
  cases middle : number? b with
  | none =>
      rw [equal_texts (.inr middle), beq_iff_eq] at first
      rwa [first]
  | some y =>
      cases left : number? a with
      | none =>
          rw [equal_texts (.inl left), beq_iff_eq] at first
          rwa [first]
      | some x =>
          cases right : number? c with
          | none =>
              rw [equal_texts (.inr right), beq_iff_eq] at second
              rwa [← second]
          | some z =>
              rw [equal_numbers left middle] at first
              rw [equal_numbers middle right] at second
              rw [equal_numbers left right]
              exact Binary64.equal_trans first second

/-! Comparisons by their words. -/

def Comparison.words : Comparison → List Text
  | .equal => ["eq", "=="]
  | .notEqual => ["ne", "!="]
  | .less => ["lt", "<"]
  | .greater => ["gt", ">"]
  | .lessEqual => ["le", "<="]
  | .greaterEqual => ["ge", ">="]
  | .contains => ["contains"]
  | .lacks => ["!contains"]
  | .fits => ["match"]

theorem Comparison.of_written (c : Comparison) : ∀ w ∈ c.words, Comparison.ofWord? w = some c := by
  cases c <;> decide

section Words

variable {w : Text} (a b : Text)

theorem compare_equal (word : w ∈ Comparison.equal.words) : compare a w b = .ok (equal a b) := by
  simp only [compare, Comparison.of_written .equal w word]

theorem compare_not_equal (word : w ∈ Comparison.notEqual.words) :
    compare a w b = .ok (!equal a b) := by
  simp only [compare, Comparison.of_written .notEqual w word]

section Numbers

variable {a b} {x y : Binary64} (left : number? a = some x) (right : number? b = some y)

include left right

theorem numbers_read : numbers w a b = .ok (x, y) := by
  simp only [numbers, left, right]

theorem compare_less (word : w ∈ Comparison.less.words) :
    compare a w b = .ok (Binary64.less x y) := by
  simp only [compare, Comparison.of_written .less w word, numbers_read left right]
  rfl

theorem compare_greater (word : w ∈ Comparison.greater.words) :
    compare a w b = .ok (Binary64.less y x) := by
  simp only [compare, Comparison.of_written .greater w word, numbers_read left right]
  rfl

theorem compare_less_equal (word : w ∈ Comparison.lessEqual.words) :
    compare a w b = .ok (Binary64.less x y || Binary64.equal x y) := by
  simp only [compare, Comparison.of_written .lessEqual w word, numbers_read left right]
  rfl

theorem compare_greater_equal (word : w ∈ Comparison.greaterEqual.words) :
    compare a w b = .ok (Binary64.less y x || Binary64.equal x y) := by
  rw [Binary64.equal_comm]
  simp only [compare, Comparison.of_written .greaterEqual w word, numbers_read left right]
  rfl

end Numbers

end Words

/-- Equality always has a value. It is symmetric and transitive, an operand is equal to itself
unless it reads as NaN, and inequality is the contrary. Two operands that read as numbers can be
compared in every way: less or equal is what the words say, and so is greater or equal. Of two that
are both no NaN, exactly one of less, equal and greater holds, so that greater or equal is not less;
where one of them is NaN none of the three holds. -/
theorem comparisons_coherent :
    (∀ w ∈ Comparison.equal.words,
      (∀ a b, ∃ holds, compare a w b = .ok holds) ∧
      (∀ a, compare a w a = .ok true ↔ number? a ≠ some .nan) ∧
      (∀ a b, compare a w b = compare b w a) ∧
      (∀ a b c, compare a w b = .ok true → compare b w c = .ok true → compare a w c = .ok true) ∧
      ∀ v ∈ Comparison.notEqual.words, ∀ a b, compare a v b = (compare a w b).map (!·)) ∧
    ∀ a b x y, number? a = some x → number? b = some y →
      ∃ less equal greater : Bool,
        (∀ w ∈ Comparison.less.words, compare a w b = .ok less) ∧
        (∀ w ∈ Comparison.equal.words, compare a w b = .ok equal) ∧
        (∀ w ∈ Comparison.greater.words, compare a w b = .ok greater) ∧
        (∀ w ∈ Comparison.lessEqual.words, compare a w b = .ok (less || equal)) ∧
        (∀ w ∈ Comparison.greaterEqual.words, compare a w b = .ok (greater || equal)) ∧
        (x ≠ .nan → y ≠ .nan →
          [less, equal, greater].count true = 1 ∧ (greater || equal) = !less) ∧
        (x = .nan ∨ y = .nan → less = false ∧ equal = false ∧ greater = false) := by
  constructor
  · intro w word
    refine ⟨?_, ?_, ?_, ?_, ?_⟩
    · intro a b
      exact ⟨equal a b, compare_equal a b word⟩
    · intro a
      rw [compare_equal a a word, Except.ok.injEq]
      exact equal_self_iff a
    · intro a b
      rw [compare_equal a b word, compare_equal b a word, equal_comm]
    · intro a b c
      rw [compare_equal a b word, compare_equal b c word, compare_equal a c word]
      simp only [Except.ok.injEq]
      exact equal_trans
    · intro v other a b
      rw [compare_not_equal a b other, compare_equal a b word]
      rfl
  · intro a b x y left right
    refine ⟨Binary64.less x y, Binary64.equal x y, Binary64.less y x, ?_, ?_, ?_, ?_, ?_, ?_, ?_⟩
    · exact fun w word => compare_less left right word
    · intro w word
      rw [compare_equal a b word, equal_numbers left right]
    · exact fun w word => compare_greater left right word
    · exact fun w word => compare_less_equal left right word
    · exact fun w word => compare_greater_equal left right word
    · intro first second
      have once := Binary64.ordered_once first second
      refine ⟨once, ?_⟩
      -- One of the three holds, so what is not less is greater or equal.
      cases lower : Binary64.less x y <;> cases same : Binary64.equal x y <;>
        cases higher : Binary64.less y x <;> simp [lower, same, higher] at once ⊢
    · intro unordered
      obtain ⟨lower, same⟩ := Binary64.nan_unordered unordered
      exact ⟨lower, same, (Binary64.nan_unordered unordered.symm).1⟩

/-- A number in base sixteen with white space before it, against one in base ten and against one
without bound. -/
theorem spellings_coherent :
    number? " 0x1p4" = some (.finite false (Nat.pow 2 1078)) ∧
    number? "+Inf" = some (.infinite false) ∧
    compare " 0x1p4" "==" "1.6e1" = .ok true ∧
    ∃ less equal greater : Bool,
      compare " 0x1p4" "<" "+Inf" = .ok less ∧ compare " 0x1p4" "eq" "+Inf" = .ok equal ∧
      compare " 0x1p4" "gt" "+Inf" = .ok greater ∧ compare " 0x1p4" "ge" "+Inf" = .ok (!less) ∧
      [less, equal, greater].count true = 1 := by
  have sixteen : number? " 0x1p4" = some (.finite false (Nat.pow 2 1078)) := by decide +kernel
  have unbounded : number? "+Inf" = some (.infinite false) := by decide +kernel
  have same : equal " 0x1p4" "1.6e1" = true := by decide +kernel
  obtain ⟨less, equal, greater, lower, alike, higher, -, above, once, -⟩ :=
    comparisons_coherent.2 " 0x1p4" "+Inf" _ _ sixteen unbounded
  obtain ⟨single, contrary⟩ := once (Binary64.finite_ne_nan _ _) (Binary64.infinite_ne_nan _)
  refine ⟨sixteen, unbounded, ?_, less, equal, greater, lower _ (by decide), alike _ (by decide),
    higher _ (by decide), ?_, single⟩
  · rw [compare_equal _ _ (by decide), same]
  · rw [above _ (by decide), contrary]

/-- NaN is not equal to itself, and is neither less than one nor equal to it nor greater. -/
theorem nan_differs_from_itself :
    number? "nan" = some .nan ∧ compare "nan" "eq" "nan" = .ok false ∧
    compare "nan" "lt" "1" = .ok false ∧ compare "nan" "eq" "1" = .ok false ∧
    compare "nan" "gt" "1" = .ok false ∧ compare "nan" "ge" "1" = .ok false ∧
    ¬ ∀ a, compare a "eq" a = .ok true := by
  have nan : number? "nan" = some .nan := by decide +kernel
  have one : number? "1" = some (.finite false (Nat.pow 2 1074)) := by decide +kernel
  have apart : compare "nan" "eq" "nan" = .ok false := by
    rw [compare_equal _ _ (by decide), equal_numbers nan nan]
    rfl
  refine ⟨nan, apart, compare_less nan one (by decide), ?_, compare_greater nan one (by decide),
    compare_greater_equal nan one (by decide), ?_⟩
  · rw [compare_equal _ _ (by decide), equal_numbers nan one]
    rfl
  · intro reflexive
    have same := reflexive "nan"
    rw [apart] at same
    cases same

end Condition
end DeviceScript

import DeviceScript.Proofs.Grammar.Statement
import DeviceScript.Run.Condition
import DeviceScript.Run.Interpolation

/-!
Conditions as formulas. A formula is a comparison and further ones, each with a conjunction before
it; its value is found from left to right. The words of a formula are what conditions are compiled
to, and the variables in them are filled in without a change to the formula but in its operands.
-/

namespace DeviceScript

open Text

namespace Condition

inductive Joint where
  | and
  | or
deriving Repr, DecidableEq

namespace Joint

def word : Joint → Text
  | and => "and"
  | or => "or"

def combine : Joint → Bool → Bool → Bool
  | and => Bool.and
  | or => Bool.or

theorem of_conjunction {w : Text} (conjunction : Statement.isConjunction w = true) :
    ∃ joint : Joint, joint.word = w := by
  unfold Statement.isConjunction at conjunction
  rw [Bool.or_eq_true, beq_iff_eq, beq_iff_eq] at conjunction
  rcases conjunction with rfl | rfl
  · exact ⟨.and, rfl⟩
  · exact ⟨.or, rfl⟩

end Joint

/-- Two operands and the word of a comparison between them. -/
structure Test where
  left : Text
  word : Text
  right : Text
deriving Repr, DecidableEq

namespace Test

variable (t : Test)

def words : List Text := [t.left, t.word, t.right]

def value : Except Reason Bool := compare t.left t.word t.right

def filled (vars : Vars) : Test :=
  { t with left := interpolate vars t.left, right := interpolate vars t.right }

def Known : Prop := t.word ∈ operatorWords ∧ Statement.isConjunction t.word = false

/-- Why a comparison has no value: an operand is no number, or the pattern cannot be read. -/
inductive Lacks : Reason → Prop
  | number (other : number? t.left = none ∨ number? t.right = none) :
      Lacks (.notNumeric t.word t.left t.right)
  | pattern (refusal : Pattern.Refusal) (refused : Pattern.compile t.right = .error refusal) :
      Lacks (.invalidPattern t.right refusal)

end Test

/-- A comparison, and further ones with the conjunctions before them. -/
structure Formula where
  first : Test
  more : List (Joint × Test)
deriving Repr, DecidableEq

namespace Formula

variable (f : Formula)

def tests : List Test := f.first :: f.more.map Prod.snd

def wordsFrom (more : List (Joint × Test)) : List Text :=
  more.flatMap fun next => next.1.word :: next.2.words

def words : List Text := f.first.words ++ wordsFrom f.more

/-- Joins a further comparison to a result. -/
def join (result : Bool) (next : Joint × Test) : Except Reason Bool :=
  next.2.value.map (next.1.combine result)

/-- The comparisons from left to right, each joined to the result of those before it. -/
def value : Except Reason Bool := do
  let first ← f.first.value
  f.more.foldlM join first

def filled (vars : Vars) : Formula :=
  ⟨f.first.filled vars, f.more.map fun next => (next.1, next.2.filled vars)⟩

def shape : Text × List (Joint × Text) :=
  (f.first.word, f.more.map fun next => (next.1, next.2.word))

end Formula

/-! The value of the words is that of the formula. -/

theorem join_from_words (result : Bool) (more : List (Joint × Test)) :
    joinFrom result (Formula.wordsFrom more) = more.foldlM Formula.join result := by
  induction more generalizing result with
  | nil => rfl
  | cons next rest ih =>
      obtain ⟨joint, t⟩ := next
      have words : Formula.wordsFrom ((joint, t) :: rest) =
          joint.word :: t.left :: t.word :: t.right :: Formula.wordsFrom rest := rfl
      rw [words, joinFrom, List.foldlM_cons]
      unfold Formula.join Test.value
      cases compare t.left t.word t.right with
      | error reason => rfl
      | ok holds =>
          cases joint with
          | and => exact ih (result && holds)
          | or => exact ih (result || holds)

theorem words_from_length (more : List (Joint × Test)) :
    (Formula.wordsFrom more).length % 4 = 0 := by
  induction more with
  | nil => rfl
  | cons next rest ih =>
      have length : (Formula.wordsFrom (next :: rest)).length =
          (Formula.wordsFrom rest).length + 4 := rfl
      rw [length, Nat.add_mod_right, ih]

theorem evaluate_words (f : Formula) : evaluate f.words = f.value := by
  have words : f.words =
      f.first.left :: f.first.word :: f.first.right :: Formula.wordsFrom f.more := rfl
  rw [words, evaluate, if_pos (by rw [words_from_length]; rfl)]
  unfold Formula.value Test.value
  cases compare f.first.left f.first.word f.first.right with
  | error reason => rfl
  | ok holds => exact join_from_words holds f.more

/-! A formula without a value has a comparison without one. -/

theorem joined_valueless {more : List (Joint × Test)} {result : Bool} {reason : Reason}
    (valueless : more.foldlM Formula.join result = .error reason) :
    ∃ next ∈ more, next.2.value = .error reason := by
  induction more generalizing result with
  | nil => cases valueless
  | cons next rest ih =>
      rw [List.foldlM_cons] at valueless
      cases here : next.2.value with
      | error other =>
          simp only [Formula.join, here] at valueless
          cases valueless
          exact ⟨next, List.mem_cons_self, here⟩
      | ok holds =>
          simp only [Formula.join, here] at valueless
          obtain ⟨later, among, lacks⟩ := ih valueless
          exact ⟨later, List.mem_cons_of_mem next among, lacks⟩

theorem formula_valueless {f : Formula} {reason : Reason} (valueless : f.value = .error reason) :
    ∃ t ∈ f.tests, t.value = .error reason := by
  unfold Formula.value at valueless
  cases first : f.first.value with
  | error other =>
      rw [first] at valueless
      cases valueless
      exact ⟨f.first, List.mem_cons_self, first⟩
  | ok holds =>
      rw [first] at valueless
      obtain ⟨next, among, lacks⟩ := joined_valueless valueless
      exact ⟨next.2, List.mem_cons_of_mem _ (List.mem_map_of_mem among), lacks⟩

theorem operator_compares : ∀ w ∈ operatorWords, Statement.isConjunction w = false →
    Comparison.ofWord? w ≠ none := by
  decide

theorem numbers_lack {t : Test} {α : Type} {g : Binary64 × Binary64 → α} {reason : Reason}
    (valueless : (numbers t.word t.left t.right).map g = .error reason) : t.Lacks reason := by
  unfold numbers at valueless
  cases left : number? t.left with
  | none =>
      simp only [left] at valueless
      cases valueless
      exact .number (.inl left)
  | some l =>
      cases right : number? t.right with
      | none =>
          simp only [left, right] at valueless
          cases valueless
          exact .number (.inr right)
      | some r =>
          simp only [left, right] at valueless
          cases valueless

/-- A comparison that scripts have a word for fails only over what its operands are. -/
theorem known_valueless {t : Test} (known : t.Known) {reason : Reason}
    (valueless : t.value = .error reason) : t.Lacks reason := by
  unfold Test.value compare at valueless
  cases read : Comparison.ofWord? t.word with
  | none => exact absurd read (operator_compares t.word known.1 known.2)
  | some comparison =>
      simp only [read] at valueless
      cases comparison with
      | equal | notEqual | contains | lacks => cases valueless
      | less | greater | lessEqual | greaterEqual => exact numbers_lack valueless
      | fits =>
          cases compiled : Pattern.compile t.right with
          | ok searcher => simp [compiled] at valueless
          | error refusal =>
              simp only [compiled] at valueless
              cases valueless
              exact .pattern refusal compiled

def Formula.Known (f : Formula) : Prop := ∀ t ∈ f.tests, t.Known

/-! Filling in variables. -/

theorem filled_tests (f : Formula) (vars : Vars) :
    (f.filled vars).tests = f.tests.map fun t => t.filled vars := by
  simp [Formula.tests, Formula.filled]

theorem filled_known {f : Formula} (known : f.Known) (vars : Vars) : (f.filled vars).Known := by
  intro t member
  rw [filled_tests] at member
  obtain ⟨before, among, rfl⟩ := List.mem_map.mp member
  exact known before among

theorem filled_shape (f : Formula) (vars : Vars) : (f.filled vars).shape = f.shape := by
  simp [Formula.shape, Formula.filled, Test.filled]

/-- Operators and conjunctions refer to no variables. -/
theorem operator_references : ∀ w ∈ operatorWords, references w = [.literal w] := by decide

theorem interpolate_operator (vars : Vars) {w : Text} (operator : w ∈ operatorWords) :
    interpolate vars w = w := by
  unfold interpolate
  rw [operator_references w operator]
  exact List.append_nil w

theorem joint_operator (joint : Joint) : joint.word ∈ operatorWords := by
  cases joint <;> decide

theorem filled_words {f : Formula} (known : f.Known) (vars : Vars) :
    (f.filled vars).words = f.words.map (interpolate vars) := by
  have each (t : Test) (here : t.Known) :
      (t.filled vars).words = t.words.map (interpolate vars) := by
    have same := interpolate_operator vars here.1
    simp only [Test.words, Test.filled, List.map_cons, List.map_nil, same]
  have further (more : List (Joint × Test)) (all : ∀ next ∈ more, next.2.Known) :
      Formula.wordsFrom (more.map fun next => (next.1, next.2.filled vars)) =
        (Formula.wordsFrom more).map (interpolate vars) := by
    induction more with
    | nil => rfl
    | cons next rest ih =>
        have later := ih fun other member => all other (List.mem_cons_of_mem next member)
        unfold Formula.wordsFrom at later ⊢
        rw [List.map_cons, List.flatMap_cons, List.flatMap_cons, List.map_append, later,
          each _ (all next List.mem_cons_self), List.map_cons,
          interpolate_operator vars (joint_operator next.1)]
  have later : ∀ next ∈ f.more, next.2.Known := fun next among =>
    known next.2 (List.mem_cons_of_mem _ (List.mem_map_of_mem among))
  unfold Formula.words Formula.filled
  rw [List.map_append, each f.first (known f.first List.mem_cons_self), further f.more later]

/-- The arguments of a condition are the words of a formula. -/
theorem condition_formula {args : List Token} (condition : Statement.IsCondition args)
    (operators : ∀ t ∈ args, t.kind = .comparison → t.text ∈ operatorWords) :
    ∃ f : Formula, f.words = args.map Token.text ∧ f.Known := by
  induction condition with
  | @comparison left op right _ compares _ =>
      have known : Test.Known ⟨left.text, op.text, right.text⟩ :=
        ⟨operators op (by simp) compares.1, compares.2⟩
      exact ⟨⟨⟨left.text, op.text, right.text⟩, []⟩, rfl, by simpa [Formula.Known, Formula.tests]⟩
  | @joined left op right joint rest _ compares _ joins _ ih =>
      -- The rest is a formula of its own; its first comparison follows the conjunction here.
      obtain ⟨g, words, all⟩ := ih fun t later => operators t (by simp [later])
      obtain ⟨joint', word⟩ := Joint.of_conjunction joins.2
      have known : Test.Known ⟨left.text, op.text, right.text⟩ :=
        ⟨operators op (by simp) compares.1, compares.2⟩
      refine ⟨⟨⟨left.text, op.text, right.text⟩, (joint', g.first) :: g.more⟩, ?_, ?_⟩
      · have again : Formula.wordsFrom ((joint', g.first) :: g.more) = joint'.word :: g.words := rfl
        unfold Formula.words
        rw [again, word, words]
        rfl
      · intro t member
        rcases List.mem_cons.mp member with rfl | later
        · exact known
        · exact all t later

end Condition
end DeviceScript

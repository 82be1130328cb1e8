import DeviceScript.Schema.Standard
import DeviceScript.Script.Assembly

/-!
The statements of the standard language: what a condition is, which statements stand on their
own, and the code of these. The readers of conditions and arguments accept exactly that.
-/

namespace DeviceScript

open Text

namespace Statement

def line (s : Statement) : Int := s.head.line

def IsKeyword (s : Statement) (name : Text) : Prop :=
  s.head.kind = .keyword ∧ s.head.text = name

def words (s : Statement) : List Value := s.args.map fun t => .text t.text

def IsComparison (t : Token) : Prop := t.kind = .comparison ∧ isConjunction t.text = false

def IsJoint (t : Token) : Prop := t.kind = .comparison ∧ isConjunction t.text = true

/-- Comparisons of two operands, one or more, with a conjunction between any two. -/
inductive IsCondition : List Token → Prop where
  | comparison {left op right : Token} :
      isOperand left = true → IsComparison op → isOperand right = true →
      IsCondition [left, op, right]
  | joined {left op right joint : Token} {rest : List Token} :
      isOperand left = true → IsComparison op → isOperand right = true → IsJoint joint →
      IsCondition rest → IsCondition (left :: op :: right :: joint :: rest)

theorem IsCondition.ne_nil {args : List Token} (condition : IsCondition args) : args ≠ [] := by
  cases condition <;> simp

theorem condition_from_sound (s : Statement) (args : List Token) (values : List Value)
    (read : s.conditionFrom args = .ok values) :
    IsCondition args ∧ values = args.map fun t => .text t.text := by
  fun_induction s.conditionFrom args generalizing values with
  | case1 | case2 | case4 | case5 | case7 => cases read
  | case3 left op right operands word =>
      cases read
      simp at operands word
      exact ⟨.comparison operands.1 word operands.2, rfl⟩
  | case6 left op right operands word _ joint rest conjunction values tail ih =>
      cases read
      simp at operands word conjunction
      obtain ⟨condition, same⟩ := ih values tail
      exact ⟨.joined operands.1 word operands.2 conjunction condition, by rw [same]; rfl⟩

theorem condition_from_complete (s : Statement) (args : List Token)
    (condition : IsCondition args) :
    s.conditionFrom args = .ok (args.map fun t => .text t.text) := by
  induction condition with
  | comparison left op right =>
      simp [conditionFrom, left, right, op.1, op.2]
  | joined left op right joint _ ih =>
      simp [conditionFrom, left, right, op.1, op.2, joint.1, joint.2, ih]

/-- The reader of conditions takes conditions and nothing else, and keeps all their words. -/
theorem condition_ok_iff (s : Statement) (optional : Bool) (values : List Value) :
    s.condition optional = .ok values ↔
      values = s.words ∧ (IsCondition s.args ∨ optional = true ∧ s.args = []) := by
  unfold condition words
  cases given : s.args with
  | nil =>
      have nothing : ¬ IsCondition [] := fun condition => condition.ne_nil rfl
      cases optional <;> simp [problem, nothing, eq_comm]
  | cons first rest =>
      constructor
      · intro read
        obtain ⟨condition, same⟩ := condition_from_sound s _ _ read
        exact ⟨same, Or.inl condition⟩
      · rintro ⟨rfl, condition | ⟨_, empty⟩⟩
        · exact condition_from_complete s _ condition
        · cases empty

/-- The parameters of a call, read the way its operation asks for. -/
def bound (s : Statement) (spec : OperationSpec) : Except Located (List Value) :=
  if spec.mode = .options then s.options spec else s.positional spec

/-- A well-formed statement that is no keyword. -/
def IsSimple (s : Statement) : Prop :=
  match s.head.kind with
  | .comment | .command => True
  | .sectionName => s.head.text ≠ []
  | .inclusion => s.head.text ≠ [] ∧ ascii '$' ∉ s.head.text
  | .operation =>
      ∃ spec params, Schema.standard.operation? s.head.text = some spec ∧ s.bound spec = .ok params
  | _ => False

/-- The code of a statement that is no keyword: one instruction, and none for a comment. -/
def code (s : Statement) : List Instruction :=
  match s.head.kind with
  | .sectionName => [⟨s.line, .device, [.text s.head.text]⟩]
  | .command => [⟨s.line, .command, [.text s.head.text]⟩]
  | .inclusion => [⟨s.line, .inclusion, [.text s.head.text]⟩]
  | .operation =>
      match Schema.standard.operation? s.head.text with
      | none => []
      | some spec =>
          match s.bound spec with
          | .error _ => []
          | .ok params => [⟨s.line, .call spec.name, params⟩]
  | _ => []

end Statement

theorem standard_operation_called (name : Text) (spec : OperationSpec)
    (known : Schema.standard.operation? name = some spec) :
    Opcode.ofName spec.name = .call spec.name := by
  have all : ∀ spec ∈ Schema.standard.operations, Opcode.ofName spec.name = .call spec.name := by
    decide
  exact all spec (List.mem_of_find?_eq_some known)

namespace Assembly

/-- What taking a statement other than a keyword leaves untouched, and the code it adds. -/
def Extends (a b : Assembly) (code : List Instruction) : Prop :=
  b.script.code = a.script.code ++ code ∧ b.blocks = a.blocks ∧ b.skipped = a.skipped

theorem add_section_code (s : Script) (name : Text) : (s.addSection name).code = s.code := by
  unfold Script.addSection
  split <;> rfl

theorem add_inclusion_code (s : Script) (i : Inclusion) : (s.addInclusion i).code = s.code := by
  unfold Script.addInclusion
  split <;> rfl

theorem simple_complete (a : Assembly) (s : Statement) (simple : s.IsSimple) :
    ∃ b, (∀ c : AssemblyContext, c.schema = Schema.standard → a.simple c s = .ok b) ∧
      a.Extends b s.code := by
  unfold Statement.IsSimple at simple
  unfold Assembly.simple Statement.code
  cases kind : s.head.kind with
  | comment => exact ⟨a, fun _ _ => rfl, by simp [Extends]⟩
  | command => exact ⟨_, fun _ _ => rfl, by simp [Extends, emit, Script.emit, Statement.line]⟩
  | sectionName =>
      simp only [kind] at simple
      simp only [List.isEmpty_iff, simple, ↓reduceIte]
      exact ⟨_, fun _ _ => rfl,
        by simp [Extends, emit, Script.emit, Statement.line, add_section_code]⟩
  | inclusion =>
      simp only [kind] at simple
      have plain : s.head.text.contains (ascii '$') = false := by simpa using simple.2
      simp only [List.isEmpty_iff, simple.1, plain, ↓reduceIte, Bool.false_eq_true]
      exact ⟨_, fun _ _ => rfl,
        by simp [Extends, emit, Script.emit, Statement.line, add_inclusion_code]⟩
  | operation =>
      simp only [kind] at simple
      obtain ⟨spec, params, known, read⟩ := simple
      have called := standard_operation_called _ spec known
      simp only [known, read]
      refine ⟨a.emit s.head.line (.call spec.name) params, ?_,
        by simp [Extends, emit, Script.emit, Statement.line]⟩
      intro c standard
      -- The mode only decides which of the two readers is asked, here and in `bound`.
      unfold Statement.bound at read
      simp only [Schema.resolve, standard, kind, known]
      by_cases mode : spec.mode = .options
      · simp only [mode, ↓reduceIte] at read ⊢
        simp only [read, called]
      · simp only [mode, ↓reduceIte] at read ⊢
        simp only [read, called]
  | _ => simp [kind] at simple

theorem simple_sound (c : AssemblyContext) (standard : c.schema = Schema.standard)
    (a b : Assembly) (s : Statement) (taken : a.simple c s = .ok b) : s.IsSimple := by
  unfold Assembly.simple at taken
  unfold Statement.IsSimple
  cases kind : s.head.kind with
  | comment | command => trivial
  | sectionName =>
      simp only [kind] at taken ⊢
      intro empty
      simp [empty] at taken
  | inclusion =>
      simp only [kind] at taken ⊢
      constructor
      · intro empty
        simp [empty] at taken
      · intro reference
        have present : s.head.text.contains (ascii '$') = true := by simpa using reference
        have some : s.head.text ≠ [] := List.ne_nil_of_mem reference
        simp only [List.isEmpty_iff, some, present, ↓reduceIte, reduceCtorEq] at taken
  | operation =>
      simp only [kind, Schema.resolve, standard] at taken ⊢
      cases known : Schema.standard.operation? s.head.text with
      | none => simp [known] at taken
      | some spec =>
          simp only [known] at taken
          unfold Statement.bound
          by_cases mode : spec.mode = .options
          · simp only [mode, ↓reduceIte] at taken
            cases read : s.options spec with
            | error located => simp [read] at taken
            | ok params => exact ⟨spec, params, rfl, by simp [mode, read]⟩
          · simp only [mode, ↓reduceIte] at taken
            cases read : s.positional spec with
            | error located => simp [read] at taken
            | ok params => exact ⟨spec, params, rfl, by simp [mode, read]⟩
  | _ => simp [kind] at taken

end Assembly
end DeviceScript

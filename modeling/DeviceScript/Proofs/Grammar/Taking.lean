import DeviceScript.Proofs.Grammar.Block
import Mathlib.Data.List.Basic

/-!
One statement at a time. With the standard keywords, an open block waits for one of four sets of
terminators, and a statement is taken in one of ten ways; each way is a constructor of `Takes`.
-/

namespace DeviceScript

open Text

/-- What an open block waits for: the rest of its chain, the end of its last branch, or the end of
a loop. -/
inductive Pending where
  | chain
  | otherwise
  | whileLoop
  | untilLoop
deriving DecidableEq

def Pending.ends : Pending → List Text
  | chain => ["elseif", "else", "fi", "endif"]
  | otherwise => ["fi", "endif"]
  | whileLoop => ["endwhile"]
  | untilLoop => ["until"]

/-- An open block that waits for `p`. One that waits for the end of a loop knows where it began. -/
def OpenBlock.Awaits (o : OpenBlock) (p : Pending) : Prop :=
  o.terminators = p.ends ∧
    (p = .whileLoop ∨ p = .untilLoop → ∃ line, o.loopLine = some line)

theorem standard_keywords : Schema.standard.keywords =
    [⟨"if", .ifBlock, [.expression false, .body, .terminators Pending.chain.ends], false, true⟩,
     ⟨"elseif", .elseIf, [.expression false, .body, .terminators Pending.chain.ends], false, false⟩,
     ⟨"else", .elseBranch, [.body, .terminators Pending.otherwise.ends], false, false⟩,
     ⟨"fi", .fi, [], false, false⟩,
     ⟨"endif", .fi, [], false, false⟩,
     ⟨"while", .loop, [.expression false, .body, .terminators Pending.whileLoop.ends], false, true⟩,
     ⟨"endwhile", .endWhile, [.expression true], true, false⟩,
     ⟨"loop", .loop, [.body, .terminators Pending.untilLoop.ends], false, true⟩,
     ⟨"until", .untilMet, [.expression false], true, false⟩] := rfl

theorem keyword_found {schema : Schema} {name : Text} {kw : KeywordSpec}
    (known : schema.keyword? name = some kw) : kw ∈ schema.keywords ∧ kw.name = name := by
  unfold Schema.keyword? at known
  exact ⟨List.mem_of_find?_eq_some known, by simpa using List.find?_some known⟩

namespace Assembly

/-- The instruction before in a chain, if there is one, learns the line of the next keyword. -/
def linked (a : Assembly) (previous : Option Nat) (line : Int) : Assembly :=
  { a with script := { a.script with code :=
      match previous with
      | some index => appendAt a.script.code index (.int line)
      | none => a.script.code } }

def opened (a : Assembly) (i : Instruction) (ends : List Text) (loopLine : Option Int) : Assembly :=
  { a with
    script := a.script.emit i
    blocks := ⟨ends, a.script.code.length, loopLine⟩ :: a.blocks }

theorem linked_length (a : Assembly) (previous : Option Nat) (line : Int) :
    (a.linked previous line).script.code.length = a.script.code.length := by
  cases previous with
  | none => rfl
  | some index => simp [linked, appendAt]

-- The flows of the standard keywords have four shapes. An `iff` for each covers the taking of such
-- a keyword and all the ways to reject it.
section Keyword

variable (c : AssemblyContext) (a b : Assembly) (s : Statement)
variable (name : Text) (kind : KeywordKind) (isOpener : Bool) (ends : List Text)
variable (previous : Option Nat) (loopLine : Option Int)

theorem keyword_guarded_iff :
    a.keyword c ⟨name, kind, [.expression false, .body, .terminators ends], false, isOpener⟩ s
        previous loopLine = (b, none) ↔
      Statement.IsCondition s.args ∧
        b = (a.linked previous s.line).opened ⟨s.line, kind.opcode, s.words⟩ ends
          (if kind = .loop then some s.line else loopLine) := by
  have reader := s.condition_ok_iff false
  unfold keyword
  cases read : s.condition false with
  | error located =>
      have refused : ¬ Statement.IsCondition s.args := by
        intro condition
        have taken := (reader s.words).mpr ⟨rfl, Or.inl condition⟩
        rw [read] at taken
        cases taken
      simp [read, refused]
  | ok values =>
      obtain ⟨same, condition⟩ := (reader values).mp read
      have condition : Statement.IsCondition s.args := by simpa using condition
      subst same
      simp only [read, condition, true_and, Bool.false_and, Bool.false_eq_true, ↓reduceIte,
        List.nil_append, Prod.mk.injEq, and_true, FlowElem.terminatorNames]
      rw [opened, linked_length, eq_comm]
      rfl

theorem keyword_plain_iff :
    a.keyword c ⟨name, kind, [.body, .terminators ends], false, isOpener⟩ s previous loopLine =
        (b, none) ↔
      s.args = [] ∧
        b = (a.linked previous s.line).opened ⟨s.line, kind.opcode, []⟩ ends
          (if kind = .loop then some s.line else loopLine) := by
  unfold keyword
  cases given : s.args with
  | nil =>
      simp only [Bool.false_and, Bool.false_eq_true, ↓reduceIte, List.isEmpty_nil,
        Prod.mk.injEq, and_true, true_and, FlowElem.terminatorNames]
      rw [opened, linked_length, eq_comm]
      rfl
  | cons first rest => simp

theorem keyword_final_iff :
    a.keyword c ⟨name, kind, [], false, isOpener⟩ s previous loopLine = (b, none) ↔
      s.args = [] ∧ b = (a.linked previous s.line).emit s.line kind.opcode [] := by
  unfold keyword
  cases given : s.args with
  | nil =>
      simp only [Bool.false_and, Bool.false_eq_true, ↓reduceIte, List.isEmpty_nil,
        Prod.mk.injEq, and_true, true_and]
      rw [eq_comm]
      rfl
  | cons first rest => simp

theorem keyword_back_iff (optional : Bool) (start : Int) :
    a.keyword c ⟨name, kind, [.expression optional], true, isOpener⟩ s previous (some start) =
        (b, none) ↔
      (Statement.IsCondition s.args ∨ optional = true ∧ s.args = []) ∧
        b = (a.linked previous s.line).emit s.line kind.opcode (.int start :: s.words) := by
  have reader := s.condition_ok_iff optional
  unfold keyword
  cases read : s.condition optional with
  | error located =>
      have refused : ¬ (Statement.IsCondition s.args ∨ optional = true ∧ s.args = []) := by
        intro condition
        have taken := (reader s.words).mpr ⟨rfl, condition⟩
        rw [read] at taken
        cases taken
      simp [read, refused]
  | ok values =>
      obtain ⟨same, condition⟩ := (reader values).mp read
      subst same
      simp only [read, condition, true_and, Option.isNone_some, Bool.and_false, Bool.false_eq_true,
        ↓reduceIte, Prod.mk.injEq, and_true]
      rw [eq_comm]
      rfl

end Keyword

section Resolved

variable {c : AssemblyContext} (standard : c.schema = Schema.standard)
variable {a : Assembly} {s : Statement} {kw : KeywordSpec}
variable (isKeyword : s.head.kind = .keyword)
variable (known : Schema.standard.keyword? s.head.text = some kw)

include standard isKeyword known

theorem take_opener {ps : List Pending} (awaits : List.Forall₂ OpenBlock.Awaits a.blocks ps)
    (opener : kw.opener = true) (ends : ∀ p : Pending, p.ends.contains kw.name = false) :
    a.take c s = a.keyword c kw s none none := by
  simp only [take, isKeyword, Schema.resolve, standard, known, ↓reduceIte, opener]
  cases blocks : a.blocks with
  | nil => rfl
  | cons block outer =>
      rw [blocks] at awaits
      cases awaits with
      | cons first _ => simp only [first.1, ends, Bool.false_eq_true, ↓reduceIte]

theorem take_end_iff (b : Assembly) (closing : kw.opener = false) :
    a.take c s = (b, none) ↔
      ∃ block outer, a.blocks = block :: outer ∧ kw.name ∈ block.terminators ∧
        { a with blocks := outer }.keyword c kw s (some block.instruction) block.loopLine =
          (b, none) := by
  simp only [take, isKeyword, Schema.resolve, standard, known, ↓reduceIte, closing]
  cases a.blocks with
  | nil => simp
  | cons block outer =>
      by_cases met : kw.name ∈ block.terminators
      · simp [met]
      · simp [met]

end Resolved

/-- The ways to take a statement of the standard language. -/
inductive Takes (c : AssemblyContext) (a : Assembly) (s : Statement) : Assembly → Prop where
  | simple {b : Assembly} : a.simple c s = .ok b → Takes c a s b
  | openIf : s.IsIf →
      Takes c a s (a.opened ⟨s.line, .ifNotGoto, s.words⟩ Pending.chain.ends none)
  | openWhile : s.IsWhile →
      Takes c a s (a.opened ⟨s.line, .loop, s.words⟩ Pending.whileLoop.ends (some s.line))
  | openLoop : s.IsLoop →
      Takes c a s (a.opened ⟨s.line, .loop, []⟩ Pending.untilLoop.ends (some s.line))
  | elseIf {index : Nat} {loopLine : Option Int} {outer : List OpenBlock} :
      a.blocks = ⟨Pending.chain.ends, index, loopLine⟩ :: outer → s.IsElseIf →
      Takes c a s (({ a with blocks := outer }.linked (some index) s.line).opened
        ⟨s.line, .elseIf, s.words⟩ Pending.chain.ends loopLine)
  | otherwise {index : Nat} {loopLine : Option Int} {outer : List OpenBlock} :
      a.blocks = ⟨Pending.chain.ends, index, loopLine⟩ :: outer → s.IsElse →
      Takes c a s (({ a with blocks := outer }.linked (some index) s.line).opened
        ⟨s.line, .elseBranch, []⟩ Pending.otherwise.ends loopLine)
  | fi {p : Pending} {index : Nat} {loopLine : Option Int} {outer : List OpenBlock} :
      p = .chain ∨ p = .otherwise → a.blocks = ⟨p.ends, index, loopLine⟩ :: outer → s.IsFi →
      Takes c a s (({ a with blocks := outer }.linked (some index) s.line).emit s.line .fi [])
  | endWhile {index : Nat} {start : Int} {outer : List OpenBlock} :
      a.blocks = ⟨Pending.whileLoop.ends, index, some start⟩ :: outer → s.IsEndWhile →
      Takes c a s (({ a with blocks := outer }.linked (some index) s.line).emit s.line .endWhile
        (.int start :: s.words))
  | untilMet {index : Nat} {start : Int} {outer : List OpenBlock} :
      a.blocks = ⟨Pending.untilLoop.ends, index, some start⟩ :: outer → s.IsUntil →
      Takes c a s (({ a with blocks := outer }.linked (some index) s.line).emit s.line .untilMet
        (.int start :: s.words))

theorem opener_not_awaited (p : Pending) :
    p.ends.contains (ofString "if") = false ∧ p.ends.contains (ofString "while") = false ∧
      p.ends.contains (ofString "loop") = false := by
  cases p <;> decide

theorem chain_keyword_awaited (p : Pending) (name : Text)
    (named : name = ofString "elseif" ∨ name = ofString "else") (met : name ∈ p.ends) :
    p = .chain := by
  rcases named with rfl | rfl <;> revert met <;> cases p <;> decide

theorem fi_awaited (p : Pending) (name : Text)
    (named : name = ofString "fi" ∨ name = ofString "endif") (met : name ∈ p.ends) :
    p = .chain ∨ p = .otherwise := by
  rcases named with rfl | rfl <;> revert met <;> cases p <;> decide

theorem loop_end_awaited (p : Pending) :
    (ofString "endwhile" ∈ p.ends → p = .whileLoop) ∧
      (ofString "until" ∈ p.ends → p = .untilLoop) := by
  cases p <;> decide

/-- What the end of a block finds: the block, and what that block waits for. -/
theorem take_end_awaited {c : AssemblyContext} (standard : c.schema = Schema.standard)
    {a b : Assembly} {s : Statement} {kw : KeywordSpec} (isKeyword : s.head.kind = .keyword)
    (known : Schema.standard.keyword? s.head.text = some kw) {ps : List Pending}
    (awaits : List.Forall₂ OpenBlock.Awaits a.blocks ps) (closing : kw.opener = false)
    (taken : a.take c s = (b, none)) :
    ∃ p index loopLine outer, a.blocks = ⟨Pending.ends p, index, loopLine⟩ :: outer ∧
      kw.name ∈ p.ends ∧
      (p = .whileLoop ∨ p = .untilLoop → ∃ start, loopLine = some start) ∧
      { a with blocks := outer }.keyword c kw s (some index) loopLine = (b, none) := by
  obtain ⟨block, outer, blocks, met, taken⟩ :=
    (take_end_iff standard isKeyword known b closing).mp taken
  rw [blocks] at awaits
  cases awaits with
  | @cons _ p _ _ first _ =>
      obtain ⟨ends, index, loopLine⟩ := block
      obtain ⟨same, begun⟩ := first
      simp only at same begun
      subst same
      exact ⟨p, index, loopLine, outer, blocks, met, begun, taken⟩

theorem take_sound {c : AssemblyContext} (standard : c.schema = Schema.standard)
    {a b : Assembly} {s : Statement} {ps : List Pending}
    (awaits : List.Forall₂ OpenBlock.Awaits a.blocks ps) (taken : a.take c s = (b, none)) :
    Takes c a s b := by
  by_cases isKeyword : s.head.kind = .keyword
  · cases known : Schema.standard.keyword? s.head.text with
    | none =>
        simp only [take, isKeyword, Schema.resolve, standard, known, ↓reduceIte, Prod.mk.injEq,
          reduceCtorEq, and_false] at taken
    | some kw =>
        have opening := take_opener standard isKeyword known awaits
        have closing := fun closer => take_end_awaited standard isKeyword known awaits closer taken
        obtain ⟨member, same⟩ := keyword_found known
        have named : s.head.text = kw.name := same.symm
        simp only [standard_keywords, List.mem_cons, List.not_mem_nil, or_false] at member
        -- One case for each standard keyword, in the order of the schema. That a terminator is met
        -- tells what the innermost block waits for.
        rcases member with rfl | rfl | rfl | rfl | rfl | rfl | rfl | rfl | rfl
        · rw [opening rfl fun p => (opener_not_awaited p).1, keyword_guarded_iff] at taken
          obtain ⟨condition, rfl⟩ := taken
          exact .openIf ⟨⟨isKeyword, named⟩, condition⟩
        · obtain ⟨p, index, loopLine, outer, blocks, met, -, taken⟩ := closing rfl
          obtain rfl := chain_keyword_awaited p _ (Or.inl rfl) met
          obtain ⟨condition, rfl⟩ := (keyword_guarded_iff ..).mp taken
          exact .elseIf blocks ⟨⟨isKeyword, named⟩, condition⟩
        · obtain ⟨p, index, loopLine, outer, blocks, met, -, taken⟩ := closing rfl
          obtain rfl := chain_keyword_awaited p _ (Or.inr rfl) met
          obtain ⟨nothing, rfl⟩ := (keyword_plain_iff ..).mp taken
          exact .otherwise blocks ⟨⟨isKeyword, named⟩, nothing⟩
        · obtain ⟨p, index, loopLine, outer, blocks, met, -, taken⟩ := closing rfl
          have which := fi_awaited p _ (Or.inl rfl) met
          obtain ⟨nothing, rfl⟩ := (keyword_final_iff ..).mp taken
          exact .fi which blocks ⟨Or.inl ⟨isKeyword, named⟩, nothing⟩
        · obtain ⟨p, index, loopLine, outer, blocks, met, -, taken⟩ := closing rfl
          have which := fi_awaited p _ (Or.inr rfl) met
          obtain ⟨nothing, rfl⟩ := (keyword_final_iff ..).mp taken
          exact .fi which blocks ⟨Or.inr ⟨isKeyword, named⟩, nothing⟩
        · rw [opening rfl fun p => (opener_not_awaited p).2.1, keyword_guarded_iff] at taken
          obtain ⟨condition, rfl⟩ := taken
          exact .openWhile ⟨⟨isKeyword, named⟩, condition⟩
        · obtain ⟨p, index, loopLine, outer, blocks, met, begun, taken⟩ := closing rfl
          obtain rfl := (loop_end_awaited p).1 met
          obtain ⟨start, rfl⟩ := begun (Or.inl rfl)
          obtain ⟨condition, rfl⟩ := (keyword_back_iff ..).mp taken
          exact .endWhile blocks ⟨⟨isKeyword, named⟩, by simpa using condition⟩
        · rw [opening rfl fun p => (opener_not_awaited p).2.2, keyword_plain_iff] at taken
          obtain ⟨nothing, rfl⟩ := taken
          exact .openLoop ⟨⟨isKeyword, named⟩, nothing⟩
        · obtain ⟨p, index, loopLine, outer, blocks, met, begun, taken⟩ := closing rfl
          obtain rfl := (loop_end_awaited p).2 met
          obtain ⟨start, rfl⟩ := begun (Or.inr rfl)
          obtain ⟨condition, rfl⟩ := (keyword_back_iff ..).mp taken
          exact .untilMet blocks ⟨⟨isKeyword, named⟩, by simpa using condition⟩
  · simp only [take, isKeyword, ↓reduceIte] at taken
    cases read : a.simple c s with
    | error fault => simp [read] at taken
    | ok after =>
        simp only [read, Prod.mk.injEq, and_true] at taken
        subst taken
        exact .simple read

theorem take_complete {c : AssemblyContext} (standard : c.schema = Schema.standard)
    {a b : Assembly} {s : Statement} {ps : List Pending}
    (awaits : List.Forall₂ OpenBlock.Awaits a.blocks ps) (takes : Takes c a s b) :
    a.take c s = (b, none) := by
  have resolved (name : Text) (kw : KeywordSpec) (named : s.IsKeyword name)
      (found : Schema.standard.keyword? name = some kw) :
      Schema.standard.keyword? s.head.text = some kw := by
    rw [named.2, found]
  cases takes with
  | simple read =>
      have other : s.head.kind ≠ .keyword := by
        intro isKeyword
        simp [Assembly.simple, isKeyword] at read
      simp [take, other, read]
  | openIf form =>
      rw [take_opener standard form.1.1 (resolved _ _ form.1 rfl) awaits rfl
        fun p => (opener_not_awaited p).1]
      exact (keyword_guarded_iff ..).mpr ⟨form.2, rfl⟩
  | openWhile form =>
      rw [take_opener standard form.1.1 (resolved _ _ form.1 rfl) awaits rfl
        fun p => (opener_not_awaited p).2.1]
      exact (keyword_guarded_iff ..).mpr ⟨form.2, rfl⟩
  | openLoop form =>
      rw [take_opener standard form.1.1 (resolved _ _ form.1 rfl) awaits rfl
        fun p => (opener_not_awaited p).2.2]
      exact (keyword_plain_iff ..).mpr ⟨form.2, rfl⟩
  | elseIf blocks form =>
      rw [take_end_iff standard form.1.1 (resolved _ _ form.1 rfl) _ rfl]
      have met : ofString "elseif" ∈ Pending.chain.ends := by decide
      exact ⟨_, _, blocks, met, (keyword_guarded_iff ..).mpr ⟨form.2, rfl⟩⟩
  | otherwise blocks form =>
      rw [take_end_iff standard form.1.1 (resolved _ _ form.1 rfl) _ rfl]
      have met : ofString "else" ∈ Pending.chain.ends := by decide
      exact ⟨_, _, blocks, met, (keyword_plain_iff ..).mpr ⟨form.2, rfl⟩⟩
  -- The end of a chain has two spellings, and may come with or without a last branch before it.
  | fi which blocks form =>
      obtain ⟨named | named, nothing⟩ := form
      · rw [take_end_iff standard named.1 (resolved _ _ named rfl) _ rfl]
        refine ⟨_, _, blocks, ?_, (keyword_final_iff ..).mpr ⟨nothing, rfl⟩⟩
        show ofString "fi" ∈ _
        rcases which with rfl | rfl <;> simp [Pending.ends]
      · rw [take_end_iff standard named.1 (resolved _ _ named rfl) _ rfl]
        refine ⟨_, _, blocks, ?_, (keyword_final_iff ..).mpr ⟨nothing, rfl⟩⟩
        show ofString "endif" ∈ _
        rcases which with rfl | rfl <;> simp [Pending.ends]
  | endWhile blocks form =>
      rw [take_end_iff standard form.1.1 (resolved _ _ form.1 rfl) _ rfl]
      have met : ofString "endwhile" ∈ Pending.whileLoop.ends := by decide
      exact ⟨_, _, blocks, met, (keyword_back_iff ..).mpr ⟨by simpa using form.2, rfl⟩⟩
  | untilMet blocks form =>
      rw [take_end_iff standard form.1.1 (resolved _ _ form.1 rfl) _ rfl]
      have met : ofString "until" ∈ Pending.untilLoop.ends := by decide
      exact ⟨_, _, blocks, met, (keyword_back_iff ..).mpr ⟨by simpa using form.2, rfl⟩⟩

end Assembly
end DeviceScript

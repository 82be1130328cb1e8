import DeviceScript.Proofs.Run.Control
import DeviceScript.Proofs.Source.LoopEnds
import DeviceScript.Proofs.Text.Runes

/-!
One line, one statement, one instruction. Every line that is not blank has a statement, and a
statement adds one instruction on its line or none. So the lines of instructions ascend, and a jump
to a line has one place to go to.
-/

namespace DeviceScript

open Text

/-! Lines and statements. -/

namespace Text

theorem is_blank_cons_ascii {b : UInt8} (plain : b < 0x80) (rest : Text) :
    isBlank (b :: rest) = (isBlankCode b.toNat && isBlank rest) := by
  unfold isBlank
  rw [runes_ascii plain, List.all_cons]
  rfl

/-- Carriage returns are white space, so a line is blank with them or without. -/
theorem is_blank_no_return (line : Text) :
    isBlank (dropRightWhile (· == 13) line) = isBlank line := by
  obtain ⟨tail, cut, returns⟩ := drop_right_while_cut (· == 13) line
  have blank : isBlank tail = true := by
    clear cut
    induction tail with
    | nil => rfl
    | cons b rest ih =>
        obtain rfl := beq_iff_eq.mp (returns b List.mem_cons_self)
        have later := ih fun c member => returns c (List.mem_cons_of_mem _ member)
        rw [is_blank_cons_ascii (by decide), later]
        rfl
  have begins : ∀ c ∈ tail.head?, isContinuation c = false := by
    intro c first
    obtain rfl := beq_iff_eq.mp (returns c (List.mem_of_mem_head? first))
    decide
  conv => rhs; rw [cut, is_blank_append _ tail begins, blank, Bool.and_true]

end Text

namespace Token

variable (v : Vocabulary)

theorem blank_line_tokens {line : Text} (blank : isBlank line = true) (n : Int) :
    lineTokens? v line n = some [] := by
  unfold lineTokens?
  simp only [is_blank_no_return, blank, ↓reduceIte]

theorem shown_line_tokens {line : Text} (oneLine : newline ∉ line) (shown : isBlank line = false)
    (n : Int) : ∃ s, OnLine n s ∧ lineTokens? v line n = some (s.head :: s.args) := by
  rcases line_tokens_cases v line n oneLine with nothing | something
  · -- Every form but that of a blank line has a first token.
    unfold lineTokens? at nothing
    simp only [is_blank_no_return, shown, Bool.false_eq_true, ↓reduceIte] at nothing
    repeat' split at nothing
    all_goals cases nothing
  · exact something

def Stands (s : Statement) (numbered : Text × Nat) : Prop :=
  OnLine numbered.2 s ∧ lineTokens? v numbered.1 numbered.2 = some (s.head :: s.args)

/-- The lines that are not blank, with their numbers from `n` on. -/
def shownLines (n : Nat) (ls : List Text) : List (Text × Nat) :=
  (ls.zipIdx n).filter fun numbered => !isBlank numbered.1

theorem lines_statements_shown (ls : List Text) (n : Nat) (oneLine : ∀ line ∈ ls, newline ∉ line) :
    List.Forall₂ (Stands v) (linesStatements v n ls) (shownLines n ls) := by
  induction ls generalizing n with
  | nil => exact .nil
  | cons line rest ih =>
      have later := ih (n + 1) fun l member => oneLine l (List.mem_cons_of_mem line member)
      have first := oneLine line List.mem_cons_self
      unfold linesStatements lineStatement?
      unfold shownLines at later ⊢
      rw [List.zipIdx_cons]
      cases blank : isBlank line with
      | true =>
          rw [blank_line_tokens v blank, List.filter_cons_of_neg (by simp [blank])]
          exact later
      | false =>
          obtain ⟨s, onLine, read⟩ := shown_line_tokens v first blank n
          rw [read, List.filter_cons_of_pos (by simp [blank])]
          exact .cons ⟨onLine, read⟩ later

end Token

/-! Statements and instructions. -/

namespace Assembly

variable {c : AssemblyContext} {a b : Assembly} {s : Statement}

theorem extended_lines (a : Assembly) (previous : Option Nat) (line : Int) (op : Opcode)
    (params : List Value) :
    (a.extended previous line op params).map Instruction.line =
      a.script.code.map Instruction.line ++ [line] := by
  have linked : (a.linked previous line).script.code.map Instruction.line =
      a.script.code.map Instruction.line := by
    cases previous with
    | none => rfl
    | some index =>
        apply List.ext_getElem?
        intro j
        change ((a.script.code.modify index _).map Instruction.line)[j]? = _
        rw [List.getElem?_map, List.getElem?_modify, List.getElem?_map]
        cases a.script.code[j]? with
        | none => rfl
        | some i =>
            change some (if index = j then i.append [.int line] else i).line = some i.line
            split <;> rfl
  unfold extended emit Script.emit
  rw [List.map_append, linked]
  rfl

/-- What an instruction on this line may add to the lines of the code. -/
def AddsLine (a b : Assembly) (line : Int) : Prop :=
  ∃ new, new.Sublist [line] ∧
    b.script.code.map Instruction.line = a.script.code.map Instruction.line ++ new

theorem adds_adds_line (adds : Adds a b s) : AddsLine a b s.line := by
  rcases adds.code with same | ⟨i, more, line, -⟩
  · exact ⟨[], List.nil_sublist _, by rw [same, List.append_nil]⟩
  · exact ⟨[s.line], List.Sublist.refl _, by rw [more, List.map_append, ← line]; rfl⟩

theorem meets_adds_line {kw : KeywordSpec} {previous : Option Nat} {loopLine : Option Int}
    {r : Option Rejection} (meets : Meets c a kw s previous loopLine b r)
    (goesOn : ∀ fault, r ≠ some (.fatal fault)) : AddsLine a b s.line := by
  cases meets with
  | fatal b fault => exact absurd rfl (goesOn fault)
  | outside back unknown => exact ⟨[s.line], List.Sublist.refl _, extended_lines a previous _ _ _⟩
  | taken params opens back waits =>
      exact ⟨[s.line], List.Sublist.refl _, extended_lines a previous _ _ _⟩

/-- A statement adds one instruction on its line, or none. -/
theorem take_adds_line {r : Option Rejection} (taken : a.take c s = (b, r))
    (goesOn : ∀ fault, r ≠ some (.fatal fault)) : AddsLine a b s.line := by
  cases take_moves taken with
  | skipped fault => exact ⟨[], List.nil_sublist _, (List.append_nil _).symm⟩
  | simple b other adds => exact adds_adds_line adds
  | begins kw b r isKeyword known meets => exact meets_adds_line meets goesOn
  | continues kw block outer b r isKeyword known blocks meets =>
      exact meets_adds_line (a := { a with blocks := outer }) meets goesOn

/-- The instructions of a script that is handed out stand on lines of statements, in their order. -/
theorem run_lines {ss : List Statement} {lastLine : Int} {script : Script}
    (ended : (run c lastLine a ss).result = .ok script) :
    ∃ new, new.Sublist (ss.map Statement.line) ∧
      script.code.map Instruction.line = a.script.code.map Instruction.line ++ new := by
  induction ss generalizing a with
  | nil =>
      unfold run at ended
      cases blocks : a.blocks with
      | nil =>
          simp only [blocks, Except.ok.injEq] at ended
          exact ⟨[], List.Sublist.refl _, by rw [ended, List.append_nil]⟩
      | cons block outer => simp [blocks] at ended
  | cons s rest ih =>
      -- Taken, skipped or given up with its block: what the statement has added stays.
      have both {b d : Assembly} (later : (run c lastLine d rest).result = .ok script)
          (same : d.script = b.script) (added : AddsLine a b s.line) :
          ∃ new, new.Sublist ((s :: rest).map Statement.line) ∧
            script.code.map Instruction.line = a.script.code.map Instruction.line ++ new := by
        obtain ⟨here, own, first⟩ := added
        obtain ⟨new, others, all⟩ := ih later
        exact ⟨here ++ new, own.append others, by rw [all, same, first, List.append_assoc]⟩
      rcases step : a.take c s with ⟨b, _ | fault | fault | fault⟩
      · simp only [run, step] at ended
        exact both (b := b) ended rfl (take_adds_line step (by simp))
      · simp only [run, step] at ended
        split at ended
        · exact both (b := b) ended rfl (take_adds_line step (by simp))
        · cases ended
      · simp only [run, step] at ended
        split at ended
        · exact both (b := b) ended rfl (take_adds_line step (by simp))
        · cases ended
      · simp [run, step] at ended

end Assembly

theorem assembled_lines {c : AssemblyContext} {tokens : List Token} {script : Script}
    (ended : (assemble c tokens).result = .ok script) :
    (script.code.map Instruction.line).Sublist ((statements tokens).map Statement.line) := by
  obtain ⟨new, part, all⟩ := Assembly.run_lines ended
  rw [all]
  exact part

/-! Lines and jumps. -/

namespace Machine

section Jumps

variable {m : Machine} {line : Int}

def jumped (m : Machine) (line : Int) (target? : Option Nat) : Except Reason Machine :=
  target?.elim (.error (.jumpNotFound line)) fun pc => .ok { m with pc := pc }

theorem jump_forward_eq (m : Machine) (line : Int) :
    m.jumpForward line = m.jumped line (forwardTarget? m.script.code m.pc line) := by
  unfold jumpForward jumped
  cases forwardTarget? m.script.code m.pc line <;> rfl

theorem jump_backward_eq (m : Machine) (line : Int) :
    m.jumpBackward line = m.jumped line (backwardTarget? m.script.code m.pc line) := by
  unfold jumpBackward jumped
  cases backwardTarget? m.script.code m.pc line <;> rfl

theorem jumped_iff {target? : Option Nat} {way : Nat → Prop}
    (found : ∀ j, target? = some j ↔ way j ∧ ∃ i, m.script.code[j]? = some i ∧ i.line = line)
    (m' : Machine) :
    m.jumped line target? = .ok m' ↔
      ∃ j i, m.script.code[j]? = some i ∧ i.line = line ∧ way j ∧ m' = { m with pc := j } := by
  constructor
  · intro went
    cases target? with
    | none => cases went
    | some j =>
        cases went
        obtain ⟨lies, i, there, here⟩ := (found j).mp rfl
        exact ⟨j, i, there, here, lies, rfl⟩
  · rintro ⟨j, i, there, here, lies, rfl⟩
    rw [(found j).mpr ⟨lies, i, there, here⟩]
    rfl

variable (distinct : (m.script.code.map Instruction.line).Nodup)

include distinct

theorem jump_forward_iff (m' : Machine) :
    m.jumpForward line = .ok m' ↔ ∃ j i, m.script.code[j]? = some i ∧ i.line = line ∧ m.pc < j ∧
      m' = { m with pc := j } := by
  rw [jump_forward_eq]
  exact jumped_iff (forward_target_iff distinct m.pc line) m'

theorem jump_backward_iff (within : m.pc < m.script.code.length) (m' : Machine) :
    m.jumpBackward line = .ok m' ↔ ∃ j i, m.script.code[j]? = some i ∧ i.line = line ∧ j < m.pc ∧
      m' = { m with pc := j } := by
  rw [jump_backward_eq]
  exact jumped_iff (backward_target_iff distinct (Nat.le_of_lt within) line) m'

end Jumps

end Machine

/-- Whatever the vocabulary, a line has no tokens if it is blank, and otherwise the tokens of one
statement. So the statements of a source are those of its lines that are not blank, and an assembly,
strict or lenient, hands out instructions on lines of statements, no two on one line and in the
order of the source. A machine on them that jumps to a line goes to the one instruction there, if
that is ahead in a jump forward or behind in a jump backward, and otherwise goes nowhere. -/
theorem one_instruction_a_line (schema : Schema) (file source : Text) (quoted : Option (List Text))
    (lenient : Bool) :
    (∀ v line n, newline ∉ line →
      (isBlank line = true → Token.lineTokens? v line n = some []) ∧
      (isBlank line = false →
        ∃ s, Token.OnLine n s ∧ Token.lineTokens? v line n = some (s.head :: s.args))) ∧
    ∃ tokens, Token.sourceTokens? schema.vocabulary source = some tokens ∧
      List.Forall₂ (Token.Stands schema.vocabulary) (statements tokens)
        (Token.shownLines 1 (lines source)) ∧
      ∀ script, (assemble ⟨schema, file, quoted, lenient⟩ tokens).result = .ok script →
        (script.code.map Instruction.line).Sublist ((statements tokens).map Statement.line) ∧
        (script.code.map Instruction.line).Pairwise (· < ·) ∧
        (∀ (j k : Nat) (i i' : Instruction), script.code[j]? = some i →
          script.code[k]? = some i' → i.line = i'.line → j = k) ∧
        ∀ m : Machine, m.script.code = script.code → m.pc < script.code.length → ∀ line m',
          (m.jumpForward line = .ok m' ↔
            ∃ j i, script.code[j]? = some i ∧ i.line = line ∧ m.pc < j ∧ m' = { m with pc := j }) ∧
          (m.jumpBackward line = .ok m' ↔
            ∃ j i, script.code[j]? = some i ∧ i.line = line ∧ j < m.pc ∧
              m' = { m with pc := j }) := by
  constructor
  · intro v line n oneLine
    exact ⟨fun blank => Token.blank_line_tokens v blank n,
      fun shown => Token.shown_line_tokens v oneLine shown n⟩
  · obtain ⟨tokens, read, same⟩ := source_tokens_statements schema.vocabulary source
    refine ⟨tokens, read, ?_, ?_⟩
    · rw [same]
      exact Token.lines_statements_shown schema.vocabulary (lines source) 1 (lines_clean source)
    · intro script ended
      have part := assembled_lines ended
      have ascend : (script.code.map Instruction.line).Pairwise (· < ·) :=
        (List.pairwise_map.mpr (same ▸ source_statements_ascend schema.vocabulary source)).sublist
          part
      -- Lines that ascend are distinct, so a line stands for one instruction.
      have distinct : (script.code.map Instruction.line).Nodup := ascend.imp Int.ne_of_lt
      refine ⟨part, ascend, fun _ _ _ _ => Machine.same_line_same_index distinct, ?_⟩
      intro m runs within line m'
      rw [← runs] at distinct within ⊢
      exact ⟨Machine.jump_forward_iff distinct m', Machine.jump_backward_iff distinct within m'⟩

/-- A lenient assembly of a source with blank lines and a carriage return, whose only loop end is
outside of a loop. -/
theorem stray_end_on_own_line :
    ∃ script, (∃ tokens, Token.sourceTokens? strayEndsSchema.vocabulary
        "<when>\r\n \n\n<until>" = some tokens ∧
        (assemble ⟨strayEndsSchema, "c.dts", none, true⟩ tokens).result = .ok script) ∧
      script.code.map Instruction.line = [1, 4] ∧
      (script.code.map Instruction.line).Pairwise (· < ·) ∧
      (Machine.start script .empty .ignore []).jumpForward 4 =
        .ok { Machine.start script .empty .ignore [] with pc := 1 } := by
  have names : strayEndsSchema.vocabulary = ⟨[], ["until", "when"]⟩ := by
    simp +decide [Schema.vocabulary, Schema.operationNames, Schema.keywordNames, strayEndsSchema,
      List.mergeSort, List.MergeSort.Internal.splitInTwo]
  obtain ⟨-, tokens, read, -, handed⟩ :=
    one_instruction_a_line strayEndsSchema "c.dts" "<when>\r\n \n\n<until>" none true
  have found : Token.sourceTokens? strayEndsSchema.vocabulary "<when>\r\n \n\n<until>" =
      some [⟨.keyword, "when", 1⟩, ⟨.keyword, "until", 4⟩] := by
    rw [names]
    decide +kernel
  obtain rfl := Option.some.inj (read.symm.trans found)
  obtain ⟨-, ascend, -, jumps⟩ := handed
    ⟨"c.dts", [⟨1, .ifNotGoto, [.int 4]⟩, ⟨4, .untilMet, []⟩], [], []⟩ rfl
  refine ⟨_, ⟨_, read, rfl⟩, rfl, ascend, ?_⟩
  exact (jumps _ rfl (by decide) 4 _).1.mpr ⟨1, _, rfl, rfl, by decide, rfl⟩

end DeviceScript

import DeviceScript.Proofs.Run.Formula
import DeviceScript.Proofs.Run.Missing
import DeviceScript.Proofs.Source.Instructions
import DeviceScript.Proofs.Token.RoundTrip

/-!
The conditions of assembled code. Every instruction that has a condition has the words of a formula,
with the line of a jump at one end, and keeps them so whatever its variables hold. So a condition
has the value of its formula, and a machine goes on by it.
-/

namespace DeviceScript

open Text Condition

/-! The arguments of statements. -/

theorem Token.of_word_operator {w : Text} {n : Int} (kind : (Token.ofWord w n).kind = .comparison) :
    (Token.ofWord w n).text ∈ operatorWords := by
  rcases Token.of_word_cases w n with ⟨t, same⟩ | ⟨-, text⟩
  · rw [same] at kind
    cases kind
  · rw [text]
    cases operator : isOperator w with
    | true => exact List.contains_iff_mem.mp operator
    | false =>
        unfold Token.ofWord at kind
        simp only [operator, Bool.false_eq_true, ↓reduceIte] at kind
        repeat' split at kind
        all_goals cases kind

theorem Token.arguments_operators (rest : Text) (n : Int) :
    ∀ t ∈ Token.arguments rest n, t.kind = .comparison → t.text ∈ operatorWords := by
  intro t member
  obtain ⟨w, -, rfl⟩ := List.mem_map.mp member
  exact Token.of_word_operator

theorem source_operators {source : Text} {s : Statement}
    (member : s ∈ sourceStatements Schema.standard.vocabulary source) :
    ∀ t ∈ s.args, t.kind = .comparison → t.text ∈ operatorWords := by
  obtain ⟨k, line, among, found⟩ := lines_statement_line member
  have oneLine := lines_clean source line among
  cases Token.line_statement_read standard_regular oneLine found with
  | keyword | operation => exact Token.arguments_operators _ _
  | sectionName | comment | inclusion | command => nofun

/-! Instructions with conditions. -/

def Opcode.isConditional : Opcode → Bool
  | .ifNotGoto | .elseIf | .loop | .endWhile | .untilMet => true
  | _ => false

/-- The instruction has the words of the formula and a line to jump to, forward from a branch or the
head of a loop and backward from the end of one. -/
inductive Instruction.Tests (i : Instruction) (f : Formula) (line : Int) : Prop
  | forward (op : i.op = .ifNotGoto ∨ i.op = .elseIf ∨ i.op = .loop)
      (params : i.params = f.words.map .text ++ [.int line])
  | backward (op : i.op = .endWhile ∨ i.op = .untilMet)
      (params : i.params = .int line :: f.words.map .text)

/-- A loop without a guard, or the end of one without a condition. -/
def Instruction.Unguarded (i : Instruction) : Prop :=
  (i.op = .loop ∨ i.op = .endWhile) ∧ ∃ line, i.params = [.int line]

theorem words_interpolated {f : Formula} (known : f.Known) (vars : Vars) :
    (f.words.map Value.text).map (Value.interpolate vars) =
      (f.filled vars).words.map Value.text := by
  rw [filled_words known, List.map_map, List.map_map]
  rfl

namespace Instruction

theorem interpolated_conditional {i : Instruction} (conditional : i.op.isConditional = true)
    (vars : Vars) : i.interpolated vars = i.params.map (Value.interpolate vars) := by
  have inside : i.op.isContextSwitch = false := by
    cases op : i.op <;> simp [op, Opcode.isConditional, Opcode.isContextSwitch] at conditional ⊢
  rw [interpolated, inside]
  rfl

variable {i : Instruction} {f : Formula} {line : Int}

theorem Tests.conditional (tests : i.Tests f line) : i.op.isConditional = true := by
  cases tests with
  | forward op => rcases op with op | op | op <;> rw [op] <;> rfl
  | backward op => rcases op with op | op <;> rw [op] <;> rfl

/-- Filling in variables leaves the jump and the kind of the instruction as they are. -/
theorem Tests.filled (tests : i.Tests f line) (known : f.Known) (vars : Vars) :
    ({ i with params := i.interpolated vars } : Instruction).Tests (f.filled vars) line := by
  rw [interpolated_conditional tests.conditional]
  cases tests with
  | forward op params =>
      refine .forward op ?_
      rw [params, List.map_append, words_interpolated known]
      rfl
  | backward op params =>
      refine .backward op ?_
      rw [params, List.map_cons, words_interpolated known]
      rfl

end Instruction

/-- The conditional instructions that a statement is compiled to. -/
inductive Statement.Asks (s : Statement) : Instruction → Prop
  | forward {op : Opcode} (begins : op = .ifNotGoto ∨ op = .elseIf ∨ op = .loop)
      (condition : IsCondition s.args) (line : Int) :
      Asks s ⟨s.line, op, s.words ++ [.int line]⟩
  | backward {op : Opcode} (ends : op = .endWhile ∨ op = .untilMet)
      (condition : IsCondition s.args) (line : Int) : Asks s ⟨s.line, op, .int line :: s.words⟩
  | unguarded {op : Opcode} (loops : op = .loop ∨ op = .endWhile) (none : s.args = [])
      (line : Int) : Asks s ⟨s.line, op, [.int line]⟩

def Asked (ss : List Statement) (code : List Instruction) : Prop :=
  ∀ i ∈ code, i.op.isConditional = true → ∃ s ∈ ss, s.Asks i

namespace Asked

variable {ss ts : List Statement} {code more : List Instruction}

theorem append (first : Asked ss code) (second : Asked ts more) :
    Asked (ss ++ ts) (code ++ more) := by
  intro i member conditional
  rcases List.mem_append.mp member with here | later
  · obtain ⟨s, among, asks⟩ := first i here conditional
    exact ⟨s, List.mem_append_left ts among, asks⟩
  · obtain ⟨s, among, asks⟩ := second i later conditional
    exact ⟨s, List.mem_append_right ss among, asks⟩

theorem cons {s : Statement} {i : Instruction} (asks : s.Asks i) (rest : Asked ss code) :
    Asked (s :: ss) (i :: code) := by
  have own : Asked [s] [i] := by
    intro j member _
    exact ⟨s, List.mem_singleton_self s, List.mem_singleton.mp member ▸ asks⟩
  exact own.append rest

theorem skip {s : Statement} {i : Instruction} (plain : i.op.isConditional = false)
    (rest : Asked ss code) : Asked (s :: ss) (i :: code) := by
  have own : Asked [s] [i] := by
    intro j member conditional
    rw [List.mem_singleton.mp member, plain] at conditional
    cases conditional
  exact own.append rest

end Asked

theorem statement_code_asked (s : Statement) : Asked [s] s.code := by
  intro i member conditional
  unfold Statement.code at member
  repeat' split at member
  all_goals
    simp only [List.mem_singleton, List.not_mem_nil] at member
  all_goals
    subst member
    cases conditional

theorem Statement.IsEndWhile.asks {s : Statement} (ends : s.IsEndWhile) (line : Int) :
    s.Asks ⟨s.line, .endWhile, .int line :: s.words⟩ := by
  rcases ends.2 with condition | none
  · exact .backward (.inl rfl) condition line
  · have words : s.words = [] := by
      unfold Statement.words
      rw [none]
      rfl
    rw [words]
    exact .unguarded (.inr rfl) none line

-- By the derivation: every instruction of a block is that of the statement in its place.
mutual

theorem Block.code_asked : (b : Block) → b.Fits → Asked b.statements b.code
  | .done, _ => nofun
  | .simple s rest, fits => (statement_code_asked s).append (rest.code_asked fits.2)
  | .branch _ body chain rest, ⟨opens, inside, follows, fits⟩ =>
      .cons (.forward (.inl rfl) opens.2 chain.line)
        ((body.code_asked inside).append ((chain.code_asked follows).append (rest.code_asked fits)))
  | .whileLoop head body last rest, ⟨opens, inside, ends, fits⟩ =>
      .cons (.forward (.inr (.inr rfl)) opens.2 last.line)
        ((body.code_asked inside).append (.cons (ends.asks head.line) (rest.code_asked fits)))
  | .untilLoop head body last rest, ⟨opens, inside, ends, fits⟩ =>
      .cons (.unguarded (.inl rfl) opens.2 last.line)
        ((body.code_asked inside).append
          (.cons (.backward (.inr rfl) ends.2 head.line) (rest.code_asked fits)))

theorem Chain.code_asked : (k : Chain) → k.Fits → Asked k.statements k.code
  | .close _, _ => .skip rfl nofun
  | .elseIf _ body rest, ⟨opens, inside, follows⟩ =>
      .cons (.forward (.inr (.inl rfl)) opens.2 rest.line)
        ((body.code_asked inside).append (rest.code_asked follows))
  | .otherwise _ body _, ⟨_, inside, _⟩ =>
      .skip rfl ((body.code_asked inside).append (.skip rfl nofun))

end

/-- A conditional instruction has no condition, or that of its statement. -/
theorem Statement.Asks.tests {s : Statement} {i : Instruction} (asks : s.Asks i)
    (operators : ∀ t ∈ s.args, t.kind = .comparison → t.text ∈ operatorWords) :
    s.line = i.line ∧ (s.args = [] ∧ i.Unguarded ∨ ∃ (f : Formula) (line : Int),
      f.words = s.args.map Token.text ∧ f.Known ∧ i.Tests f line) := by
  have formula (condition : IsCondition s.args) : ∃ f : Formula,
      f.words = s.args.map Token.text ∧ f.Known ∧ s.words = f.words.map .text := by
    obtain ⟨f, words, known⟩ := condition_formula condition operators
    refine ⟨f, words, known, ?_⟩
    rw [words, List.map_map]
    rfl
  cases asks with
  | forward begins condition line =>
      obtain ⟨f, words, known, params⟩ := formula condition
      exact ⟨rfl, .inr ⟨f, line, words, known, .forward begins (by rw [params])⟩⟩
  | backward ends condition line =>
      obtain ⟨f, words, known, params⟩ := formula condition
      exact ⟨rfl, .inr ⟨f, line, words, known, .backward ends (by rw [params])⟩⟩
  | unguarded loops none line => exact ⟨rfl, .inl ⟨none, loops, line, rfl⟩⟩

/-! The machine at a condition. -/

namespace Machine

variable {ω : Type}

theorem visits_missing {h : Host ω} {fuel left : Nat} {m n : Machine} {w v : ω}
    (visits : Visits h fuel m w left n v) : n.missing = m.missing := by
  induction visits with
  | here => rfl
  | @onward fuel left m m' n w w' v next _ ih =>
      obtain ⟨i, -, -, -, stepped, -⟩ := (next_iff ..).mp next
      have kept := m.step_missing (h := h) (run h fuel) i w
      rw [stepped] at kept
      exact ih.trans kept

/-- How the machine goes on by the value of a condition: past it if it holds, to the line of the
jump or past that if not, and nowhere if there is no value. A chain that has taken a branch jumps
without asking. -/
inductive Decides (m : Machine) (i : Instruction) (line : Int) (value : Except Reason Bool)
    (w : ω) : Progress ω → Prop
  | valueless {reason : Reason} (lacks : value = .error reason) :
      Decides m i line value w (m.refuse .expression reason w)
  | holds {m' : Machine} (met : value = .ok true) (next : m'.pc = m.pc + 1) :
      Decides m i line value w (.ok m' w)
  | fails {m' : Machine} {j : Nat} {goal : Instruction} (unmet : value = .ok false)
      (there : m.script.code[j]? = some goal) (here : goal.line = line)
      (jumps : m'.pc = if i.op = .loop then j + 1 else j) : Decides m i line value w (.ok m' w)
  | passed {m' : Machine} {j : Nat} {goal : Instruction} (chain : i.op = .elseIf)
      (taken : m.stack.peek = .ok true) (there : m.script.code[j]? = some goal)
      (here : goal.line = line) (jumps : m'.pc = j) : Decides m i line value w (.ok m' w)

section Decides

variable {m : Machine} {i : Instruction} {line : Int} {w : ω} {j : Nat}

theorem decided_decides {yes no : Machine} {value : Except Reason Bool}
    (goal : ∃ g, m.script.code[j]? = some g ∧ g.line = line) (next : yes.pc = m.pc + 1)
    (jumps : no.pc = if i.op = .loop then j + 1 else j) :
    m.Decides i line value w (m.follow (decided value yes no) w) := by
  obtain ⟨g, there, here⟩ := goal
  cases found : value with
  | error reason => exact .valueless rfl
  | ok holds =>
      cases holds with
      | true => exact .holds rfl next
      | false => exact .fails rfl there here jumps

theorem evaluate_rendered (f : Formula) :
    evaluate ((f.words.map Value.text).map Value.render) = f.value := by
  rw [List.map_map, ← evaluate_words]
  exact congrArg evaluate (List.map_id _)

theorem formula_words_some (f : Formula) : f.words.map Value.text ≠ [] := List.cons_ne_nil _ _

variable (distinct : (m.script.code.map Instruction.line).Nodup) (f : Formula)

include distinct

section Forward

variable (target : forwardTarget? m.script.code m.pc line = some j)

include target

theorem if_not_goto_decides (op : i.op = .ifNotGoto) :
    m.Decides i line f.value w (m.ifNotGoto (f.words.map .text ++ [.int line]) w) := by
  rw [if_not_goto_linked target, evaluate_rendered]
  apply decided_decides ((forward_target_iff distinct m.pc line j).mp target).2 rfl
  rw [op]
  rfl

theorem else_if_decides (op : i.op = .elseIf) {taken : Bool} {outer : List Bool}
    (stack : m.stack = ⟨taken :: outer⟩) :
    m.Decides i line f.value w (m.follow (m.elseIf (f.words.map .text ++ [.int line])) w) := by
  have goal := ((forward_target_iff distinct m.pc line j).mp target).2
  rw [else_if_linked target taken outer stack, evaluate_rendered]
  cases taken with
  | true =>
      obtain ⟨g, there, here⟩ := goal
      exact .passed op (by rw [stack]; rfl) there here rfl
  | false =>
      apply decided_decides goal rfl
      rw [op]
      rfl

theorem loop_decides (op : i.op = .loop) :
    m.Decides i line f.value w (m.follow (m.loop (f.words.map .text ++ [.int line])) w) := by
  rw [loop_linked target, if_neg (formula_words_some f), evaluate_rendered]
  apply decided_decides ((forward_target_iff distinct m.pc line j).mp target).2 rfl
  rw [op]
  rfl

end Forward

theorem loop_end_decides (within : m.pc ≤ m.script.code.length)
    (target : backwardTarget? m.script.code m.pc line = some j) (ends : i.op ≠ .loop)
    (op : Opcode) :
    m.Decides i line f.value w (m.follow (m.loopEnd op (.int line :: f.words.map .text)) w) := by
  rw [loop_end_linked op target, if_neg (formula_words_some f), evaluate_rendered]
  apply decided_decides ((backward_target_iff distinct within line j).mp target).2 rfl
  rw [if_neg ends]

end Decides

/-! Where the jumps of linked code lead to. -/

section Linked

variable {m : Machine} {before after : List Instruction} {i : Instruction}
variable (stands : m.Stands before i after) (lines : (m.script.code.map Instruction.line).Nodup)
variable {words own : List Value} {line : Int}

include stands lines

theorem Stands.forward_line {next : Instruction} {body rest : List Instruction}
    (linked : i.params = words ++ [.int next.line]) (split : after = body ++ next :: rest)
    (params : i.params = own ++ [.int line]) :
    ∃ j, forwardTarget? m.script.code m.pc line = some j := by
  obtain ⟨-, last⟩ := List.append_inj' (linked.symm.trans params) rfl
  obtain rfl : next.line = line := by simpa using last
  exact ⟨_, stands.forward_target lines split⟩

theorem Stands.backward_line {head : Instruction} {outer body : List Instruction}
    (linked : i.params = .int head.line :: words) (split : before = outer ++ head :: body)
    (params : i.params = .int line :: own) :
    ∃ j, backwardTarget? m.script.code m.pc line = some j := by
  obtain ⟨first, -⟩ := List.cons.inj (linked.symm.trans params)
  obtain rfl : head.line = line := by simpa using first
  exact ⟨_, stands.backward_target lines split⟩

end Linked

/-- A machine that runs linked code goes on by the formulas of its conditions. -/
theorem Nested.decides {m : Machine} (linked : m.script.Linked) (nested : m.Nested)
    {i : Instruction} (current : m.script.code[m.pc]? = some i) {f : Formula} {line : Int}
    (known : f.Known) (tests : i.Tests f line) (h : Host ω) (child : Machine → ω → Progress ω)
    (w : ω) :
    m.Decides i line (f.filled m.vars).value w (m.execute h child i (i.interpolated m.vars) w) := by
  obtain ⟨before, after, stands⟩ := nested.stands current
  have link : LinkedAt before i after := by
    simpa using along_split [] m.script.code [] linked.links before i after stands.code
  rw [Instruction.interpolated_conditional tests.conditional]
  cases tests with
  | forward op params =>
      have filled : i.params.map (Value.interpolate m.vars) =
          (f.filled m.vars).words.map .text ++ [.int line] := by
        rw [params, List.map_append, words_interpolated known]
        rfl
      rw [filled]
      rcases op with op | op | op <;> simp only [LinkedAt, op] at link <;> simp only [execute, op]
      · obtain ⟨words, body, next, rest, last, split, -⟩ := link
        obtain ⟨j, target⟩ := stands.forward_line linked.lines last split params
        exact if_not_goto_decides linked.lines _ target op
      · obtain ⟨within, words, body, next, rest, last, split, -⟩ := link
        obtain ⟨j, target⟩ := stands.forward_line linked.lines last split params
        -- A chain is open here, so there is an entry to look at.
        obtain ⟨taken, outer, stack, -⟩ := stands.top within
        exact else_if_decides linked.lines _ target op stack
      · obtain ⟨words, body, next, rest, last, split, -⟩ := link
        obtain ⟨j, target⟩ := stands.forward_line linked.lines last split params
        exact loop_decides linked.lines _ target op
  | backward op params =>
      have filled : i.params.map (Value.interpolate m.vars) =
          .int line :: (f.filled m.vars).words.map .text := by
        rw [params, List.map_cons, words_interpolated known]
        rfl
      rw [filled]
      rcases op with op | op <;> simp only [LinkedAt, op] at link <;> simp only [execute, op]
      all_goals
        obtain ⟨words, outer, head, body, first, split, -⟩ := link
        obtain ⟨j, target⟩ := stands.backward_line linked.lines first split params
        exact loop_end_decides linked.lines _ nested.within target (by simp [op]) _

end Machine

/-- The conditions of what assembly hands out, strictly or leniently. Every branch, loop and loop
end has no condition or the one of the statement on its line, as the words of a formula. Whatever
the variables hold, these words are those of the same comparisons and conjunctions in the same order
with operands filled in, next to the same line to jump to; their value is that of the formula, and
it is lacking only over operands that are no numbers or a pattern that cannot be read. In a run that
does not insist on its variables the machine goes on by that value wherever it comes to the
condition. -/
theorem conditions_evaluable {file source : Text} {quoted : Option (List Text)} {lenient : Bool}
    {tokens : List Token} {script : Script}
    (read : Token.sourceTokens? Schema.standard.vocabulary source = some tokens)
    (ended : (assemble ⟨Schema.standard, file, quoted, lenient⟩ tokens).result = .ok script) :
    ∀ i ∈ script.code, i.op.isConditional = true →
      ∃ s ∈ statements tokens, s.line = i.line ∧ (s.args = [] ∧ i.Unguarded ∨
        ∃ (f : Formula) (line : Int), f.words = s.args.map Token.text ∧ i.Tests f line ∧
          (∀ vars : Vars,
            ({ i with params := i.interpolated vars } : Instruction).Tests (f.filled vars) line ∧
            (f.filled vars).shape = f.shape ∧
            evaluate (f.filled vars).words = (f.filled vars).value ∧
            ∀ reason, (f.filled vars).value = .error reason →
              ∃ t ∈ (f.filled vars).tests, t.Lacks reason) ∧
          ∀ {ω : Type} (h : Host ω) (m : Machine) (w : ω) (fuel left : Nat) (n : Machine) (v : ω),
            m.Fresh → m.script = script → m.missing ≠ .error →
            Machine.Visits h fuel m w left n v → script.code[n.pc]? = some i → ∀ child, ∃ told,
              n.Decides i line (f.filled n.vars).value told (n.step h child i v)) := by
  obtain ⟨b, fits, among, ascend, code⟩ := kept_derivation read ended
  have linked : script.Linked :=
    assembled_linked ⟨file, quoted, lenient, source, tokens, read, ended⟩
  obtain ⟨_, again, same⟩ := source_tokens_statements Schema.standard.vocabulary source
  cases again.symm.trans read
  intro i member conditional
  obtain ⟨s, kept, asks⟩ := b.code_asked fits i (code ▸ member) conditional
  have given := among.subset kept
  obtain ⟨here, unguarded | ⟨f, line, words, known, tests⟩⟩ :=
    asks.tests (source_operators (same ▸ given))
  · exact ⟨s, given, here, .inl unguarded⟩
  · refine ⟨s, given, here, .inr ⟨f, line, words, tests, ?_, ?_⟩⟩
    · intro vars
      refine ⟨tests.filled known vars, filled_shape f vars, evaluate_words _, ?_⟩
      intro reason valueless
      obtain ⟨t, tested, lacks⟩ := formula_valueless valueless
      exact ⟨t, tested, known_valueless (filled_known known vars t tested) lacks⟩
    · rintro ω h m w fuel left n v fresh rfl policy visits current child
      -- The machine has come here over boundaries at which it was nested, so it is here too.
      obtain ⟨script, nested⟩ := Machine.visits_nested visits linked fresh.nested
      rw [← script] at linked current
      rcases Machine.step_cases h n i v with ⟨_, missing, -⟩ | ⟨told, step⟩
      · exact absurd ((Machine.visits_missing visits).symm.trans missing) policy
      · rw [step child]
        exact ⟨told, nested.decides linked current known tests h child told⟩

def pollingGuard : Instruction := ⟨1, .loop, [.text "$n", .text "<", .text "2", .int 6]⟩

/-- The guard of the polling script, over a variable that holds a condition itself and, in a run,
over a number. -/
theorem polling_guard_evaluated :
    Token.sourceTokens? Schema.standard.vocabulary polling = some pollingTokens ∧
    (assemble ⟨Schema.standard, "poll", none, false⟩ pollingTokens).result = .ok pollingScript ∧
    ∃ (f : Formula) (line : Int), pollingGuard.Tests f line ∧
      evaluate (f.filled (Vars.ofList [("n", "1 or 2 == 2")])).words =
        .error (.notNumeric "<" "1 or 2 == 2" "2") ∧
      let m := Machine.start pollingScript (Vars.ofList [("n", "1")]) .warn []
      ∀ child, ∃ told, m.Decides pollingGuard line (.ok true) told
        (m.step Host.inMemory child pollingGuard .empty) := by
  refine ⟨polling_tokens, polling_accepted, ?_⟩
  obtain ⟨s, given, here, guard⟩ :=
    conditions_evaluable polling_tokens polling_accepted pollingGuard (by decide) rfl
  have first : ∀ s ∈ statements pollingTokens, s.line = 1 →
      s.args.map Token.text = ["$n", "<", "2"] := by decide
  have text := first s given here
  rcases guard with ⟨none, -⟩ | ⟨f, line, words, tests, evaluates, follows⟩
  · rw [none] at text
    cases text
  · obtain rfl : f = ⟨⟨"$n", "<", "2"⟩, []⟩ := by
      obtain ⟨⟨left, word, right⟩, more⟩ := f
      rw [text] at words
      cases more with
      | nil => simpa [Formula.words, Formula.wordsFrom, Test.words] using words
      | cons next rest => simp [Formula.words, Formula.wordsFrom, Test.words] at words
    have holds : (Formula.filled ⟨⟨"$n", "<", "2"⟩, []⟩ (Vars.ofList [("n", "1")])).value =
        .ok true := by decide +kernel
    refine ⟨_, line, tests, ?_, ?_⟩
    · rw [(evaluates (Vars.ofList [("n", "1 or 2 == 2")])).2.2.1]
      rfl
    · rw [← holds]
      exact follows Host.inMemory _ .empty 20 20 _ .empty ⟨rfl, rfl, rfl⟩ rfl (by decide)
        (.here ..) rfl

end DeviceScript

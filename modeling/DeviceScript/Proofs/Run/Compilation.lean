import DeviceScript.Proofs.Run.Safety
import DeviceScript.Proofs.Run.View

/-!
A block and its code: wherever the code stands in a script, the machine that runs it makes the
course of the block.
-/

namespace DeviceScript

open Machine

variable {ω : Type} {h : Host ω}

-- Nothing happens between two keywords: a run that is not stopped at the one is not stopped at
-- the other.
theorem pass_pass (s : Setting) (line later : Int) (c : Scene ω) :
    Course.choose (s.verdict h line [] true c) c (s.pass h later) .through = s.pass h line c := by
  unfold Setting.pass Setting.verdict
  cases stop : stopReason? h c.world with
  | some text => rfl
  | none => simp [Course.choose, Setting.condition, map_error_ok, stop]

theorem Follows.nothing (bound least : Nat) (exit : Scene ω → Machine) (c : Scene ω) :
    Follows h bound least (exit c) c.world (.through c) exit :=
  .arrives rfl (.refl _ _)

theorem length_past (before : List Instruction) (i : Instruction) (body : List Instruction) :
    (before ++ i :: body).length = before.length + 1 + body.length := by
  simp only [List.length_append, List.length_cons]
  omega

theorem condition_words {st : Statement} (form : Statement.IsCondition st.args) :
    st.words ≠ [] := by
  have given := form.ne_nil
  simpa [Statement.words] using given

theorem statement_code_cases (st : Statement) :
    st.code = [] ∨ ∃ i : Instruction, st.code = [i] ∧ i.op.isControl = false := by
  unfold Statement.code
  repeat' split
  all_goals first | exact .inl rfl | exact .inr ⟨_, rfl, rfl⟩

/-- The code of the block makes its course, wherever it stands in the script and whatever chains
are open around it. -/
def Block.Runs (h : Host ω) (s : Setting) (script : Script) (bound : Nat) (b : Block) : Prop :=
  ∀ before after, script.code = before ++ (b.code ++ after) → ∀ stack c pc out,
    pc = before.length → out = before.length + b.code.length →
    Follows h (bound + 1) bound (s.machine script pc stack c) c.world (b.course h s bound c)
      (fun c => s.machine script out stack c)

section Blocks

variable (quiet : h.Quiet) {s : Setting} (policy : s.missing ≠ .error) {script : Script}
variable (path : script.path = s.path) (distinct : (script.code.map Instruction.line).Nodup)
variable (bound least : Nat)

include quiet policy path

/-- The end of a chain, whether or not a branch of it has been taken. -/
theorem chain_closed {before after : List Instruction} {line : Int}
    (split : script.code = before ++ ⟨line, .fi, []⟩ :: after) (taken : Bool) (outer : List Bool)
    (c : Scene ω) {pc : Nat} (place : pc = before.length) :
    Follows h bound least (s.machine script pc ⟨taken :: outer⟩ c) c.world (s.pass h line c)
      (fun c => s.machine script (pc + 1) ⟨outer⟩ c) := by
  subst place
  refine (fi_follows quiet policy path split ?_).weaken (Nat.le_add_left least 1)
  exact .nothing _ _ (fun c => s.machine script (before.length + 1) ⟨outer⟩ c) c

include distinct

/-- A chain of which a branch has been taken is left at its end. -/
theorem chain_passed : (k : Chain) → (before after : List Instruction) →
    script.code = before ++ (k.code ++ after) → (outer : List Bool) → (c : Scene ω) →
    (pc out : Nat) → pc = before.length → out = before.length + k.code.length →
    Follows h bound least (s.machine script pc ⟨true :: outer⟩ c) c.world
      (s.pass h k.line c) (fun c => s.machine script out ⟨outer⟩ c)
  | .close last, before, after, split, outer, c, _, _, rfl, rfl =>
      chain_closed quiet policy path bound least split true outer c rfl
  | .elseIf head body rest, before, after, split, outer, c, _, _, rfl, rfl => by
      obtain ⟨next, others, begins, line⟩ := rest.code_begins
      have here : script.code = before ++ ⟨head.line, .elseIf, head.words ++ [.int rest.line]⟩ ::
          (body.code ++ next :: (others ++ after)) := by
        simp [split, Chain.code, begins]
      have beyond : script.code =
          (before ++ ⟨head.line, .elseIf, head.words ++ [.int rest.line]⟩ :: body.code) ++
            (rest.code ++ after) := by
        simp [split, Chain.code]
      -- One branch after the other is passed, each by the line that it ends with.
      have passed := chain_passed rest _ after beyond outer c
        (before.length + 1 + body.code.length)
        (before.length + (Chain.elseIf head body rest).code.length)
        (length_past ..).symm (by simp [Chain.code]; omega)
      have all := else_if_passed quiet policy path distinct here line passed
      rw [pass_pass] at all
      exact all.weaken (Nat.le_add_left least 1)
  | .otherwise head body last, before, after, split, outer, c, _, _, rfl, rfl => by
      have here : script.code = before ++ ⟨head.line, .elseBranch, [.int last.line]⟩ ::
          (body.code ++ ⟨last.line, .fi, []⟩ :: after) := by
        simp [split, Chain.code]
      have beyond : script.code = (before ++ ⟨head.line, .elseBranch, [.int last.line]⟩ ::
          body.code) ++ ⟨last.line, .fi, []⟩ :: after := by
        simp [split, Chain.code]
      have closed := chain_closed quiet policy path bound least beyond true outer c
        (length_past ..).symm
      have all := else_follows quiet policy path distinct true here rfl closed
      rw [pass_pass] at all
      have out : before.length + (Chain.otherwise head body last).code.length =
          before.length + 1 + body.code.length + 1 := by
        simp [Chain.code]
        omega
      rw [out]
      exact all.weaken (Nat.le_add_left least 1)

omit distinct in
/-- Rounds of a loop whose body has been followed. -/
theorem rounds_follow {before body after : List Instruction} {line lastLine : Int} {op : Opcode}
    (which : op = .endWhile ∨ op = .untilMet) {guard leave : List Value}
    (distinct : (script.code.map Instruction.line).Nodup)
    (split : script.code = before ++ ⟨line, .loop, guard ++ [.int lastLine]⟩ ::
      (body ++ ⟨lastLine, op, .int line :: leave⟩ :: after))
    (stack : ControlStack) {inner : Scene ω → Course ω}
    (follows : ∀ c : Scene ω, Follows h bound least (s.machine script (before.length + 1) stack c)
      c.world (inner c) (fun c => s.machine script (before.length + 1 + body.length) stack c))
    (rounds : Nat) (most : rounds ≤ least) (c : Scene ω) :
    Follows h bound rounds (s.machine script before.length stack c) c.world
      (.rounds (s.verdict h line guard true) inner (s.verdict h lastLine leave false) rounds c)
      (fun c => s.machine script (before.length + 1 + body.length + 1) stack c) := by
  -- Every round takes a step at least, so a loop that is cut off has lasted as long as its bound.
  induction rounds generalizing c with
  | zero => exact .lasts rfl (Nat.le_refl 0) (.refl _ _)
  | succ rounds ih =>
      have fewer : rounds ≤ least := Nat.le_of_succ_le most
      have left (c : Scene ω) : Follows h bound rounds
          (s.machine script (before.length + 1 + body.length + 1) stack c) c.world (.through c)
          (fun c => s.machine script (before.length + 1 + body.length + 1) stack c) :=
        .nothing _ _ (fun c => s.machine script (before.length + 1 + body.length + 1) stack c) c
      have ended (c : Scene ω) :=
        loop_end_follows quiet policy path distinct which split rfl (left c) (ih fewer c)
      have round := ((follows c).weaken fewer).andThen
        (fun c => (ended c).weaken (Nat.le_add_left rounds 1))
      refine (loop_follows quiet policy path distinct split rfl round (left c)).weaken ?_
      omega

omit distinct in
theorem statement_follows (st : Statement) {before after : List Instruction}
    (split : script.code = before ++ (st.code ++ after)) (stack : ControlStack) (c : Scene ω)
    {out : Nat} (place : out = before.length + st.code.length) :
    Follows h (bound + 1) least (s.machine script before.length stack c) c.world
      (s.perform h bound st.code c) (fun c => s.machine script out stack c) := by
  subst place
  rcases statement_code_cases st with none | ⟨i, one, outward⟩
  · rw [none]
    have nothing : s.perform h bound [] c = .through c :=
      (course_past quiet (bound + 1) s .empty c rfl).2
    rw [nothing]
    exact .nothing _ _ (fun c => s.machine script before.length stack c) c
  · rw [one] at split ⊢
    exact perform_follows quiet policy path (current_split split) outward bound least stack c

include distinct

/-- A loop of either kind and what comes after it. -/
theorem loop_runs {body rest : Block} (inside : body.Runs h s script bound)
    (onward : rest.Runs h s script bound) {op : Opcode} (which : op = .endWhile ∨ op = .untilMet)
    {line lastLine : Int} {guard leave : List Value} {before after : List Instruction}
    (split : script.code = before ++ ⟨line, .loop, guard ++ [.int lastLine]⟩ ::
      (body.code ++ ⟨lastLine, op, .int line :: leave⟩ :: (rest.code ++ after)))
    (stack : ControlStack) (c : Scene ω) {out : Nat}
    (place : out = before.length + 1 + body.code.length + 1 + rest.code.length) :
    Follows h (bound + 1) bound (s.machine script before.length stack c) c.world
      ((Course.rounds (s.verdict h line guard true) (body.course h s bound)
        (s.verdict h lastLine leave false) bound c).andThen (rest.course h s bound))
      (fun c => s.machine script out stack c) := by
  generalize head : Instruction.mk line .loop (guard ++ [.int lastLine]) = i at split
  generalize last : Instruction.mk lastLine op (.int line :: leave) = j at split
  have within : script.code = (before ++ [i]) ++ (body.code ++ j :: (rest.code ++ after)) := by
    simp [split]
  have beyond : script.code = (before ++ i :: (body.code ++ [j])) ++ (rest.code ++ after) := by
    simp [split]
  have round (c : Scene ω) := inside _ _ within stack c (before.length + 1)
    (before.length + 1 + body.code.length) (by simp) (by simp)
  rw [← head, ← last] at split
  refine (rounds_follow quiet policy path (bound + 1) bound which distinct split stack round bound
    (Nat.le_refl bound) c).andThen ?_
  intro c
  apply onward _ _ beyond
  · rw [length_past, List.length_append, List.length_singleton, Nat.add_assoc]
  · simp [place]
    omega

mutual

theorem Block.follows : (b : Block) → b.Fits → b.Runs h s script bound
  | .done, _ => by
      rintro before after split stack c _ _ rfl rfl
      exact .nothing _ _ (fun c => s.machine script before.length stack c) c
  | .simple st rest, fits => by
      rintro before after split stack c _ _ rfl rfl
      have here : script.code = before ++ (st.code ++ (rest.code ++ after)) := by
        simp [split, Block.code]
      have beyond : script.code = (before ++ st.code) ++ (rest.code ++ after) := by
        simp [split, Block.code]
      refine (statement_follows quiet policy path bound bound st here stack c rfl).andThen ?_
      intro c
      exact Block.follows rest fits.2 _ after beyond stack c _ _ (by simp)
        (by simp [Block.code, Nat.add_assoc])
  | .branch head body chain rest, fits => by
      rintro before after split stack c _ _ rfl rfl
      obtain ⟨next, others, begins, line⟩ := chain.code_begins
      generalize instruction : Instruction.mk head.line .ifNotGoto
        (head.words ++ [.int chain.line]) = i
      have listing : script.code =
          before ++ i :: (body.code ++ (chain.code ++ (rest.code ++ after))) := by
        simp [split, Block.code, instruction]
      have here : script.code =
          before ++ ⟨head.line, .ifNotGoto, head.words ++ [.int chain.line]⟩ ::
            (body.code ++ next :: (others ++ (rest.code ++ after))) := by
        simp [listing, instruction, begins]
      have beyond : script.code =
          (before ++ i :: body.code) ++ (chain.code ++ (rest.code ++ after)) := by
        simp [listing]
      have within : script.code =
          (before ++ [i]) ++ (body.code ++ (chain.code ++ (rest.code ++ after))) := by
        simp [listing]
      -- A branch that is taken runs into the rest of its chain, with its entry on the stack.
      have inside (c : Scene ω) := Block.follows body fits.2.1 _ _ within (stack.push true) c
        (before.length + 1) (before.length + 1 + body.code.length) (by simp) (by simp)
      have passed (c : Scene ω) := chain_passed quiet policy path distinct (bound + 1) bound chain
        _ _ beyond stack.branches c (before.length + 1 + body.code.length)
        (before.length + 1 + body.code.length + chain.code.length) (length_past ..).symm
        (by rw [length_past])
      have others (c : Scene ω) := Chain.follows chain fits.2.2.1 _ _ beyond stack.branches c
        (before.length + 1 + body.code.length)
        (before.length + 1 + body.code.length + chain.code.length) (length_past ..).symm
        (by rw [length_past])
      have branched : Follows h (bound + 1) bound (s.machine script before.length stack c) c.world
          (.choose (s.verdict h head.line head.words true c) c
            (fun c => (body.course h s bound c).andThen (s.pass h chain.line))
            (chain.course h s bound))
          (fun c => s.machine script (before.length + 1 + body.code.length + chain.code.length)
            stack c) :=
        (if_follows quiet policy path distinct (condition_words fits.1.2) here line
          ((inside c).andThen passed) (others c)).weaken (Nat.le_add_left bound 1)
      refine branched.andThen ?_
      intro c
      refine Block.follows rest fits.2.2.2 (before ++ i :: (body.code ++ chain.code)) after ?_
        stack c _ _ ?_ ?_
      · simp [listing]
      · rw [length_past, List.length_append, Nat.add_assoc]
      · simp [Block.code]
        omega
  | .whileLoop head body last rest, fits => by
      rintro before after split stack c _ _ rfl rfl
      have listing : script.code = before ++ ⟨head.line, .loop, head.words ++ [.int last.line]⟩ ::
          (body.code ++ ⟨last.line, .endWhile, .int head.line :: last.words⟩ ::
            (rest.code ++ after)) := by
        simp [split, Block.code]
      refine loop_runs quiet policy path distinct bound (Block.follows body fits.2.1)
        (Block.follows rest fits.2.2.2) (.inl rfl) listing stack c ?_
      simp [Block.code]
      omega
  | .untilLoop head body last rest, fits => by
      rintro before after split stack c _ _ rfl rfl
      have listing : script.code = before ++ ⟨head.line, .loop, [] ++ [.int last.line]⟩ ::
          (body.code ++ ⟨last.line, .untilMet, .int head.line :: last.words⟩ ::
            (rest.code ++ after)) := by
        simp [split, Block.code]
      refine loop_runs quiet policy path distinct bound (Block.follows body fits.2.1)
        (Block.follows rest fits.2.2.2) (.inr rfl) listing stack c ?_
      simp [Block.code]
      omega

theorem Chain.follows : (k : Chain) → k.Fits → (before after : List Instruction) →
    script.code = before ++ (k.code ++ after) → (outer : List Bool) → (c : Scene ω) →
    (pc out : Nat) → pc = before.length → out = before.length + k.code.length →
    Follows h (bound + 1) bound (s.machine script pc ⟨false :: outer⟩ c) c.world
      (k.course h s bound c) (fun c => s.machine script out ⟨outer⟩ c)
  | .close last, _, before, after, split, outer, c, _, _, rfl, rfl =>
      chain_closed quiet policy path (bound + 1) bound split false outer c rfl
  | .elseIf head body rest, fits, before, after, split, outer, c, _, _, rfl, rfl => by
      obtain ⟨next, others, begins, line⟩ := rest.code_begins
      generalize instruction : Instruction.mk head.line .elseIf
        (head.words ++ [.int rest.line]) = i
      have listing : script.code = before ++ i :: (body.code ++ (rest.code ++ after)) := by
        simp [split, Chain.code, instruction]
      have here : script.code =
          before ++ ⟨head.line, .elseIf, head.words ++ [.int rest.line]⟩ ::
            (body.code ++ next :: (others ++ after)) := by
        simp [listing, instruction, begins]
      have beyond : script.code = (before ++ i :: body.code) ++ (rest.code ++ after) := by
        simp [listing]
      have within : script.code =
          (before ++ [i]) ++ (body.code ++ (rest.code ++ after)) := by
        simp [listing]
      have out : before.length + (Chain.elseIf head body rest).code.length =
          before.length + 1 + body.code.length + rest.code.length := by
        simp [Chain.code]
        omega
      rw [out]
      -- The body runs with the chain marked as taken, so what comes after it is only passed over.
      have inside (c : Scene ω) := Block.follows body fits.2.1 _ _ within ⟨true :: outer⟩ c
        (before.length + 1) (before.length + 1 + body.code.length) (by simp) (by simp)
      have passed (c : Scene ω) := chain_passed quiet policy path distinct (bound + 1) bound rest
        _ _ beyond outer c (before.length + 1 + body.code.length)
        (before.length + 1 + body.code.length + rest.code.length) (length_past ..).symm
        (by rw [length_past])
      have others := Chain.follows rest fits.2.2 _ _ beyond outer c
        (before.length + 1 + body.code.length)
        (before.length + 1 + body.code.length + rest.code.length) (length_past ..).symm
        (by rw [length_past])
      exact (else_if_follows quiet policy path distinct (condition_words fits.1.2) here line
        ((inside c).andThen passed) others).weaken (Nat.le_add_left bound 1)
  | .otherwise head body last, fits, before, after, split, outer, c, _, _, rfl, rfl => by
      have here : script.code = before ++ ⟨head.line, .elseBranch, [.int last.line]⟩ ::
          (body.code ++ ⟨last.line, .fi, []⟩ :: after) := by
        simp [split, Chain.code]
      have within : script.code =
          (before ++ [⟨head.line, .elseBranch, [.int last.line]⟩]) ++ (body.code ++
            ⟨last.line, .fi, []⟩ :: after) := by
        simp [here]
      have beyond : script.code =
          (before ++ ⟨head.line, .elseBranch, [.int last.line]⟩ :: body.code) ++
            ⟨last.line, .fi, []⟩ :: after := by
        simp [here]
      have out : before.length + (Chain.otherwise head body last).code.length =
          before.length + 1 + body.code.length + 1 := by
        simp [Chain.code]
        omega
      rw [out]
      -- No branch has been taken before, so the last one needs no condition.
      have entered : Follows h (bound + 1) bound
          (s.machine script before.length ⟨false :: outer⟩ c) c.world (s.pass h head.line c)
          (fun c => s.machine script (before.length + 1) ⟨false :: outer⟩ c) :=
        (else_follows quiet policy path distinct false here rfl (.nothing _ _
          (fun c => s.machine script (before.length + 1) ⟨false :: outer⟩ c) c)).weaken
          (Nat.le_add_left bound 1)
      have inside (c : Scene ω) := Block.follows body fits.2.1 _ _ within ⟨false :: outer⟩ c
        (before.length + 1) (before.length + 1 + body.code.length) (by simp) (by simp)
      have closed (c : Scene ω) := chain_closed quiet policy path (bound + 1) bound beyond false
        outer c (length_past ..).symm
      exact (entered.andThen inside).andThen closed

end

end Blocks

namespace Follows

variable {bound least : Nat} {m : Machine} {w : ω} {c : Course ω} {exit : Scene ω → Machine}

/-- A course that has been followed to the end of the code is a course of the machine, or else
one that is cut off after many steps. -/
theorem whole (follows : Follows h bound least m w c exit)
    (past : ∀ c : Scene ω, (exit c).course h (bound + 1) c.world = .through c) :
    (∃ longer, bound ≤ longer ∧ c = m.course h longer w) ∨
    ∃ count n v, c.breakdown = some .outOfFuel ∧ least ≤ count ∧
      Steps h bound count m w c.trace n v := by
  cases follows with
  | @arrives count done steps =>
      refine .inl ⟨bound + 1 + count, by omega, ?_⟩
      rw [steps.course (Nat.le_succ bound), past]
      obtain ⟨trace, scene, breakdown⟩ := c
      simp only at done
      simp [Course.after, Course.through, done]
  | @ends count trace n v broken steps last same =>
      refine .inl ⟨bound + 1 + count, by omega, ?_⟩
      rw [steps.course (Nat.le_succ bound), ← same]
  | lasts cut long steps => exact .inr ⟨_, _, _, cut, long, steps⟩

theorem forward (follows : Follows h bound least m w c exit)
    (past : ∀ c : Scene ω, (exit c).course h (bound + 1) c.world = .through c) :
    ∃ fuel, c.Within (m.course h fuel w) := by
  rcases follows.whole past with ⟨longer, -, same⟩ | ⟨count, n, v, cut, -, steps⟩
  · exact ⟨longer, .inl same⟩
  · refine ⟨bound + count, .inr ⟨cut, ?_⟩⟩
    rw [steps.course (Nat.le_refl bound)]
    exact List.prefix_append _ _

/-- Fuel that does not exceed the bounds lets the machine do no more than the course. -/
theorem backward (follows : Follows h bound least m w c exit)
    (past : ∀ c : Scene ω, (exit c).course h (bound + 1) c.world = .through c) {fuel : Nat}
    (short : fuel ≤ bound) (few : fuel ≤ least) : (m.course h fuel w).Within c := by
  rcases follows.whole past with ⟨longer, most, same⟩ | ⟨count, n, v, cut, long, steps⟩
  · rw [same]
    exact course_more (Nat.le_trans short most) m w
  · right
    rcases steps.shorter short with part | ⟨left, total, all⟩
    · exact part
    · -- There were at least as many steps as there was fuel.
      have none : left = 0 := by omega
      subst none
      rw [all]
      exact ⟨rfl, by simp [Course.after, course, dispatched]⟩

end Follows

/-- A block and a machine that runs its code and nothing else. -/
theorem block_runs (quiet : h.Quiet) {s : Setting} (policy : s.missing ≠ .error) {script : Script}
    (path : script.path = s.path) {b : Block} (fits : b.Fits) (ascend : LinesAscend b.statements)
    (code : script.code = b.code) (bound : Nat) (c : Scene ω) :
    (∃ fuel, (b.course h s bound c).Within ((s.machine script 0 .empty c).course h fuel c.world)) ∧
    ∀ fuel, fuel ≤ bound →
      ((s.machine script 0 .empty c).course h fuel c.world).Within (b.course h s bound c) := by
  have distinct : (script.code.map Instruction.line).Nodup := by
    rw [code]
    exact (b.code_lines_ascend ascend).imp Int.ne_of_lt
  have follows := Block.follows quiet policy path distinct bound b fits [] [] (by simp [code])
    .empty c 0 script.code.length rfl (by simp [code])
  have past (c : Scene ω) :
      (s.machine script script.code.length .empty c).course h (bound + 1 + 1) c.world =
        .through c :=
    (course_past quiet (bound + 1) s .empty c (by simp)).2
  exact ⟨follows.forward past, fun fuel short =>
    follows.backward past (Nat.le_succ_of_le short) short⟩

/-- The run of an accepted source is what the source says as a program of chains and loops, on
any host, with whatever records and observers it has beside a core of session, operations and
loader. For every bound on the program there is a bound on the run, and for every bound on the run
one on the program, with which the one course is the other or, where a bound cuts it off, a
beginning of it: the same simple instructions with the same parameters, the same variables, device
and world at the end, and the same outcome on the same line. -/
theorem compiled_run_as_written (file source : Text) (quoted : Option (List Text))
    (tokens : List Token)
    (read : Token.sourceTokens? Schema.standard.vocabulary source = some tokens) (script : Script)
    (accepted : (assemble ⟨Schema.standard, file, quoted, false⟩ tokens).result = .ok script)
    (program : Block) (fits : program.Fits) (written : program.statements = statements tokens)
    {ω σ : Type} (h : Host ω) (core : Host σ) (view : ω → σ) (shows : h.Shows core view)
    (quiet : core.Quiet) (vars : Vars) (missing : MissingPolicy) (policy : missing ≠ .error)
    (runId : Text) (w : ω) :
    (∀ bound, ∃ fuel,
      (program.course core ⟨script.path, 0, runId, missing⟩ bound ⟨vars, [], view w⟩).Within
        (((Machine.start script vars missing runId).course h fuel w).seen view)) ∧
    (∀ fuel, ∃ bound,
      (((Machine.start script vars missing runId).course h fuel w).seen view).Within
        (program.course core ⟨script.path, 0, runId, missing⟩ bound ⟨vars, [], view w⟩)) := by
  obtain ⟨_, again, same⟩ := source_tokens_statements Schema.standard.vocabulary source
  cases again.symm.trans read
  have ascend : LinesAscend program.statements := by
    rw [written, same]
    exact source_statements_ascend Schema.standard.vocabulary source
  obtain ⟨a, taken, -, rfl⟩ := (Assembly.run_strict_ok_iff rfl _ _ _ _).mp accepted
  have code : a.script.code = program.code := Assembly.taken_code rfl fits (written ▸ taken)
  simp only [course_seen shows quiet]
  have runs (bound : Nat) := block_runs quiet (s := ⟨a.script.path, 0, runId, missing⟩) policy rfl
    fits ascend code bound ⟨vars, [], view w⟩
  exact ⟨fun bound => (runs bound).1, fun fuel => ⟨fuel, (runs fuel).2 fuel (Nat.le_refl fuel)⟩⟩

/-! The polling script as a program, and its session with a journal beside it. -/

def pollingProgram : Block :=
  .whileLoop ⟨⟨.keyword, "while", 1⟩, [⟨.variableRef, "$n", 1⟩, ⟨.comparison, "<", 1⟩,
      ⟨.number, "2", 1⟩]⟩
    (.simple ⟨⟨.command, "show run", 2⟩, []⟩
      (.branch ⟨⟨.keyword, "if", 3⟩, [⟨.variableRef, "$_output", 3⟩, ⟨.comparison, "contains", 3⟩,
          ⟨.word, "up", 3⟩]⟩
        (.simple ⟨⟨.operation, "incr", 4⟩, [⟨.word, "n", 4⟩]⟩ .done)
        (.close ⟨⟨.keyword, "fi", 5⟩, []⟩)
        .done))
    ⟨⟨.keyword, "endwhile", 6⟩, []⟩
    .done

theorem polling_fits : pollingProgram.Fits := by
  refine ⟨⟨⟨rfl, rfl⟩, .comparison rfl ⟨rfl, rfl⟩ rfl⟩, ⟨trivial, ⟨⟨rfl, rfl⟩,
    .comparison rfl ⟨rfl, rfl⟩ rfl⟩, ⟨⟨_, _, rfl, rfl⟩, trivial⟩, ⟨.inl ⟨rfl, rfl⟩, rfl⟩, trivial⟩,
    ⟨⟨rfl, rfl⟩, .inr rfl⟩, trivial⟩

def Host.journaled : Host (Simulated × List Text) where
  canceled _ := false
  pause _ w := w
  log entry w := (w.1, w.2 ++ [entry.render])
  session := some
    { switchDevice := fun name w => ((w.1.switchDevice name).1, (w.1.switchDevice name).2, w.2)
      send := fun command w => ((w.1.send false command).1, (w.1.send false command).2, w.2)
      await := fun pattern _ clear w =>
        ((w.1.await false pattern clear).1, (w.1.await false pattern clear).2, w.2) }
  record := none
  stopRequested _ := false
  observe boundary w := (w.1, w.2 ++ [boundary.trace []])
  registry := (Schema.standard.operation? "incr").map fun spec =>
    ⟨[⟨"incr", spec, Standard.count 1⟩]⟩
  load := none

theorem in_memory_quiet : Host.inMemory.Quiet := ⟨fun _ _ => rfl, fun _ _ => rfl⟩

theorem journaled_shows : Host.journaled.Shows Host.inMemory Prod.fst where
  log _ _ := rfl
  observe _ _ := rfl
  stopRequested _ := rfl
  canceled _ := rfl
  session := .some ⟨fun _ _ => rfl, fun _ _ => rfl⟩
  registry name := by
    have counts (site : CallSite) (bound : Bound) (vars : Vars) (w : Simulated × List Text) :
        Standard.count 1 Host.inMemory.toServices site bound vars w.1 =
          (Standard.count 1 Host.journaled.toServices site bound vars w).seen Prod.fst := by
      simp only [Standard.count]
      split <;> rfl
    simp only [Host.journaled, Host.inMemory]
    cases Schema.standard.operation? "incr" with
    | none => exact .none
    | some spec =>
        by_cases named : Text.ofString "incr" = name
        · simp only [Option.map_some, Option.bind_some, Registry.lookup?, List.find?_cons, named,
            beq_self_eq_true]
          exact .some ⟨rfl, counts⟩
        · have other : (Text.ofString "incr" == name) = false := by simpa using named
          simp only [Option.map_some, Option.bind_some, Registry.lookup?, List.find?_cons, other,
            List.find?_nil]
          exact .none
  load := .none

theorem polling_run_as_written :
    Token.sourceTokens? Schema.standard.vocabulary polling = some pollingTokens ∧
    (assemble ⟨Schema.standard, "poll", none, false⟩ pollingTokens).result = .ok pollingScript ∧
    pollingProgram.Fits ∧ pollingProgram.statements = statements pollingTokens ∧
    Host.journaled.Shows Host.inMemory Prod.fst ∧ Host.inMemory.Quiet ∧
    ∀ fuel, ∃ bound,
      (((Machine.start pollingScript .empty .warn "run").course Host.journaled fuel
        (Simulated.empty, [])).seen Prod.fst).Within
          (pollingProgram.course Host.inMemory ⟨"poll", 0, "run", .warn⟩ bound
            ⟨.empty, [], Simulated.empty⟩) :=
  ⟨polling_tokens, polling_accepted, polling_fits, rfl, journaled_shows, in_memory_quiet,
    (compiled_run_as_written "poll" polling none pollingTokens polling_tokens pollingScript
      polling_accepted pollingProgram polling_fits rfl Host.journaled Host.inMemory Prod.fst
      journaled_shows in_memory_quiet .empty .warn (by decide) "run" (Simulated.empty, [])).2⟩

end DeviceScript

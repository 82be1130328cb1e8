import DeviceScript.Proofs.Run.Bound
import DeviceScript.Proofs.Run.Control

/-!
The code of a block, executed from boundary to boundary, makes the course of the block. The code
may stand anywhere in a script, under any stack; inclusions and loops are bounded on both sides.
-/

namespace DeviceScript

open Machine

/-- Records and observers leave the world as it is. -/
structure Host.Quiet {ω : Type} (h : Host ω) : Prop where
  log : ∀ entry w, h.log entry w = w
  observe : ∀ boundary w, h.observe boundary w = w

variable {ω : Type} {h : Host ω}

/-- From a boundary the machine makes the course: it arrives where `exit` says, or ends as the
course ends, or takes at least so many steps for a course that is cut off. -/
inductive Follows (h : Host ω) (bound least : Nat) (m : Machine) (w : ω) (c : Course ω)
    (exit : Scene ω → Machine) : Prop
  | arrives {count : Nat} (done : c.breakdown = none)
      (steps : Steps h bound count m w c.trace (exit c.scene) c.scene.world)
  | ends {count : Nat} {trace : List Instruction} {n : Machine} {v : ω}
      (broken : c.breakdown ≠ none) (steps : Steps h bound count m w trace n v)
      (last : n.next? h (run h bound) v = none)
      (same : c = (n.course h (bound + 1) v).after trace)
  | lasts {count : Nat} {n : Machine} {v : ω} (cut : c.breakdown = some .outOfFuel)
      (long : least ≤ count) (steps : Steps h bound count m w c.trace n v)

namespace Follows

variable {bound least : Nat} {m : Machine} {w : ω} {c : Course ω} {exit : Scene ω → Machine}

theorem weaken (follows : Follows h bound least m w c exit) {less : Nat} (fewer : less ≤ least) :
    Follows h bound less m w c exit := by
  cases follows with
  | arrives done steps => exact .arrives done steps
  | ends broken steps last same => exact .ends broken steps last same
  | lasts cut long steps => exact .lasts cut (Nat.le_trans fewer long) steps

theorem after {first : Nat} {n : Machine} {v : ω} {early : List Instruction}
    (front : Steps h bound first m w early n v) (follows : Follows h bound least n v c exit) :
    Follows h bound (first + least) m w (c.after early) exit := by
  cases follows with
  | arrives done steps => exact .arrives done (front.append steps)
  | ends broken steps last same =>
      refine .ends broken (front.append steps) last ?_
      rw [same, Course.after_after]
  | lasts cut long steps => exact .lasts cut (Nat.add_le_add_left long first) (front.append steps)

theorem andThen {next : Scene ω → Course ω} {further : Scene ω → Machine}
    (follows : Follows h bound least m w c exit)
    (rest : ∀ c : Scene ω, Follows h bound least (exit c) c.world (next c) further) :
    Follows h bound least m w (c.andThen next) further := by
  cases follows with
  | arrives done steps =>
      simp only [Course.andThen, done]
      exact (Follows.after steps (rest c.scene)).weaken (Nat.le_add_left _ _)
  | ends broken steps last same =>
      obtain ⟨b, breaks⟩ := Option.ne_none_iff_exists'.mp broken
      have unchanged : c.andThen next = c := by simp only [Course.andThen, breaks]
      rw [unchanged]
      exact .ends broken steps last same
  | lasts cut long steps =>
      have unchanged : c.andThen next = c := by simp only [Course.andThen, cut]
      rw [unchanged]
      exact .lasts cut long steps

end Follows

/-! Single instructions. -/

theorem step_quiet (quiet : h.Quiet) {m : Machine} (policy : m.missing ≠ .error)
    (child : Machine → ω → Progress ω) (i : Instruction) (w : ω) :
    m.step h child i w = m.execute h child i (i.interpolated m.vars) w := by
  have told (entries : List LogEntry) (w : ω) :
      entries.foldl (fun w entry => h.log entry w) w = w := by
    induction entries with
    | nil => rfl
    | cons entry rest ih => rw [List.foldl_cons, quiet.log, ih]
  unfold step
  simp only [quiet.observe, told]
  split
  · next missing _ => exact absurd missing policy
  · rfl
  · rfl

theorem course_stopped {m : Machine} {i : Instruction} {w : ω} {text : Text} (fuel : Nat)
    (running : m.state = .running) (current : m.script.code[m.pc]? = some i)
    (stop : stopReason? h w = some text) :
    m.next? h (run h fuel) w = none ∧
    m.course h (fuel + 1) w = ⟨[], ⟨m.vars, m.device, w⟩,
      some (.fault (.located (Report.atLine .abort text m.script.path i.line) none))⟩ := by
  have last : m.next? h (run h fuel) w = none := by simp [next?, current, stop]
  refine ⟨last, ?_⟩
  simp [course, dispatched, last, due, run, running, current, stop, Progress.failed, report,
    line_current current, Breakdown.unplaced, Fault.unplaced, Report.unplaced, Report.atInstruction,
    Report.atLine]

section Keyword

variable (quiet : h.Quiet) {s : Setting} (policy : s.missing ≠ .error) {script : Script}
variable (path : script.path = s.path) {bound least pc : Nat} {stack : ControlStack} {c : Scene ω}
variable {i : Instruction} (current : script.code[pc]? = some i) (control : i.op.isControl = true)
variable {words : List Value} {leftOut : Bool} {yesPc noPc : Nat} {yesStack noStack : ControlStack}

include quiet policy path current control

/-- A keyword leads where its verdict says. -/
theorem keyword_follows {yes no : Scene ω → Course ω} {exit : Scene ω → Machine}
    (executes : ∀ child, (s.machine script pc stack c).execute h child i (i.interpolated c.vars)
      c.world = (s.machine script pc stack c).follow
        (decided (Setting.condition words leftOut c.vars) (s.machine script yesPc yesStack c)
          (s.machine script noPc noStack c)) c.world)
    (followsYes : Setting.condition words leftOut c.vars = .ok true →
      Follows h bound least (s.machine script yesPc yesStack c) c.world (yes c) exit)
    (followsNo : Setting.condition words leftOut c.vars = .ok false →
      Follows h bound least (s.machine script noPc noStack c) c.world (no c) exit) :
    Follows h bound (1 + least) (s.machine script pc stack c) c.world
      (.choose (s.verdict h i.line words leftOut c) c yes no) exit := by
  -- Keywords leave no trace, so the course begins with that of the place they lead to.
  have silent : (s.machine script pc stack c).due h c.world = [] := by
    simp [due, Setting.machine, current, control]
  unfold Setting.verdict
  cases stop : stopReason? h c.world with
  | some text =>
      obtain ⟨last, course⟩ := course_stopped (m := s.machine script pc stack c) bound rfl current
        stop
      refine .ends (Option.some_ne_none _) (.refl _ _) last ?_
      rw [course]
      simp [Course.choose, Course.after, Setting.machine, path]
  | none =>
      have step (child : Machine → ω → Progress ω) :=
        (step_quiet quiet (m := s.machine script pc stack c) policy child i c.world).trans
          (executes child)
      cases holds : Setting.condition words leftOut c.vars with
      | error reason =>
          simp only [holds, decided, follow] at step
          obtain ⟨last, course⟩ := course_stuck rfl current stop (step (run h bound))
            (.inl (by simp [refuse, Progress.failed]))
          refine .ends (Option.some_ne_none _) (.refl _ _) last ?_
          rw [course, silent]
          simp [Course.choose, Course.after, map_error_error, conditionFault, refuse,
            Progress.failed, locate, Setting.machine, Fault.report?, Fault.message,
            Breakdown.unplaced, Fault.unplaced, Report.unplaced, Report.atInstruction,
            Report.atLine, path, Machine.line, current]
      | ok verdict =>
          cases verdict with
          | true =>
              simp only [holds, decided, follow] at step
              have next := (next_iff h (run h bound) _ _ _ _).mpr
                ⟨i, current, rfl, stop, step _, rfl⟩
              have all := Follows.after (Steps.one next) (followsYes holds)
              rwa [silent] at all
          | false =>
              simp only [holds, decided, follow] at step
              have next := (next_iff h (run h bound) _ _ _ _).mpr
                ⟨i, current, rfl, stop, step _, rfl⟩
              have all := Follows.after (Steps.one next) (followsNo holds)
              rwa [silent] at all

theorem passed_follows {yes : Scene ω → Course ω} {exit : Scene ω → Machine}
    (executes : ∀ child, (s.machine script pc stack c).execute h child i (i.interpolated c.vars)
      c.world = .ok (s.machine script yesPc yesStack c) c.world)
    (follows : Follows h bound least (s.machine script yesPc yesStack c) c.world (yes c) exit) :
    Follows h bound (1 + least) (s.machine script pc stack c) c.world
      (.choose (s.verdict h i.line [] true c) c yes .through) exit := by
  -- A condition that is left out holds, so the other way is never taken.
  have never : Setting.condition [] true c.vars = .ok false →
      Follows h bound least (s.machine script yesPc yesStack c) c.world (.through c) exit := nofun
  exact keyword_follows quiet policy path current control executes (fun _ => follows) never

end Keyword

theorem course_past (quiet : h.Quiet) (fuel : Nat) (s : Setting) {script : Script} {pc : Nat}
    (stack : ControlStack) (c : Scene ω) (past : script.code[pc]? = none) :
    (s.machine script pc stack c).next? h (run h fuel) c.world = none ∧
    (s.machine script pc stack c).course h (fuel + 1) c.world = .through c := by
  have last : (s.machine script pc stack c).next? h (run h fuel) c.world = none := by
    simp [next?, Setting.machine, past]
  refine ⟨last, ?_⟩
  simp only [course, dispatched, last]
  simp [due, run, Setting.machine, past, finish, Progress.ok, quiet.log, Course.through]

section Perform

variable (quiet : h.Quiet)

include quiet

/-- A simple instruction does the same at two places: the run goes on from both, or it ends at
both in the same way. -/
theorem boundary_alike (m : Machine) (script : Script) (pc : Nat) (stack : ControlStack)
    (running : m.state = .running) (fresh : m.abortReason = []) (policy : m.missing ≠ .error)
    {i : Instruction} (current : m.script.code[m.pc]? = some i) (outward : i.op.isControl = false)
    (path : script.path = m.script.path) (there : script.code[pc]? = some i) (fuel : Nat) (w : ω) :
    m.due h w = (m.moved script pc stack).due h w ∧
    ((∃ vars device world,
        m.next? h (run h fuel) w =
          some ({ m with vars := vars, device := device, pc := m.pc + 1 }, world) ∧
        (m.moved script pc stack).next? h (run h fuel) w =
          some ({ m.moved script pc stack with vars := vars, device := device, pc := pc + 1 },
            world)) ∨
      m.next? h (run h fuel) w = none ∧
      (m.course h (fuel + 1) w).breakdown ≠ none ∧
      (m.moved script pc stack).course h (fuel + 1) w = m.course h (fuel + 1) w) := by
  -- Only these facts about the other place are needed.
  generalize elsewhere : m.moved script pc stack = n
  have runningThere : n.state = .running := by rw [← elsewhere]; exact running
  have currentThere : n.script.code[n.pc]? = some i := by rw [← elsewhere]; exact there
  have policyThere : n.missing ≠ .error := by rw [← elsewhere]; exact policy
  have paths : n.script.path = m.script.path := by rw [← elsewhere]; exact path
  have vars : n.vars = m.vars := by rw [← elsewhere]; rfl
  have device : n.device = m.device := by rw [← elsewhere]; rfl
  have due : m.due h w = n.due h w := by
    simp [Machine.due, current, currentThere, running, runningThere, policy, policyThere, vars]
  refine ⟨due, ?_⟩
  cases stop : stopReason? h w with
  | some text =>
      obtain ⟨last, course⟩ := course_stopped fuel running current stop
      obtain ⟨-, courseThere⟩ := course_stopped fuel runningThere currentThere stop
      refine .inr ⟨last, ?_, ?_⟩
      · rw [course]
        nofun
      · rw [course, courseThere, paths, vars, device]
  | none =>
      have step := step_quiet quiet policy (run h fuel) i w
      have stepThere := step_quiet quiet policyThere (run h fuel) i w
      rw [vars] at stepThere
      have lines : n.line = m.line := by rw [line_current currentThere, line_current current]
      have alike := execute_alike h (run h fuel) m path (elsewhere ▸ lines) i outward
        (i.interpolated m.vars) w
      have own : n.Alike (n.execute h (run h fuel) i (i.interpolated m.vars) w)
          (n.execute h (run h fuel) i (i.interpolated m.vars) w) :=
        execute_alike h (run h fuel) n rfl rfl i outward (i.interpolated m.vars) w
      rw [elsewhere] at alike
      generalize m.execute h (run h fuel) i (i.interpolated m.vars) w = p at step alike
      generalize n.execute h (run h fuel) i (i.interpolated m.vars) w = q at stepThere alike own
      obtain ⟨after, world, breakdown⟩ := p
      obtain ⟨afterThere, worldThere, breakdownThere⟩ := q
      obtain ⟨machine, rfl, broken⟩ := alike
      have machineThere := own.1
      simp only at machine broken machineThere
      -- Both go on, or both are stuck: the breakdowns and the reasons to abort are the same.
      by_cases goes : breakdownThere = none ∧ afterThere.abortReason = []
      · obtain ⟨rfl, quietThere⟩ := goes
        obtain rfl : breakdown = none := by simpa using broken
        simp only [Option.isNone_none, ↓reduceIte, quietThere, ← fresh] at machine
        have freshThere : n.abortReason = [] := by rw [← elsewhere]; exact fresh
        simp only [Option.isNone_none, ↓reduceIte, quietThere, ← freshThere] at machineThere
        refine .inl ⟨afterThere.vars, afterThere.device, world, ?_, ?_⟩
        · exact (next_iff ..).mpr ⟨i, current, running, stop, by rw [step, machine]; rfl, fresh⟩
        · refine (next_iff ..).mpr ⟨i, currentThere, runningThere, stop, ?_, freshThere⟩
          have place : n.pc = pc := by rw [← elsewhere]; rfl
          rw [place] at machineThere
          rw [stepThere]
          exact congrArg (Progress.ok · world) machineThere
      · have stuckThere : breakdownThere ≠ none ∨ afterThere.abortReason ≠ [] :=
          Classical.not_and_iff_not_or_not.mp goes
        have asked : after.abortReason = afterThere.abortReason := by rw [machine]
        have stuck : breakdown ≠ none ∨ after.abortReason ≠ [] := by
          rcases stuckThere with breaks | asks
          · left
            rintro rfl
            exact breaks (by simpa using broken.symm)
          · exact .inr (asked ▸ asks)
        obtain ⟨last, course⟩ := course_stuck running current stop step stuck
        obtain ⟨-, courseThere⟩ := course_stuck runningThere currentThere stop stepThere stuckThere
        refine .inr ⟨last, ?_, ?_⟩
        · rw [course]
          nofun
        · have sameVars : after.vars = afterThere.vars := by rw [machine]
          have sameDevice : after.device = afterThere.device := by rw [machine]
          simp only [course, courseThere, due, broken, asked, sameVars, sameDevice, paths]

variable {s : Setting} (policy : s.missing ≠ .error) {script : Script}
variable (path : script.path = s.path) {pc : Nat} {i : Instruction}
variable (current : script.code[pc]? = some i) (outward : i.op.isControl = false)

include policy path current outward

/-- A simple instruction does in the midst of other code what it does alone. -/
theorem perform_follows (bound least : Nat) (stack : ControlStack) (c : Scene ω) :
    Follows h (bound + 1) least (s.machine script pc stack c) c.world (s.perform h bound [i] c)
      (fun c => s.machine script (pc + 1) stack c) := by
  obtain ⟨due, goes | ⟨last, broken, course⟩⟩ := boundary_alike quiet
    (s.machine script pc stack c) ⟨s.path, [i], [], []⟩ 0 .empty rfl rfl policy current outward
    path.symm rfl (bound + 1) c.world
  · obtain ⟨vars, device, world, next, nextAlone⟩ := goes
    obtain ⟨-, past⟩ := course_past quiet bound s .empty ⟨vars, device, world⟩
      (show (Script.mk s.path [i] [] []).code[1]? = none from rfl)
    have performed : s.perform h bound [i] c = ⟨(s.machine script pc stack c).due h c.world,
        ⟨vars, device, world⟩, none⟩ := by
      refine (course_next nextAlone).trans ?_
      rw [due]
      exact (congrArg (Course.after · _) past).trans (by simp [Course.after, Course.through])
    rw [performed]
    exact .arrives rfl (Steps.one next)
  · have performed : s.perform h bound [i] c =
        (s.machine script pc stack c).course h (bound + 2) c.world := course
    rw [performed]
    exact .ends broken (.refl _ _) last (Course.after_nil _).symm

end Perform

/-! Keywords, each at its place in the code. -/

section Keywords

variable (quiet : h.Quiet) {s : Setting} (policy : s.missing ≠ .error) {script : Script}
variable (path : script.path = s.path) (distinct : (script.code.map Instruction.line).Nodup)
variable {bound least : Nat} {line : Int} {words : List Value} {leftOut : Bool}
variable {before body rest : List Instruction} {next : Instruction} {target : Int}
variable {stack : ControlStack}
variable {taken : Bool} {outer : List Bool}
variable {c : Scene ω} {yes no : Scene ω → Course ω} {exit : Scene ω → Machine}

theorem current_split {code before after : List Instruction} {i : Instruction}
    (split : code = before ++ i :: after) : code[before.length]? = some i := by
  simp [split]

theorem interpolated_words (line : Int) (op : Opcode) (plain : op.isContextSwitch = false)
    (front : List Value) (target : Int) (vars : Vars) :
    Instruction.interpolated ⟨line, op, front ++ [.int target]⟩ vars =
      front.map (Value.interpolate vars) ++ [.int target] := by
  simp [Instruction.interpolated, plain, Value.interpolate]

include quiet policy path distinct

theorem if_follows (given : words ≠ [])
    (split : script.code =
      before ++ ⟨line, .ifNotGoto, words ++ [.int target]⟩ :: (body ++ next :: rest))
    (named : next.line = target)
    (followsYes : Follows h bound least (s.machine script (before.length + 1) (stack.push true) c)
      c.world (yes c) exit)
    (followsNo : Follows h bound least
      (s.machine script (before.length + 1 + body.length) (stack.push false) c) c.world (no c)
      exit) :
    Follows h bound (1 + least) (s.machine script before.length stack c) c.world
      (.choose (s.verdict h line words leftOut c) c yes no) exit := by
  refine keyword_follows quiet policy path (current_split split) rfl ?_ (fun _ => followsYes)
    (fun _ => followsNo)
  intro child
  have found := forward_target_found distinct split
  rw [named] at found
  rw [interpolated_words _ _ rfl]
  refine (if_not_goto_linked found c.world).trans ?_
  rw [Setting.condition, if_neg given]
  rfl

theorem else_if_follows (given : words ≠ [])
    (split : script.code =
      before ++ ⟨line, .elseIf, words ++ [.int target]⟩ :: (body ++ next :: rest))
    (named : next.line = target)
    (followsYes : Follows h bound least (s.machine script (before.length + 1) ⟨true :: outer⟩ c)
      c.world (yes c) exit)
    (followsNo : Follows h bound least
      (s.machine script (before.length + 1 + body.length) ⟨false :: outer⟩ c) c.world (no c)
      exit) :
    Follows h bound (1 + least) (s.machine script before.length ⟨false :: outer⟩ c) c.world
      (.choose (s.verdict h line words leftOut c) c yes no) exit := by
  refine keyword_follows quiet policy path (current_split split) rfl ?_ (fun _ => followsYes)
    (fun _ => followsNo)
  intro child
  have found := forward_target_found distinct split
  rw [named] at found
  rw [interpolated_words _ _ rfl]
  simp only [execute]
  rw [else_if_linked found false outer rfl, Setting.condition, if_neg given]
  rfl

/-- A branch of a chain of which one has been taken: its condition does not matter. -/
theorem else_if_passed
    (split : script.code =
      before ++ ⟨line, .elseIf, words ++ [.int target]⟩ :: (body ++ next :: rest))
    (named : next.line = target)
    (follows : Follows h bound least
      (s.machine script (before.length + 1 + body.length) ⟨true :: outer⟩ c) c.world (yes c)
      exit) :
    Follows h bound (1 + least) (s.machine script before.length ⟨true :: outer⟩ c) c.world
      (.choose (s.verdict h line [] true c) c yes .through) exit := by
  refine passed_follows quiet policy path (current_split split) rfl ?_ follows
  intro child
  have found := forward_target_found distinct split
  rw [named] at found
  rw [interpolated_words _ _ rfl]
  simp only [execute]
  rw [else_if_linked found true outer rfl]
  rfl

theorem else_follows (taken : Bool)
    (split : script.code =
      before ++ ⟨line, .elseBranch, [.int target]⟩ :: (body ++ next :: rest))
    (named : next.line = target)
    (follows : Follows h bound least
      (s.machine script (if taken then before.length + 1 + body.length else before.length + 1)
        ⟨taken :: outer⟩ c) c.world (yes c) exit) :
    Follows h bound (1 + least) (s.machine script before.length ⟨taken :: outer⟩ c) c.world
      (.choose (s.verdict h line [] true c) c yes .through) exit := by
  refine passed_follows quiet policy path (current_split split) rfl ?_ follows
  intro child
  have found := forward_target_found distinct split
  rw [named] at found
  have words := interpolated_words line .elseBranch rfl [] target c.vars
  simp only [List.nil_append] at words
  rw [words]
  simp only [execute]
  rw [else_branch_linked found taken outer rfl]
  rfl

omit distinct in
theorem fi_follows {after : List Instruction}
    (split : script.code = before ++ ⟨line, .fi, []⟩ :: after)
    (follows : Follows h bound least (s.machine script (before.length + 1) ⟨outer⟩ c) c.world
      (yes c) exit) :
    Follows h bound (1 + least) (s.machine script before.length ⟨taken :: outer⟩ c) c.world
      (.choose (s.verdict h line [] true c) c yes .through) exit := by
  refine passed_follows quiet policy path (current_split split) rfl ?_ follows
  intro child
  simp only [execute]
  rw [fi_linked taken outer rfl]
  rfl

theorem loop_follows
    (split : script.code =
      before ++ ⟨line, .loop, words ++ [.int target]⟩ :: (body ++ next :: rest))
    (named : next.line = target)
    (followsYes : Follows h bound least (s.machine script (before.length + 1) stack c) c.world
      (yes c) exit)
    (followsNo : Follows h bound least
      (s.machine script (before.length + 1 + body.length + 1) stack c) c.world (no c) exit) :
    Follows h bound (1 + least) (s.machine script before.length stack c) c.world
      (.choose (s.verdict h line words true c) c yes no) exit := by
  refine keyword_follows quiet policy path (current_split split) rfl ?_ (fun _ => followsYes)
    (fun _ => followsNo)
  intro child
  have found := forward_target_found distinct split
  rw [named] at found
  rw [interpolated_words _ _ rfl]
  simp only [execute]
  rw [loop_linked found, Setting.condition]
  by_cases empty : words = []
  · simp only [empty, List.map_nil, ↓reduceIte]
    rfl
  · simp only [List.map_eq_nil_iff, empty, ↓reduceIte]
    rfl

/-- The end of a loop: unless its condition holds, back to the head. -/
theorem loop_end_follows {op : Opcode} (which : op = .endWhile ∨ op = .untilMet)
    {head : Instruction}
    (split : script.code =
      before ++ head :: (body ++ ⟨line, op, .int target :: words⟩ :: rest))
    (named : head.line = target)
    (followsYes : Follows h bound least
      (s.machine script (before.length + 1 + body.length + 1) stack c) c.world (yes c) exit)
    (followsNo : Follows h bound least (s.machine script before.length stack c) c.world (no c)
      exit) :
    Follows h bound (1 + least) (s.machine script (before.length + 1 + body.length) stack c)
      c.world (.choose (s.verdict h line words false c) c yes no) exit := by
  have here : script.code[before.length + 1 + body.length]? =
      some ⟨line, op, .int target :: words⟩ := by
    have regrouped : script.code =
        (before ++ head :: body) ++ ⟨line, op, .int target :: words⟩ :: rest := by
      simp [split]
    have found := current_split regrouped
    rwa [List.length_append, List.length_cons, ← Nat.add_assoc, Nat.add_right_comm] at found
  have control : op.isControl = true := by rcases which with rfl | rfl <;> rfl
  refine keyword_follows quiet policy path here control ?_ (fun _ => followsYes)
    (fun _ => followsNo)
  intro child
  have found := backward_target_found distinct split
  rw [named] at found
  have params : Instruction.interpolated ⟨line, op, .int target :: words⟩ c.vars =
      .int target :: words.map (Value.interpolate c.vars) := by
    rcases which with rfl | rfl <;> rfl
  -- Both kinds of end are executed by `loopEnd`, which keeps the kind for its faults only.
  have executed : (s.machine script (before.length + 1 + body.length) stack c).execute h child
      ⟨line, op, .int target :: words⟩ (.int target :: words.map (Value.interpolate c.vars))
      c.world = (s.machine script (before.length + 1 + body.length) stack c).follow
        ((s.machine script (before.length + 1 + body.length) stack c).loopEnd op
          (.int target :: words.map (Value.interpolate c.vars))) c.world := by
    rcases which with rfl | rfl <;> rfl
  rw [params, executed, loop_end_linked op found, Setting.condition]
  by_cases empty : words = []
  · simp only [empty, List.map_nil, ↓reduceIte]
    rfl
  · simp only [List.map_eq_nil_iff, empty, ↓reduceIte]
    rfl

end Keywords

end DeviceScript

import DeviceScript.Proofs.Run.Layout

/-!
A run from boundary to boundary. An instruction that reaches out of the machine changes the
machine's variables, its device and its reason to abort, and moves it to the next instruction;
where in the code it stands shows in nothing but the place that a report gives.
-/

namespace DeviceScript

open Text

/-! Faults without the instructions they name, which are given as those of a line. -/

def Report.unplaced (r : Report) : Report :=
  { r with pc := -1, frames := r.frames.map fun frame => { frame with pc := -1 } }

def Fault.unplaced : Fault → Fault
  | .located report cause => .located report.unplaced cause
  | fault => fault

def Breakdown.unplaced : Breakdown → Breakdown
  | .fault f => .fault f.unplaced
  | other => other

namespace Machine

variable {ω : Type}

def moved (m : Machine) (script : Script) (pc : Nat) (stack : ControlStack) : Machine :=
  { m with script := script, pc := pc, stack := stack }

section Moved

variable (m : Machine) (script : Script) (pc : Nat) (stack : ControlStack)

@[simp] theorem moved_device : (m.moved script pc stack).device = m.device := rfl

@[simp] theorem moved_depth : (m.moved script pc stack).depth = m.depth := rfl

@[simp] theorem moved_child (included : Script) :
    (m.moved script pc stack).child included = m.child included := rfl

@[simp] theorem moved_path : (m.moved script pc stack).script.path = script.path := rfl

end Moved

/-- Work that two machines at different places do alike: the one has gone on by an instruction,
or is where it was and has the other's fault. -/
def Alike (m : Machine) (p q : Progress ω) : Prop :=
  p.machine =
    { m with
      vars := q.machine.vars, device := q.machine.device, abortReason := q.machine.abortReason,
      pc := if p.breakdown.isNone then m.pc + 1 else m.pc } ∧
  p.world = q.world ∧ p.breakdown.map Breakdown.unplaced = q.breakdown.map Breakdown.unplaced

theorem locate_unplaced (m m' : Machine) (kind : FaultKind) (f : Fault)
    (path : m.script.path = m'.script.path) (line : m.line = m'.line) :
    (m.locate kind f).unplaced = (m'.locate kind f).unplaced := by
  unfold locate
  cases f.report? with
  | none => simp [Fault.unplaced, Report.unplaced, Report.atInstruction, path, line]
  | some r =>
      simp only [Fault.unplaced, Report.unplaced]
      split <;> rfl

section Elsewhere

variable (h : Host ω) (child : Machine → ω → Progress ω) (m : Machine)
variable {script : Script} {pc : Nat} {stack : ControlStack}
variable (path : script.path = m.script.path) (line : (m.moved script pc stack).line = m.line)

include path line

theorem located_alike (kind : FaultKind) (f : Fault) (abortReason : Text) (w : ω) :
    m.Alike (.failed (m.locate kind f) { m with abortReason := abortReason } w)
      (.failed ((m.moved script pc stack).locate kind f)
        { m.moved script pc stack with abortReason := abortReason } w) := by
  have same := locate_unplaced m (m.moved script pc stack) kind f path.symm line.symm
  exact ⟨rfl, rfl, congrArg (some ∘ Breakdown.fault) same⟩

theorem refuse_alike (kind : FaultKind) (reason : Reason) (w : ω) :
    m.Alike (m.refuse kind reason w) ((m.moved script pc stack).refuse kind reason w) :=
  located_alike m path line kind (.plain reason) m.abortReason w

theorem session_fault_alike (canceled : Bool) (f : Fault) (w : ω) :
    m.Alike (m.sessionFault canceled f w)
      ((m.moved script pc stack).sessionFault canceled f w) := by
  unfold sessionFault
  split
  · exact ⟨rfl, rfl, rfl⟩
  · split
    · exact located_alike m path line .abort f f.message w
    · exact located_alike m path line .handler f m.abortReason w

theorem switch_device_alike (params : List Value) (w : ω) :
    m.Alike (m.switchDevice h params w) ((m.moved script pc stack).switchDevice h params w) := by
  cases params with
  | nil => exact ⟨rfl, rfl, rfl⟩
  | cons operand _ =>
      simp only [switchDevice, line]
      split
      · exact session_fault_alike m path line ..
      · exact ⟨rfl, rfl, rfl⟩

theorem command_alike (params : List Value) (w : ω) :
    m.Alike (m.command h params w) ((m.moved script pc stack).command h params w) := by
  unfold command
  split
  · exact refuse_alike m path line ..
  · exact ⟨rfl, rfl, rfl⟩
  · split
    · exact session_fault_alike m path line ..
    · exact ⟨rfl, rfl, rfl⟩

theorem resume_alike (included : Machine) (w : ω) :
    m.Alike (m.resume h included w) ((m.moved script pc stack).resume h included w) := by
  unfold resume
  split
  · simp only [moved_device]
    by_cases stays : (m.device.isEmpty || included.device == m.device) = true
    · simp only [stays, ↓reduceIte]
      exact ⟨rfl, rfl, rfl⟩
    · simp only [stays, Bool.false_eq_true, ↓reduceIte]
      split
      · exact session_fault_alike m path line ..
      · exact ⟨rfl, rfl, rfl⟩
  · exact ⟨rfl, rfl, rfl⟩

theorem framed_alike (row : Int) (f : Fault) (w : ω) :
    m.Alike (m.framed row f w) ((m.moved script pc stack).framed row f w) := by
  unfold framed
  cases f.report? with
  | none => exact located_alike m path line .handler f m.abortReason w
  | some r =>
      refine ⟨?_, rfl, ?_⟩
      · simp only
        split <;> rfl
      -- The new frame has the place of the inclusion, which is what `unplaced` forgets.
      · simp only [Progress.failed, Option.map_some, Breakdown.unplaced, Fault.unplaced,
          Report.unplaced, Report.addFrame, List.map_append, List.map_cons, List.map_nil]
        split <;> simp [moved, path]

theorem inclusion_alike (row : Int) (params : List Value) (w : ω) :
    m.Alike (m.inclusion h child row params w)
      ((m.moved script pc stack).inclusion h child row params w) := by
  cases params with
  | nil => exact ⟨rfl, rfl, rfl⟩
  | cons operand _ =>
      simp only [inclusion]
      split
      · exact refuse_alike m path line ..
      · simp only [moved_depth, moved_child]
        by_cases deep : maxDepth ≤ m.depth
        · simp only [deep, ↓reduceIte]
          exact refuse_alike m path line ..
        · simp only [deep, ↓reduceIte]
          split
          · exact located_alike m path line .syntaxError _ m.abortReason _
          · exact ⟨rfl, rfl, rfl⟩
          · split
            · exact resume_alike h m path line ..
            · exact framed_alike m path line ..
            · exact ⟨rfl, rfl, rfl⟩

theorem call_alike (i : Instruction) (params : List Value) (w : ω) :
    m.Alike (m.call h i params w) ((m.moved script pc stack).call h i params w) := by
  unfold call
  split
  · refine ⟨rfl, rfl, ?_⟩
    simp [Progress.failed, Breakdown.unplaced, Fault.unplaced, Report.unplaced,
      Report.atInstruction, path]
  · split
    · exact refuse_alike m path line ..
    · next operation _ _ bound _ =>
        -- The handler is told the path and the line, never the place in the code.
        generalize reacted : operation.handler h.toServices
          ⟨m.runId, m.script.path, i.line, i.op.name, m.device⟩ bound m.vars w = r
        have again : operation.handler h.toServices ⟨(m.moved script pc stack).runId,
            script.path, i.line, i.op.name, (m.moved script pc stack).device⟩
            bound (m.moved script pc stack).vars w = r := by
          rw [path]
          exact reacted
        simp only [reacted, moved_path, again]
        cases r.fault with
        | none => exact ⟨rfl, rfl, rfl⟩
        | some fault =>
            exact session_fault_alike
              { m with vars := r.vars, abortReason := r.abort.getD m.abortReason } path line ..

theorem execute_alike (i : Instruction) (outward : i.op.isControl = false) (params : List Value)
    (w : ω) :
    m.Alike (m.execute h child i params w)
      ((m.moved script pc stack).execute h child i params w) := by
  unfold execute
  cases op : i.op with
  | device => exact switch_device_alike h m path line params w
  | command => exact command_alike h m path line params w
  | inclusion => exact inclusion_alike h child m path line i.line params w
  | call name => exact call_alike h m path line i params w
  | _ => simp [op, Opcode.isControl] at outward

end Elsewhere

/-! From one boundary to the next. -/

theorem line_current {m : Machine} {i : Instruction} (current : m.script.code[m.pc]? = some i) :
    m.line = i.line := by
  simp [line, current]

/-- An instruction is executed with its variables filled in, in a world that has been told of it,
unless a variable that it needs is missing. -/
theorem step_cases (h : Host ω) (m : Machine) (i : Instruction) (w : ω) :
    (∃ text, m.missing = .error ∧
      ∀ child, m.step h child i w = .failed (m.report .missingVariable text) m w) ∨
    ∃ told, ∀ child, m.step h child i w = m.execute h child i (i.interpolated m.vars) told := by
  unfold step
  simp only
  split
  · next missing _ => exact .inl ⟨_, missing, fun _ => rfl⟩
  · exact .inr ⟨_, fun _ => rfl⟩
  · exact .inr ⟨_, fun _ => rfl⟩

/-- The machine and the world at the next boundary, where the run goes on. -/
def next? (h : Host ω) (child : Machine → ω → Progress ω) (m : Machine) (w : ω) :
    Option (Machine × ω) :=
  match m.script.code[m.pc]? with
  | none => none
  | some i =>
      let p := m.step h child i w
      if m.state = .running ∧ (stopReason? h w).isNone ∧ p.breakdown.isNone ∧
        p.machine.abortReason.isEmpty then some (p.machine, p.world)
      else none

theorem next_iff (h : Host ω) (child : Machine → ω → Progress ω) (m m' : Machine) (w w' : ω) :
    m.next? h child w = some (m', w') ↔
      ∃ i, m.script.code[m.pc]? = some i ∧ m.state = .running ∧ stopReason? h w = none ∧
        m.step h child i w = .ok m' w' ∧ m'.abortReason = [] := by
  unfold next?
  cases current : m.script.code[m.pc]? with
  | none => simp
  | some i =>
      simp only [Option.some.injEq, exists_eq_left']
      generalize m.step h child i w = p
      obtain ⟨after, world, breakdown⟩ := p
      simp only [Option.isNone_iff_eq_none, List.isEmpty_iff, Option.ite_none_right_eq_some,
        Option.some.injEq, Prod.mk.injEq, Progress.ok, Progress.mk.injEq]
      constructor
      · rintro ⟨⟨running, free, done, quiet⟩, rfl, rfl⟩
        exact ⟨running, free, ⟨rfl, rfl, done⟩, quiet⟩
      · rintro ⟨running, free, ⟨rfl, rfl, done⟩, quiet⟩
        exact ⟨⟨running, free, done, quiet⟩, rfl, rfl⟩

theorem run_next {h : Host ω} {fuel : Nat} {m m' : Machine} {w w' : ω}
    (next : m.next? h (run h fuel) w = some (m', w')) :
    m.run h (fuel + 1) w = m'.run h fuel w' := by
  obtain ⟨i, current, running, free, step, quiet⟩ := (next_iff ..).mp next
  simp [run, running, current, free, step, Progress.ok, quiet]

/-- How a run ends at a boundary: past the code, stopped from outside, by an instruction that
breaks down, or by one that asks to abort. -/
inductive Ends (h : Host ω) (child : Machine → ω → Progress ω) (m : Machine) (w : ω) :
    Progress ω → Prop
  | past (last : m.script.code[m.pc]? = none) :
      Ends h child m w ({ m with state := .halted }.finish h w)
  | stopped {i : Instruction} {reason : Text} (current : m.script.code[m.pc]? = some i)
      (stop : stopReason? h w = some reason) :
      Ends h child m w (.failed (m.report .abort reason)
        { m with state := .aborted, abortReason := reason } w)
  | broken {i : Instruction} {p : Progress ω} {b : Breakdown} {state : RunState}
      (current : m.script.code[m.pc]? = some i) (free : stopReason? h w = none)
      (step : m.step h child i w = p) (breaks : p.breakdown = some b) :
      Ends h child m w ⟨{ p.machine with state := state }, p.world, some b⟩
  | aborted {i : Instruction} {after : Machine} {world : ω}
      (current : m.script.code[m.pc]? = some i) (free : stopReason? h w = none)
      (step : m.step h child i w = .ok after world) (asked : after.abortReason ≠ []) :
      Ends h child m w (.failed (.located (Report.atInstruction .abort after.abortReason
        m.script.path i.line m.pc) none) { after with state := .aborted } world)

theorem run_stays {h : Host ω} {fuel : Nat} {m : Machine} {w : ω} (running : m.state = .running)
    (last : m.next? h (run h fuel) w = none) :
    Ends h (run h fuel) m w (m.run h (fuel + 1) w) := by
  unfold run
  simp only [running, ne_eq, not_true_eq_false, ↓reduceIte]
  cases current : m.script.code[m.pc]? with
  | none => exact .past current
  | some i =>
      simp only
      cases free : stopReason? h w with
      | some reason => exact .stopped current free
      | none =>
          simp only
          cases step : m.step h (run h fuel) i w with
          | mk after world breakdown =>
              cases breakdown with
              | some b => cases b <;> exact .broken current free step rfl
              | none =>
                  simp only
                  by_cases quiet : after.abortReason = []
                  · have onward : m.next? h (run h fuel) w = some (after, world) :=
                      (next_iff ..).mpr ⟨i, current, running, free, step, quiet⟩
                    rw [last] at onward
                    cases onward
                  · simp only [List.isEmpty_iff, quiet, ↓reduceIte]
                    exact .aborted current free step quiet

/-- The boundaries of a run, with the fuel that is left there. -/
inductive Visits (h : Host ω) : Nat → Machine → ω → Nat → Machine → ω → Prop
  | here (fuel : Nat) (m : Machine) (w : ω) : Visits h fuel m w fuel m w
  | onward {fuel left : Nat} {m m' n : Machine} {w w' v : ω}
      (next : m.next? h (run h fuel) w = some (m', w')) (rest : Visits h fuel m' w' left n v) :
      Visits h (fuel + 1) m w left n v

theorem run_visits {h : Host ω} {fuel left : Nat} {m n : Machine} {w v : ω}
    (visits : Visits h fuel m w left n v) : m.run h fuel w = n.run h left v := by
  induction visits with
  | here => rfl
  | onward next _ ih => rw [run_next next, ih]

theorem run_ends (h : Host ω) (fuel : Nat) (m : Machine) (w : ω) :
    ∃ left n v, Visits h fuel m w left n v ∧
      ∀ less, left = less + 1 → n.next? h (run h less) v = none := by
  induction fuel generalizing m w with
  | zero => exact ⟨0, m, w, .here .., by simp⟩
  | succ fuel ih =>
      cases next : m.next? h (run h fuel) w with
      | none =>
          refine ⟨fuel + 1, m, w, .here .., ?_⟩
          rintro _ ⟨⟩
          exact next
      | some further =>
          obtain ⟨left, n, v, visits, last⟩ := ih further.1 further.2
          exact ⟨left, n, v, .onward next visits, last⟩

end Machine
end DeviceScript

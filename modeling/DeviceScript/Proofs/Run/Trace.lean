import DeviceScript.Proofs.Run.Stacks

/-!
The instructions that a run executes, those of included scripts among them, in order. If each of
them adds something of its own to a memory in the world, and nothing else touches that memory, a run
adds what its instructions add, one after the other; the observer's notes are such a memory.
-/

namespace DeviceScript

variable {ω : Type}

/-- An instruction as it is executed: the machine it belongs to, and the world that has been told of
it. -/
structure Execution (ω : Type) where
  machine : Machine
  instruction : Instruction
  world : ω

namespace Execution

def params (e : Execution ω) : List Value := e.instruction.interpolated e.machine.vars

def boundary (e : Execution ω) : Boundary :=
  ⟨e.machine.depth, e.machine.pc, { e.instruction with params := e.params }, e.machine.stack,
    e.machine.vars⟩

def entered? (h : Host ω) (e : Execution ω) : Option (Machine × ω) :=
  match e.instruction.op, e.instruction.params, h.load with
  | .inclusion, operand :: _, some load =>
      if maxDepth ≤ e.machine.depth then none
      else
        match load operand.render e.world with
        | (.ok script, w) =>
            some (e.machine.child script, e.machine.announced h operand.render w)
        | _ => none
  | _, _, _ => none

/-- What is executed inside an inclusion, given what a machine executes there. -/
def below (h : Host ω) (inner : Machine → ω → List (Execution ω)) (e : Execution ω) :
    List (Execution ω) :=
  match e.entered? h with
  | some (c, u) => inner c u
  | none => []

end Execution

namespace Machine

def warned (h : Host ω) (m : Machine) (i : Instruction) (w : ω) : ω :=
  match m.missing with
  | .warn => (m.warnings i).foldl (fun w entry => h.log entry w) w
  | _ => w

/-- The instruction that is executed next, unless the run may not go on or a variable is missing
that must be there. -/
def execution? (h : Host ω) (m : Machine) (w : ω) : Option (Execution ω) :=
  match m.script.code[m.pc]? with
  | none => none
  | some i =>
      if m.state = .running ∧ stopReason? h w = none ∧
        (m.missing = .error → i.missingVars m.vars = []) then
        some ⟨m, i, h.observe ⟨m.depth, m.pc, { i with params := i.interpolated m.vars }, m.stack,
          m.vars⟩ (m.warned h i w)⟩
      else none

/-- The instructions that a run executes. Those of an included script come between the inclusion and
what follows it. -/
def executed (h : Host ω) : Nat → Machine → ω → List (Execution ω)
  | 0, _, _ => []
  | fuel + 1, m, w =>
      match m.execution? h w with
      | none => []
      | some e =>
          e :: (e.below h (executed h fuel) ++
            match m.next? h (run h fuel) w with
            | some (m', w') => executed h fuel m' w'
            | none => [])

section Execution

variable {h : Host ω} {m : Machine} {w : ω} {e : Execution ω}

theorem execution_some (due : m.execution? h w = some e) :
    e.machine = m ∧ m.script.code[m.pc]? = some e.instruction ∧ m.state = .running ∧
      stopReason? h w = none ∧ e.world = h.observe e.boundary (m.warned h e.instruction w) ∧
      ∀ child, m.step h child e.instruction w =
        m.execute h child e.instruction e.params e.world := by
  unfold execution? at due
  cases current : m.script.code[m.pc]? with
  | none => simp [current] at due
  | some i =>
      simp only [current] at due
      split at due
      · next free =>
          cases due
          refine ⟨rfl, rfl, free.1, free.2.1, rfl, ?_⟩
          intro child
          unfold step warned
          cases policy : m.missing with
          | ignore => rfl
          | warn => rfl
          | error =>
              rw [free.2.2 policy]
              rfl
      · cases due

theorem warned_keeps {P : ω → Prop} (log : ∀ entry v, P v → P (h.log entry v)) (m : Machine)
    (i : Instruction) (holds : P w) : P (m.warned h i w) := by
  unfold warned
  split
  · generalize m.warnings i = entries
    induction entries generalizing w with
    | nil => exact holds
    | cons entry rest ih => exact ih (log entry w holds)
  · exact holds

theorem execute_alone {i : Instruction} (plain : i.op ≠ .inclusion)
    (child other : Machine → ω → Progress ω) (params : List Value) (v : ω) :
    m.execute h child i params v = m.execute h other i params v := by
  unfold execute
  cases op : i.op with
  | inclusion => exact absurd op plain
  | _ => rfl

/-- Where nothing is executed, nothing is done to the world but for the record that the run is
over. -/
theorem execution_none (fuel : Nat) (idle : m.execution? h w = none) :
    (m.run h (fuel + 1) w).world = w ∨ ∃ entry, (m.run h (fuel + 1) w).world = h.log entry w := by
  by_cases running : m.state = .running
  · cases current : m.script.code[m.pc]? with
    | none =>
        right
        simp only [run, running, ne_eq, not_true_eq_false, ↓reduceIte, current]
        exact ⟨_, rfl⟩
    | some i =>
        left
        cases free : stopReason? h w with
        | some reason =>
            simp only [run, running, ne_eq, not_true_eq_false, ↓reduceIte, current, free]
            rfl
        | none =>
            have lacks : m.missing = .error ∧ i.missingVars m.vars ≠ [] := by
              simpa [execution?, current, running, free] using idle
            obtain ⟨name, rest, missing⟩ := List.exists_cons_of_ne_nil lacks.2
            have refused : m.step h (run h fuel) i w =
                .failed (m.report .missingVariable ("variable '" ++ name ++ "' is not set")) m
                  w := by
              unfold step
              simp only [lacks.1, missing]
            rw [run_settled current running free, refused]
            rfl
  · right
    simp only [run, ne_eq, running, not_false_eq_true, ↓reduceIte]
    exact ⟨_, rfl⟩

theorem run_last_world {fuel : Nat} {i : Instruction} (current : m.script.code[m.pc]? = some i)
    (running : m.state = .running) (free : stopReason? h w = none)
    (last : m.next? h (run h fuel) w = none) :
    (m.run h (fuel + 1) w).world = (m.step h (run h fuel) i w).world := by
  have ends := run_stays running last
  generalize m.run h (fuel + 1) w = p at ends ⊢
  cases ends with
  | past none => rw [none] at current; cases current
  | stopped _ stop => rw [free] at stop; cases stop
  | broken again _ step _ =>
      cases current.symm.trans again
      rw [step]
  | aborted again _ step _ =>
      cases current.symm.trans again
      rw [step]
      rfl

theorem entered_some {c : Machine} {u : ω} (entered : e.entered? h = some (c, u)) :
    e.instruction.op = .inclusion ∧
      (∃ load path, h.load = some load ∧ u = e.machine.announced h path (load path e.world).2) ∧
      ∀ child, e.machine.inclusion h child e.instruction.line e.instruction.params e.world =
        e.machine.concluded h e.instruction.line (child c u) := by
  unfold Execution.entered? at entered
  split at entered
  · next operand rest load op params given =>
      split at entered
      · cases entered
      · next shallow =>
          split at entered
          · next script v loaded =>
              cases entered
              refine ⟨op, ⟨load, operand.render, given, by rw [loaded]⟩, ?_⟩
              intro child
              unfold inclusion
              rw [params, given]
              simp only [shallow, ↓reduceIte, loaded]
              rfl
          · cases entered
  · cases entered

theorem entered_none (alone : e.entered? h = none) (op : e.instruction.op = .inclusion)
    (child : Machine → ω → Progress ω) :
    (e.machine.inclusion h child e.instruction.line e.instruction.params e.world).world = e.world ∨
      ∃ load path, h.load = some load ∧
        (e.machine.inclusion h child e.instruction.line e.instruction.params e.world).world =
          (load path e.world).2 := by
  unfold Execution.entered? at alone
  unfold inclusion
  cases params : e.instruction.params with
  | nil => exact .inl rfl
  | cons operand rest =>
      cases given : h.load with
      | none => exact .inl rfl
      | some load =>
          simp only [op, params, given] at alone ⊢
          by_cases deep : maxDepth ≤ e.machine.depth
          · rw [if_pos deep]
            exact .inl rfl
          · rw [if_neg deep] at alone ⊢
            refine .inr ⟨load, operand.render, rfl, ?_⟩
            rcases loaded : load operand.render e.world with ⟨b | script, v⟩
            · cases b <;> rfl
            · rw [loaded] at alone
              cases alone

end Execution

end Machine

/-- A memory in the world to which instructions add something of their own. Only the execution of an
instruction adds to it, that of an inclusion before the included script starts. -/
structure Host.Collects {α : Type} (h : Host ω) (memory : ω → List α)
    (adds : Execution ω → List α) : Prop where
  log : ∀ entry w, memory (h.log entry w) = memory w
  switches : ∀ session, h.session = some session → ∀ name w,
    memory (session.switchDevice name w).2 = memory w
  loads : ∀ load, h.load = some load → ∀ path w, memory (load path w).2 = memory w
  executes : ∀ (m : Machine) (w : ω) (e : Execution ω), m.execution? h w = some e →
    e.instruction.op ≠ .inclusion → ∀ child,
      memory (m.execute h child e.instruction e.params e.world).world = memory w ++ adds e
  includes : ∀ (m : Machine) (w : ω) (e : Execution ω), m.execution? h w = some e →
    e.instruction.op = .inclusion → memory e.world = memory w ++ adds e

namespace Machine

section Collects

variable {α : Type} {h : Host ω} {memory : ω → List α} {adds : Execution ω → List α}
variable (collects : h.Collects memory adds)

include collects

theorem resume_collects (m included : Machine) (w : ω) :
    memory (m.resume h included w).world = memory w := by
  unfold resume
  cases given : h.session with
  | none => rfl
  | some session =>
      have same := collects.switches session given m.device w
      simp only
      split
      · rfl
      · split
        · next answered =>
            rw [session_fault_world]
            rw [answered] at same
            exact same
        · next answered =>
            rw [answered] at same
            exact same

theorem concluded_collects (m : Machine) (line : Int) (p : Progress ω) :
    memory (m.concluded h line p).world = memory p.world := by
  unfold concluded
  split
  · exact resume_collects collects m _ _
  · rw [framed_world]
  · rfl

theorem step_collects {child : Machine → ω → Progress ω}
    {inner : Machine → ω → List (Execution ω)}
    (inside : ∀ c u, memory (child c u).world = memory u ++ (inner c u).flatMap adds)
    {m : Machine} {w : ω} {e : Execution ω} (due : m.execution? h w = some e) :
    memory (m.step h child e.instruction w).world =
      memory w ++ (adds e ++ (e.below h inner).flatMap adds) := by
  obtain ⟨rfl, -, -, -, -, step⟩ := execution_some due
  rw [step]
  unfold Execution.below
  by_cases op : e.instruction.op = .inclusion
  · have told := collects.includes _ w e due op
    -- An inclusion takes its operand as written.
    have same : e.params = e.instruction.params := by
      simp [Execution.params, Instruction.interpolated, op, Opcode.isContextSwitch]
    simp only [execute, op, same]
    cases entered : e.entered? h with
    | none =>
        rcases entered_none entered op child with stays | ⟨load, path, given, loaded⟩
        · simp [stays, told]
        · simp [loaded, collects.loads load given, told]
    | some further =>
        obtain ⟨c, u⟩ := further
        obtain ⟨-, ⟨load, path, given, rfl⟩, ends⟩ := entered_some entered
        rw [ends, concluded_collects collects, inside]
        simp only [announced, collects.log, collects.loads load given, told, List.append_assoc]
  · have alone : e.entered? h = none := by
      cases entered : e.entered? h with
      | none => rfl
      | some further => exact absurd (entered_some entered).1 op
    rw [alone, collects.executes _ w e due op]
    simp

/-- What a run adds is what its instructions add, in order. -/
theorem run_collects (fuel : Nat) (m : Machine) (w : ω) :
    memory (m.run h fuel w).world = memory w ++ (m.executed h fuel w).flatMap adds := by
  -- Included scripts run on less fuel, so one induction serves the run and those below it.
  induction fuel generalizing m w with
  | zero => simp [run, executed]
  | succ fuel ih =>
      unfold executed
      cases due : m.execution? h w with
      | none =>
          rcases execution_none fuel due with same | ⟨entry, logged⟩
          · simp [same]
          · simp [logged, collects.log]
      | some e =>
          have stepped := step_collects collects ih due
          obtain ⟨-, current, running, free, -, -⟩ := execution_some due
          cases next : m.next? h (run h fuel) w with
          | none =>
              -- The run ends with this instruction, whether it failed or asked for the end.
              rw [run_last_world current running free next, stepped]
              simp
          | some further =>
              obtain ⟨m', w'⟩ := further
              obtain ⟨i, again, -, -, went, -⟩ := (next_iff ..).mp next
              cases current.symm.trans again
              rw [went] at stepped
              rw [run_next next, ih]
              simp only [Progress.ok] at stepped
              simp only [stepped, List.append_assoc, List.flatMap_cons, List.flatMap_append]

end Collects

/-- Whoever keeps what the observer is told has the instructions that were executed, in order. -/
theorem executed_told {h : Host ω} {notes : ω → List Boundary}
    (observe : ∀ boundary w, notes (h.observe boundary w) = notes w ++ [boundary])
    (others : ∀ boundaries, h.unobserved.Keeps fun w => notes w = boundaries) (fuel : Nat)
    (m : Machine) (w : ω) :
    notes (m.run h fuel w).world =
      notes w ++ (m.executed h fuel w).map Execution.boundary := by
  have told {m : Machine} {w : ω} {e : Execution ω} (due : m.execution? h w = some e) :
      notes e.world = notes w ++ [e.boundary] := by
    obtain ⟨rfl, -, -, -, world, -⟩ := execution_some due
    have unchanged := warned_keeps (h := h) (P := fun v => notes v = notes w)
      (others (notes w)).log e.machine e.instruction rfl
    rw [world, observe, unchanged]
  have collects : h.Collects notes fun e => [e.boundary] := by
    constructor
    · intro entry w
      exact (others (notes w)).log entry w rfl
    · intro session given name w
      exact (others (notes w)).switches session given name w rfl
    · intro load given path w
      exact (others (notes w)).loads load given path w rfl
    · intro m w e due plain child
      have idle : ∀ n v, notes v = notes e.world →
          notes (⟨n, v, none⟩ : Progress ω).world = notes e.world := fun _ _ held => held
      have same := execute_keeps (others (notes e.world)) m rfl idle e.instruction e.params
      rw [execute_alone plain child fun n v => ⟨n, v, none⟩]
      exact same.trans (told due)
    · intro m w e due _
      exact told due
  rw [run_collects collects fuel m w, List.map_eq_flatMap]

end Machine
end DeviceScript

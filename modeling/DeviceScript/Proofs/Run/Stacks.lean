import DeviceScript.Proofs.Run.Inside

/-!
The machines that are under way at a boundary: those that wait at an inclusion, the outermost first,
around the one whose turn it is. A fault of the innermost run is one of the outermost, with a frame
for every machine that waits.
-/

namespace DeviceScript

variable {ω : Type}

namespace Machine

/-- A boundary of a run or of a script that it includes, with the machines that wait around it. -/
inductive Stacked (h : Host ω) : Nat → Machine → ω → List Machine → Nat → Machine → ω → Prop
  | own {fuel left : Nat} {m n : Machine} {w v : ω} (visits : Visits h fuel m w left n v) :
      Stacked h fuel m w [] left n v
  | within {fuel left less : Nat} {m n c o : Machine} {w v u x : ω} {stack : List Machine}
      (visits : Visits h fuel m w (left + 1) n v) (enters : n.Enters h v c u)
      (rest : Stacked h left c u stack less o x) : Stacked h fuel m w (n :: stack) less o x

/-- What a run makes of an instruction that has been executed. -/
def settled (h : Host ω) (fuel : Nat) (m : Machine) (i : Instruction) (p : Progress ω) :
    Progress ω :=
  match p.breakdown with
  | some (.fault f) => .failed f { p.machine with state := .aborted } p.world
  | some other => ⟨p.machine, p.world, some other⟩
  | none =>
      if p.machine.abortReason.isEmpty then p.machine.run h fuel p.world
      else
        .failed
          (.located (Report.atInstruction .abort p.machine.abortReason m.script.path i.line m.pc)
            none)
          { p.machine with state := .aborted } p.world

section Boundaries

variable {h : Host ω} {fuel left : Nat} {m n : Machine} {w v : ω}

theorem run_settled {i : Instruction} (current : m.script.code[m.pc]? = some i)
    (running : m.state = .running) (free : stopReason? h w = none) :
    m.run h (fuel + 1) w = m.settled h fuel i (m.step h (run h fuel) i w) := by
  unfold run
  simp only [running, ne_eq, not_true_eq_false, ↓reduceIte, current, free]
  rfl

/-- A machine at an inclusion goes by how the included script ends. -/
theorem entered_run (left : Nat) {c : Machine} {u : ω} (enters : n.Enters h v c u) :
    ∃ i, n.script.code[n.pc]? = some i ∧ i.op = .inclusion ∧
      n.run h (left + 1) v = n.settled h left i (n.concluded h i.line (c.run h left u)) := by
  obtain ⟨i, current, running, free, op, -, -⟩ := enters_step enters
  refine ⟨i, current, op, ?_⟩
  rw [run_settled current running free, enters_step_own enters current]

theorem visits_running (visits : Visits h fuel m w left n v) (running : m.state = .running) :
    n.state = .running := by
  induction visits with
  | here => exact running
  | @onward fuel left m m' n w w' v next _ ih =>
      obtain ⟨i, -, -, -, stepped, -⟩ := (next_iff ..).mp next
      have same := (m.step_stays h (run h fuel) i w).2
      rw [stepped] at same
      exact ih (same.trans running)

theorem enters_running {c : Machine} {u : ω} (enters : n.Enters h v c u) : c.state = .running := by
  obtain ⟨path, v', load, script, v'', -, -, -, rfl, -⟩ := enters
  rfl

variable {stack : List Machine}

theorem stacked_running (stacked : Stacked h fuel m w stack left n v)
    (running : m.state = .running) : n.state = .running := by
  induction stacked with
  | own visits => exact visits_running visits running
  | within visits enters _ ih => exact ih (enters_running enters)

theorem visits_onward {n' : Machine} {v' : ω} (visits : Visits h fuel m w (left + 1) n v)
    (next : n.next? h (run h left) v = some (n', v')) : Visits h fuel m w left n' v' := by
  generalize most : left + 1 = more at visits
  induction visits with
  | here =>
      subst most
      exact .onward next (.here ..)
  | onward first _ ih => exact .onward first (ih next most)

theorem stacked_onward {n' : Machine} {v' : ω} (stacked : Stacked h fuel m w stack (left + 1) n v)
    (next : n.next? h (run h left) v = some (n', v')) : Stacked h fuel m w stack left n' v' := by
  generalize most : left + 1 = more at stacked
  induction stacked with
  | own visits =>
      subst most
      exact .own (visits_onward visits next)
  | within visits enters _ ih => exact .within visits enters (ih next most)

theorem visits_fuel (visits : Visits h fuel m w left n v) : left ≤ fuel := by
  induction visits with
  | here => exact Nat.le_refl _
  | onward _ _ ih => exact Nat.le_succ_of_le ih

theorem stacked_fuel (stacked : Stacked h fuel m w stack left n v) : left ≤ fuel := by
  induction stacked with
  | own visits => exact visits_fuel visits
  | within visits _ _ ih => exact Nat.le_trans ih (Nat.le_of_succ_le (visits_fuel visits))

end Boundaries

section Faults

variable {h : Host ω} {fuel left : Nat} {m n : Machine} {w v : ω} {stack : List Machine}

def frame (m : Machine) : Frame := ⟨m.script.path, m.line, m.pc⟩

theorem settled_fault {i : Instruction} {p : Progress ω} {f : Fault}
    (broke : p.breakdown = some (.fault f)) :
    m.settled h fuel i p = .failed f { p.machine with state := .aborted } p.world := by
  unfold settled
  rw [broke]

theorem settled_ok {i : Instruction} (quiet : n.abortReason = []) :
    m.settled h fuel i (.ok n v) = n.run h fuel v := by
  simp [settled, Progress.ok, quiet]

theorem settled_aborts {i : Instruction} (asked : n.abortReason ≠ []) :
    m.settled h fuel i (.ok n v) =
      .failed (.located (Report.atInstruction .abort n.abortReason m.script.path i.line m.pc) none)
        { n with state := .aborted } v := by
  simp [settled, Progress.ok, asked]

theorem concluded_fault (h : Host ω) (m : Machine) (line : Int) {p : Progress ω} {f : Fault}
    (broke : p.breakdown = some (.fault f)) :
    (∃ g, (m.concluded h line p).breakdown = some (.fault g)) ∧
      ∀ r, f.report? = some r → ∃ g, (m.concluded h line p).breakdown = some (.fault g) ∧
        g.report? = some (r.addFrame ⟨m.script.path, line, m.pc⟩) := by
  unfold concluded framed
  simp only [broke]
  cases reported : f.report? with
  | none => exact ⟨⟨_, rfl⟩, nofun⟩
  | some r =>
      refine ⟨⟨_, rfl⟩, ?_⟩
      rintro _ ⟨⟩
      refine ⟨_, rfl, ?_⟩
      simp only [Fault.report?]
      split <;> rfl

/-- A fault goes all the way out, and its report with the frames of the machines that wait. -/
theorem stacked_fault (stacked : Stacked h fuel m w stack left n v) {f : Fault}
    (broke : (n.run h left v).breakdown = some (.fault f)) :
    (∃ g, (m.run h fuel w).breakdown = some (.fault g)) ∧
      ∀ r, f.report? = some r → ∃ g, (m.run h fuel w).breakdown = some (.fault g) ∧
        g.report? = some { r with frames := r.frames ++ (stack.map frame).reverse } := by
  induction stacked with
  | own visits =>
      rw [run_visits visits]
      refine ⟨⟨f, broke⟩, fun r reported => ⟨f, broke, ?_⟩⟩
      simpa using reported
  | @within fuel left less m n c o w v u x stack visits enters _ ih =>
      obtain ⟨⟨g, below⟩, placed⟩ := ih broke
      obtain ⟨i, current, -, entered⟩ := entered_run left enters
      rw [run_visits visits, entered]
      constructor
      · obtain ⟨told, broken⟩ := (concluded_fault h n i.line below).1
        exact ⟨told, by rw [settled_fault broken]; rfl⟩
      · -- The frames so far are of the machines below; the one that waits here comes last.
        intro r reported
        obtain ⟨inner, innerBroke, innerReport⟩ := placed r reported
        obtain ⟨told, broken, report⟩ :=
          (concluded_fault h n i.line innerBroke).2 _ innerReport
        refine ⟨told, by rw [settled_fault broken]; rfl, ?_⟩
        rw [report]
        simp [Report.addFrame, frame, line_current current]

/-- A run that comes to a fault leaves its machine aborted. -/
theorem run_fault_aborted (fuel : Nat) {m : Machine} {w : ω} {f : Fault}
    (broke : (m.run h fuel w).breakdown = some (.fault f)) :
    (m.run h fuel w).machine.state = .aborted := by
  induction fuel generalizing m w with
  | zero => cases broke
  | succ fuel ih =>
      by_cases running : m.state = .running
      · cases current : m.script.code[m.pc]? with
        | none => simp [run, running, current, finish, Progress.ok] at broke
        | some i =>
            cases free : stopReason? h w with
            | some reason => simp [run, running, current, free, Progress.failed]
            | none =>
                rw [run_settled current running free] at broke ⊢
                generalize m.step h (run h fuel) i w = p at broke ⊢
                unfold settled at broke ⊢
                split at broke
                · rfl
                · next other _ =>
                    cases broke
                    exact absurd rfl (other f)
                · split at broke
                  · next quiet =>
                      rw [if_pos quiet]
                      exact ih broke
                  · next asked =>
                      rw [if_neg asked]
                      rfl
      · simp [run, running, finish, Progress.ok] at broke

end Faults

end Machine
end DeviceScript

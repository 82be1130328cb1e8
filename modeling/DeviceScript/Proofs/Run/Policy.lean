import DeviceScript.Proofs.Run.Inside
import DeviceScript.Proofs.Run.Meaning

/-!
Runs under the policies for missing variables. Where no instruction that a run comes to, in its own
script or in one that it includes, refers to a variable that is not set, all policies give the same
run.
-/

namespace DeviceScript

open Text

variable {ω : Type}

namespace Machine

section Under

variable (h : Host ω) (m : Machine) (missing : MissingPolicy)

theorem session_fault_under (canceled : Bool) (f : Fault) (w : ω) :
    (m.under missing).sessionFault canceled f w = (m.sessionFault canceled f w).under missing := by
  unfold sessionFault
  split
  · rfl
  · split <;> rfl

theorem switch_device_under (params : List Value) (w : ω) :
    (m.under missing).switchDevice h params w = (m.switchDevice h params w).under missing := by
  cases params with
  | nil => rfl
  | cons operand rest =>
      unfold switchDevice
      simp only [session_fault_under]
      split <;> rfl

theorem command_under (params : List Value) (w : ω) :
    (m.under missing).command h params w = (m.command h params w).under missing := by
  unfold command
  split
  · rfl
  · rfl
  · simp only [session_fault_under]
    split <;> rfl

theorem resume_under (included : Machine) (w : ω) :
    (m.under missing).resume h (included.under missing) w =
      (m.resume h included w).under missing := by
  unfold resume
  split
  · simp only [under_device, session_fault_under]
    by_cases stays : (m.device.isEmpty || included.device == m.device) = true
    · simp only [stays, ↓reduceIte]
      rfl
    · simp only [stays, Bool.false_eq_true, ↓reduceIte]
      split <;> rfl
  · rfl

theorem framed_under (line : Int) (f : Fault) (w : ω) :
    (m.under missing).framed line f w = (m.framed line f w).under missing := by
  unfold framed
  split
  · simp only
    split <;> rfl
  · rfl

theorem concluded_under (line : Int) (p : Progress ω) :
    (m.under missing).concluded h line (p.under missing) =
      (m.concluded h line p).under missing := by
  obtain ⟨n, w, breakdown⟩ := p
  rcases breakdown with _ | _ | _ | _
  · exact m.resume_under h missing n w
  · exact m.framed_under missing line _ w
  · rfl
  · rfl

theorem call_under (i : Instruction) (params : List Value) (w : ω) :
    (m.under missing).call h i params w = (m.call h i params w).under missing := by
  unfold call
  split
  · rfl
  · split
    · rfl
    · next operation _ _ bound _ =>
        -- An operation is told all of its call site, to which the policy does not belong.
        generalize reacted : operation.handler h.toServices
          ⟨m.runId, m.script.path, i.line, i.op.name, m.device⟩ bound m.vars w = r
        have again : operation.handler h.toServices ⟨(m.under missing).runId,
            (m.under missing).script.path, i.line, i.op.name, (m.under missing).device⟩ bound
            (m.under missing).vars w = r := reacted
        simp only [again, reacted]
        cases r.fault with
        | none => rfl
        | some fault =>
            exact session_fault_under
              { m with vars := r.vars, abortReason := r.abort.getD m.abortReason } missing ..

theorem execute_under (child child' : Machine → ω → Progress ω) {i : Instruction}
    (other : i.op ≠ .inclusion) (params : List Value) (w : ω) :
    (m.under missing).execute h child' i params w =
      (m.execute h child i params w).under missing := by
  by_cases control : i.op.isControl = true
  · have same := m.control_relabel m.device missing h child child' control params w
    unfold Progress.under
    rw [m.control_device h child control params w]
    exact same
  · unfold execute
    cases op : i.op with
    | device => exact m.switch_device_under h missing params w
    | command => exact m.command_under h missing params w
    | inclusion => exact absurd op other
    | call name => exact m.call_under h missing i params w
    | _ => simp [op, Opcode.isControl] at control

/-- The policy has no say in an instruction whose variables are all set. -/
theorem step_supplied (child : Machine → ω → Progress ω) {i : Instruction}
    (supplied : i.missingVars m.vars = []) (w : ω) :
    m.step h child i w = m.execute h child i (i.interpolated m.vars)
      (h.observe ⟨m.depth, m.pc, { i with params := i.interpolated m.vars }, m.stack, m.vars⟩ w) := by
  unfold step warnings
  rw [supplied]
  cases m.missing <;> rfl

/-- A step whose variables are all set is the same under every policy, if the runs of scripts that
it includes are. -/
theorem step_under {child : Machine → ω → Progress ω} {i : Instruction} {w : ω}
    (current : m.script.code[m.pc]? = some i) (running : m.state = .running)
    (free : stopReason? h w = none) (supplied : i.missingVars m.vars = [])
    (below : ∀ c u, m.Enters h w c u → child (c.under missing) u = (child c u).under missing) :
    (m.under missing).step h child i w = (m.step h child i w).under missing := by
  by_cases inclusion : i.op = .inclusion
  · rcases inclusion_cases h m w current running free inclusion with ⟨p, step, -⟩ | ⟨c, u, enters⟩
    · rw [step missing child, ← m.under_own, step m.missing child]
      rfl
    · obtain ⟨j, again, -, -, -, -, step⟩ := enters_step enters
      cases current.symm.trans again
      rw [step missing child, below c u enters, enters_step_own enters current child]
      exact m.concluded_under h missing i.line (child c u)
  · rw [step_supplied h (m.under missing) child supplied, step_supplied h m child supplied]
    exact m.execute_under h missing child child inclusion _ _

theorem next_under {child : Machine → ω → Progress ω} {w : ω}
    (supplied : ∀ i, m.script.code[m.pc]? = some i → m.state = .running →
      stopReason? h w = none → i.missingVars m.vars = [])
    (below : ∀ c u, m.Enters h w c u → child (c.under missing) u = (child c u).under missing) :
    (m.under missing).next? h child w =
      (m.next? h child w).map fun after => (after.1.under missing, after.2) := by
  have code : (m.under missing).script.code[(m.under missing).pc]? = m.script.code[m.pc]? := rfl
  have state : (m.under missing).state = m.state := rfl
  unfold next?
  simp only [code, state]
  cases current : m.script.code[m.pc]? with
  | none => rfl
  | some i =>
      by_cases goes : m.state = .running ∧ stopReason? h w = none
      · obtain ⟨running, free⟩ := goes
        simp only [m.step_under h missing current running free (supplied i current running free)
          below]
        rw [apply_ite (Option.map _)]
        rfl
      · have stuck (rest : Prop) : ¬ (m.state = .running ∧ (stopReason? h w).isNone ∧ rest) := by
          rintro ⟨running, free, -⟩
          exact goes ⟨running, Option.isNone_iff_eq_none.mp free⟩
        simp only [stuck, ↓reduceIte, Option.map_none]

end Under

/-- Something holds at every boundary of a run, and of the scripts that it includes, from which an
instruction is about to be executed. -/
def Throughout (h : Host ω) (P : Machine → ω → Instruction → Prop) (fuel : Nat) (m : Machine)
    (w : ω) : Prop :=
  ∀ left n v i, Inside h fuel m w (left + 1) n v → n.script.code[n.pc]? = some i →
    n.state = .running → stopReason? h v = none → P n v i

theorem throughout_zero (h : Host ω) (P : Machine → ω → Instruction → Prop) (m : Machine) (w : ω) :
    m.Throughout h P 0 w := by
  intro left n v i inside
  cases inside with
  | own visits => cases visits
  | within visits => cases visits

theorem throughout_iff (h : Host ω) (P : Machine → ω → Instruction → Prop) (fuel : Nat)
    (m : Machine) (w : ω) :
    m.Throughout h P (fuel + 1) w ↔
      (∀ i, m.script.code[m.pc]? = some i → m.state = .running → stopReason? h w = none →
        P m w i) ∧
      (∀ c u, m.Enters h w c u → c.Throughout h P fuel u) ∧
      ∀ m' w', m.next? h (run h fuel) w = some (m', w') → m'.Throughout h P fuel w' := by
  constructor
  · intro all
    refine ⟨?_, ?_, ?_⟩
    · intro i current running free
      exact all fuel m w i (.own (.here ..)) current running free
    · intro c u enters left n v i inside
      exact all left n v i (.within (.here ..) enters inside)
    · intro m' w' next left n v i inside
      refine all left n v i ?_
      cases inside with
      | own visits => exact .own (.onward next visits)
      | within visits enters rest => exact .within (.onward next visits) enters rest
  · rintro ⟨here, below, later⟩ left n v i inside
    cases inside with
    | own visits =>
        cases visits with
        | here => exact here i
        | onward next rest => exact later _ _ next left n v i (.own rest)
    | within visits enters rest =>
        cases visits with
        | here => exact below _ _ enters left n v i rest
        | onward next before => exact later _ _ next left n v i (.within before enters rest)

/-- Every instruction that the run comes to refers to variables that are set at that moment. -/
def Supplied (h : Host ω) : Nat → Machine → ω → Prop :=
  Throughout h fun n _ i => i.missingVars n.vars = []

section Supplied

variable {h : Host ω}

/-- A run on variables that are all set is the same under every policy. -/
theorem run_under (missing : MissingPolicy) {fuel : Nat} {m : Machine} {w : ω}
    (supplied : m.Supplied h fuel w) :
    (m.under missing).run h fuel w = (m.run h fuel w).under missing := by
  induction fuel generalizing m w with
  | zero => rfl
  | succ fuel ih =>
      obtain ⟨here, below, later⟩ := (throughout_iff ..).mp supplied
      have state : (m.under missing).state = m.state := rfl
      have code : (m.under missing).script.code[(m.under missing).pc]? = m.script.code[m.pc]? := rfl
      unfold run
      simp only [state, code]
      by_cases running : m.state = .running
      · simp only [running, ne_eq, not_true_eq_false, ↓reduceIte]
        cases current : m.script.code[m.pc]? with
        | none => rfl
        | some i =>
            simp only
            cases free : stopReason? h w with
            | some reason => rfl
            | none =>
                have same := m.step_under h missing current running free
                  (here i current running free) fun c u enters => ih (below c u enters)
                simp only [same]
                cases step : m.step h (run h fuel) i w with
                | mk after world breakdown =>
                    cases breakdown with
                    | some b => cases b <;> rfl
                    | none =>
                        simp only [Progress.under, Progress.relabel]
                        -- An instruction may ask to abort, which it does under either policy.
                        by_cases quiet : after.abortReason = []
                        · have next : m.next? h (run h fuel) w = some (after, world) :=
                            (next_iff ..).mpr ⟨i, current, running, free, step, quiet⟩
                          have abort : (after.relabel after.device missing).abortReason = [] :=
                            quiet
                          simp only [quiet, abort, List.isEmpty_nil, ↓reduceIte]
                          exact ih (later after world next)
                        · have abort : (after.relabel after.device missing).abortReason ≠ [] :=
                            quiet
                          simp only [List.isEmpty_iff, quiet, abort, ↓reduceIte]
                          rfl
      · simp only [running, ne_eq, not_false_eq_true, ↓reduceIte]
        rfl

theorem next_supplied (missing : MissingPolicy) {fuel : Nat} {m : Machine} {w : ω}
    (supplied : m.Supplied h (fuel + 1) w) :
    (m.under missing).next? h (run h fuel) w =
      (m.next? h (run h fuel) w).map fun after => (after.1.under missing, after.2) := by
  obtain ⟨here, below, -⟩ := (throughout_iff ..).mp supplied
  exact m.next_under h missing here fun c u enters => run_under missing (below c u enters)

theorem due_under (missing : MissingPolicy) {m : Machine} {w : ω}
    (supplied : ∀ i, m.script.code[m.pc]? = some i → m.state = .running →
      stopReason? h w = none → i.missingVars m.vars = []) :
    (m.under missing).due h w = m.due h w := by
  have code : (m.under missing).script.code[(m.under missing).pc]? = m.script.code[m.pc]? := rfl
  unfold due
  rw [code]
  cases current : m.script.code[m.pc]? with
  | none => rfl
  | some i =>
      refine if_congr (and_congr_right fun running => and_congr_right fun free =>
        and_congr_right fun _ => ?_) rfl rfl
      have set := supplied i current running free
      constructor <;> exact fun _ _ => set

theorem dispatched_under (missing : MissingPolicy) {fuel : Nat} {m : Machine} {w : ω}
    (supplied : m.Supplied h fuel w) :
    (m.under missing).dispatched h fuel w = m.dispatched h fuel w := by
  induction fuel generalizing m w with
  | zero => rfl
  | succ fuel ih =>
      obtain ⟨here, -, later⟩ := (throughout_iff ..).mp supplied
      unfold dispatched
      rw [next_supplied missing supplied, due_under missing here]
      cases next : m.next? h (run h fuel) w with
      | none => rfl
      | some after => exact congrArg _ (ih (later after.1 after.2 next))

theorem visits_under (missing : MissingPolicy) {fuel left : Nat} {m n : Machine} {w v : ω}
    (visits : Visits h fuel m w left n v) (supplied : m.Supplied h fuel w) :
    Visits h fuel (m.under missing) w left (n.under missing) v ∧ n.Supplied h left v := by
  induction visits with
  | here => exact ⟨.here .., supplied⟩
  | @onward fuel left m m' n w w' v next _ ih =>
      obtain ⟨-, -, later⟩ := (throughout_iff ..).mp supplied
      obtain ⟨visits, still⟩ := ih (later m' w' next)
      refine ⟨.onward ?_ visits, still⟩
      rw [next_supplied missing supplied, next]
      rfl

theorem enters_under (missing : MissingPolicy) {m c : Machine} {w u : ω}
    (enters : m.Enters h w c u) : (m.under missing).Enters h w (c.under missing) u := by
  obtain ⟨path, v, load, script, v', requests, given, loaded, rfl, rfl⟩ := enters
  exact ⟨path, v, load, script, v', requests, given, loaded, rfl, rfl⟩

/-- The scripts that are included come to the same boundaries too. -/
theorem inside_under (missing : MissingPolicy) {fuel left : Nat} {m n : Machine} {w v : ω}
    (inside : Inside h fuel m w left n v) (supplied : m.Supplied h fuel w) :
    Inside h fuel (m.under missing) w left (n.under missing) v := by
  induction inside with
  | own visits => exact .own (visits_under missing visits supplied).1
  | within visits enters _ ih =>
      obtain ⟨visits, still⟩ := visits_under missing visits supplied
      obtain ⟨-, below, -⟩ := (throughout_iff ..).mp still
      exact .within visits (enters_under missing enters) (ih (below _ _ enters))

end Supplied
end Machine

end DeviceScript

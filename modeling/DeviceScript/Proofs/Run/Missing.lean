import DeviceScript.Proofs.Run.Policy
import DeviceScript.Proofs.Run.Safety
import DeviceScript.Proofs.Schema.Vocabulary

/-!
Runs that report a missing variable. Under the strict policy a run ends with that report exactly if
some instruction that it comes to, at any depth of inclusion, refers to a variable that is not set,
also where control would only pass it over; under the other policies no run does.
-/

namespace DeviceScript

open Text

variable {ω : Type}

def Progress.lacksVariable (p : Progress ω) : Bool :=
  match p.breakdown with
  | some (.fault f) => f.isKind .missingVariable
  | _ => false

/-- Sessions, operations and the loader do not report missing variables. -/
structure Host.Candid (h : Host ω) : Prop where
  switches : ∀ session, h.session = some session → ∀ name w f w',
    session.switchDevice name w = (.error f, w') → f.isKind .missingVariable = false
  sends : ∀ session, h.session = some session → ∀ command w f w',
    session.send command w = (.error f, w') → f.isKind .missingVariable = false
  handles : ∀ registry, h.registry = some registry → ∀ operation ∈ registry.operations,
    ∀ site bound vars w f, (operation.handler h.toServices site bound vars w).fault = some f →
      f.isKind .missingVariable = false
  loads : ∀ load, h.load = some load → ∀ path w f w',
    load path w = (.error (.fault f), w') → f.isKind .missingVariable = false

namespace Machine

/-- Control fails for other reasons than a missing variable. -/
def Knows {α : Type} (x : Except (FaultKind × Reason) α) : Prop :=
  ∀ e, x = .error e → e.1 ≠ .missingVariable

section Knows

variable (m : Machine)

theorem knows_ok {α : Type} (a : α) : Knows (.ok a) := nofun

theorem knows_bind {α β : Type} {x : Except (FaultKind × Reason) α}
    {f : α → Except (FaultKind × Reason) β} (first : Knows x) (each : ∀ a, Knows (f a)) :
    Knows (x >>= f) := by
  cases x with
  | error e =>
      rintro _ ⟨⟩
      exact first e rfl
  | ok a => exact each a

theorem knows_flow {α : Type} (x : Except Reason α) : Knows (x.mapError flowFault) := by
  cases x with
  | ok a => exact knows_ok a
  | error reason =>
      rintro _ ⟨⟩
      exact nofun

theorem knows_condition {α : Type} (x : Except Reason α) : Knows (x.mapError conditionFault) := by
  cases x with
  | ok a => exact knows_ok a
  | error reason =>
      rintro _ ⟨⟩
      exact nofun

theorem branch_test_knows (params : List Value) : Knows (branchTest params) :=
  knows_bind (knows_flow _) fun _ => knows_bind (knows_condition _) fun _ => knows_ok _

theorem else_if_knows (params : List Value) : Knows (m.elseIf params) := by
  refine knows_bind (knows_flow _) fun _ => knows_bind (knows_flow _) fun taken => ?_
  split
  · exact knows_flow _
  · refine knows_bind (knows_condition _) fun holds => ?_
    split
    · exact knows_bind (knows_flow _) fun _ => knows_ok _
    · exact knows_flow _

theorem else_branch_knows (params : List Value) : Knows (m.elseBranch params) := by
  refine knows_bind (knows_flow _) fun _ => knows_bind (knows_flow _) fun taken => ?_
  split
  · exact knows_flow _
  · exact knows_ok _

theorem loop_knows (params : List Value) : Knows (m.loop params) := by
  refine knows_bind (knows_flow _) fun ⟨guard, target⟩ => ?_
  simp only
  split
  · exact knows_ok _
  · refine knows_bind (knows_condition _) fun holds => ?_
    split
    · exact knows_ok _
    · exact knows_bind (knows_flow _) fun _ => knows_ok _

theorem loop_end_knows (op : Opcode) (params : List Value) : Knows (m.loopEnd op params) := by
  unfold loopEnd
  split
  · exact knows_flow (.error _)
  · exact knows_flow _
  · refine knows_bind (knows_condition _) fun finished => ?_
    split
    · exact knows_ok _
    · exact knows_flow _
  · exact knows_flow (.error _)

end Knows

section Candid

variable (m : Machine)

theorem located_lacks {kind : FaultKind} (other : kind ≠ .missingVariable) {f : Fault}
    (known : f.isKind .missingVariable = false) (n : Machine) (w : ω) :
    (Progress.failed (m.locate kind f) n w).lacksVariable = false := by
  unfold Fault.isKind at known
  unfold Progress.lacksVariable Progress.failed locate Fault.isKind
  cases reported : f.report? with
  | none => simpa [Fault.report?, Report.atInstruction] using other
  | some r =>
      rw [reported] at known
      simp only [Fault.report?, Option.any_some]
      split <;> exact known

theorem refuse_lacks {kind : FaultKind} (other : kind ≠ .missingVariable) (reason : Reason)
    (w : ω) : (m.refuse kind reason w).lacksVariable = false :=
  m.located_lacks other rfl m w

theorem session_fault_lacks (canceled : Bool) {f : Fault}
    (known : f.isKind .missingVariable = false) (w : ω) :
    (m.sessionFault canceled f w).lacksVariable = false := by
  unfold sessionFault
  split
  · exact known
  · split
    · exact m.located_lacks (by decide) known _ w
    · exact m.located_lacks (by decide) known _ w

theorem framed_lacks (line : Int) (f : Fault) (w : ω) :
    (m.framed line f w).lacksVariable = f.isKind .missingVariable := by
  unfold framed
  cases reported : f.report? with
  | none =>
      have known : f.isKind .missingVariable = false := by simp [Fault.isKind, reported]
      rw [known]
      exact m.located_lacks (by decide) known m w
  | some r =>
      simp only [Progress.lacksVariable, Progress.failed, Fault.isKind, Fault.report?, reported]
      rfl

theorem concluded_lacks (h : Host ω) (line : Int) {p : Progress ω}
    (lacks : p.lacksVariable = true) : (m.concluded h line p).lacksVariable = true := by
  obtain ⟨after, world, breakdown⟩ := p
  rcases breakdown with _ | f | _ | _
  · cases lacks
  · exact (m.framed_lacks line f world).trans lacks
  · cases lacks
  · cases lacks

theorem follow_lacks {flow : Flow} (knows : Knows flow) (w : ω) :
    (m.follow flow w).lacksVariable = false := by
  unfold follow
  split
  · rfl
  · next kind reason => exact m.refuse_lacks (knows (kind, reason) rfl) reason w

theorem control_lacks (h : Host ω) (child : Machine → ω → Progress ω) {i : Instruction}
    (control : i.op.isControl = true) (params : List Value) (w : ω) :
    (m.execute h child i params w).lacksVariable = false := by
  unfold execute
  cases op : i.op with
  | ifNotGoto =>
      simp only [ifNotGoto]
      split
      · next kind reason failed =>
          exact m.refuse_lacks (branch_test_knows params (kind, reason) failed) reason w
      · refine follow_lacks _ ?_ w
        split
        · exact knows_ok _
        · exact knows_flow _
  | elseIf => exact m.follow_lacks (m.else_if_knows params) w
  | elseBranch => exact m.follow_lacks (m.else_branch_knows params) w
  | fi => exact m.follow_lacks (knows_bind (knows_flow _) fun _ => knows_ok _) w
  | loop => exact m.follow_lacks (m.loop_knows params) w
  | endWhile => exact m.follow_lacks (m.loop_end_knows .endWhile params) w
  | untilMet => exact m.follow_lacks (m.loop_end_knows .untilMet params) w
  | _ => simp [op, Opcode.isControl] at control

variable {h : Host ω} (candid : h.Candid)

include candid

theorem switch_device_lacks (params : List Value) (w : ω) :
    (m.switchDevice h params w).lacksVariable = false := by
  cases params with
  | nil => rfl
  | cons operand rest =>
      unfold switchDevice
      cases given : h.session with
      | none => rfl
      | some session =>
          rcases answered : session.switchDevice operand.render w with ⟨f | _, w'⟩
          · simp only [answered]
            exact m.session_fault_lacks _ (candid.switches session given _ _ _ _ answered) w'
          · simp only [answered]
            rfl

theorem command_lacks (params : List Value) (w : ω) :
    (m.command h params w).lacksVariable = false := by
  unfold command
  cases given : h.session with
  | none => exact m.refuse_lacks (by decide) _ w
  | some session =>
      cases params with
      | nil => rfl
      | cons operand rest =>
          rcases answered : session.send operand.render w with ⟨f | output, w'⟩
          · simp only [answered]
            exact m.session_fault_lacks _ (candid.sends session given _ _ _ _ answered) w'
          · simp only [answered]
            rfl

theorem resume_lacks (included : Machine) (w : ω) :
    (m.resume h included w).lacksVariable = false := by
  unfold resume
  cases given : h.session with
  | none => rfl
  | some session =>
      simp only
      split
      · rfl
      · rcases answered : session.switchDevice m.device w with ⟨f | _, w'⟩
        · exact m.session_fault_lacks _ (candid.switches session given _ _ _ _ answered) w'
        · rfl

theorem call_lacks (i : Instruction) (params : List Value) (w : ω) :
    (m.call h i params w).lacksVariable = false := by
  unfold call
  cases found : h.registry.bind fun r => r.lookup? i.op.name with
  | none => rfl
  | some operation =>
      simp only
      cases operation.spec.bind params with
      | error reason => exact m.refuse_lacks (by decide) _ w
      | ok bound =>
          simp only
          split
          · next fault faulted =>
              obtain ⟨registry, given, looked⟩ := Option.bind_eq_some_iff.mp found
              exact session_fault_lacks _ _ (candid.handles registry given operation
                (List.mem_of_find?_eq_some looked) _ _ _ _ _ faulted) _
          · rfl

theorem inclusion_lacks {child : Machine → ω → Progress ω}
    (below : ∀ script w, (child (m.child script) w).lacksVariable = false) (line : Int)
    (params : List Value) (w : ω) : (m.inclusion h child line params w).lacksVariable = false := by
  cases params with
  | nil => rfl
  | cons operand rest =>
      unfold inclusion
      cases given : h.load with
      | none => exact m.refuse_lacks (by decide) _ w
      | some load =>
          simp only
          split
          · exact m.refuse_lacks (by decide) _ w
          · rcases loaded : load operand.render w with ⟨b | script, w'⟩
            · cases b with
              | fault f => exact m.located_lacks (by decide) (candid.loads load given _ _ _ _ loaded) m w'
              | _ => rfl
            · simp only
              generalize h.log _ w' = told
              have under := below script told
              generalize child (m.child script) told = p at under
              obtain ⟨after, world, breakdown⟩ := p
              rcases breakdown with _ | f | _ | _
              · exact resume_lacks m candid after world
              · exact (m.framed_lacks line f world).trans under
              · rfl
              · rfl

theorem step_lacks (lenient : m.missing ≠ .error) {child : Machine → ω → Progress ω}
    (below : ∀ script w, (child (m.child script) w).lacksVariable = false) (i : Instruction)
    (w : ω) : (m.step h child i w).lacksVariable = false := by
  rcases step_cases h m i w with ⟨text, strict, -⟩ | ⟨told, step⟩
  · exact absurd strict lenient
  · rw [step child]
    by_cases control : i.op.isControl = true
    · exact m.control_lacks h child control _ told
    · unfold execute
      cases op : i.op with
      | device => exact m.switch_device_lacks candid _ told
      | command => exact m.command_lacks candid _ told
      | inclusion => exact m.inclusion_lacks candid below i.line _ told
      | call name => exact m.call_lacks candid i _ told
      | _ => simp [op, Opcode.isControl] at control

omit candid in
theorem step_missing (child : Machine → ω → Progress ω) (i : Instruction) (w : ω) :
    (m.step h child i w).machine.missing = m.missing := by
  rcases step_cases h m i w with ⟨text, -, step⟩ | ⟨told, step⟩
  · rw [step child]
    rfl
  · rw [step child]
    by_cases control : i.op.isControl = true
    · have same := m.control_relabel m.device m.missing h child child control
        (i.interpolated m.vars) told
      exact congrArg (fun p => p.machine.missing) same
    · have alike := execute_alike h child m rfl rfl i (by simpa using control)
        (i.interpolated m.vars) told
      rw [alike.1]

/-- Under another policy than the strict one, no run reports a missing variable. -/
theorem run_lacks (fuel : Nat) {m : Machine} (lenient : m.missing ≠ .error) (w : ω) :
    (m.run h fuel w).lacksVariable = false := by
  induction fuel generalizing m w with
  | zero => rfl
  | succ fuel ih =>
      by_cases running : m.state = .running
      · cases next : m.next? h (run h fuel) w with
        | some further =>
            obtain ⟨m', w'⟩ := further
            rw [run_next next]
            obtain ⟨i, -, -, -, step, -⟩ := (next_iff ..).mp next
            have kept := m.step_missing (h := h) (run h fuel) i w
            rw [step] at kept
            exact ih (kept ▸ lenient) w'
        | none =>
            have ends := run_stays running next
            generalize m.run h (fuel + 1) w = p at ends
            cases ends with
            | past => rfl
            | stopped => rfl
            | @broken i p b state _ _ step breaks =>
                have known := m.step_lacks candid lenient
                  (fun script w => ih (m := m.child script) lenient w) i w
                rw [step] at known
                unfold Progress.lacksVariable at known ⊢
                rwa [breaks] at known
            | aborted => rfl
      · unfold run
        simp only [ne_eq, running, not_false_eq_true, ↓reduceIte]
        rfl

end Candid

theorem run_step_lacks {h : Host ω} {fuel : Nat} {m : Machine} {w : ω} {i : Instruction}
    (current : m.script.code[m.pc]? = some i) (running : m.state = .running)
    (free : stopReason? h w = none)
    (lacks : (m.step h (run h fuel) i w).lacksVariable = true) :
    (m.run h (fuel + 1) w).lacksVariable = true := by
  unfold run
  simp only [running, ne_eq, not_true_eq_false, ↓reduceIte, current, free]
  generalize m.step h (run h fuel) i w = p at lacks
  obtain ⟨after, world, breakdown⟩ := p
  rcases breakdown with _ | f | _ | _
  · cases lacks
  · exact lacks
  · cases lacks
  · cases lacks

theorem step_strict (h : Host ω) (child : Machine → ω → Progress ω) {m : Machine}
    {i : Instruction} (missing : i.missingVars m.vars ≠ []) (w : ω) :
    ((m.under .error).step h child i w).lacksVariable = true := by
  obtain ⟨name, rest, lacking⟩ := List.exists_cons_of_ne_nil missing
  have lacking : i.missingVars (m.under .error).vars = name :: rest := lacking
  unfold step
  simp only [lacking]
  rfl

/-- Under the strict policy a run ends at an instruction that refers to a variable that is not set,
if one that goes by another policy comes to such an instruction at all. -/
theorem run_strict {h : Host ω} {fuel : Nat} {m : Machine} {w : ω}
    (unsupplied : ¬ m.Supplied h fuel w) :
    ((m.under .error).run h fuel w).lacksVariable = true := by
  induction fuel generalizing m w with
  | zero => exact absurd (throughout_zero h _ m w) unsupplied
  | succ fuel ih =>
      by_cases here : ∀ i, m.script.code[m.pc]? = some i → m.state = .running →
          stopReason? h w = none → i.missingVars m.vars = []
      -- A variable is missing here, in a script that is included here, or later on.
      · by_cases below : ∀ c u, m.Enters h w c u → c.Supplied h fuel u
        · obtain ⟨m', w', next, later⟩ : ∃ m' w', m.next? h (run h fuel) w = some (m', w') ∧
              ¬ m'.Supplied h fuel w' := by
            by_contra none
            refine unsupplied ((throughout_iff ..).mpr ⟨here, below, ?_⟩)
            intro m' w' next
            by_contra later
            exact none ⟨m', w', next, later⟩
          have strict := m.next_under h .error here fun c u enters =>
            run_under .error (below c u enters)
          rw [next] at strict
          rw [run_next strict]
          exact ih later
        · push Not at below
          obtain ⟨c, u, enters, later⟩ := below
          obtain ⟨i, current, running, free, -, -, step⟩ := enters_step enters
          refine run_step_lacks current running free ?_
          rw [step .error (run h fuel)]
          exact concluded_lacks _ h i.line (ih later)
      · push Not at here
        obtain ⟨i, current, running, free, missing⟩ := here
        exact run_step_lacks current running free (step_strict h (run h fuel) missing w)

end Machine

namespace Machine

section Throughout

variable {h : Host ω} {P : Machine → ω → Instruction → Prop} {fuel : Nat} {m m' : Machine}
variable {w w' : ω}

theorem throughout_past (past : m.script.code[m.pc]? = none) : m.Throughout h P (fuel + 1) w := by
  refine (throughout_iff ..).mpr ⟨?_, ?_, ?_⟩
  · intro i current
    cases past.symm.trans current
  · intro c u enters
    obtain ⟨i, current, -⟩ := enters_step enters
    cases past.symm.trans current
  · intro m' w' next
    obtain ⟨i, current, -⟩ := (next_iff ..).mp next
    cases past.symm.trans current

theorem throughout_alone (unloaded : h.load = none)
    (here : ∀ i, m.script.code[m.pc]? = some i → P m w i)
    (next : m.next? h (run h fuel) w = some (m', w')) (rest : m'.Throughout h P fuel w') :
    m.Throughout h P (fuel + 1) w := by
  refine (throughout_iff ..).mpr ⟨fun i current _ _ => here i current, ?_, ?_⟩
  · rintro c u ⟨_, _, load, _, _, -, given, -⟩
    cases unloaded.symm.trans given
  · intro after world again
    cases next.symm.trans again
    exact rest

end Throughout
end Machine

/-- The strict policy and the one that ignores missing variables. If all instructions that a run
comes to refer to variables that are set, the two give one run, which reports no missing variable:
the same instructions are executed, in the script and in those it includes, and they leave the same
behind. If one of them does not, the strict run ends with such a report. The condition of a branch
that is only passed over counts among those instructions. -/
theorem strict_run_where_supplied {h : Host ω} (candid : h.Candid) (script : Script) (vars : Vars)
    (runId : Text) (w : ω) (fuel : Nat) :
    let lenient := Machine.start script vars .ignore runId
    let strict := Machine.start script vars .error runId
    (lenient.Supplied h fuel w →
      strict.dispatched h fuel w = lenient.dispatched h fuel w ∧
      (∀ left n v, Machine.Inside h fuel lenient w left n v →
        Machine.Inside h fuel strict w left (n.under .error) v) ∧
      strict.run h fuel w = (lenient.run h fuel w).under .error ∧
      (strict.run h fuel w).lacksVariable = false) ∧
    (¬ lenient.Supplied h fuel w → (strict.run h fuel w).lacksVariable = true) := by
  intro lenient strict
  have same : strict = lenient.under .error := rfl
  rw [same]
  refine ⟨?_, Machine.run_strict⟩
  intro supplied
  refine ⟨Machine.dispatched_under .error supplied, ?_, Machine.run_under .error supplied, ?_⟩
  · intro left n v inside
    exact Machine.inside_under .error inside supplied
  · rw [Machine.run_under .error supplied]
    exact Machine.run_lacks candid fuel (by simp [lenient, Machine.start]) w

theorem in_memory_candid : Host.inMemory.Candid where
  switches := by
    rintro _ ⟨⟩ name w f w' answered
    simp only [Simulated.switchDevice] at answered
    split at answered
    · cases answered
    · cases answered
      rfl
  sends := by
    rintro _ ⟨⟩ command w f w' answered
    cases answered
  handles := by
    rintro _ ⟨⟩ operation member site bound vars w f faulted
    obtain rfl := List.mem_singleton.mp member
    simp only [Standard.count, Standard.counter] at faulted
    repeat' split at faulted
    all_goals cases faulted
    next refused =>
      repeat' split at refused
      all_goals cases refused
      rfl
  loads := nofun

/-- The polling script counts a variable that it does not set itself. -/
theorem polling_run_strict :
    let answering := Simulated.empty.respond [] "show run" "up"
    let counted := Vars.empty.set "n" "0"
    let lenient := Machine.start pollingScript counted .ignore "run"
    let strict := Machine.start pollingScript counted .error "run"
    Host.inMemory.Candid ∧ lenient.Supplied Host.inMemory 20 answering ∧
      strict.run Host.inMemory 20 answering = (lenient.run Host.inMemory 20 answering).under .error ∧
      ((Machine.start pollingScript .empty .error "run").run Host.inMemory 20 answering).lacksVariable
        = true := by
  intro answering counted lenient strict
  obtain ⟨supplied, unsupplied⟩ :=
    strict_run_where_supplied in_memory_candid pollingScript counted "run" answering 20
  have known : (strict.run Host.inMemory 20 answering).lacksVariable = false := by decide +kernel
  have all : lenient.Supplied Host.inMemory 20 answering := by
    by_contra lacking
    exact absurd (unsupplied lacking) (known ▸ Bool.false_ne_true)
  exact ⟨in_memory_candid, all, (supplied all).2.2.1, by decide +kernel⟩

/-! A chain whose second condition is only passed over. -/

def passing : Text := "<if a eq a>\nshow a\n<elseif $n eq a>\nshow b\n<fi>"

def passingScript : Script where
  path := "pass"
  code :=
    [⟨1, .ifNotGoto, [.text "a", .text "eq", .text "a", .int 3]⟩,
     ⟨2, .command, [.text "show a"]⟩,
     ⟨3, .elseIf, [.text "$n", .text "eq", .text "a", .int 5]⟩,
     ⟨4, .command, [.text "show b"]⟩,
     ⟨5, .fi, []⟩]
  sections := []
  inclusions := []

theorem passing_assembled : passingScript.IsAssembled := by
  refine ⟨"pass", none, false, passing,
    [⟨.keyword, "if", 1⟩, ⟨.word, "a", 1⟩, ⟨.comparison, "eq", 1⟩, ⟨.word, "a", 1⟩,
     ⟨.command, "show a", 2⟩,
     ⟨.keyword, "elseif", 3⟩, ⟨.variableRef, "$n", 3⟩, ⟨.comparison, "eq", 3⟩, ⟨.word, "a", 3⟩,
     ⟨.command, "show b", 4⟩,
     ⟨.keyword, "fi", 5⟩], ?_, rfl⟩
  rw [Schema.standard_vocabulary]
  decide +kernel

/-- The instruction is the condition of a branch, in a chain of which a branch has already run. -/
def Machine.PassesOver (m : Machine) (i : Instruction) : Prop :=
  i.op = .elseIf ∧ m.stack.peek = .ok true

def passingAt (pc : Nat) (stack : ControlStack) (vars : Vars) : Machine :=
  ⟨passingScript, pc, .running, stack, vars, [], 0, [], "run", .ignore⟩

/-- A variable that is missing from a condition stops the strict run, although the condition is
never needed: all conditions that are decided and all simple instructions have their variables. -/
theorem passed_condition_stops_strict_run :
    let lenient := Machine.start passingScript .empty .ignore "run"
    let strict := Machine.start passingScript .empty .error "run"
    passingScript.IsAssembled ∧
      lenient.Throughout Host.inMemory
        (fun n _ i => ¬ n.PassesOver i → i.missingVars n.vars = []) 9 .empty ∧
      (lenient.run Host.inMemory 9 .empty).breakdown.isNone ∧
      (strict.run Host.inMemory 9 .empty).lacksVariable = true := by
  intro lenient strict
  refine ⟨passing_assembled, ?_, by decide +kernel, by decide +kernel⟩
  let told := Vars.empty.set outputVar []
  let sent := (Simulated.empty.send false "show a").2
  -- The chain is begun, its branch is run, the other condition is passed over, the chain is closed.
  have begun : (passingAt 0 .empty .empty).next? Host.inMemory (Machine.run Host.inMemory 8) .empty =
      some (passingAt 1 ⟨[true]⟩ .empty, .empty) := rfl
  have shown : (passingAt 1 ⟨[true]⟩ .empty).next? Host.inMemory (Machine.run Host.inMemory 7)
      .empty = some (passingAt 2 ⟨[true]⟩ told, sent) := rfl
  have passed : (passingAt 2 ⟨[true]⟩ told).next? Host.inMemory (Machine.run Host.inMemory 6) sent =
      some (passingAt 4 ⟨[true]⟩ told, sent) := rfl
  have closed : (passingAt 4 ⟨[true]⟩ told).next? Host.inMemory (Machine.run Host.inMemory 5) sent =
      some (passingAt 5 .empty told, sent) := rfl
  refine Machine.throughout_alone rfl ?_ begun (Machine.throughout_alone rfl ?_ shown
    (Machine.throughout_alone rfl ?_ passed (Machine.throughout_alone rfl ?_ closed
      (Machine.throughout_past rfl))))
  · rintro i ⟨⟩ -
    rfl
  · rintro i ⟨⟩ -
    rfl
  · rintro i ⟨⟩ decided
    exact absurd ⟨rfl, rfl⟩ decided
  · rintro i ⟨⟩ -
    rfl

end DeviceScript

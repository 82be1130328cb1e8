import DeviceScript.Proofs.Run.Nesting
import DeviceScript.Proofs.Source.Leniency
import DeviceScript.Session.Simulated

/-!
Whole runs of assembled scripts. The stack agrees with the nesting of the code at every boundary,
so control never loses its way, and a run without a fault ends at the end of the code with all
chains closed.
-/

namespace DeviceScript

open Text

/-- Control has lost its way: its stack or its jumps do not agree with the code. -/
def Reason.IsFlow : Reason → Prop
  | .stackUnderflow | .stackEmpty | .noJumpTarget | .jumpTargetNotLine _ | .noLoopStart _
  | .loopStartNotLine _ _ | .jumpNotFound _ => True
  | _ => False

/-- The reason at the root of a fault. -/
def Fault.reason? : Fault → Option Reason
  | .plain reason => some reason
  | .wrapped _ inner => inner.reason?
  | .located _ (some cause) => cause.reason?
  | .located _ none => none

def Fault.IsFlow (f : Fault) : Prop := ∃ reason, f.reason? = some reason ∧ reason.IsFlow

/-- Breakdowns that only a machine at odds with its code can have. -/
def Breakdown.IsDefect : Breakdown → Prop
  | .fault f => f.IsFlow
  | .crash => True
  | .outOfFuel => False

namespace Condition

theorem compare_reason {left word right : Text} {reason : Reason}
    (valueless : compare left word right = .error reason) : ¬ reason.IsFlow := by
  unfold compare numbers at valueless
  repeat' split at valueless
  all_goals
    simp only [Except.map, reduceCtorEq, Except.error.injEq] at valueless
  all_goals
    subst valueless
    exact id

theorem join_from_reason {result : Bool} {words : List Text} {reason : Reason}
    (valueless : joinFrom result words = .error reason) : ¬ reason.IsFlow := by
  fun_induction joinFrom result words with
  | case1 _ _ _ _ _ _ other compared =>
      cases valueless
      exact compare_reason compared
  | case2 _ _ _ _ _ _ _ _ _ ih => exact ih valueless
  | case3 _ _ _ _ _ _ _ _ _ _ ih => exact ih valueless
  | case4 =>
      cases valueless
      exact id
  | case5 => cases valueless

theorem evaluate_reason {words : List Text} {reason : Reason}
    (valueless : evaluate words = .error reason) : ¬ reason.IsFlow := by
  unfold evaluate at valueless
  split at valueless
  · split at valueless
    · split at valueless
      · next compared =>
          cases valueless
          exact compare_reason compared
      · exact join_from_reason valueless
    · cases valueless
      exact id
  · cases valueless
    exact id

end Condition

/-! The slots of a call are bound without control. -/

theorem convert_reason {op : Text} {p : ParamSpec} {given : Value} {reason : Reason}
    (refused : p.convert op given = .error reason) : ¬ reason.IsFlow := by
  unfold ParamSpec.convert at refused
  repeat' split at refused
  all_goals cases refused
  all_goals exact id

theorem bind_slot_reason {op : Text} {p : ParamSpec} {slot : Value} {reason : Reason}
    (refused : p.bindSlot op slot = .error reason) : ¬ reason.IsFlow := by
  unfold ParamSpec.bindSlot at refused
  simp only at refused
  generalize (if slot = .absent then p.fallback else slot) = given at refused
  split at refused
  · split at refused
    · cases refused
      exact id
    · cases refused
  · cases converted : p.convert op given with
    | ok v => simp [converted, Except.map] at refused
    | error other =>
        simp only [converted, Except.map, Except.error.injEq] at refused
        exact refused ▸ convert_reason converted

theorem bind_params_reason {op : Text} {ps : List ParamSpec} {slots : List Value} {bound : Bound}
    {reason : Reason} (refused : OperationSpec.bindParams op ps slots bound = .error reason) :
    ¬ reason.IsFlow := by
  induction ps generalizing slots bound with
  | nil => cases refused
  | cons p rest ih =>
      unfold OperationSpec.bindParams at refused
      split at refused
      · next unbound =>
          cases refused
          exact bind_slot_reason unbound
      · exact ih refused
      · exact ih refused

theorem bind_reason {o : OperationSpec} {slots : List Value} {reason : Reason}
    (refused : o.bind slots = .error reason) : ¬ reason.IsFlow := by
  unfold OperationSpec.bind at refused
  split at refused
  · cases refused
    exact id
  · exact bind_params_reason refused

/-! Placing a fault keeps its root. -/

theorem reason_of_report : (f : Fault) → (r : Report) → f.report? = some r →
    f.reason? = f.cause?.bind Fault.reason?
  | .plain _, _, reported => nomatch reported
  | .wrapped _ inner, r, reported => reason_of_report inner r reported
  | .located _ none, _, _ => rfl
  | .located _ (some _), _, _ => rfl

theorem located_reason (r : Report) (cause : Option Fault) :
    (Fault.located r cause).reason? = cause.bind Fault.reason? := by
  cases cause <;> rfl

/-- Whatever broke the work off, it was no defect. -/
def Progress.Sound {ω : Type} (p : Progress ω) : Prop :=
  ∀ b, p.breakdown = some b → ¬ b.IsDefect

/-- Sessions, operations and the loader do not claim that control is lost, and the scripts that
are loaded are linked. -/
structure Host.Sound {ω : Type} (h : Host ω) : Prop where
  switches : ∀ session, h.session = some session → ∀ name w f w',
    session.switchDevice name w = (.error f, w') → ¬ f.IsFlow
  sends : ∀ session, h.session = some session → ∀ command w f w',
    session.send command w = (.error f, w') → ¬ f.IsFlow
  handles : ∀ registry, h.registry = some registry → ∀ operation ∈ registry.operations,
    ∀ site bound vars w f,
      (operation.handler h.toServices site bound vars w).fault = some f → ¬ f.IsFlow
  loads : ∀ load, h.load = some load → ∀ path w script w',
    load path w = (.ok script, w') → script.Linked
  loadFaults : ∀ load, h.load = some load → ∀ path w b w',
    load path w = (.error b, w') → ¬ b.IsDefect

namespace Machine

variable {ω : Type} (m : Machine)

@[simp] theorem locate_reason (kind : FaultKind) (f : Fault) :
    (m.locate kind f).reason? = f.reason? := by
  unfold locate
  cases reported : f.report? with
  | none => rfl
  | some r => simp only [located_reason, reason_of_report f r reported]

theorem ok_sound (w : ω) : (Progress.ok m w).Sound := nofun

theorem failed_sound {f : Fault} (w : ω) (other : ¬ f.IsFlow) : (Progress.failed f m w).Sound := by
  rintro _ ⟨⟩
  exact other

theorem located_sound {f : Fault} (kind : FaultKind) (w : ω) (other : ¬ f.IsFlow) (n : Machine) :
    (Progress.failed (m.locate kind f) n w).Sound := by
  apply failed_sound
  simpa [Fault.IsFlow] using other

theorem refuse_sound {reason : Reason} (kind : FaultKind) (w : ω) (other : ¬ reason.IsFlow) :
    (m.refuse kind reason w).Sound := by
  apply located_sound
  simpa [Fault.IsFlow, Fault.reason?] using other

theorem session_fault_sound {f : Fault} (canceled : Bool) (w : ω) (other : ¬ f.IsFlow) :
    (m.sessionFault canceled f w).Sound := by
  unfold sessionFault
  split
  · exact failed_sound m w other
  · split
    · exact located_sound m .abort w other _
    · exact located_sound m .handler w other _

theorem framed_sound {f : Fault} (line : Int) (w : ω) (other : ¬ f.IsFlow) :
    (m.framed line f w).Sound := by
  unfold framed
  cases reported : f.report? with
  | none => exact located_sound m .handler w other m
  | some r =>
      apply failed_sound
      simpa only [Fault.IsFlow, located_reason, ← reason_of_report f r reported] using other

section Sound

variable {h : Host ω} (sound : h.Sound)

include sound

theorem switch_device_sound {params : List Value} (operand : params ≠ []) (w : ω) :
    (m.switchDevice h params w).Sound := by
  obtain ⟨first, rest, rfl⟩ := List.exists_cons_of_ne_nil operand
  unfold switchDevice
  cases given : h.session with
  | none => exact ok_sound _ _
  | some session =>
      rcases answered : session.switchDevice first.render w with ⟨f | _, w'⟩
      · simp only [answered]
        exact session_fault_sound m _ _ (sound.switches session given _ _ _ _ answered)
      · simp only [answered]
        exact ok_sound _ _

theorem command_sound {params : List Value} (operand : params ≠ []) (w : ω) :
    (m.command h params w).Sound := by
  obtain ⟨first, rest, rfl⟩ := List.exists_cons_of_ne_nil operand
  unfold command
  cases given : h.session with
  | none => exact refuse_sound m _ _ id
  | some session =>
      rcases answered : session.send first.render w with ⟨f | output, w'⟩
      · simp only [answered]
        exact session_fault_sound m _ _ (sound.sends session given _ _ _ _ answered)
      · simp only [answered]
        exact ok_sound _ _

theorem resume_sound (included : Machine) (w : ω) : (m.resume h included w).Sound := by
  unfold resume
  cases given : h.session with
  | none => exact ok_sound _ _
  | some session =>
      simp only
      split
      · exact ok_sound _ _
      · rcases answered : session.switchDevice m.device w with ⟨f | _, w'⟩
        · simp only
          exact session_fault_sound m _ _ (sound.switches session given _ _ _ _ answered)
        · exact ok_sound _ _

theorem call_sound (i : Instruction) (params : List Value) (w : ω) :
    (m.call h i params w).Sound := by
  unfold call
  cases found : h.registry.bind fun r => r.lookup? i.op.name with
  | none =>
      apply failed_sound
      simp [Fault.IsFlow, Fault.reason?]
  | some operation =>
      simp only
      cases bound : operation.spec.bind params with
      | error reason => exact refuse_sound m _ _ (bind_reason bound)
      | ok values =>
          simp only
          split
          · next fault faulted =>
              obtain ⟨registry, given, looked⟩ := Option.bind_eq_some_iff.mp found
              exact session_fault_sound _ _ _ (sound.handles registry given operation
                (List.mem_of_find?_eq_some looked) _ _ _ _ _ faulted)
          · exact ok_sound _ _

theorem inclusion_sound {child : Machine → ω → Progress ω}
    (below : ∀ script w, script.Linked → (child (m.child script) w).Sound) (line : Int)
    {params : List Value} (operand : params ≠ []) (w : ω) :
    (m.inclusion h child line params w).Sound := by
  obtain ⟨first, rest, rfl⟩ := List.exists_cons_of_ne_nil operand
  unfold inclusion
  cases given : h.load with
  | none => exact refuse_sound m _ _ id
  | some load =>
      simp only
      split
      · exact refuse_sound m _ _ id
      · rcases loaded : load first.render w with ⟨b | script, w'⟩
        · have other := sound.loadFaults load given _ _ _ _ loaded
          cases b with
          | fault f => exact located_sound m _ _ other _
          | crash => exact absurd trivial other
          | outOfFuel =>
              rintro _ ⟨⟩
              exact other
        · simp only
          have linked := sound.loads load given _ _ _ _ loaded
          generalize h.log _ w' = told
          have under := below script told linked
          -- The included script had no defect, so neither has the fault that it is framed into.
          generalize child (m.child script) told = p at under
          obtain ⟨after, world, breakdown⟩ := p
          cases breakdown with
          | none => exact resume_sound m sound _ _
          | some b =>
              have other := under b rfl
              cases b with
              | fault f => exact framed_sound m _ _ other
              | crash => exact absurd trivial other
              | outOfFuel =>
                  rintro _ ⟨⟩
                  exact other

end Sound

namespace Nested

variable {m} (linked : m.script.Linked) (nested : m.Nested)

include linked nested

theorem operand {i : Instruction} (current : m.script.code[m.pc]? = some i)
    (op : i.op = .device ∨ i.op = .command ∨ i.op = .inclusion) (vars : Vars) :
    i.interpolated vars ≠ [] := by
  obtain ⟨before, after, stands⟩ := nested.stands current
  have link := along_split [] m.script.code [] linked.links before i after stands.code
  have given : i.params ≠ [] := by
    rcases op with op | op | op <;> simpa [LinkedAt, op] using link
  unfold Instruction.interpolated
  split
  · exact given
  · simpa using given

/-- Control has no defects, whatever surrounds the machine. -/
theorem control_step_sound {i : Instruction} (current : m.script.code[m.pc]? = some i)
    (control : i.op.isControl = true) (h : Host ω) (child : Machine → ω → Progress ω) (w : ω) :
    (m.step h child i w).Sound := by
  rcases step_cases h m i w with ⟨text, -, step⟩ | ⟨told, step⟩
  · rw [step child]
    apply failed_sound
    simp [report, Fault.IsFlow, Fault.reason?]
  · rw [step child]
    cases nested.controls linked current control h child told with
    | onward m' went => exact went ▸ ok_sound m' told
    | refused words reason valueless stayed =>
        exact stayed ▸ refuse_sound m _ _ (Condition.evaluate_reason valueless)

theorem step_sound {h : Host ω} (sound : h.Sound) {child : Machine → ω → Progress ω}
    (below : ∀ script w, script.Linked → (child (m.child script) w).Sound) {i : Instruction}
    (current : m.script.code[m.pc]? = some i) (w : ω) : (m.step h child i w).Sound := by
  have operand := nested.operand linked current
  by_cases control : i.op.isControl = true
  · exact nested.control_step_sound linked current control h child w
  · rcases step_cases h m i w with ⟨text, -, step⟩ | ⟨told, step⟩
    · rw [step child]
      apply failed_sound
      simp [report, Fault.IsFlow, Fault.reason?]
    · rw [step child, execute]
      cases op : i.op with
      | device => exact switch_device_sound m sound (operand (by simp [op]) m.vars) told
      | command => exact command_sound m sound (operand (by simp [op]) m.vars) told
      | inclusion => exact inclusion_sound m sound below _ (operand (by simp [op]) m.vars) told
      | call name => exact call_sound m sound i _ told
      | _ => simp [op, Opcode.isControl] at control

theorem next {h : Host ω} {child : Machine → ω → Progress ω} {w w' : ω} {m' : Machine}
    (onward : m.next? h child w = some (m', w')) : m'.script = m.script ∧ m'.Nested := by
  obtain ⟨i, current, -, -, stepped, -⟩ := (next_iff ..).mp onward
  rcases step_cases h m i w with ⟨text, -, step⟩ | ⟨told, step⟩
  · rw [step child] at stepped
    cases stepped
  · rw [step child] at stepped
    by_cases control : i.op.isControl = true
    · cases nested.controls linked current control h child told with
      | onward n went same nestedAfter =>
          rw [went] at stepped
          cases stepped
          exact ⟨same, nestedAfter⟩
      | refused words reason valueless stayed =>
          rw [stayed] at stepped
          cases stepped
    · have outward : i.op.isControl = false := by simpa using control
      -- Any other instruction is alike to itself: it goes on by one and keeps the stack.
      have alike := execute_alike h child m rfl rfl i outward (i.interpolated m.vars) told
      rw [stepped] at alike
      obtain ⟨before, after, stands⟩ := nested.stands current
      have moved := alike.1
      simp only [Progress.ok, Option.isNone_none, ↓reduceIte] at moved
      rw [moved]
      refine ⟨rfl, stands.advances rfl rfl rfl ?_⟩
      have flat : i.op.rise = 0 := by
        cases op : i.op <;> simp [op, Opcode.isControl, Opcode.rise] at outward ⊢
      simp [stands.entries, flat]

end Nested

theorem visits_nested {h : Host ω} {fuel left : Nat} {m n : Machine} {w v : ω}
    (visits : Visits h fuel m w left n v) (linked : m.script.Linked) (nested : m.Nested) :
    n.script = m.script ∧ n.Nested := by
  induction visits with
  | here => exact ⟨rfl, nested⟩
  | onward onward _ ih =>
      obtain ⟨same, after⟩ := nested.next linked onward
      obtain ⟨script, last⟩ := ih (same ▸ linked) after
      exact ⟨script.trans same, last⟩

structure Fresh (m : Machine) : Prop where
  pc : m.pc = 0
  running : m.state = .running
  stack : m.stack = .empty

theorem Fresh.nested {m : Machine} (fresh : m.Fresh) : m.Nested where
  within := by simp [fresh.pc]
  running := fresh.running
  entries := by simp [fresh.pc, fresh.stack, ControlStack.size, ControlStack.empty]

theorem child_fresh (script : Script) : (m.child script).Fresh := ⟨rfl, rfl, rfl⟩

theorem run_sound {h : Host ω} (sound : h.Sound) (fuel : Nat) (m : Machine) (w : ω)
    (linked : m.script.Linked) (nested : m.Nested) : (m.run h fuel w).Sound := by
  induction fuel generalizing m w with
  | zero =>
      rintro _ ⟨⟩
      exact id
  | succ fuel ih =>
      -- An included script starts afresh and has less fuel.
      have below (script : Script) (w : ω) (linked : script.Linked) :
          (run h fuel (m.child script) w).Sound :=
        ih (m.child script) w linked (m.child_fresh script).nested
      cases onward : m.next? h (run h fuel) w with
      | some further =>
          obtain ⟨same, nestedAfter⟩ := nested.next linked onward
          rw [run_next onward]
          exact ih further.1 further.2 (same ▸ linked) nestedAfter
      | none =>
          have ends := run_stays nested.running onward
          generalize m.run h (fuel + 1) w = p at ends
          cases ends with
          | past => exact ok_sound _ _
          | stopped =>
              apply failed_sound
              simp [report, Fault.IsFlow, Fault.reason?]
          | broken current _ step breaks =>
              have other := nested.step_sound linked sound below current w
              rw [step] at other
              rintro _ ⟨⟩
              exact other _ breaks
          | aborted =>
              apply failed_sound
              simp [Fault.IsFlow, Fault.reason?]

/-- A boundary from which a run goes on no further, without a fault, is the end of the code. -/
theorem run_last {h : Host ω} {fuel : Nat} {m : Machine} {w : ω} (nested : m.Nested)
    (last : ∀ less, fuel = less + 1 → m.next? h (run h less) w = none)
    (ended : (m.run h fuel w).breakdown = none) :
    m.pc = m.script.code.length ∧ (m.run h fuel w).machine = { m with state := .halted } := by
  cases fuel with
  | zero => cases ended
  | succ less =>
      have ends := run_stays nested.running (last less rfl)
      generalize m.run h (less + 1) w = p at ends ended
      cases ends with
      | past past =>
          have beyond := List.getElem?_eq_none_iff.mp past
          exact ⟨Nat.le_antisymm nested.within beyond, rfl⟩
      | stopped => cases ended
      | broken => cases ended
      | aborted => cases ended

end Machine

/-- What assembly makes of some source in the standard language, strictly or leniently. -/
def Script.IsAssembled (script : Script) : Prop :=
  ∃ file quoted lenient source tokens,
    Token.sourceTokens? Schema.standard.vocabulary source = some tokens ∧
    (assemble ⟨Schema.standard, file, quoted, lenient⟩ tokens).result = .ok script

/-- What assembly hands out is the code of a derivation over statements of the source. -/
theorem kept_derivation {file source : Text} {quoted : Option (List Text)} {lenient : Bool}
    {tokens : List Token} {script : Script}
    (read : Token.sourceTokens? Schema.standard.vocabulary source = some tokens)
    (ended : (assemble ⟨Schema.standard, file, quoted, lenient⟩ tokens).result = .ok script) :
    ∃ b : Block, b.Fits ∧ b.statements.Sublist (statements tokens) ∧ LinesAscend b.statements ∧
      script.code = b.code := by
  obtain ⟨_, again, same⟩ := source_tokens_statements Schema.standard.vocabulary source
  cases again.symm.trans read
  have ascend := source_statements_ascend Schema.standard.vocabulary source
  have onLine := source_statement_on_line Schema.standard.vocabulary source
  rw [← same] at ascend onLine
  obtain ⟨kept, among, a, taken, closed, rfl⟩ : ∃ kept, kept.Sublist (statements tokens) ∧
      ∃ a, Assembly.Taken ⟨Schema.standard, file, quoted, lenient⟩ (Assembly.start file) kept a ∧
        a.blocks = [] ∧ a.script = script := by
    cases lenient with
    | false =>
        exact ⟨_, List.Sublist.refl _, (Assembly.run_strict_ok_iff rfl _ _ _ _).mp ended⟩
    | true =>
        obtain ⟨gone, -, -, -, -, taken⟩ := Assembly.run_lenient_ok rfl rfl _ _ ascend onLine _ []
          (Assembly.start_awaits file) _ ended
        exact ⟨_, List.filter_sublist, taken⟩
  obtain ⟨b, fits, written⟩ := Assembly.taken_derivation rfl taken closed
  subst written
  exact ⟨b, fits, among, ascend.sublist among, Assembly.taken_code rfl fits taken⟩

/-- An assembled script is the code of a derivation over statements on lines of their own. -/
theorem assembled_derivation {script : Script} (assembled : script.IsAssembled) :
    ∃ b : Block, b.Fits ∧ LinesAscend b.statements ∧ script.code = b.code := by
  obtain ⟨file, quoted, lenient, source, tokens, read, ended⟩ := assembled
  obtain ⟨b, fits, -, ascend, code⟩ := kept_derivation read ended
  exact ⟨b, fits, ascend, code⟩

theorem assembled_linked {script : Script} (assembled : script.IsAssembled) : script.Linked := by
  obtain ⟨b, -, ascend, code⟩ := assembled_derivation assembled
  refine ⟨?_, ?_, ?_⟩
  · rw [code]
    exact (b.code_lines_ascend ascend).imp Int.ne_of_lt
  · rw [code]
    exact b.linked [] [] (Int.le_refl 0)
  · rw [code]
    exact b.code_open_chains

/-- Runs of an assembled script, with anything around the machine and for any length. At every
boundary the machine runs within the code, its stack has an entry for each open chain, the
instruction there has its operand, and control has no defect. So a run without a fault halts at
the end of the code with an empty stack; and if sessions, operations and loader do not bring in
such a fault themselves, no run ends by a jump, a stack or an operand that is not there. -/
theorem assembled_run_nested {script : Script} (assembled : script.IsAssembled) {ω : Type}
    (h : Host ω) (m : Machine) (fresh : m.Fresh) (code : m.script = script) (w : ω) (fuel : Nat) :
    (∀ left n v, Machine.Visits h fuel m w left n v →
      n.script = script ∧ n.pc ≤ script.code.length ∧ n.state = .running ∧
      (n.stack.size : Int) = openChains (script.code.take n.pc) ∧
      ∀ i, script.code[n.pc]? = some i →
        (i.op.isControl = true → ∀ child, (n.step h child i v).Sound) ∧
        (i.op = .device ∨ i.op = .command ∨ i.op = .inclusion → i.interpolated n.vars ≠ [])) ∧
    ((m.run h fuel w).breakdown = none →
      (m.run h fuel w).machine.state = .halted ∧
      (m.run h fuel w).machine.pc = script.code.length ∧
      (m.run h fuel w).machine.stack = .empty) ∧
    (h.Sound → (m.run h fuel w).Sound) := by
  subst code
  have linked := assembled_linked assembled
  refine ⟨?_, ?_, fun sound => Machine.run_sound sound fuel m w linked fresh.nested⟩
  · intro left n v visits
    obtain ⟨same, nested⟩ := Machine.visits_nested visits linked fresh.nested
    rw [← same] at linked ⊢
    refine ⟨rfl, nested.within, nested.running, nested.entries, ?_⟩
    intro i current
    refine ⟨?_, ?_⟩
    · intro control child
      exact nested.control_step_sound linked current control h child v
    · intro op
      exact nested.operand linked current op n.vars
  · intro ended
    obtain ⟨left, n, v, visits, last⟩ := Machine.run_ends h fuel m w
    obtain ⟨same, nested⟩ := Machine.visits_nested visits linked fresh.nested
    rw [Machine.run_visits visits] at ended ⊢
    obtain ⟨atEnd, halted⟩ := Machine.run_last nested last ended
    -- All chains are closed at the end of the code, so the stack has no entries.
    have entries := nested.entries
    rw [atEnd, List.take_length, same, linked.closed] at entries
    have none : n.stack.branches = [] := by
      simpa [ControlStack.size] using entries
    rw [halted]
    refine ⟨rfl, ?_, congrArg ControlStack.mk none⟩
    rw [← same]
    exact atEnd

/-! A script that asks a device until it has answered twice, on a session in memory. -/

def polling : Text :=
  "<while $n < 2>\nshow run\n<if $_output contains up>\nincr n\n<fi>\n<endwhile>"

def pollingTokens : List Token :=
  [⟨.keyword, "while", 1⟩, ⟨.variableRef, "$n", 1⟩, ⟨.comparison, "<", 1⟩, ⟨.number, "2", 1⟩,
   ⟨.command, "show run", 2⟩,
   ⟨.keyword, "if", 3⟩, ⟨.variableRef, "$_output", 3⟩, ⟨.comparison, "contains", 3⟩,
   ⟨.word, "up", 3⟩,
   ⟨.operation, "incr", 4⟩, ⟨.word, "n", 4⟩,
   ⟨.keyword, "fi", 5⟩,
   ⟨.keyword, "endwhile", 6⟩]

def pollingScript : Script where
  path := "poll"
  code :=
    [⟨1, .loop, [.text "$n", .text "<", .text "2", .int 6]⟩,
     ⟨2, .command, [.text "show run"]⟩,
     ⟨3, .ifNotGoto, [.text "$_output", .text "contains", .text "up", .int 5]⟩,
     ⟨4, .call "incr", [.text "n"]⟩,
     ⟨5, .fi, []⟩,
     ⟨6, .endWhile, [.int 1]⟩]
  sections := []
  inclusions := []

theorem polling_tokens :
    Token.sourceTokens? Schema.standard.vocabulary polling = some pollingTokens := by
  -- The names are sorted by length; sorting does not reduce under `decide`.
  have names : Schema.standard.vocabulary =
      ⟨["unsetvar", "capture", "comment", "expect", "setvar", "sleep", "decr", "fail", "incr",
        "send", "stop"],
       ["endwhile", "elseif", "endif", "until", "while", "else", "loop", "fi", "if"]⟩ := by
    simp +decide [Schema.vocabulary, Schema.operationNames, Schema.keywordNames, Schema.standard,
      List.mergeSort, List.MergeSort.Internal.splitInTwo]
  rw [names]
  decide +kernel

theorem polling_accepted :
    (assemble ⟨Schema.standard, "poll", none, false⟩ pollingTokens).result = .ok pollingScript := by
  rfl

/-- A session in memory and an operation that counts. -/
def Host.inMemory : Host Simulated where
  canceled _ := false
  pause _ w := w
  log _ w := w
  session := some
    { switchDevice := fun name w => w.switchDevice name
      send := fun command w => w.send false command
      await := fun pattern _ clear w => w.await false pattern clear }
  record := none
  stopRequested _ := false
  observe _ w := w
  registry := (Schema.standard.operation? "incr").map fun spec =>
    ⟨[⟨"incr", spec, Standard.count 1⟩]⟩
  load := none

theorem in_memory_sound : Host.inMemory.Sound where
  switches := by
    rintro _ ⟨⟩ name w f w' answered
    simp only [Simulated.switchDevice] at answered
    split at answered
    · cases answered
    · cases answered
      simp [Fault.IsFlow, Fault.reason?, Reason.IsFlow]
  sends := by
    rintro _ ⟨⟩ command w f w' answered
    cases answered
  handles := by
    rintro _ ⟨⟩ operation member site bound vars w f faulted
    obtain rfl := List.mem_singleton.mp member
    simp only [Standard.count, Standard.counter] at faulted
    repeat' split at faulted
    all_goals cases faulted
    next refused =>
      repeat' split at refused
      all_goals cases refused
      simp [Fault.IsFlow, Fault.reason?, Reason.IsFlow]
  loads := nofun
  loadFaults := nofun

theorem polling_run_nested :
    pollingScript.IsAssembled ∧ Host.inMemory.Sound ∧
      (Machine.start pollingScript .empty .ignore "run").Fresh ∧
      ((Machine.start pollingScript .empty .ignore "run").run Host.inMemory 20 .empty).Sound ∧
      ∀ left n v, Machine.Visits Host.inMemory 20 (Machine.start pollingScript .empty .ignore "run")
        .empty left n v → (n.stack.size : Int) = openChains (pollingScript.code.take n.pc) := by
  have assembled : pollingScript.IsAssembled :=
    ⟨"poll", none, false, polling, pollingTokens, polling_tokens, polling_accepted⟩
  have fresh : (Machine.start pollingScript .empty .ignore "run").Fresh := ⟨rfl, rfl, rfl⟩
  have all := assembled_run_nested assembled Host.inMemory _ fresh rfl .empty 20
  refine ⟨assembled, in_memory_sound, fresh, all.2.2 in_memory_sound, ?_⟩
  intro left n v visits
  exact (all.1 left n v visits).2.2.2.1

end DeviceScript

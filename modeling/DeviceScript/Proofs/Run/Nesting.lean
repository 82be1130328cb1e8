import DeviceScript.Proofs.Run.Boundary
import DeviceScript.Proofs.Run.Control

/-!
The stack of a machine that runs linked code: at every boundary it has an entry for each chain
that is open at the current instruction.
-/

namespace DeviceScript

/-- Code whose jumps lead where they should, with every chain closed at the end. -/
structure Script.Linked (s : Script) : Prop where
  lines : (s.code.map Instruction.line).Nodup
  links : Along LinkedAt [] s.code []
  closed : openChains s.code = 0

namespace Machine

/-- The machine runs within its code, with an entry on its stack for each open chain. -/
structure Nested (m : Machine) : Prop where
  within : m.pc ≤ m.script.code.length
  running : m.state = .running
  entries : (m.stack.size : Int) = openChains (m.script.code.take m.pc)

theorem nested_between {m : Machine} (front back : List Instruction)
    (split : m.script.code = front ++ back) (here : m.pc = front.length)
    (running : m.state = .running) (entries : (m.stack.size : Int) = openChains front) :
    m.Nested where
  within := by simp [split, here]
  running := running
  entries := by simp [split, here, entries]

/-- A machine at an instruction, with the code before and after it. -/
structure Stands (m : Machine) (before : List Instruction) (i : Instruction)
    (after : List Instruction) : Prop where
  code : m.script.code = before ++ i :: after
  pc : m.pc = before.length
  running : m.state = .running
  entries : (m.stack.size : Int) = openChains before

theorem Nested.stands {m : Machine} (nested : m.Nested) {i : Instruction}
    (current : m.script.code[m.pc]? = some i) :
    ∃ before after, m.Stands before i after := by
  obtain ⟨bound, same⟩ := List.getElem?_eq_some_iff.mp current
  refine ⟨m.script.code.take m.pc, m.script.code.drop (m.pc + 1), ?_, ?_, nested.running,
    nested.entries⟩
  · rw [← same, ← List.drop_eq_getElem_cons bound, List.take_append_drop]
  · simp [Nat.le_of_lt bound]

namespace Stands

variable {m : Machine} {before after : List Instruction} {i : Instruction}

theorem advances (stands : m.Stands before i after) {m' : Machine} (code : m'.script = m.script)
    (pc : m'.pc = m.pc + 1) (running : m'.state = m.state)
    (entries : (m'.stack.size : Int) = openChains before + i.op.rise) : m'.Nested := by
  apply nested_between (before ++ [i]) after
  · simp [code, stands.code]
  · simp [pc, stands.pc]
  · rw [running, stands.running]
  · simpa using entries

theorem jumps (stands : m.Stands before i after) {m' : Machine} (body rest : List Instruction)
    (split : after = body ++ rest) (closed : openChains body = 0) (code : m'.script = m.script)
    (pc : m'.pc = before.length + 1 + body.length) (running : m'.state = m.state)
    (entries : (m'.stack.size : Int) = openChains before + i.op.rise) : m'.Nested := by
  apply nested_between (before ++ i :: body) rest
  · simp [code, stands.code, split]
  · simp only [pc, List.length_append, List.length_cons]
    omega
  · rw [running, stands.running]
  · simpa [closed] using entries

theorem forward_target (stands : m.Stands before i after)
    (lines : (m.script.code.map Instruction.line).Nodup) {body rest : List Instruction}
    {next : Instruction} (split : after = body ++ next :: rest) :
    forwardTarget? m.script.code m.pc next.line = some (before.length + 1 + body.length) := by
  rw [stands.pc]
  exact forward_target_found lines (by rw [stands.code, split])

theorem top (stands : m.Stands before i after) (within : 0 < openChains before) :
    ∃ taken outer, m.stack = ⟨taken :: outer⟩ ∧ (outer.length : Int) + 1 = openChains before := by
  have entries := stands.entries
  cases stack : m.stack with
  | mk branches =>
      rw [stack] at entries
      cases branches with
      | nil =>
          simp [ControlStack.size] at entries
          omega
      | cons taken outer =>
          refine ⟨taken, outer, rfl, ?_⟩
          simpa [ControlStack.size] using entries

theorem returns (stands : m.Stands before i after) {m' : Machine} {outer body : List Instruction}
    {head : Instruction} (split : before = outer ++ head :: body) (level : head.op.rise = 0)
    (closed : openChains body = 0) (code : m'.script = m.script) (pc : m'.pc = outer.length)
    (running : m'.state = m.state) (stack : m'.stack = m.stack) : m'.Nested := by
  apply nested_between outer (head :: body ++ i :: after)
  · simp [code, stands.code, split]
  · exact pc
  · rw [running, stands.running]
  · have entries := stands.entries
    simp only [split, open_chains_append, open_chains_cons, level, closed] at entries
    rw [stack]
    omega

theorem backward_target (stands : m.Stands before i after)
    (lines : (m.script.code.map Instruction.line).Nodup) {outer body : List Instruction}
    {head : Instruction} (split : before = outer ++ head :: body) :
    backwardTarget? m.script.code m.pc head.line = some outer.length := by
  have here : m.pc = outer.length + 1 + body.length := by
    simp only [stands.pc, split, List.length_append, List.length_cons]
    omega
  have regrouped : m.script.code = outer ++ head :: (body ++ i :: after) := by
    simp [stands.code, split]
  rw [here]
  exact backward_target_found lines regrouped

end Stands

/-- Control has gone on to a boundary, or has met a condition without a value and stands still. -/
inductive Controls {ω : Type} (m : Machine) (w : ω) (p : Progress ω) : Prop
  | onward (m' : Machine) (went : p = .ok m' w) (same : m'.script = m.script)
      (nested : m'.Nested)
  | refused (words : List Text) (reason : Reason)
      (valueless : Condition.evaluate words = .error reason)
      (stayed : p = m.refuse .expression reason w)

theorem decided_controls {ω : Type} {m yes no : Machine} (w : ω) (words : List Text)
    (same : yes.script = m.script ∧ no.script = m.script) (nested : yes.Nested ∧ no.Nested) :
    m.Controls w (m.follow (decided (Condition.evaluate words) yes no) w) := by
  cases value : Condition.evaluate words with
  | error reason => exact .refused words reason value rfl
  | ok holds =>
      cases holds with
      | true => exact .onward yes rfl same.1 nested.1
      | false => exact .onward no rfl same.2 nested.2

section Controls

variable {ω : Type} {m : Machine} {before after : List Instruction} {i : Instruction}
variable (stands : m.Stands before i after) (lines : (m.script.code.map Instruction.line).Nodup)
variable {words : List Value} {body rest : List Instruction} {next : Instruction} (w : ω)

include stands lines

theorem if_not_goto_controls (op : i.op = .ifNotGoto) (split : after = body ++ next :: rest)
    (closed : openChains body = 0) :
    m.Controls w (m.ifNotGoto (words ++ [.int next.line]) w) := by
  rw [if_not_goto_linked (stands.forward_target lines split)]
  have entries := stands.entries
  have rise : i.op.rise = 1 := by rw [op]; rfl
  have pushed (taken : Bool) :
      ((m.stack.push taken).size : Int) = openChains before + i.op.rise := by
    simp only [ControlStack.size, ControlStack.push, List.length_cons] at entries ⊢
    omega
  apply decided_controls
  · exact ⟨rfl, rfl⟩
  · constructor
    · exact stands.advances rfl rfl rfl (pushed true)
    · exact stands.jumps body (next :: rest) split closed rfl rfl rfl (pushed false)

theorem else_if_controls (op : i.op = .elseIf) (within : 0 < openChains before)
    (split : after = body ++ next :: rest) (closed : openChains body = 0) :
    m.Controls w (m.follow (m.elseIf (words ++ [.int next.line])) w) := by
  -- A chain is open here, so there is an entry to look at.
  obtain ⟨taken, outer, stack, size⟩ := stands.top within
  rw [else_if_linked (stands.forward_target lines split) taken outer stack]
  have rise : i.op.rise = 0 := by rw [op]; rfl
  have kept (t : Bool) : ((ControlStack.mk (t :: outer)).size : Int) =
      openChains before + i.op.rise := by
    simp only [ControlStack.size, List.length_cons]
    omega
  have jumped : ({ m with pc := before.length + 1 + body.length } : Machine).Nested :=
    stands.jumps body (next :: rest) split closed rfl rfl rfl (by rw [← kept taken, ← stack])
  split
  · exact .onward _ rfl rfl jumped
  · apply decided_controls
    · exact ⟨rfl, rfl⟩
    · exact ⟨stands.advances rfl rfl rfl (kept true), jumped⟩

theorem else_branch_controls (op : i.op = .elseBranch) (within : 0 < openChains before)
    (split : after = body ++ next :: rest) (closed : openChains body = 0) :
    m.Controls w (m.follow (m.elseBranch (words ++ [.int next.line])) w) := by
  obtain ⟨taken, outer, stack, -⟩ := stands.top within
  rw [else_branch_linked (stands.forward_target lines split) taken outer stack]
  have entries : (m.stack.size : Int) = openChains before + i.op.rise := by
    simp [stands.entries, op, Opcode.rise]
  refine .onward _ rfl rfl ?_
  cases taken with
  | true => exact stands.jumps body (next :: rest) split closed rfl rfl rfl entries
  | false => exact stands.advances rfl rfl rfl entries

theorem loop_controls (op : i.op = .loop) (split : after = body ++ next :: rest)
    (level : next.op.rise = 0) (closed : openChains body = 0) :
    m.Controls w (m.follow (m.loop (words ++ [.int next.line])) w) := by
  rw [loop_linked (stands.forward_target lines split)]
  have entries : (m.stack.size : Int) = openChains before + i.op.rise := by
    simp [stands.entries, op, Opcode.rise]
  have advanced : ({ m with pc := m.pc + 1 } : Machine).Nested :=
    stands.advances rfl rfl rfl entries
  split
  · exact .onward _ rfl rfl advanced
  · apply decided_controls
    · exact ⟨rfl, rfl⟩
    · -- A guard that fails leaves the end of the loop behind as well.
      refine ⟨advanced, stands.jumps (body ++ [next]) rest ?_ ?_ rfl ?_ rfl entries⟩
      · simp [split]
      · simp [closed, level]
      · simp [Nat.add_assoc]

omit lines in
theorem fi_controls (op : i.op = .fi) (within : 0 < openChains before) :
    m.Controls w (m.follow m.fi w) := by
  obtain ⟨taken, outer, stack, size⟩ := stands.top within
  rw [fi_linked taken outer stack]
  refine .onward _ rfl rfl (stands.advances rfl rfl rfl ?_)
  simp only [op, Opcode.rise, ControlStack.size]
  omega

theorem loop_end_controls (op : Opcode) (flat : i.op.rise = 0) {outer : List Instruction}
    {head : Instruction} (split : before = outer ++ head :: body) (level : head.op.rise = 0)
    (closed : openChains body = 0) :
    m.Controls w (m.follow (m.loopEnd op (.int head.line :: words)) w) := by
  rw [loop_end_linked op (stands.backward_target lines split)]
  have returned : ({ m with pc := outer.length } : Machine).Nested :=
    stands.returns split level closed rfl rfl rfl rfl
  split
  · exact .onward _ rfl rfl returned
  · apply decided_controls
    · exact ⟨rfl, rfl⟩
    · refine ⟨stands.advances rfl rfl rfl ?_, returned⟩
      simp [stands.entries, flat]

end Controls

/-- Every instruction by which the machine controls itself leads to a boundary of the same kind,
unless its condition has no value. -/
theorem Nested.controls {ω : Type} {m : Machine} (linked : m.script.Linked) (nested : m.Nested)
    {i : Instruction} (current : m.script.code[m.pc]? = some i) (control : i.op.isControl = true)
    (h : Host ω) (child : Machine → ω → Progress ω) (w : ω) :
    m.Controls w (m.execute h child i (i.interpolated m.vars) w) := by
  obtain ⟨before, after, stands⟩ := nested.stands current
  have link : LinkedAt before i after := by
    simpa using along_split [] m.script.code [] linked.links before i after stands.code
  -- Filling in variables keeps the target of a jump: it is a number.
  have filled (plain : i.op.isContextSwitch = false) :
      i.interpolated m.vars = i.params.map (Value.interpolate m.vars) := by
    simp [Instruction.interpolated, plain]
  cases op : i.op with
  | ifNotGoto =>
      simp only [LinkedAt, op] at link
      obtain ⟨words, body, next, rest, params, split, closed⟩ := link
      rw [filled (by rw [op]; rfl), params, List.map_append]
      simp only [execute, op]
      exact if_not_goto_controls stands linked.lines w op split closed
  | elseIf =>
      simp only [LinkedAt, op] at link
      obtain ⟨within, words, body, next, rest, params, split, closed⟩ := link
      rw [filled (by rw [op]; rfl), params, List.map_append]
      simp only [execute, op]
      exact else_if_controls stands linked.lines w op within split closed
  | elseBranch =>
      simp only [LinkedAt, op] at link
      obtain ⟨within, words, body, next, rest, params, split, closed⟩ := link
      rw [filled (by rw [op]; rfl), params, List.map_append]
      simp only [execute, op]
      exact else_branch_controls stands linked.lines w op within split closed
  | fi =>
      simp only [LinkedAt, op] at link
      simp only [execute, op]
      exact fi_controls stands w op link
  | loop =>
      simp only [LinkedAt, op] at link
      obtain ⟨words, body, next, rest, params, split, level, closed⟩ := link
      rw [filled (by rw [op]; rfl), params, List.map_append]
      simp only [execute, op]
      exact loop_controls stands linked.lines w op split level closed
  | endWhile =>
      simp only [LinkedAt, op] at link
      obtain ⟨words, outer, head, body, params, split, level, closed⟩ := link
      rw [filled (by rw [op]; rfl), params, List.map_cons]
      simp only [execute, op]
      exact loop_end_controls stands linked.lines w .endWhile (by rw [op]; rfl) split level closed
  | untilMet =>
      simp only [LinkedAt, op] at link
      obtain ⟨words, outer, head, body, params, split, level, closed⟩ := link
      rw [filled (by rw [op]; rfl), params, List.map_cons]
      simp only [execute, op]
      exact loop_end_controls stands linked.lines w .untilMet (by rw [op]; rfl) split level closed
  | _ => simp [op, Opcode.isControl] at control

end Machine
end DeviceScript

import DeviceScript.Proofs.Run.Layout

/-!
What the machine does at an instruction of a chain or a loop that is linked: one equation for each
kind, in which the only thing left to fail is the condition.
-/

namespace DeviceScript

namespace Machine

/-! Where jumps lead. No two instructions share a line, so a scan finds the one on it. -/

section Scan

variable {code : List Instruction} (distinct : (code.map Instruction.line).Nodup)

include distinct

theorem same_line_same_index {j k : Nat} {i i' : Instruction} (first : code[j]? = some i)
    (second : code[k]? = some i') (line : i.line = i'.line) : j = k := by
  have within : j < (code.map Instruction.line).length := by
    rw [List.length_map]
    exact (List.getElem?_eq_some_iff.mp first).1
  apply (List.getElem?_inj within distinct).mp
  rw [List.getElem?_map, List.getElem?_map, first, second]
  exact congrArg some line

theorem scan_iff (line : Int) (k : Nat) :
    code.findIdx? (fun i => i.line == line) = some k ↔ ∃ i, code[k]? = some i ∧ i.line = line := by
  rw [List.findIdx?_eq_some_iff_getElem]
  constructor
  · rintro ⟨within, here, -⟩
    exact ⟨_, List.getElem?_eq_getElem within, beq_iff_eq.mp here⟩
  · rintro ⟨i, found, here⟩
    obtain ⟨within, rfl⟩ := List.getElem?_eq_some_iff.mp found
    refine ⟨within, beq_iff_eq.mpr here, ?_⟩
    intro j earlier there
    have same := same_line_same_index distinct
      (List.getElem?_eq_getElem (Nat.lt_trans earlier within)) found
      ((beq_iff_eq.mp there).trans here.symm)
    exact Nat.ne_of_lt earlier same

theorem forward_target_iff (pc : Nat) (line : Int) (j : Nat) :
    forwardTarget? code pc line = some j ↔ pc < j ∧ ∃ i, code[j]? = some i ∧ i.line = line := by
  have ahead : ((code.drop (pc + 1)).map Instruction.line).Nodup :=
    distinct.sublist ((List.drop_sublist (pc + 1) code).map Instruction.line)
  unfold forwardTarget?
  simp only [Option.map_eq_some_iff, scan_iff ahead, List.getElem?_drop]
  constructor
  · rintro ⟨k, there, rfl⟩
    exact ⟨by omega, there⟩
  · rintro ⟨past, there⟩
    obtain ⟨k, rfl⟩ := Nat.exists_eq_add_of_le past
    exact ⟨k, there, rfl⟩

theorem backward_target_iff {pc : Nat} (within : pc ≤ code.length) (line : Int) (j : Nat) :
    backwardTarget? code pc line = some j ↔ j < pc ∧ ∃ i, code[j]? = some i ∧ i.line = line := by
  have behind : ((code.take pc).reverse.map Instruction.line).Nodup := by
    have part := distinct.sublist ((List.take_sublist pc code).map Instruction.line)
    rw [List.map_reverse]
    exact List.pairwise_reverse.mpr (part.imp Ne.symm)
  have length : (code.take pc).length = pc := List.length_take_of_le within
  -- The scan counts from the jump backward.
  have turned {k : Nat} (near : k < pc) : (code.take pc).reverse[k]? = code[pc - 1 - k]? := by
    rw [List.getElem?_reverse (by omega), length, List.getElem?_take_of_lt (by omega)]
  unfold backwardTarget?
  simp only [Option.map_eq_some_iff, scan_iff behind]
  constructor
  · rintro ⟨k, ⟨i, there, here⟩, rfl⟩
    have near : k < pc := by
      have inside := (List.getElem?_eq_some_iff.mp there).1
      rwa [List.length_reverse, length] at inside
    exact ⟨by omega, i, turned near ▸ there, here⟩
  · rintro ⟨before, i, there, here⟩
    have back : pc - 1 - (pc - 1 - j) = j := by omega
    refine ⟨pc - 1 - j, ⟨i, ?_, here⟩, back⟩
    rw [turned (by omega), back]
    exact there

/-- A jump forward goes to the instruction with the line it names, past all before it. -/
theorem forward_target_found {before body rest : List Instruction} {i next : Instruction}
    (split : code = before ++ i :: (body ++ next :: rest)) :
    forwardTarget? code before.length next.line = some (before.length + 1 + body.length) := by
  apply (forward_target_iff distinct _ _ _).mpr
  refine ⟨by omega, next, ?_, rfl⟩
  rw [split, List.getElem?_append_right (by omega)]
  simp [Nat.add_assoc, Nat.add_comm 1]

/-- A jump backward goes to the instruction with the line it names, past all after it. -/
theorem backward_target_found {outer body rest : List Instruction} {i head : Instruction}
    (split : code = outer ++ head :: (body ++ i :: rest)) :
    backwardTarget? code (outer.length + 1 + body.length) head.line = some outer.length := by
  have within : outer.length + 1 + body.length ≤ code.length := by
    simp only [split, List.length_append, List.length_cons]
    omega
  apply (backward_target_iff distinct within _ _).mpr
  refine ⟨by omega, head, ?_, rfl⟩
  simp [split]

end Scan

theorem split_target_append (words : List Value) (line : Int) :
    splitTarget (words ++ [.int line]) = .ok (words.map Value.render, line) := by
  simp [splitTarget]

/-- Goes on by the value of a condition. -/
def decided (value : Except Reason Bool) (yes no : Machine) : Flow :=
  match value with
  | .error reason => .error (conditionFault reason)
  | .ok true => .ok yes
  | .ok false => .ok no

theorem map_error_ok {ε δ α : Type} (f : ε → δ) (a : α) :
    (Except.ok a : Except ε α).mapError f = .ok a := rfl

theorem map_error_error {ε δ α : Type} (f : ε → δ) (e : ε) :
    (Except.error e : Except ε α).mapError f = .error (f e) := rfl

variable {ω : Type} {m : Machine} {words : List Value} {line : Int} {pc : Nat}

section Forward

variable (target : forwardTarget? m.script.code m.pc line = some pc)

include target

theorem jump_forward_linked : m.jumpForward line = .ok { m with pc := pc } := by
  simp only [jumpForward, target]

theorem if_not_goto_linked (w : ω) :
    m.ifNotGoto (words ++ [.int line]) w =
      m.follow (decided (Condition.evaluate (words.map Value.render))
        { m with stack := m.stack.push true, pc := m.pc + 1 }
        { m with stack := m.stack.push false, pc := pc }) w := by
  unfold ifNotGoto branchTest
  rw [split_target_append]
  -- The chain is on the stack by the time the jump is made.
  have jump : ({ m with stack := m.stack.push false } : Machine).jumpForward line =
      .ok { m with stack := m.stack.push false, pc := pc } := jump_forward_linked target
  cases evaluated : Condition.evaluate (words.map Value.render) with
  | error reason =>
      simp [bind, Except.bind, map_error_ok, map_error_error, evaluated, decided, follow]
  | ok holds =>
      cases holds <;>
        simp [bind, Except.bind, pure, Except.pure, map_error_ok, evaluated, decided, follow, jump,
          advance]

theorem else_if_linked (taken : Bool) (outer : List Bool) (stack : m.stack = ⟨taken :: outer⟩) :
    m.elseIf (words ++ [.int line]) =
      if taken then .ok { m with pc := pc }
      else decided (Condition.evaluate (words.map Value.render))
        { m with stack := ⟨true :: outer⟩, pc := m.pc + 1 } { m with pc := pc } := by
  have jump := jump_forward_linked target
  unfold elseIf
  rw [split_target_append]
  cases taken with
  | true => simp [bind, Except.bind, map_error_ok, ControlStack.peek, stack, jump]
  | false =>
      cases evaluated : Condition.evaluate (words.map Value.render) with
      | error reason =>
          simp [bind, Except.bind, map_error_ok, map_error_error, ControlStack.peek, stack,
            evaluated, decided]
      | ok holds =>
          cases holds <;>
            simp [bind, Except.bind, pure, Except.pure, map_error_ok, ControlStack.peek,
              ControlStack.replace, stack, evaluated, decided, jump, advance]

theorem else_branch_linked (taken : Bool) (outer : List Bool)
    (stack : m.stack = ⟨taken :: outer⟩) :
    m.elseBranch (words ++ [.int line]) =
      .ok { m with pc := if taken then pc else m.pc + 1 } := by
  have jump := jump_forward_linked target
  unfold elseBranch
  rw [split_target_append]
  cases taken <;>
    simp [bind, Except.bind, pure, Except.pure, map_error_ok, ControlStack.peek, stack, jump,
      advance]

theorem loop_linked :
    m.loop (words ++ [.int line]) =
      if words = [] then .ok { m with pc := m.pc + 1 }
      else decided (Condition.evaluate (words.map Value.render))
        { m with pc := m.pc + 1 } { m with pc := pc + 1 } := by
  have jump := jump_forward_linked target
  unfold loop
  rw [split_target_append]
  by_cases empty : words = []
  · simp [bind, Except.bind, pure, Except.pure, map_error_ok, empty, advance]
  · cases evaluated : Condition.evaluate (words.map Value.render) with
    | error reason =>
        simp [bind, Except.bind, map_error_ok, map_error_error, empty, evaluated, decided]
    | ok holds =>
        cases holds <;>
          simp [bind, Except.bind, pure, Except.pure, map_error_ok, empty, evaluated, decided, jump,
            advance]

end Forward

theorem fi_linked (taken : Bool) (outer : List Bool) (stack : m.stack = ⟨taken :: outer⟩) :
    m.fi = .ok { m with stack := ⟨outer⟩, pc := m.pc + 1 } := by
  simp [fi, bind, Except.bind, pure, Except.pure, map_error_ok, ControlStack.pop, stack, advance]

theorem loop_end_linked (op : Opcode)
    (target : backwardTarget? m.script.code m.pc line = some pc) :
    m.loopEnd op (.int line :: words) =
      if words = [] then .ok { m with pc := pc }
      else decided (Condition.evaluate (words.map Value.render))
        { m with pc := m.pc + 1 } { m with pc := pc } := by
  have jump : m.jumpBackward line = .ok { m with pc := pc } := by
    simp only [jumpBackward, target]
  cases words with
  | nil => simp [loopEnd, jump, map_error_ok]
  | cons first rest =>
      simp only [loopEnd, reduceCtorEq, ↓reduceIte]
      cases Condition.evaluate ((first :: rest).map Value.render) with
      | error reason => simp [bind, Except.bind, map_error_error, decided]
      | ok holds =>
          cases holds <;>
            simp [bind, Except.bind, pure, Except.pure, map_error_ok, decided, jump, advance]

end Machine
end DeviceScript

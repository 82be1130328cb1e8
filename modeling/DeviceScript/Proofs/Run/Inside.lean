import DeviceScript.Proofs.Run.Loading

/-!
The boundaries of a run together with those of the scripts that it includes, and two facts that
hold at each of them: control neither looks at the device nor at the policy for missing variables,
and an inclusion that comes to its end has run a machine of its own to the end.
-/

namespace DeviceScript

open Text

variable {ω : Type}

namespace Machine

def relabel (m : Machine) (device : Text) (missing : MissingPolicy) : Machine :=
  { m with device := device, missing := missing }

section Relabel

variable (m : Machine) (device : Text) (missing : MissingPolicy)

theorem flow_bind_relabel {α : Type} (x : Except (FaultKind × Reason) α) {f g : α → Flow}
    (each : ∀ a, g a = (f a).map fun n => n.relabel device missing) :
    (x >>= g) = (x >>= f).map fun n => n.relabel device missing := by
  cases x with
  | error e => rfl
  | ok a => exact each a

theorem forward_relabel (line : Int) :
    ((m.relabel device missing).jumpForward line).mapError flowFault =
      ((m.jumpForward line).mapError flowFault).map fun n => n.relabel device missing := by
  unfold jumpForward
  simp only [relabel]
  split <;> rfl

theorem backward_relabel (line : Int) :
    ((m.relabel device missing).jumpBackward line).mapError flowFault =
      ((m.jumpBackward line).mapError flowFault).map fun n => n.relabel device missing := by
  unfold jumpBackward
  simp only [relabel]
  split <;> rfl

theorem else_if_relabel (params : List Value) :
    (m.relabel device missing).elseIf params =
      (m.elseIf params).map fun n => n.relabel device missing := by
  refine flow_bind_relabel device missing _ fun _ =>
    flow_bind_relabel device missing _ fun taken => ?_
  split
  · exact m.forward_relabel device missing _
  · refine flow_bind_relabel device missing _ fun holds => ?_
    split
    · exact flow_bind_relabel device missing _ fun stack => rfl
    · exact m.forward_relabel device missing _

theorem else_branch_relabel (params : List Value) :
    (m.relabel device missing).elseBranch params =
      (m.elseBranch params).map fun n => n.relabel device missing := by
  refine flow_bind_relabel device missing _ fun _ =>
    flow_bind_relabel device missing _ fun taken => ?_
  split
  · exact m.forward_relabel device missing _
  · rfl

theorem fi_relabel :
    (m.relabel device missing).fi = m.fi.map fun n => n.relabel device missing :=
  flow_bind_relabel device missing _ fun _ => rfl

theorem loop_relabel (params : List Value) :
    (m.relabel device missing).loop params =
      (m.loop params).map fun n => n.relabel device missing := by
  refine flow_bind_relabel device missing _ fun ⟨guard, target⟩ => ?_
  simp only
  split
  · rfl
  · refine flow_bind_relabel device missing _ fun holds => ?_
    split
    · rfl
    · simp only [forward_relabel]
      cases (m.jumpForward target).mapError flowFault <;> rfl

theorem loop_end_relabel (op : Opcode) (params : List Value) :
    (m.relabel device missing).loopEnd op params =
      (m.loopEnd op params).map fun n => n.relabel device missing := by
  unfold loopEnd
  split
  · rfl
  · exact m.backward_relabel device missing _
  · refine flow_bind_relabel device missing _ fun finished => ?_
    split
    · rfl
    · exact m.backward_relabel device missing _
  · rfl

end Relabel

end Machine

def Progress.relabel (p : Progress ω) (device : Text) (missing : MissingPolicy) : Progress ω :=
  ⟨p.machine.relabel device missing, p.world, p.breakdown⟩

namespace Machine

section Relabel

variable (m : Machine) (device : Text) (missing : MissingPolicy)

theorem follow_relabel {flow flow' : Flow}
    (same : flow' = flow.map fun n => n.relabel device missing) (w : ω) :
    (m.relabel device missing).follow flow' w = (m.follow flow w).relabel device missing := by
  subst same
  cases flow <;> rfl

theorem if_not_goto_relabel (params : List Value) (w : ω) :
    (m.relabel device missing).ifNotGoto params w =
      (m.ifNotGoto params w).relabel device missing := by
  unfold ifNotGoto
  split
  · rfl
  · next holds target _ =>
      refine follow_relabel { m with stack := m.stack.push holds } device missing ?_ w
      split
      · rfl
      · exact forward_relabel { m with stack := m.stack.push holds } device missing target

/-- Control goes the same way under any device and policy, and changes neither. -/
theorem control_relabel (h : Host ω) (child child' : Machine → ω → Progress ω) {i : Instruction}
    (control : i.op.isControl = true) (params : List Value) (w : ω) :
    (m.relabel device missing).execute h child' i params w =
      (m.execute h child i params w).relabel device missing := by
  unfold execute
  cases op : i.op with
  | ifNotGoto => exact m.if_not_goto_relabel device missing params w
  | elseIf => exact m.follow_relabel device missing (m.else_if_relabel device missing params) w
  | elseBranch =>
      exact m.follow_relabel device missing (m.else_branch_relabel device missing params) w
  | fi => exact m.follow_relabel device missing (m.fi_relabel device missing) w
  | loop => exact m.follow_relabel device missing (m.loop_relabel device missing params) w
  | endWhile =>
      exact m.follow_relabel device missing (m.loop_end_relabel device missing .endWhile params) w
  | untilMet =>
      exact m.follow_relabel device missing (m.loop_end_relabel device missing .untilMet params) w
  | _ => simp [op, Opcode.isControl] at control

theorem control_device (h : Host ω) (child : Machine → ω → Progress ω) {i : Instruction}
    (control : i.op.isControl = true) (params : List Value) (w : ω) :
    (m.execute h child i params w).machine.device = m.device := by
  have same := m.control_relabel m.device m.missing h child child control params w
  exact congrArg (fun p => p.machine.device) same

end Relabel

/-- An instruction is executed with its variables filled in, unless one that it needs is missing, in
a world that differs from the one before by what was logged and observed. -/
theorem step_executes (h : Host ω) (m : Machine) (i : Instruction) (w : ω) :
    (∃ text, m.missing = .error ∧
      ∀ child, m.step h child i w = .failed (m.report .missingVariable text) m w) ∨
    ∃ told, (∀ P : ω → Prop, (∀ entry v, P v → P (h.log entry v)) →
        (∀ boundary v, P v → P (h.observe boundary v)) → P w → P told) ∧
      ∀ child, m.step h child i w = m.execute h child i (i.interpolated m.vars) told := by
  unfold step
  simp only
  split
  · next missing _ => exact .inl ⟨_, missing, fun _ => rfl⟩
  · refine .inr ⟨_, fun P log observe holds => observe _ _ ?_, fun _ => rfl⟩
    generalize m.warnings i = entries
    induction entries generalizing w with
    | nil => exact holds
    | cons entry rest ih => exact ih _ (log entry w holds)
  · exact .inr ⟨_, fun P log observe holds => observe _ _ holds, fun _ => rfl⟩

def under (m : Machine) (missing : MissingPolicy) : Machine := m.relabel m.device missing

theorem under_own (m : Machine) : m.under m.missing = m := rfl

@[simp] theorem under_device (m : Machine) (missing : MissingPolicy) :
    (m.under missing).device = m.device := rfl

end Machine

def Progress.under (p : Progress ω) (missing : MissingPolicy) : Progress ω :=
  p.relabel p.machine.device missing

namespace Machine

/-- The operand of an inclusion holds no variables, so the policy has no say in it. -/
theorem step_inclusion (h : Host ω) (child : Machine → ω → Progress ω) (m : Machine)
    {i : Instruction} (op : i.op = .inclusion) (w : ω) :
    m.step h child i w =
      m.inclusion h child i.line i.params (h.observe ⟨m.depth, m.pc, i, m.stack, m.vars⟩ w) := by
  obtain ⟨line, opcode, params⟩ := i
  subst op
  unfold step
  cases m.missing <;> rfl

/-- What an including machine makes of the end of the script it has included. -/
def concluded (h : Host ω) (m : Machine) (line : Int) (p : Progress ω) : Progress ω :=
  match p.breakdown with
  | none => m.resume h p.machine p.world
  | some (.fault f) => m.framed line f p.world
  | some other => ⟨m, p.world, some other⟩

/-- The world in which an included script starts. -/
def announced (h : Host ω) (m : Machine) (path : Text) (w : ω) : ω :=
  h.log ⟨.debug, "include", [("path", path), ("depth", ofNat (m.depth + 1))]⟩ w

/-- The machine is about to run the machine `c` of an included script in the world `u`. -/
def Enters (h : Host ω) (m : Machine) (w : ω) (c : Machine) (u : ω) : Prop :=
  ∃ path v load script v', m.Requests h w path v ∧ h.load = some load ∧
    load path v = (.ok script, v') ∧ c = m.child script ∧ u = m.announced h path v'

/-- A machine that is about to run another one goes by how that ends, whatever the policy. -/
theorem enters_step {h : Host ω} {m c : Machine} {w u : ω} (enters : m.Enters h w c u) :
    ∃ i, m.script.code[m.pc]? = some i ∧ m.state = .running ∧ stopReason? h w = none ∧
      i.op = .inclusion ∧ c.missing = m.missing ∧
      ∀ missing child, (m.under missing).step h child i w =
        (m.under missing).concluded h i.line (child (c.under missing) u) := by
  obtain ⟨path, v, load, script, v', requests, given, loaded, rfl, rfl⟩ := enters
  obtain ⟨i, operand, rest, current, running, free, op, params, rfl, within, rfl⟩ := requests
  refine ⟨i, current, running, free, op, rfl, ?_⟩
  intro missing child
  have shallow : ¬ maxDepth ≤ (m.under missing).depth := Nat.not_le.mpr within
  have given' : load operand.render (h.observe ⟨(m.under missing).depth, (m.under missing).pc, i,
      (m.under missing).stack, (m.under missing).vars⟩ w) = (.ok script, v') := loaded
  rw [step_inclusion h child (m.under missing) op w]
  unfold inclusion
  simp only [params, given, shallow, ↓reduceIte, given']
  rfl

theorem enters_step_own {h : Host ω} {m c : Machine} {w u : ω} (enters : m.Enters h w c u)
    {i : Instruction} (current : m.script.code[m.pc]? = some i)
    (child : Machine → ω → Progress ω) :
    m.step h child i w = m.concluded h i.line (child c u) := by
  obtain ⟨j, again, -, -, -, inherits, step⟩ := enters_step enters
  cases current.symm.trans again
  have step := step m.missing child
  rw [← inherits, under_own, inherits, under_own] at step
  exact step

/-- An inclusion breaks down before anything is run, in the same way under every policy, or it is
about to run a script. -/
theorem inclusion_cases (h : Host ω) (m : Machine) (w : ω) {i : Instruction}
    (current : m.script.code[m.pc]? = some i) (running : m.state = .running)
    (free : stopReason? h w = none) (op : i.op = .inclusion) :
    (∃ p : Progress ω, (∀ missing child, (m.under missing).step h child i w = p.under missing) ∧
      p.breakdown ≠ none) ∨ ∃ c u, m.Enters h w c u := by
  -- The operand is written out, so every policy goes through the same tests in the same world.
  obtain ⟨v, told, step⟩ : ∃ v, v = h.observe ⟨m.depth, m.pc, i, m.stack, m.vars⟩ w ∧
      ∀ missing child, (m.under missing).step h child i w =
        (m.under missing).inclusion h child i.line i.params v :=
    ⟨_, rfl, fun missing child => step_inclusion h child (m.under missing) op w⟩
  simp only [step]
  unfold inclusion
  cases params : i.params with
  | nil => exact .inl ⟨⟨m, v, some .crash⟩, fun _ _ => rfl, Option.some_ne_none _⟩
  | cons operand rest =>
      cases given : h.load with
      | none =>
          exact .inl ⟨m.refuse .handler (.noLoader operand.render) v, fun _ _ => rfl,
            Option.some_ne_none _⟩
      | some load =>
          by_cases deep : maxDepth ≤ m.depth
          · refine .inl ⟨m.refuse .handler (.nestedTooDeep operand.render maxDepth) v, ?_,
              Option.some_ne_none _⟩
            intro missing child
            simp only [show maxDepth ≤ (m.under missing).depth from deep, ↓reduceIte]
            rfl
          · simp only [show ∀ missing, ¬ maxDepth ≤ (m.under missing).depth from fun _ => deep,
              ↓reduceIte]
            rcases loaded : load operand.render v with ⟨b | script, v'⟩
            · cases b with
              | fault f =>
                  exact .inl ⟨.failed (m.locate .syntaxError f) m v', fun _ _ => rfl,
                    Option.some_ne_none _⟩
              | _ => exact .inl ⟨⟨m, v', some _⟩, fun _ _ => rfl, Option.some_ne_none _⟩
            · have requests : m.Requests h w operand.render v :=
                ⟨i, operand, rest, current, running, free, op, params, rfl, by omega, told⟩
              exact .inr ⟨_, _, _, _, load, script, v', requests, given, loaded, rfl, rfl⟩

/-- The boundaries of a run and of the scripts that it includes, with the fuel that is left
there. -/
inductive Inside (h : Host ω) : Nat → Machine → ω → Nat → Machine → ω → Prop
  | own {fuel left : Nat} {m n : Machine} {w v : ω} (visits : Visits h fuel m w left n v) :
      Inside h fuel m w left n v
  | within {fuel left less : Nat} {m n c o : Machine} {w v u x : ω}
      (visits : Visits h fuel m w (left + 1) n v) (enters : n.Enters h v c u)
      (rest : Inside h left c u less o x) : Inside h fuel m w less o x

end Machine
end DeviceScript

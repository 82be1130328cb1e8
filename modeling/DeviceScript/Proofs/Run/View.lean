import DeviceScript.Proofs.Run.Simulation

/-!
A host seen through a view of its world. If all services act on what the view shows as those of
another host do, so do whole runs. The other host may be a quiet one, from which the view hides what
is logged and observed.
-/

namespace DeviceScript

open Machine

variable {ω σ : Type}

def Progress.seen (view : ω → σ) (p : Progress ω) : Progress σ :=
  ⟨p.machine, view p.world, p.breakdown⟩

def Reaction.seen (view : ω → σ) (r : Reaction ω) : Reaction σ :=
  ⟨r.value, r.fault, r.vars, r.abort, view r.world⟩

def Course.seen (view : ω → σ) (c : Course ω) : Course σ :=
  ⟨c.trace, ⟨c.scene.vars, c.scene.device, view c.scene.world⟩, c.breakdown⟩

/-- What a host does to its world shows as what another host does to what is seen of it; records
and observers do nothing that shows. -/
structure Host.Shows (h : Host ω) (core : Host σ) (view : ω → σ) : Prop where
  log : ∀ entry w, view (h.log entry w) = view w
  observe : ∀ boundary w, view (h.observe boundary w) = view w
  stopRequested : ∀ w, core.stopRequested (view w) = h.stopRequested w
  canceled : ∀ w, core.canceled (view w) = h.canceled w
  session : Option.Rel (fun (a : Session ω) (b : Session σ) =>
      (∀ name w, b.switchDevice name (view w) =
        ((a.switchDevice name w).1, view (a.switchDevice name w).2)) ∧
      ∀ command w, b.send command (view w) = ((a.send command w).1, view (a.send command w).2))
    h.session core.session
  registry : ∀ name, Option.Rel (fun (a : Operation ω) (b : Operation σ) =>
      b.spec = a.spec ∧ ∀ site bound vars w, b.handler core.toServices site bound vars (view w) =
        (a.handler h.toServices site bound vars w).seen view)
    (h.registry.bind fun r => r.lookup? name) (core.registry.bind fun r => r.lookup? name)
  load : Option.Rel (fun (a : Text → ω → Except Breakdown Script × ω)
        (b : Text → σ → Except Breakdown Script × σ) =>
      ∀ path w, b path (view w) = ((a path w).1, view (a path w).2))
    h.load core.load

/-- What a host does to its world shows as what another host does to what is seen of it. -/
structure Host.Mirrors (h : Host ω) (core : Host σ) (view : ω → σ) : Prop where
  log : ∀ entry w, view (h.log entry w) = core.log entry (view w)
  observe : ∀ boundary w, view (h.observe boundary w) = core.observe boundary (view w)
  stopRequested : ∀ w, core.stopRequested (view w) = h.stopRequested w
  canceled : ∀ w, core.canceled (view w) = h.canceled w
  session : Option.Rel (fun (a : Session ω) (b : Session σ) =>
      (∀ name w, b.switchDevice name (view w) =
        ((a.switchDevice name w).1, view (a.switchDevice name w).2)) ∧
      ∀ command w, b.send command (view w) = ((a.send command w).1, view (a.send command w).2))
    h.session core.session
  registry : ∀ name, Option.Rel (fun (a : Operation ω) (b : Operation σ) =>
      b.spec = a.spec ∧ ∀ site bound vars w, b.handler core.toServices site bound vars (view w) =
        (a.handler h.toServices site bound vars w).seen view)
    (h.registry.bind fun r => r.lookup? name) (core.registry.bind fun r => r.lookup? name)
  load : Option.Rel (fun (a : Text → ω → Except Breakdown Script × ω)
        (b : Text → σ → Except Breakdown Script × σ) =>
      ∀ path w, b path (view w) = ((a path w).1, view (a path w).2))
    h.load core.load

/-- On a quiet host nothing that is logged or observed shows. -/
theorem Host.Shows.mirrors {h : Host ω} {core : Host σ} {view : ω → σ} (shows : h.Shows core view)
    (quiet : core.Quiet) : h.Mirrors core view where
  log entry w := (shows.log entry w).trans (quiet.log entry (view w)).symm
  observe boundary w := (shows.observe boundary w).trans (quiet.observe boundary (view w)).symm
  stopRequested := shows.stopRequested
  canceled := shows.canceled
  session := shows.session
  registry := shows.registry
  load := shows.load

section Seen

variable {h : Host ω} {core : Host σ} {view : ω → σ} (mirrors : h.Mirrors core view)

include mirrors

theorem stop_reason_seen (w : ω) : stopReason? core (view w) = stopReason? h w := by
  simp only [stopReason?, mirrors.stopRequested, mirrors.canceled]

omit mirrors in
theorem session_fault_seen (m : Machine) (canceled : Bool) (f : Fault) (w : ω) :
    (m.sessionFault canceled f w).seen view = m.sessionFault canceled f (view w) := by
  unfold sessionFault
  split
  · rfl
  · split <;> rfl

theorem switch_device_seen (m : Machine) (params : List Value) (w : ω) :
    (m.switchDevice h params w).seen view = m.switchDevice core params (view w) := by
  cases params with
  | nil => rfl
  | cons operand rest =>
      unfold switchDevice
      -- Either host has a session or neither has, and the sessions answer alike.
      have related := mirrors.session
      generalize h.session = mine at related ⊢
      generalize core.session = other at related ⊢
      cases related with
      | none => simp [Progress.seen, Progress.ok, mirrors.log]
      | @some a b same =>
          simp only [same.1]
          rcases answered : a.switchDevice operand.render w with ⟨f | _, w'⟩
          · simp only [answered, session_fault_seen, mirrors.canceled]
          · simp [answered, Progress.seen, Progress.ok, mirrors.log]

theorem command_seen (m : Machine) (params : List Value) (w : ω) :
    (m.command h params w).seen view = m.command core params (view w) := by
  unfold command
  have related := mirrors.session
  generalize h.session = mine at related ⊢
  generalize core.session = other at related ⊢
  cases related with
  | none => rfl
  | @some a b same =>
      cases params with
      | nil => rfl
      | cons operand rest =>
          simp only [same.2]
          rcases a.send operand.render w with ⟨f | output, w'⟩
          · simp only [session_fault_seen, mirrors.canceled]
          · rfl

theorem resume_seen (m included : Machine) (w : ω) :
    (m.resume h included w).seen view = m.resume core included (view w) := by
  unfold resume
  have related := mirrors.session
  generalize h.session = mine at related ⊢
  generalize core.session = other at related ⊢
  cases related with
  | none => rfl
  | @some a b same =>
      simp only
      split
      · rfl
      · simp only [same.1]
        rcases a.switchDevice m.device w with ⟨f | _, w'⟩
        · simp only [session_fault_seen, mirrors.canceled]
        · rfl

omit mirrors in
theorem framed_seen (m : Machine) (line : Int) (f : Fault) (w : ω) :
    (m.framed line f w).seen view = m.framed line f (view w) := by
  unfold framed
  split <;> rfl

theorem inclusion_seen {child : Machine → ω → Progress ω} {inner : Machine → σ → Progress σ}
    (below : ∀ m w, (child m w).seen view = inner m (view w)) (m : Machine) (line : Int)
    (params : List Value) (w : ω) :
    (m.inclusion h child line params w).seen view =
      m.inclusion core inner line params (view w) := by
  cases params with
  | nil => rfl
  | cons operand rest =>
      unfold inclusion
      have related := mirrors.load
      generalize h.load = mine at related ⊢
      generalize core.load = other at related ⊢
      cases related with
      | none => rfl
      | @some a b same =>
          simp only [same]
          split
          · rfl
          · rcases a operand.render w with ⟨broken | script, w'⟩
            · cases broken <;> rfl
            · have inside := below (m.child script) (h.log ⟨.debug, "include",
                [("path", operand.render), ("depth", Text.ofNat (m.depth + 1))]⟩ w')
              rw [mirrors.log] at inside
              simp only [← inside, Progress.seen]
              split
              · exact resume_seen mirrors m _ _
              · exact framed_seen m _ _ _
              · rfl

theorem call_seen (m : Machine) (i : Instruction) (params : List Value) (w : ω) :
    (m.call h i params w).seen view = m.call core i params (view w) := by
  unfold call
  have related := mirrors.registry i.op.name
  generalize (h.registry.bind fun r => r.lookup? i.op.name) = mine at related ⊢
  generalize (core.registry.bind fun r => r.lookup? i.op.name) = other at related ⊢
  cases related with
  | none => rfl
  | @some a b same =>
      obtain ⟨spec, handles⟩ := same
      simp only [spec]
      cases a.spec.bind params with
      | error reason => rfl
      | ok bound =>
          simp only [handles, Reaction.seen]
          split
          · simp only [session_fault_seen, mirrors.canceled]
          · rfl

omit mirrors in
theorem follow_seen (m : Machine) (flow : Flow) (w : ω) :
    (m.follow flow w).seen view = m.follow flow (view w) := by
  cases flow <;> rfl

theorem execute_seen {child : Machine → ω → Progress ω} {inner : Machine → σ → Progress σ}
    (below : ∀ m w, (child m w).seen view = inner m (view w)) (m : Machine) (i : Instruction)
    (params : List Value) (w : ω) :
    (m.execute h child i params w).seen view = m.execute core inner i params (view w) := by
  unfold execute
  cases i.op with
  | device => exact switch_device_seen mirrors m params w
  | command => exact command_seen mirrors m params w
  | inclusion => exact inclusion_seen mirrors below m i.line params w
  | ifNotGoto =>
      simp only [ifNotGoto]
      split
      · rfl
      · exact follow_seen ..
  | call name => exact call_seen mirrors m i params w
  | _ => exact follow_seen ..

theorem step_seen {child : Machine → ω → Progress ω} {inner : Machine → σ → Progress σ}
    (below : ∀ m w, (child m w).seen view = inner m (view w)) (m : Machine) (i : Instruction)
    (w : ω) : (m.step h child i w).seen view = m.step core inner i (view w) := by
  have told (entries : List LogEntry) (w : ω) :
      view (entries.foldl (fun w entry => h.log entry w) w) =
        entries.foldl (fun w entry => core.log entry w) (view w) := by
    induction entries generalizing w with
    | nil => rfl
    | cons entry rest ih => simp only [List.foldl_cons, ih, mirrors.log]
  unfold step
  simp only
  split
  · rfl
  · simp only [execute_seen mirrors below, mirrors.observe, told]
  · simp only [execute_seen mirrors below, mirrors.observe]

theorem run_seen (fuel : Nat) (m : Machine) (w : ω) :
    (m.run h fuel w).seen view = m.run core fuel (view w) := by
  induction fuel generalizing m w with
  | zero => rfl
  | succ fuel ih =>
      unfold run
      split
      · simp [finish, Progress.ok, Progress.seen, mirrors.log]
      · split
        · simp [finish, Progress.ok, Progress.seen, mirrors.log]
        · next i _ =>
            rw [stop_reason_seen mirrors]
            split
            · rfl
            · have stepped := step_seen mirrors ih m i w
              simp only [← stepped, Progress.seen]
              split
              · rfl
              · rfl
              · split
                · exact ih _ _
                · rfl

theorem next_seen (fuel : Nat) (m : Machine) (w : ω) :
    m.next? core (run core fuel) (view w) =
      (m.next? h (run h fuel) w).map fun further => (further.1, view further.2) := by
  unfold next?
  split
  · rfl
  · next i _ =>
      have stepped := step_seen mirrors (run_seen mirrors fuel) m i w
      simp only [← stepped, Progress.seen, stop_reason_seen mirrors]
      split <;> rfl

theorem due_seen (m : Machine) (w : ω) : m.due core (view w) = m.due h w := by
  simp only [due, stop_reason_seen mirrors]

theorem dispatched_seen (fuel : Nat) (m : Machine) (w : ω) :
    m.dispatched core fuel (view w) = m.dispatched h fuel w := by
  induction fuel generalizing m w with
  | zero => rfl
  | succ fuel ih =>
      simp only [dispatched, due_seen mirrors, next_seen mirrors]
      cases m.next? h (run h fuel) w with
      | none => rfl
      | some further => simp only [Option.map_some, ih]

end Seen

/-- A run on the one host shows as the run on the other. -/
theorem course_seen {h : Host ω} {core : Host σ} {view : ω → σ} (shows : h.Shows core view)
    (quiet : core.Quiet) (fuel : Nat) (m : Machine) (w : ω) :
    (m.course h fuel w).seen view = m.course core fuel (view w) := by
  have mirrors := shows.mirrors quiet
  simp only [course, Course.seen, dispatched_seen mirrors, ← run_seen mirrors, Progress.seen]

end DeviceScript

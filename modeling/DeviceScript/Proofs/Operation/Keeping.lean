import DeviceScript.Proofs.Operation.Registered

/-!
What operations keep. An operation changes the world through its services only, so what all of these
keep is kept by every operation that a registry has.
-/

namespace DeviceScript

variable {ω : Type}

/-- All services of an operation keep what holds of the world. Operations do not switch devices. -/
structure Services.Keeps (s : Services ω) (P : ω → Prop) : Prop where
  log : ∀ entry w, P w → P (s.log entry w)
  pause : ∀ nanos w, P w → P (s.pause nanos w)
  sends : ∀ session, s.session = some session → ∀ command w, P w → P (session.send command w).2
  awaits : ∀ session, s.session = some session → ∀ pattern nanos clear w, P w →
    P (session.await pattern nanos clear w).2
  records : ∀ record, s.record = some record → ∀ result w, P w → P (record result w).2

namespace Services.Keeps

variable {s : Services ω} {P : ω → Prop} (keeps : s.Keeps P) {w : ω} (holds : P w)
variable (site : CallSite) (bound : Bound) (vars : Vars)

include keeps holds

theorem report (outcome : Outcome) (detail : Text) : P (s.report site outcome detail w).2 := by
  unfold Services.report
  split
  · exact holds
  · next record given => exact keeps.records record given _ w holds

theorem send_text (command : Text) : P (s.sendText site command vars w).world := by
  unfold Services.sendText
  cases given : s.session with
  | none => exact holds
  | some session =>
      have after := keeps.sends session given command w holds
      simp only
      split
      · next answered =>
          rw [answered] at after
          exact after
      · next answered =>
          rw [answered] at after
          exact after

theorem comment : P (Standard.comment s site bound vars w).world :=
  keeps.report (keeps.log _ w holds) site _ _

omit keeps in
theorem count (sign : Int) : P (Standard.count sign s site bound vars w).world := by
  unfold Standard.count
  simp only
  split <;> exact holds

theorem sleep : P (Standard.sleep s site bound vars w).world := by
  unfold Standard.sleep
  simp only
  split
  · exact holds
  · split
    · exact holds
    · exact keeps.pause _ w holds

theorem expect : P (Standard.expect s site bound vars w).world := by
  unfold Standard.expect
  cases given : s.session with
  | none => exact holds
  | some session =>
      have after := keeps.awaits session given (bound.text "pattern")
        (Standard.secondsToNanos (bound.int "timeout")) (bound.flag "clear") w holds
      simp only
      split
      · next answered =>
          rw [answered] at after
          exact after
      · next answered =>
          rw [answered] at after
          exact keeps.report (keeps.log _ _ after) site _ _

omit keeps in
theorem capture : P (Standard.capture s site bound vars w).world := by
  unfold Standard.capture
  split <;> exact holds

theorem fail : P (Standard.fail s site bound vars w).world := by
  have after := keeps.report holds site .fail (bound.text "message")
  unfold Standard.fail
  simp only
  split
  · next answered =>
      rw [answered] at after
      exact after
  · next answered =>
      rw [answered] at after
      exact after

theorem standard {d : Descriptor ω} (among : d ∈ standardOperations) {handler : Handler ω}
    (given : d.handler = some handler) : P (handler s site bound vars w).world := by
  simp only [standardOperations, List.map_cons, List.map_nil, List.mem_cons, List.not_mem_nil,
    or_false] at among
  rcases among with rfl | rfl | rfl | rfl | rfl | rfl | rfl | rfl | rfl | rfl | rfl
  · cases given
    exact keeps.comment holds site bound vars
  · cases given
    exact holds
  · cases given
    exact holds
  · cases given
    exact count holds site bound vars 1
  · cases given
    exact count holds site bound vars (-1)
  · cases given
    exact keeps.sleep holds site bound vars
  · cases given
    exact keeps.send_text holds site vars _
  · cases given
    exact keeps.expect holds site bound vars
  · cases given
    exact capture holds site bound vars
  · cases given
    exact keeps.fail holds site bound vars
  · cases given
    exact holds

theorem registered {schema : Schema} {aliases : Aliases} {registry : Registry ω}
    (built : Registry.withAliases schema aliases = .ok registry) {op : Operation ω}
    (member : op ∈ registry.operations) : P (op.handler s site bound vars w).world := by
  rcases Registry.with_aliases_handler built member with ⟨d, among, -, given⟩ | ⟨command, same⟩
  · exact keeps.standard holds site bound vars among given
  · rw [same]
    exact keeps.send_text holds site vars _

end Services.Keeps
end DeviceScript

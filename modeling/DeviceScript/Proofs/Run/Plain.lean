import DeviceScript.Proofs.Run.Devices

/-!
Faults that come from around a machine. Sessions and recorders say what is wrong without placing it,
and the operations pass on what they are told; so it is left to the machine to place a fault.
-/

namespace DeviceScript

open Text

variable {ω : Type}

/-- Sessions and recorders say what is wrong without placing it. -/
structure Host.Plain (h : Host ω) : Prop where
  switches : ∀ session, h.session = some session → ∀ name w f,
    (session.switchDevice name w).1 = .error f → f.report? = none
  sends : ∀ session, h.session = some session → ∀ command w f,
    (session.send command w).1 = .error f → f.report? = none
  awaits : ∀ session, h.session = some session → ∀ pattern nanos clear w f,
    (session.await pattern nanos clear w).1 = .error f → f.report? = none
  records : ∀ record, h.record = some record → ∀ result w f,
    (record result w).1 = .error f → f.report? = none

/-- If the call has a fault, it is one without a place. -/
def Reaction.Plain (r : Reaction ω) : Prop := ∀ f, r.fault = some f → f.report? = none

namespace Host.Plain

variable {h : Host ω} (plain : h.Plain)

include plain

theorem report {site : CallSite} {outcome : Outcome} {detail : Text} {w : ω} {f : Fault}
    (refused : (h.report site outcome detail w).1 = .error f) : f.report? = none := by
  unfold Services.report at refused
  cases given : h.record with
  | none =>
      rw [given] at refused
      cases refused
  | some record =>
      rw [given] at refused
      exact plain.records record given _ w f refused

theorem send_text (site : CallSite) (command : Text) (vars : Vars) (w : ω) :
    (h.sendText site command vars w).Plain := by
  unfold Services.sendText
  cases given : h.session with
  | none =>
      rintro _ ⟨⟩
      rfl
  | some session =>
      simp only
      split
      · next fault _ answered =>
          rintro _ ⟨⟩
          exact plain.sends session given command w fault (by rw [answered])
      · exact nofun

variable (site : CallSite) (bound : Bound) (vars : Vars) (w : ω)

theorem comment : (Standard.comment h.toServices site bound vars w).Plain := by
  intro f fault
  unfold Standard.comment at fault
  simp only at fault
  split at fault
  · next refused =>
      cases fault
      exact plain.report refused
  · cases fault

omit plain in
theorem count (sign : Int) : (Standard.count sign h.toServices site bound vars w).Plain := by
  unfold Standard.count
  simp only
  split
  · rintro _ ⟨⟩
    rfl
  · exact nofun

omit plain in
theorem sleep : (Standard.sleep h.toServices site bound vars w).Plain := by
  unfold Standard.sleep
  simp only
  split
  · exact nofun
  · split
    · rintro _ ⟨⟩
      rfl
    · exact nofun

theorem expect : (Standard.expect h.toServices site bound vars w).Plain := by
  unfold Standard.expect
  cases given : h.session with
  | none =>
      rintro _ ⟨⟩
      rfl
  | some session =>
      simp only
      split
      · next fault _ answered =>
          rintro _ ⟨⟩
          exact plain.awaits session given _ _ _ w fault (by rw [answered])
      · intro f fault
        simp only at fault
        split at fault
        · next refused =>
            cases fault
            exact plain.report refused
        · cases fault

omit plain in
theorem capture : (Standard.capture h.toServices site bound vars w).Plain := by
  unfold Standard.capture
  split
  · rintro _ ⟨⟩
    rfl
  · exact nofun

theorem fail : (Standard.fail h.toServices site bound vars w).Plain := by
  unfold Standard.fail
  simp only
  split
  · next fault _ answered =>
      rintro _ ⟨⟩
      exact plain.report (by rw [answered])
  · rintro _ ⟨⟩
    rfl

theorem standard {d : Descriptor ω} (among : d ∈ standardOperations) {handler : Handler ω}
    (given : d.handler = some handler) : (handler h.toServices site bound vars w).Plain := by
  simp only [standardOperations, List.map_cons, List.map_nil, List.mem_cons, List.not_mem_nil,
    or_false] at among
  rcases among with rfl | rfl | rfl | rfl | rfl | rfl | rfl | rfl | rfl | rfl | rfl
  · cases given
    exact plain.comment site bound vars w
  · cases given
    rintro _ ⟨⟩
  · cases given
    rintro _ ⟨⟩
  · cases given
    exact count site bound vars w 1
  · cases given
    exact count site bound vars w (-1)
  · cases given
    exact sleep site bound vars w
  · cases given
    exact plain.send_text site _ vars w
  · cases given
    exact plain.expect site bound vars w
  · cases given
    exact capture site bound vars w
  · cases given
    exact plain.fail site bound vars w
  · cases given
    rintro _ ⟨⟩

theorem registered {schema : Schema} {aliases : Aliases} {registry : Registry ω}
    (built : Registry.withAliases schema aliases = .ok registry) {op : Operation ω}
    (member : op ∈ registry.operations) :
    (op.handler h.toServices site bound vars w).Plain := by
  rcases Registry.with_aliases_handler built member with ⟨d, among, -, given⟩ | ⟨command, same⟩
  · exact plain.standard site bound vars w among given
  · rw [same]
    exact plain.send_text site _ vars w

end Host.Plain

namespace Simulated

variable {s : Simulated} {canceled clear : Bool} {name command pattern : Text} {f : Fault}

theorem switch_plain (refused : (s.switchDevice name).1 = .error f) : f.report? = none := by
  unfold switchDevice at refused
  split at refused <;> cases refused
  rfl

theorem send_plain (refused : (s.send canceled command).1 = .error f) : f.report? = none := by
  unfold send at refused
  split at refused <;> cases refused
  rfl

theorem await_plain (refused : (s.await canceled pattern clear).1 = .error f) :
    f.report? = none := by
  unfold await at refused
  split at refused
  · cases refused
    rfl
  · split at refused
    · cases refused
      rfl
    · simp only at refused
      split at refused <;> cases refused

end Simulated

namespace WebSocket

variable {s : WebSocket} {network : Network} {canceled clear : Bool} {name command pattern : Text}
variable {f : Fault}

theorem active_plain (refused : s.active = .error f) : f.report? = none := by
  unfold active at refused
  split at refused <;> cases refused
  rfl

theorem switch_plain (refused : (s.switchDevice network canceled name).1 = .error f) :
    f.report? = none := by
  unfold switchDevice at refused
  split at refused
  · cases refused
  · split at refused
    · cases refused
      rfl
    · split at refused <;> cases refused
      rfl

theorem send_plain (refused : (s.send canceled command).2.1 = some f) : f.report? = none := by
  unfold send at refused
  split at refused
  · next inactive =>
      cases refused
      exact active_plain inactive
  · split at refused
    · cases refused
      rfl
    · simp only at refused
      split at refused
      · cases refused
        rfl
      · simp only at refused
        split at refused <;> cases refused
        rfl

theorem await_plain (refused : (s.await canceled pattern clear).1 = .error f) :
    f.report? = none := by
  unfold await at refused
  split at refused
  · cases refused
    rfl
  · split at refused
    · next inactive =>
        cases refused
        exact active_plain inactive
    · simp only at refused
      repeat' split at refused
      all_goals cases refused
      all_goals rfl

end WebSocket

/-- Neither kind of session places its faults, and neither does the store. -/
theorem bench_plain (p : BenchPlan) (path runId : Text) : (p.host path runId).Plain where
  switches session given name w f refused := by
    cases given
    simp only [Bench.switchDevice] at refused
    split at refused
    · exact Simulated.switch_plain refused
    · exact WebSocket.switch_plain refused
  sends session given command w f refused := by
    cases given
    simp only [Bench.send] at refused
    split at refused
    · exact Simulated.send_plain refused
    · next s _ =>
        cases fault : (s.send false command).2.1 with
        | none => simp [fault] at refused
        | some g =>
            simp only [fault, Option.map_some, Option.getD_some, Except.error.injEq] at refused
            exact refused ▸ WebSocket.send_plain fault
  awaits session given pattern nanos clear w f refused := by
    cases given
    simp only [Bench.await] at refused
    split at refused
    · exact Simulated.await_plain refused
    · exact WebSocket.await_plain refused
  records record given result w f refused := by
    cases given
    simp only [Bench.record] at refused
    split at refused
    · cases refused
    · next store _ =>
        cases answer : (store.record false result).1 with
        | ok u => simp [answer, Except.mapError] at refused
        | error problem =>
            simp only [answer, Except.mapError, Except.error.injEq] at refused
            exact refused ▸ rfl

end DeviceScript

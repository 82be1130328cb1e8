import DeviceScript.Command.Bench
import DeviceScript.Proofs.Operation.Keeping
import DeviceScript.Proofs.Run.Inside

/-!
The device that a simulated session stands on. Machines at all depths of inclusion share the
session, yet at every boundary of each of them the session is on that machine's device; so an
inclusion that comes to its end gives the including machine everything back as it was.
-/

namespace DeviceScript

open Text

variable {ω : Type}

def Reply.Shows {α : Type} (view : ω → Option Simulated) (reply : Reply ω α)
    (given : Except Fault α × Simulated) : Prop :=
  reply.1 = given.1 ∧ view reply.2 = some given.2

/-- The session of a host is a simulated one, where the world has it in view, and nothing but the
session touches it. -/
structure Host.Simulates (h : Host ω) (view : ω → Option Simulated) : Prop where
  session : ∃ session, h.session = some session ∧ ∀ w s, view w = some s →
    (∀ name, (session.switchDevice name w).Shows view (s.switchDevice name)) ∧
    (∀ command, (session.send command w).Shows view (s.send (h.canceled w) command)) ∧
    ∀ pattern nanos clear,
      (session.await pattern nanos clear w).Shows view (s.await (h.canceled w) pattern clear)
  log : ∀ entry w, view (h.log entry w) = view w
  observe : ∀ boundary w, view (h.observe boundary w) = view w
  pause : ∀ nanos w, view (h.pause nanos w) = view w
  record : ∀ record, h.record = some record → ∀ result w, view (record result w).2 = view w
  load : ∀ load, h.load = some load → ∀ path w, view (load path w).2 = view w

namespace Simulated

theorem switch_current {s : Simulated} {name : Text} (done : (s.switchDevice name).1 = .ok ()) :
    (s.switchDevice name).2.current = name := by
  unfold switchDevice at done ⊢
  split at done
  · next known => simp only [known, ↓reduceIte]
  · cases done

theorem send_current (s : Simulated) (canceled : Bool) (command : Text) :
    (s.send canceled command).2.current = s.current := by
  unfold send
  split <;> rfl

theorem await_current (s : Simulated) (canceled : Bool) (pattern : Text) (clear : Bool) :
    (s.await canceled pattern clear).2.current = s.current := by
  unfold await
  split
  · rfl
  · split
    · rfl
    · cases clear <;> simp only [Bool.false_eq_true, ↓reduceIte] <;> split <;> rfl

end Simulated

def StandsOn (view : ω → Option Simulated) (device : Text) (w : ω) : Prop :=
  ∃ s, view w = some s ∧ s.current = device

namespace Host.Simulates

variable {h : Host ω} {view : ω → Option Simulated} (simulates : h.Simulates view)
variable {device : Text} {w : ω}

theorem stands_same {w' : ω} (same : view w' = view w) (stands : StandsOn view device w) :
    StandsOn view device w' := by
  obtain ⟨s, shown, on⟩ := stands
  exact ⟨s, same.trans shown, on⟩

include simulates

theorem stands_log (entry : LogEntry) (stands : StandsOn view device w) :
    StandsOn view device (h.log entry w) := stands_same (simulates.log entry w) stands

theorem switched {session : Session ω} (given : h.session = some session)
    (stands : StandsOn view device w) {name : Text} {w' : ω}
    (answered : session.switchDevice name w = (.ok (), w')) : StandsOn view name w' := by
  obtain ⟨other, again, shows⟩ := simulates.session
  cases given.symm.trans again
  obtain ⟨s, shown, -⟩ := stands
  obtain ⟨reply, after⟩ := (shows w s shown).1 name
  rw [answered] at reply after
  exact ⟨_, after, Simulated.switch_current reply.symm⟩

theorem sent {session : Session ω} (given : h.session = some session)
    (stands : StandsOn view device w) (command : Text) :
    StandsOn view device (session.send command w).2 := by
  obtain ⟨other, again, shows⟩ := simulates.session
  cases given.symm.trans again
  obtain ⟨s, shown, on⟩ := stands
  exact ⟨_, ((shows w s shown).2.1 command).2, (s.send_current _ _).trans on⟩

theorem awaited {session : Session ω} (given : h.session = some session)
    (stands : StandsOn view device w) (pattern : Text) (nanos : Int) (clear : Bool) :
    StandsOn view device (session.await pattern nanos clear w).2 := by
  obtain ⟨other, again, shows⟩ := simulates.session
  cases given.symm.trans again
  obtain ⟨s, shown, on⟩ := stands
  exact ⟨_, ((shows w s shown).2.2 pattern nanos clear).2, (s.await_current _ _ _).trans on⟩

/-- Operations speak to the session, but they do not switch it. -/
theorem operations_stand (device : Text) : h.toServices.Keeps (StandsOn view device) where
  log entry _ stands := simulates.stands_log entry stands
  pause nanos w stands := stands_same (simulates.pause nanos w) stands
  sends _ given command _ stands := simulates.sent given stands command
  awaits _ given pattern nanos clear _ stands := simulates.awaited given stands pattern nanos clear
  records record given result w stands :=
    stands_same (simulates.record record given result w) stands

end Host.Simulates

namespace Machine

/-- The session is on the device of the machine, if the machine has one. -/
def Attuned (view : ω → Option Simulated) (m : Machine) (w : ω) : Prop :=
  ∃ device, StandsOn view device w ∧ (m.device ≠ [] → device = m.device)

theorem session_fault_breaks (m : Machine) (canceled : Bool) (f : Fault) (w : ω) :
    (m.sessionFault canceled f w).breakdown ≠ none := by
  obtain ⟨g, fails⟩ := session_fault_fails m canceled f w
  rw [fails]
  exact Option.some_ne_none _

section Attuned

variable {h : Host ω} {view : ω → Option Simulated} (simulates : h.Simulates view)

theorem attuned_same {m n : Machine} {w v : ω} (attuned : m.Attuned view w)
    (device : n.device = m.device) (same : view v = view w) : n.Attuned view v := by
  obtain ⟨on, stands, own⟩ := attuned
  exact ⟨on, Host.Simulates.stands_same same stands, by rwa [device]⟩

include simulates

theorem switch_device_attuned {m : Machine} {w : ω} (attuned : m.Attuned view w)
    (params : List Value) (done : (m.switchDevice h params w).breakdown = none) :
    (m.switchDevice h params w).machine.Attuned view (m.switchDevice h params w).world := by
  obtain ⟨session, given, -⟩ := simulates.session
  obtain ⟨on, stands, -⟩ := attuned
  cases params with
  | nil => cases done
  | cons operand rest =>
      unfold switchDevice at done ⊢
      simp only [given] at done ⊢
      rcases answered : session.switchDevice operand.render w with ⟨f | _, w'⟩
      · rw [answered] at done
        exact absurd done (session_fault_breaks m _ f w')
      · simp only
        have there := simulates.switched given stands answered
        exact ⟨_, simulates.stands_log _ there, fun _ => rfl⟩

theorem command_attuned {m : Machine} {w : ω} (attuned : m.Attuned view w)
    (params : List Value) (done : (m.command h params w).breakdown = none) :
    (m.command h params w).machine.Attuned view (m.command h params w).world := by
  obtain ⟨session, given, -⟩ := simulates.session
  obtain ⟨on, stands, own⟩ := attuned
  unfold command at done ⊢
  cases params with
  | nil =>
      simp only [given] at done
      cases done
  | cons operand rest =>
      simp only [given] at done ⊢
      have after := simulates.sent given stands operand.render
      split at done
      · exact absurd done (session_fault_breaks _ _ _ _)
      · next answered =>
          rw [answered] at after
          exact ⟨on, after, own⟩

/-- Whatever device the included script has come to, the session is back on that of the machine. -/
theorem resume_returns {m included : Machine} {w : ω} (attuned : included.Attuned view w)
    (done : (m.resume h included w).breakdown = none) :
    (m.resume h included w).machine = m.advance ∧
      m.Attuned view (m.resume h included w).world := by
  obtain ⟨session, given, -⟩ := simulates.session
  obtain ⟨on, stands, own⟩ := attuned
  unfold resume at done ⊢
  simp only [given] at done ⊢
  by_cases stays : (m.device.isEmpty || included.device == m.device) = true
  · simp only [stays, ↓reduceIte]
    refine ⟨rfl, on, stands, ?_⟩
    intro some
    have same : included.device = m.device := by simpa [some] using stays
    rw [← same]
    exact own (same ▸ some)
  · simp only [stays, Bool.false_eq_true, ↓reduceIte] at done ⊢
    split at done
    · exact absurd done (session_fault_breaks _ _ _ _)
    · next answered => exact ⟨rfl, _, simulates.switched given stands answered, fun _ => rfl⟩

theorem call_attuned {registry : Registry ω} {schema : Schema} {aliases : Aliases}
    (built : Registry.withAliases schema aliases = .ok registry) (own : h.registry = some registry)
    {m : Machine} {w : ω} (attuned : m.Attuned view w) (i : Instruction) (params : List Value)
    (done : (m.call h i params w).breakdown = none) :
    (m.call h i params w).machine.Attuned view (m.call h i params w).world := by
  obtain ⟨on, stands, there⟩ := attuned
  unfold call at done ⊢
  rw [own] at done ⊢
  simp only [Option.bind_some] at done ⊢
  split at done
  · cases done
  · next operation found =>
      split at done
      · cases done
      · next bound _ =>
          have after := (simulates.operations_stand on).registered stands
            ⟨m.runId, m.script.path, i.line, i.op.name, m.device⟩ bound m.vars built
            (List.mem_of_find?_eq_some found)
          split at done
          · exact absurd done (session_fault_breaks _ _ _ _)
          · exact ⟨on, after, there⟩

theorem enters_attuned {m c : Machine} {w u : ω} (attuned : m.Attuned view w)
    (enters : m.Enters h w c u) : c.Attuned view u := by
  obtain ⟨path, v, load, script, v', requests, given, loaded, rfl, rfl⟩ := enters
  obtain ⟨i, operand, rest, -, -, -, -, -, -, -, rfl⟩ := requests
  refine attuned_same attuned rfl ?_
  have kept := simulates.load load given path (h.observe ⟨m.depth, m.pc, i, m.stack, m.vars⟩ w)
  rw [loaded] at kept
  rw [announced, simulates.log, kept, simulates.observe]

/-- An inclusion that comes to its end hands the machine back one instruction on, if the run of the
included script leaves the session on the device it has come to. -/
theorem inclusion_returns {child : Machine → ω → Progress ω}
    (below : ∀ c u, c.Attuned view u → (child c u).breakdown = none →
      (child c u).machine.Attuned view (child c u).world)
    {m : Machine} {w : ω} (attuned : m.Attuned view w) {i : Instruction}
    (current : m.script.code[m.pc]? = some i) (running : m.state = .running)
    (free : stopReason? h w = none) (op : i.op = .inclusion)
    (done : (m.step h child i w).breakdown = none) :
    (m.step h child i w).machine = m.advance ∧ m.Attuned view (m.step h child i w).world := by
  rcases inclusion_cases h m w current running free op with ⟨p, step, broken⟩ | ⟨c, u, enters⟩
  · have step := step m.missing child
    rw [under_own] at step
    rw [step] at done
    exact absurd done broken
  · rw [enters_step_own enters current child] at done ⊢
    unfold concluded at done ⊢
    split at done
    · next ended =>
        exact resume_returns simulates (below c u (enters_attuned simulates attuned enters) ended)
          done
    · unfold framed at done
      split at done <;> cases done
    · cases done

variable {registry : Registry ω} {schema : Schema} {aliases : Aliases}
variable (built : Registry.withAliases schema aliases = .ok registry)
variable (own : h.registry = some registry)

include built own

theorem step_attuned {child : Machine → ω → Progress ω}
    (below : ∀ c u, c.Attuned view u → (child c u).breakdown = none →
      (child c u).machine.Attuned view (child c u).world)
    {m : Machine} {w : ω} (attuned : m.Attuned view w) {i : Instruction}
    (current : m.script.code[m.pc]? = some i) (running : m.state = .running)
    (free : stopReason? h w = none) (done : (m.step h child i w).breakdown = none) :
    (m.step h child i w).machine.Attuned view (m.step h child i w).world := by
  -- Only an inclusion can leave the device; the others keep it, or switch the machine along.
  by_cases inclusion : i.op = .inclusion
  · obtain ⟨after, there⟩ :=
      inclusion_returns simulates below attuned current running free inclusion done
    rw [after]
    exact attuned_same there rfl rfl
  · rcases step_executes h m i w with ⟨text, -, step⟩ | ⟨told, kept, step⟩
    · rw [step child] at done
      cases done
    · have still : m.Attuned view told :=
        kept (m.Attuned view) (fun entry v there => attuned_same there rfl (simulates.log entry v))
          (fun boundary v there => attuned_same there rfl (simulates.observe boundary v)) attuned
      rw [step child] at done ⊢
      by_cases control : i.op.isControl = true
      · refine attuned_same still (m.control_device h child control _ told) ?_
        rw [(m.control_stays h child control _ told).2]
      · unfold execute at done ⊢
        cases op : i.op with
        | device =>
            simp only [op] at done ⊢
            exact switch_device_attuned simulates still _ done
        | command =>
            simp only [op] at done ⊢
            exact command_attuned simulates still _ done
        | inclusion => exact absurd op inclusion
        | call name =>
            simp only [op] at done ⊢
            exact call_attuned simulates built own still i _ done
        | _ => simp [op, Opcode.isControl] at control

/-- A run that comes to its end leaves the session on the device it has come to. -/
theorem run_attuned (fuel : Nat) {m : Machine} {w : ω} (attuned : m.Attuned view w)
    (done : (m.run h fuel w).breakdown = none) :
    (m.run h fuel w).machine.Attuned view (m.run h fuel w).world := by
  -- Included scripts run on less fuel, so one induction serves the run and those below it.
  induction fuel generalizing m w with
  | zero => cases done
  | succ fuel ih =>
      by_cases running : m.state = .running
      · cases next : m.next? h (run h fuel) w with
        | some further =>
            obtain ⟨m', w'⟩ := further
            rw [run_next next] at done ⊢
            obtain ⟨i, current, -, free, step, -⟩ := (next_iff ..).mp next
            have after := step_attuned simulates built own (fun c u => ih) attuned current running
              free (by rw [step]; rfl)
            rw [step] at after
            exact ih after done
        | none =>
            have ends := run_stays running next
            generalize m.run h (fuel + 1) w = p at ends done ⊢
            cases ends with
            | past last => exact attuned_same attuned rfl (simulates.log _ w)
            | stopped | broken | aborted => cases done
      · unfold run at done ⊢
        simp only [ne_eq, running, not_false_eq_true, ↓reduceIte]
        exact attuned_same attuned rfl (simulates.log _ w)

theorem visits_attuned {fuel left : Nat} {m n : Machine} {w v : ω}
    (visits : Visits h fuel m w left n v) (attuned : m.Attuned view w) : n.Attuned view v := by
  induction visits with
  | here => exact attuned
  | @onward fuel left m m' n w w' v next _ ih =>
      obtain ⟨i, current, running, free, step, -⟩ := (next_iff ..).mp next
      have after := step_attuned simulates built own
        (fun c u => run_attuned simulates built own fuel) attuned current running free
        (by rw [step]; rfl)
      rw [step] at after
      exact ih after

theorem inside_attuned {fuel left : Nat} {m n : Machine} {w v : ω}
    (inside : Inside h fuel m w left n v) (attuned : m.Attuned view w) : n.Attuned view v := by
  induction inside with
  | own visits => exact visits_attuned simulates built own visits attuned
  | within visits enters _ ih =>
      exact ih (enters_attuned simulates (visits_attuned simulates built own visits attuned) enters)

end Attuned
end Machine

/-- At every boundary of a run and of the scripts it includes, at any depth, the session is on the
device of the machine that is about to step; and an inclusion that comes to its end changes nothing
of the including machine but its position, and leaves the session on the device of that machine. -/
theorem inclusion_frames_machine {h : Host ω} {view : ω → Option Simulated}
    (simulates : h.Simulates view) {schema : Schema} {aliases : Aliases} {registry : Registry ω}
    (built : Registry.withAliases schema aliases = .ok registry) (own : h.registry = some registry)
    {w : ω} {s : Simulated} (shown : view w = some s) (script : Script) (vars : Vars)
    (missing : MissingPolicy) (runId : Text) {fuel left : Nat} {n : Machine} {v : ω}
    (inside : Machine.Inside h fuel (.start script vars missing runId) w left n v) :
    (n.device ≠ [] → ∃ now, view v = some now ∧ now.current = n.device) ∧
    ∀ (less : Nat) (i : Instruction), left = less + 1 → n.script.code[n.pc]? = some i →
      n.state = .running → Machine.stopReason? h v = none → i.op = .inclusion →
      let p := n.step h (Machine.run h less) i v
      p.breakdown = none →
        p.machine = { n with pc := n.pc + 1 } ∧
        (n.device ≠ [] → ∃ now, view p.world = some now ∧ now.current = n.device) := by
  have attuned : n.Attuned view v := by
    refine Machine.inside_attuned simulates built own inside ⟨s.current, ⟨s, shown, rfl⟩, ?_⟩
    exact fun named => absurd rfl named
  have on {u : ω} (there : n.Attuned view u) (named : n.device ≠ []) :
      ∃ now, view u = some now ∧ now.current = n.device := by
    obtain ⟨device, stands, same⟩ := there
    rwa [same named] at stands
  refine ⟨on attuned, ?_⟩
  intro less i _ current running free op p done
  obtain ⟨after, there⟩ := Machine.inclusion_returns simulates
    (fun c u => Machine.run_attuned simulates built own less) attuned current running free op done
  exact ⟨after, on there⟩

def Bench.simulated? (w : Bench) : Option Simulated :=
  match w.link with
  | .simulated s => some s
  | .webSocket _ => none

theorem bench_link {w : Bench} {s : Simulated} (shown : w.simulated? = some s) :
    w.link = .simulated s := by
  unfold Bench.simulated? at shown
  split at shown
  · next link =>
      cases shown
      exact link
  · cases shown

/-- Scripts that a command runs without a network have such a session. -/
theorem bench_simulates (p : BenchPlan) (path runId : Text) :
    (p.host path runId).Simulates Bench.simulated? where
  session := by
    refine ⟨_, rfl, ?_⟩
    intro w s shown
    have link := bench_link shown
    refine ⟨?_, ?_, ?_⟩
    · intro name
      simp [Bench.switchDevice, link, Reply.Shows, Bench.simulated?]
    · intro command
      simp [BenchPlan.host, Bench.send, link, Reply.Shows, Bench.simulated?]
    · intro pattern nanos clear
      simp [BenchPlan.host, Bench.await, link, Reply.Shows, Bench.simulated?]
  log _ _ := rfl
  observe boundary w := by
    simp only [BenchPlan.host]
    split <;> rfl
  pause _ _ := rfl
  record record given result w := by
    cases given
    unfold Bench.record
    simp only
    split <;> rfl
  load load given path w := by
    cases given
    rfl

def standardRegistry : Registry Bench :=
  (Registry.ofDescriptors Schema.empty standardOperations).toOption.getD .empty

theorem standard_registry_built :
    Registry.withAliases Schema.empty ⟨[]⟩ = .ok standardRegistry := by
  unfold Registry.withAliases Aliases.operations
  rw [List.mergeSort_nil]
  rfl

/-- A bench whose files hold a script that goes to another device and on to a third script. -/
def sectionsPlan : BenchPlan where
  surroundings :=
    { files := ⟨[], [(["edge"], "[edge]\ninclude far\nping"), (["far"], "[far]\nshow")], [[]]⟩
      network := []
      buildDate := []
      runId := ofNat
      patience := 100 }
  setup := ⟨standardRegistry, bareSettings⟩
  urls := []
  simulate := true
  trace := false
  verbose := false
  missing := .ignore
  vars := .empty

def sectionsScript : Script :=
  ⟨"/main", [⟨1, .device, [.text "core"]⟩, ⟨2, .inclusion, [.text "/edge"]⟩], [], []⟩

theorem sections_script_framed :
    let h := sectionsPlan.host "main" "run"
    ∃ n v, Machine.Inside h 9 (.start sectionsScript .empty .ignore "run") (.new none) 8 n v ∧
      n.device = "core" ∧
      let p := n.step h (Machine.run h 7) ⟨2, .inclusion, [.text "/edge"]⟩ v
      p.breakdown = none ∧ p.machine = { n with pc := 2 } ∧
        ∃ now, p.world.simulated? = some now ∧ now.current = "core" ∧
          now.transcript = [⟨"far", "show", []⟩, ⟨"edge", "ping", []⟩] := by
  intro h
  have inside := Machine.Inside.own
    (.onward (h := h) (m := .start sectionsScript .empty .ignore "run") (w := .new none) rfl
      (.here 8 ..))
  refine ⟨_, _, inside, rfl, ?_⟩
  intro p
  have done : p.breakdown = none := by decide +kernel
  obtain ⟨-, framed⟩ := inclusion_frames_machine (bench_simulates sectionsPlan "main" "run")
    standard_registry_built rfl rfl sectionsScript .empty .ignore "run" inside
  obtain ⟨after, on⟩ := framed 7 _ rfl rfl rfl rfl rfl done
  obtain ⟨now, shown, current⟩ := on (by decide)
  have sent : p.world.simulated?.map Simulated.transcript =
      some [⟨"far", "show", []⟩, ⟨"edge", "ping", []⟩] := by decide +kernel
  rw [shown] at sent
  exact ⟨done, after, now, shown, current, Option.some.inj sent⟩

end DeviceScript

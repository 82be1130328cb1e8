import DeviceScript.Proofs.Run.Stacks
import DeviceScript.Proofs.Run.View

/-!
Stopping a run. Whoever asks for it, and however deep the inclusions are, no instruction is told
after that; the run ends as it would have ended where nothing was left to do, and is aborted where
something was.
-/

namespace DeviceScript

open Machine

variable {ω : Type}

namespace Host

def stopped (h : Host ω) (w : ω) : Bool := (stopReason? h w).isSome

theorem stopped_iff {h : Host ω} {w : ω} : h.stopped w = false ↔ stopReason? h w = none := by
  simp [stopped]

end Host

namespace Machine

section Unstopped

variable {h : Host ω} {P Q : ω → Prop} (keeps : h.unobserved.Keeps P)
variable (begins : ∀ w, P w → h.stopped w = false → Q w)
variable (warns : ∀ entry w, entry.level = .warn → Q w → Q (h.log entry w))
variable (observes : ∀ boundary w, P w → Q w → P (h.observe boundary w))

include keeps begins warns observes

/-- Between the test for a stop and the observer there are only warnings. -/
theorem step_keeps_unstopped {child : Machine → ω → Progress ω}
    (below : ∀ n v, P v → P (child n v).world) (m : Machine) (i : Instruction) {w : ω}
    (holds : P w) (free : h.stopped w = false) : P (m.step h child i w).world := by
  have warned (entries : List LogEntry) (each : ∀ entry ∈ entries, entry.level = .warn) {v : ω}
      (holds : P v) (free : Q v) :
      P (entries.foldl (fun w entry => h.log entry w) v) ∧
        Q (entries.foldl (fun w entry => h.log entry w) v) := by
    induction entries generalizing v with
    | nil => exact ⟨holds, free⟩
    | cons entry rest ih =>
        exact ih (fun e member => each e (List.mem_cons_of_mem entry member))
          (keeps.log entry v holds) (warns entry v (each entry List.mem_cons_self) free)
  -- What an instruction does is the same without the observer, who is told before.
  have executed (params : List Value) {v : ω} (told : P v) :
      P (m.execute h child i params v).world :=
    execute_keeps keeps m told below i params
  unfold step
  simp only
  split
  · exact holds
  · have each : ∀ entry ∈ m.warnings i, entry.level = .warn := by
      intro entry member
      obtain ⟨name, -, rfl⟩ := List.mem_map.mp member
      rfl
    obtain ⟨kept, unstopped⟩ := warned (m.warnings i) each holds (begins w holds free)
    exact executed _ (observes _ _ kept unstopped)
  · exact executed _ (observes _ _ holds (begins w holds free))

/-- What all services keep, the observer while no stop is asked for, is kept by a whole run. -/
theorem run_keeps_unstopped (fuel : Nat) (m : Machine) {w : ω} (holds : P w) :
    P (m.run h fuel w).world := by
  induction fuel generalizing m w with
  | zero => exact holds
  | succ fuel ih =>
      by_cases running : m.state = .running
      · cases current : m.script.code[m.pc]? with
        | none =>
            simp only [run, running, ne_eq, not_true_eq_false, ↓reduceIte, current]
            exact keeps.log _ _ holds
        | some i =>
            cases free : stopReason? h w with
            | some reason =>
                simp only [run, running, ne_eq, not_true_eq_false, ↓reduceIte, current, free]
                exact holds
            | none =>
                have after := step_keeps_unstopped keeps begins warns observes (fun n v => ih n) m i
                  holds (Host.stopped_iff.mpr free)
                rw [run_settled current running free]
                unfold settled
                split
                · exact after
                · exact after
                · split
                  · exact ih _ after
                  · exact after
      · simp only [run, ne_eq, running, not_false_eq_true, ↓reduceIte]
        exact keeps.log _ _ holds

end Unstopped

end Machine

/-- Something that was done to the world: the instruction that it was told of, if it was that,
whether it was a warning about an instruction, and whether a stop is asked for since. -/
structure Event where
  told : Option Boundary
  warning : Bool
  stopped : Bool

/-- A stop is asked for, and not only while an instruction is warned about, which is under way
then. -/
def Event.halts (e : Event) : Bool := e.stopped && !e.warning

namespace Host

def noted (h : Host ω) (told : Option Boundary) (warning : Bool) (w : ω) (events : List Event) :
    ω × List Event :=
  (w, events ++ [⟨told, warning, h.stopped w⟩])

/-- The host with a journal of everything that is done to its world. -/
def watched (h : Host ω) : Host (ω × List Event) where
  canceled w := h.canceled w.1
  pause nanos w := h.noted none false (h.pause nanos w.1) w.2
  log entry w := h.noted none (entry.level == .warn) (h.log entry w.1) w.2
  session := h.session.map fun session =>
    { switchDevice := fun name w =>
        let reply := session.switchDevice name w.1
        (reply.1, h.noted none false reply.2 w.2)
      send := fun command w =>
        let reply := session.send command w.1
        (reply.1, h.noted none false reply.2 w.2)
      await := fun pattern nanos clear w =>
        let reply := session.await pattern nanos clear w.1
        (reply.1, h.noted none false reply.2 w.2) }
  record := h.record.map fun record result w =>
    let reply := record result w.1
    (reply.1, h.noted none false reply.2 w.2)
  stopRequested w := h.stopRequested w.1
  observe boundary w := h.noted (some boundary) false (h.observe boundary w.1) w.2
  registry := h.registry.map fun registry =>
    ⟨registry.operations.map fun operation =>
      { name := operation.name
        spec := operation.spec
        handler := fun _ site bound vars w =>
          let r := operation.handler h.toServices site bound vars w.1
          ⟨r.value, r.fault, r.vars, r.abort, h.noted none false r.world w.2⟩ }⟩
  load := h.load.map fun load path w =>
    let found := load path w.1
    (found.1, h.noted none false found.2 w.2)

theorem watched_mirrors (h : Host ω) : h.watched.Mirrors h Prod.fst where
  log _ _ := rfl
  observe _ _ := rfl
  stopRequested _ := rfl
  canceled _ := rfl
  session := by
    unfold watched
    cases h.session with
    | none => exact .none
    | some session => exact .some ⟨fun _ _ => rfl, fun _ _ => rfl⟩
  registry name := by
    unfold watched
    cases h.registry with
    | none => exact .none
    | some registry =>
        simp only [Option.map_some, Option.bind_some, Registry.lookup?, List.find?_map]
        show Option.Rel _ (Option.map _ (registry.operations.find? fun op => op.name == name)) _
        cases registry.operations.find? fun op => op.name == name with
        | none => exact .none
        | some operation => exact .some ⟨rfl, fun _ _ _ _ => rfl⟩
  load := by
    unfold watched
    cases h.load with
    | none => exact .none
    | some load => exact .some fun _ _ => rfl

def Unhalted (w : ω × List Event) : Prop := ∀ event ∈ w.2, event.halts = false

/-- No instruction is told after a stop was asked for; and what asked for it still stands. -/
structure Orderly (h : Host ω) (w : ω × List Event) : Prop where
  order : w.2.Pairwise fun earlier later => earlier.halts = true → later.told = none
  lasts : ∀ event ∈ w.2, event.halts = true → h.stopped w.1 = true

theorem orderly_unhalted {h : Host ω} {w : ω × List Event} (orderly : h.Orderly w)
    (free : h.stopped w.1 = false) : Unhalted w := by
  intro event member
  by_contra asked
  rw [orderly.lasts event member (by simpa using asked)] at free
  cases free

theorem noted_orderly {h : Host ω} {w : ω × List Event} (orderly : h.Orderly w)
    {told : Option Boundary} {v : ω} (lasting : h.stopped w.1 = true → h.stopped v = true)
    (allowed : told = none ∨ Unhalted w) (warning : Bool) :
    h.Orderly (h.noted told warning v w.2) := by
  constructor
  · refine List.pairwise_append.mpr ⟨orderly.order, List.pairwise_singleton _ _, ?_⟩
    intro earlier member later last asked
    rw [List.mem_singleton.mp last]
    rcases allowed with untold | unhalted
    · exact untold
    · rw [unhalted earlier member] at asked
      cases asked
  · intro event member asked
    rcases List.mem_append.mp member with before | last
    · exact lasting (orderly.lasts event before asked)
    · rw [List.mem_singleton.mp last] at asked
      exact (Bool.and_eq_true_iff.mp asked).1

section Watched

variable {h : Host ω} (lasting : h.Keeps fun w => h.stopped w = true)

include lasting

theorem watched_keeps_orderly : h.watched.unobserved.Keeps h.Orderly where
  log entry w orderly := noted_orderly orderly (lasting.log entry w.1) (.inl rfl) _
  observe _ _ orderly := orderly
  switches session given name w orderly := by
    obtain ⟨own, mine, rfl⟩ := Option.map_eq_some_iff.mp given
    exact noted_orderly orderly (lasting.switches own mine name w.1) (.inl rfl) _
  sends session given command w orderly := by
    obtain ⟨own, mine, rfl⟩ := Option.map_eq_some_iff.mp given
    exact noted_orderly orderly (lasting.sends own mine command w.1) (.inl rfl) _
  handles registry given operation member site bound vars w orderly := by
    obtain ⟨own, mine, rfl⟩ := Option.map_eq_some_iff.mp given
    obtain ⟨original, among, rfl⟩ := List.mem_map.mp member
    exact noted_orderly orderly (lasting.handles own mine original among site bound vars w.1)
      (.inl rfl) _
  loads load given path w orderly := by
    obtain ⟨own, mine, rfl⟩ := Option.map_eq_some_iff.mp given
    exact noted_orderly orderly (lasting.loads own mine path w.1) (.inl rfl) _

theorem watched_run_orderly (fuel : Nat) (m : Machine) {w : ω × List Event}
    (orderly : h.Orderly w) : h.Orderly (m.run h.watched fuel w).world := by
  refine run_keeps_unstopped (Q := Unhalted) (watched_keeps_orderly lasting) ?_ ?_ ?_ fuel m orderly
  · intro v held free
    exact orderly_unhalted held free
  · intro entry v warns unhalted event member
    rcases List.mem_append.mp member with before | last
    · exact unhalted event before
    · rw [List.mem_singleton.mp last]
      simp [Event.halts, warns]
  · intro boundary v held unhalted
    exact noted_orderly held (lasting.observe boundary v.1) (.inr unhalted) false

end Watched
end Host

namespace Machine

def Done (m : Machine) : Prop := m.script.code[m.pc]? = none

section Stopped

variable {h : Host ω} {fuel left : Nat} {m n : Machine} {w v : ω} {stack : List Machine}

theorem resume_cases (h : Host ω) (m included : Machine) (w : ω) :
    (∃ v, m.resume h included w = .ok m.advance v) ∨
      ∃ f, (m.resume h included w).breakdown = some (.fault f) := by
  unfold resume
  split
  · split
    · exact .inl ⟨w, rfl⟩
    · split
      · next fault v _ => exact .inr (session_fault_fails m _ fault v)
      · next v _ => exact .inl ⟨v, rfl⟩
  · exact .inl ⟨w, rfl⟩

variable (lasting : h.Keeps fun w => h.stopped w = true)

include lasting

/-- A machine that is asked to stop before an instruction is aborted there. -/
theorem run_stopped (left : Nat) (running : n.state = .running) (asked : h.stopped v = true) :
    (n.run h (left + 1) v).breakdown = none ∧ h.stopped (n.run h (left + 1) v).world = true ∧
        n.Done ∨
      ∃ f, (n.run h (left + 1) v).breakdown = some (.fault f) := by
  cases current : n.script.code[n.pc]? with
  | none =>
      refine .inl ⟨?_, run_keeps_world lasting n asked (left + 1), current⟩
      simp [run, running, current, finish, Progress.ok]
  | some i =>
      obtain ⟨reason, stops⟩ := Option.isSome_iff_exists.mp asked
      refine .inr ⟨n.report .abort reason, ?_⟩
      simp [run, running, current, stops, Progress.failed]

/-- What comes of a stop at a boundary: an end where nothing is left, or a fault. -/
theorem stacked_stopped (stacked : Stacked h fuel m w stack (left + 1) n v)
    (running : m.state = .running) (asked : h.stopped v = true) :
    (m.run h fuel w).breakdown = none ∧ h.stopped (m.run h fuel w).world = true ∧
        n.Done ∧ (∀ a ∈ stack, a.advance.Done) ∨
      ∃ f, (m.run h fuel w).breakdown = some (.fault f) := by
  generalize most : left + 1 = more at stacked
  induction stacked with
  | own visits =>
      subst most
      rw [run_visits visits]
      -- Nobody waits: either nothing is left to do, or the run is aborted here.
      rcases run_stopped lasting left (visits_running visits running) asked with
        ⟨ended, still, last⟩ | broke
      · exact .inl ⟨ended, still, last, by simp⟩
      · exact .inr broke
  | @within fuel after less m n c o w v u x stack visits enters rest ih =>
      obtain ⟨i, current, -, entered⟩ := entered_run after enters
      rw [run_visits visits, entered]
      rcases ih (enters_running enters) asked most with ⟨ended, still, last, waiting⟩ | ⟨f, broke⟩
      · have concluded : n.concluded h i.line (c.run h after u) =
            n.resume h (c.run h after u).machine (c.run h after u).world := by
          unfold Machine.concluded
          rw [ended]
        rcases resume_cases h n (c.run h after u).machine (c.run h after u).world with
          ⟨v', resumed⟩ | ⟨f, refused⟩
        · -- The stop still stands when the waiting machine goes on.
          have later := resume_keeps lasting n still (c.run h after u).machine
          rw [resumed] at later
          obtain ⟨further, rfl⟩ : ∃ further, after = further + 1 :=
            Nat.exists_eq_add_one.mpr (by have := stacked_fuel rest; omega)
          rw [concluded, resumed]
          by_cases quiet : n.advance.abortReason = []
          · have ready : n.advance.state = .running := (visits_running visits running : n.state = _)
            rw [settled_ok quiet]
            rcases run_stopped lasting further ready later with ⟨done, stands, past⟩ | broke
            · exact .inl ⟨done, stands, last, List.forall_mem_cons.mpr ⟨past, waiting⟩⟩
            · exact .inr broke
          · exact .inr ⟨_, by rw [settled_aborts quiet]; rfl⟩
        · exact .inr ⟨f, by rw [concluded, settled_fault refused]; rfl⟩
      · obtain ⟨g, told⟩ := (concluded_fault h n i.line broke).1
        exact .inr ⟨g, by rw [settled_fault told]; rfl⟩

/-- What comes of a stop while an instruction is executed. -/
theorem stacked_stopped_in_flight (stacked : Stacked h fuel m w stack (left + 2) n v)
    (running : m.state = .running) {i : Instruction} (current : n.script.code[n.pc]? = some i)
    (free : h.stopped v = false)
    (asked : h.stopped (n.step h (run h (left + 1)) i v).world = true)
    (returned : (n.step h (run h (left + 1)) i v).breakdown = none ∨
      ∃ f, (n.step h (run h (left + 1)) i v).breakdown = some (.fault f)) :
    (m.run h fuel w).breakdown = none ∧ (n.step h (run h (left + 1)) i v).breakdown = none ∧
        (n.step h (run h (left + 1)) i v).machine.Done ∧ (∀ a ∈ stack, a.advance.Done) ∨
      ∃ f, (m.run h fuel w).breakdown = some (.fault f) := by
  have here := stacked_running stacked running
  have settles : n.run h (left + 2) v =
      n.settled h (left + 1) i (n.step h (run h (left + 1)) i v) :=
    run_settled current here (Host.stopped_iff.mp free)
  generalize step : n.step h (run h (left + 1)) i v = q at asked returned settles ⊢
  rcases returned with success | ⟨f, broke⟩
  · have same : q = .ok q.machine q.world := by rw [Progress.ok, ← success]
    by_cases quiet : q.machine.abortReason = []
    · have next : n.next? h (run h (left + 1)) v = some (q.machine, q.world) :=
        (next_iff ..).mpr
          ⟨i, current, here, Host.stopped_iff.mp free, step.trans same, quiet⟩
      rcases stacked_stopped lasting (stacked_onward stacked next) running asked with
        ⟨ended, -, last, waiting⟩ | broke
      · exact .inl ⟨ended, success, last, waiting⟩
      · exact .inr broke
    · have aborts : (n.run h (left + 2) v).breakdown = some (.fault (.located
          (Report.atInstruction .abort q.machine.abortReason n.script.path i.line n.pc) none)) := by
        rw [settles, same, settled_aborts quiet]
        rfl
      exact .inr (stacked_fault stacked aborts).1
  · have breaks : (n.run h (left + 2) v).breakdown = some (.fault f) := by
      rw [settles, settled_fault broke]
      rfl
    exact .inr (stacked_fault stacked breaks).1

end Stopped

end Machine

/-- A run of a script with its inclusions, under a host where a stop, once asked for, stands. After
it has been asked for, by whatever service and at whatever depth, no instruction is told any more,
but for one that is being warned about already. The run then comes to its end only if the
instruction in flight succeeds and no machine has an instruction left; otherwise it fails, and its
machine is aborted. -/
theorem nothing_told_after_stop {h : Host ω} (lasting : h.Keeps fun w => h.stopped w = true)
    (script : Script) (vars : Vars) (missing : MissingPolicy) (runId : Text) (fuel : Nat) (w : ω) :
    let m := Machine.start script vars missing runId
    let watched := m.run h.watched fuel (h.noted none false w [])
    let done := m.run h fuel w
    watched.seen Prod.fst = done ∧
    watched.world.2.Pairwise (fun earlier later => earlier.halts = true → later.told = none) ∧
    (∀ f, done.breakdown = some (.fault f) → done.machine.state = .aborted) ∧
    (∀ stack left n v, Stacked h fuel m w stack (left + 1) n v → h.stopped v = true →
      done.breakdown = none ∧ n.Done ∧ (∀ a ∈ stack, a.advance.Done) ∨
        ∃ f, done.breakdown = some (.fault f)) ∧
    ∀ stack left n v i, Stacked h fuel m w stack (left + 2) n v →
      n.script.code[n.pc]? = some i → h.stopped v = false →
      let q := n.step h (run h (left + 1)) i v
      h.stopped q.world = true → (q.breakdown = none ∨ ∃ f, q.breakdown = some (.fault f)) →
      done.breakdown = none ∧ q.breakdown = none ∧ q.machine.Done ∧ (∀ a ∈ stack, a.advance.Done) ∨
        ∃ f, done.breakdown = some (.fault f) := by
  intro m watched done
  refine ⟨run_seen h.watched_mirrors fuel m _, ?_, ?_, ?_, ?_⟩
  · have new : h.Orderly (w, []) := ⟨.nil, nofun⟩
    have orderly : h.Orderly (h.noted none false w []) :=
      Host.noted_orderly new (fun asked => asked) (.inl rfl) false
    exact (Host.watched_run_orderly lasting fuel m orderly).order
  · intro f broke
    exact run_fault_aborted fuel broke
  · intro stack left n v stacked asked
    rcases stacked_stopped lasting stacked rfl asked with ⟨ended, -, last, waiting⟩ | broke
    · exact .inl ⟨ended, last, waiting⟩
    · exact .inr broke
  · intro stack left n v i stacked current free q asked returned
    exact stacked_stopped_in_flight lasting stacked rfl current free asked returned

def stoppedPart : Script :=
  ⟨"part", [⟨1, .device, [.text "B"]⟩, ⟨2, .device, [.text "C"]⟩], [], []⟩

def stoppedMain : Script :=
  ⟨"main", [⟨1, .device, [.text "A"]⟩, ⟨2, .inclusion, [.text "part"]⟩, ⟨3, .device, [.text "D"]⟩],
    [], [⟨"part", "part", "A", 2⟩]⟩

/-- A host whose observer counts instructions and asks for a stop at the third. -/
def Host.countsToThree : Host Nat where
  canceled _ := false
  pause _ w := w
  log _ w := w
  session := none
  record := none
  stopRequested w := decide (3 ≤ w)
  observe _ w := w + 1
  registry := none
  load := some fun _ w => (.ok stoppedPart, w)

theorem counts_to_three_stopped (w : Nat) : Host.countsToThree.stopped w = decide (3 ≤ w) := by
  by_cases enough : 3 ≤ w <;> simp [Host.stopped, stopReason?, Host.countsToThree, enough]

theorem counts_to_three_lasting :
    Host.countsToThree.Keeps fun w => Host.countsToThree.stopped w = true where
  log _ _ held := held
  observe _ w held := by
    rw [counts_to_three_stopped, decide_eq_true_eq] at held ⊢
    exact Nat.le_succ_of_le held
  switches := nofun
  sends := nofun
  handles := nofun
  loads load given path w held := by
    cases given
    exact held

/-- The stop is asked for at the first instruction of the included script, so neither its second nor
the last of the including script is told. -/
theorem stopped_part_aborts_main :
    let m := Machine.start stoppedMain .empty .ignore "run"
    let watched := m.run Host.countsToThree.watched 9 (Host.countsToThree.noted none false 0 [])
    (watched.world.2.filterMap Event.told).map (fun b => (b.depth, b.pc)) =
        [(0, 0), (0, 1), (1, 0)] ∧
      (∃ f, (m.run Host.countsToThree 9 0).breakdown = some (.fault f)) ∧
      (m.run Host.countsToThree 9 0).machine.state = .aborted := by
  intro m watched
  obtain ⟨-, -, aborts, -, inFlight⟩ := nothing_told_after_stop counts_to_three_lasting
    stoppedMain .empty .ignore "run" 9 0
  have first : m.next? Host.countsToThree (run Host.countsToThree 8) 0 =
      some ({ m with pc := 1, device := "A" }, 1) :=
    (next_iff ..).mpr ⟨_, rfl, rfl, rfl, rfl, rfl⟩
  have enters : Enters Host.countsToThree { m with pc := 1, device := "A" } 1
      (Machine.child { m with pc := 1, device := "A" } stoppedPart) 2 :=
    ⟨"part", 2, _, stoppedPart, 2, ⟨_, _, _, rfl, rfl, rfl, rfl, rfl, rfl, by decide, rfl⟩,
      rfl, rfl, rfl, rfl⟩
  have stacked := Stacked.within (.onward first (.here 8 _ 1)) enters (.own (.here 7 _ 2))
  have broke : ∃ f, (m.run Host.countsToThree 9 0).breakdown = some (.fault f) := by
    rcases inFlight _ 5 _ _ _ stacked rfl rfl rfl (.inl rfl) with ⟨-, -, last, -⟩ | broke
    · cases last
    · exact broke
  obtain ⟨f, fault⟩ := broke
  exact ⟨by decide +kernel, ⟨f, fault⟩, aborts f fault⟩

end DeviceScript

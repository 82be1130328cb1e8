import DeviceScript.Proofs.Operation.Registered
import DeviceScript.Proofs.Run.View

/-!
Operations seen through a view of the world. An operation touches the world through its services
only, so if these act on what the view shows as other services do, the operation does so too.
-/

namespace DeviceScript

variable {ω σ : Type}

def Reply.seen {α : Type} (view : ω → σ) (reply : Reply ω α) : Reply σ α := (reply.1, view reply.2)

/-- What services do to a world shows as what other services do to what is seen of it. Operations
do not switch devices. -/
structure Services.Mirrors (s : Services ω) (core : Services σ) (view : ω → σ) : Prop where
  canceled : ∀ w, core.canceled (view w) = s.canceled w
  pause : ∀ nanos w, core.pause nanos (view w) = view (s.pause nanos w)
  log : ∀ entry w, core.log entry (view w) = view (s.log entry w)
  session : Option.Rel (fun (a : Session ω) (b : Session σ) =>
      (∀ command w, b.send command (view w) = (a.send command w).seen view) ∧
      ∀ pattern nanos clear w,
        b.await pattern nanos clear (view w) = (a.await pattern nanos clear w).seen view)
    s.session core.session
  record : Option.Rel (fun (a : Result → ω → Reply ω Unit) (b : Result → σ → Reply σ Unit) =>
      ∀ result w, b result (view w) = (a result w).seen view)
    s.record core.record

namespace Services.Mirrors

variable {s : Services ω} {core : Services σ} {view : ω → σ} (mirrors : s.Mirrors core view)
variable (site : CallSite) (bound : Bound) (vars : Vars) (w : ω)

include mirrors

theorem report (outcome : Outcome) (detail : Text) :
    core.report site outcome detail (view w) = (s.report site outcome detail w).seen view := by
  unfold Services.report
  have related := mirrors.record
  generalize s.record = mine at related ⊢
  generalize core.record = other at related ⊢
  cases related with
  | none => rfl
  | some same => exact same _ w

theorem send_text (command : Text) :
    core.sendText site command vars (view w) = (s.sendText site command vars w).seen view := by
  unfold Services.sendText
  have related := mirrors.session
  generalize s.session = mine at related ⊢
  generalize core.session = other at related ⊢
  cases related with
  | none => rfl
  | @some a b same =>
      simp only [same.1]
      rcases a.send command w with ⟨f | output, w'⟩
      · rfl
      · rfl

theorem comment : Standard.comment core site bound vars (view w) =
    (Standard.comment s site bound vars w).seen view := by
  unfold Standard.comment
  simp only [mirrors.log, mirrors.report]
  rfl

omit mirrors in
theorem count (sign : Int) : Standard.count sign core site bound vars (view w) =
    (Standard.count sign s site bound vars w).seen view := by
  unfold Standard.count
  simp only
  cases Standard.counter vars (bound.text "name") with
  | error reason => rfl
  | ok n => rfl

theorem sleep : Standard.sleep core site bound vars (view w) =
    (Standard.sleep s site bound vars w).seen view := by
  unfold Standard.sleep
  simp only [mirrors.canceled, mirrors.pause]
  by_cases short : Standard.secondsToNanos (bound.int "seconds") ≤ 0
  · simp only [short, ↓reduceIte]
    rfl
  · by_cases canceled : s.canceled w = true
    · simp only [short, canceled, ↓reduceIte]
      rfl
    · simp only [short, canceled, ↓reduceIte]
      rfl

theorem expect : Standard.expect core site bound vars (view w) =
    (Standard.expect s site bound vars w).seen view := by
  unfold Standard.expect
  have related := mirrors.session
  generalize s.session = mine at related ⊢
  generalize core.session = other at related ⊢
  cases related with
  | none => rfl
  | @some a b same =>
      simp only [same.2]
      rcases a.await (bound.text "pattern") (Standard.secondsToNanos (bound.int "timeout"))
        (bound.flag "clear") w with ⟨f | matched, w'⟩
      · rfl
      · simp only [Reply.seen, mirrors.log, mirrors.report]
        rfl

omit mirrors in
theorem capture : Standard.capture core site bound vars (view w) =
    (Standard.capture s site bound vars w).seen view := by
  unfold Standard.capture
  cases Pattern.compile (bound.text "pattern") with
  | error refusal => rfl
  | ok searcher => rfl

theorem fail : Standard.fail core site bound vars (view w) =
    (Standard.fail s site bound vars w).seen view := by
  unfold Standard.fail
  simp only [mirrors.report]
  rcases s.report site .fail (bound.text "message") w with ⟨f | _, w'⟩
  · rfl
  · rfl

end Services.Mirrors

theorem Services.Mirrors.registered {s core : Services ω} {view : ω → ω}
    (mirrors : s.Mirrors core view) {schema : Schema} {aliases : Aliases} {registry : Registry ω}
    (built : Registry.withAliases schema aliases = .ok registry) {op : Operation ω}
    (member : op ∈ registry.operations) (site : CallSite) (bound : Bound) (vars : Vars) (w : ω) :
    op.handler core site bound vars (view w) = (op.handler s site bound vars w).seen view := by
  rcases Registry.with_aliases_handler built member with ⟨d, among, -, given⟩ | ⟨command, same⟩
  · generalize op.handler = handler at given ⊢
    simp only [standardOperations, List.map_cons, List.map_nil, List.mem_cons, List.not_mem_nil,
      or_false] at among
    rcases among with rfl | rfl | rfl | rfl | rfl | rfl | rfl | rfl | rfl | rfl | rfl
    · cases given
      exact mirrors.comment site bound vars w
    · cases given
      rfl
    · cases given
      rfl
    · cases given
      exact count site bound vars w 1
    · cases given
      exact count site bound vars w (-1)
    · cases given
      exact mirrors.sleep site bound vars w
    · cases given
      exact mirrors.send_text site vars w _
    · cases given
      exact mirrors.expect site bound vars w
    · cases given
      exact capture site bound vars w
    · cases given
      exact mirrors.fail site bound vars w
    · cases given
      rfl
  · rw [same]
    exact mirrors.send_text site vars w _

/-- Hosts with the same operations show alike if their services do, and what else they do. -/
theorem Services.Mirrors.host {h core : Host ω} {view : ω → ω}
    (mirrors : h.toServices.Mirrors core.toServices view) {schema : Schema} {aliases : Aliases}
    {registry : Registry ω} (built : Registry.withAliases schema aliases = .ok registry)
    (mine : h.registry = some registry) (other : core.registry = some registry)
    (observe : ∀ boundary w, view (h.observe boundary w) = core.observe boundary (view w))
    (stop : ∀ w, core.stopRequested (view w) = h.stopRequested w)
    (switches : ∀ a b, h.session = some a → core.session = some b → ∀ name w,
      b.switchDevice name (view w) = (a.switchDevice name w).seen view)
    (load : Option.Rel (fun (a b : Text → ω → Except Breakdown Script × ω) =>
      ∀ path w, b path (view w) = ((a path w).1, view (a path w).2)) h.load core.load) :
    h.Mirrors core view where
  log entry w := (mirrors.log entry w).symm
  observe := observe
  stopRequested := stop
  canceled := mirrors.canceled
  session := by
    have related := mirrors.session
    generalize found : h.session = a at related
    generalize found' : core.session = b at related
    cases related with
    | none => exact .none
    | some same => exact .some ⟨switches _ _ found found', same.1⟩
  registry name := by
    rw [mine, other]
    show Option.Rel _ (registry.lookup? name) (registry.lookup? name)
    cases found : registry.lookup? name with
    | none => exact .none
    | some op => exact .some ⟨rfl, mirrors.registered built (List.mem_of_find?_eq_some found)⟩
  load := load

end DeviceScript

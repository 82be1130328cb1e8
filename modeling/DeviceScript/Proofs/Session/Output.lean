import DeviceScript.Proofs.Pattern.Leftmost
import DeviceScript.Proofs.Text.Runes
import DeviceScript.Session.Simulated

/-!
The output of simulated devices. Whatever a device puts out waits in its buffer until it is
taken from the front: what has been taken, followed by what waits, is all that came in.
-/

namespace DeviceScript.Simulated

open Text Pattern

inductive Call where
  | respond (device command output : Text)
  | emit (device output : Text)
  | restrict (devices : List Text)
  | switch (name : Text)
  | send (canceled : Bool) (command : Text)
  | await (canceled : Bool) (pattern : Text) (clear : Bool)

inductive Answer where
  | done
  | output (text : Text)
  | matched (found : Bool)

def perform (s : Simulated) : Call → Reply Simulated Answer
  | .respond device command output => (.ok .done, s.respond device command output)
  | .emit device output => (.ok .done, s.emit device output)
  | .restrict devices => (.ok .done, s.restrict devices)
  | .switch name => ((s.switchDevice name).1.map fun _ => .done, (s.switchDevice name).2)
  | .send canceled command =>
      ((s.send canceled command).1.map .output, (s.send canceled command).2)
  | .await canceled pattern clear =>
      ((s.await canceled pattern clear).1.map .matched, (s.await canceled pattern clear).2)

def run (s : Simulated) (calls : List Call) : Simulated :=
  calls.foldl (fun s call => (s.perform call).2) s

/-- The calls of a run, each with the session that it met. -/
def trail (s : Simulated) : List Call → List (Simulated × Call)
  | [] => []
  | call :: calls => (s, call) :: (s.perform call).2.trail calls

/-- What a call adds to the output of a device: what is emitted to it, and what a command sent
while it is current returns. -/
def gained (s : Simulated) (device : Text) (call : Call) : Text :=
  match call, (s.perform call).1 with
  | .emit other output, _ => if other = device then output else []
  | .send _ _, .ok (.output output) => if s.current = device then output else []
  | _, _ => []

/-- What a call takes from the front of the buffer of a device. -/
def taken (s : Simulated) (device : Text) (call : Call) : Text :=
  (s.buffer device).take ((s.buffer device).length - ((s.perform call).2.buffer device).length)

def exchanged (s : Simulated) (call : Call) : List Exchange :=
  match call, (s.perform call).1 with
  | .send _ command, .ok (.output output) => [⟨s.current, command, output⟩]
  | _, _ => []

def received (device : Text) (calls : List Call) : Text :=
  (empty.trail calls).flatMap fun (s, call) => s.gained device call

def consumed (device : Text) (calls : List Call) : Text :=
  (empty.trail calls).flatMap fun (s, call) => s.taken device call

def exchanges (calls : List Call) : List Exchange :=
  (empty.trail calls).flatMap fun (s, call) => s.exchanged call

section Buffers

variable (s : Simulated) (device content : Text)

@[simp] theorem set_buffer_current : (s.setBuffer device content).current = s.current := rfl

@[simp] theorem set_buffer_transcript :
    (s.setBuffer device content).transcript = s.transcript := rfl

@[simp] theorem buffer_set_buffer : (s.setBuffer device content).buffer device = content := by
  simp [buffer, setBuffer]

theorem buffer_set_other {other : Text} (apart : other ≠ device) :
    (s.setBuffer device content).buffer other = s.buffer other := by
  have missed : (device == other) = false := beq_eq_false_iff_ne.mpr (Ne.symm apart)
  have kept : ((s.buffers.filter fun entry => entry.1 != device).find? fun entry =>
      entry.1 == other) = s.buffers.find? fun entry => entry.1 == other := by
    rw [List.find?_filter]
    congr 1
    funext entry
    by_cases same : entry.1 = other
    · simp [same, apart]
    · simp [same]
  simp [buffer, setBuffer, missed, kept]

end Buffers

/-- Only the buffer of the current device differs. -/
structure Aside (s next : Simulated) : Prop where
  current : next.current = s.current
  transcript : next.transcript = s.transcript
  others : ∀ other, other ≠ s.current → next.buffer other = s.buffer other

namespace Aside

theorem refl (s : Simulated) : Aside s s := ⟨rfl, rfl, fun _ _ => rfl⟩

theorem set (s : Simulated) (content : Text) : Aside s (s.setBuffer s.current content) :=
  ⟨rfl, rfl, fun _ apart => s.buffer_set_other s.current content apart⟩

theorem trans {s mid next : Simulated} (first : Aside s mid) (second : Aside mid next) :
    Aside s next where
  current := second.current.trans first.current
  transcript := second.transcript.trans first.transcript
  others other apart :=
    (second.others other (first.current.symm ▸ apart)).trans (first.others other apart)

end Aside

def pending (s : Simulated) (clear : Bool) : Text := if clear then [] else s.buffer s.current

/-- Awaiting a pattern takes the output up to the end of its leftmost match, and nothing if it
matches nowhere. Of the matches that begin leftmost it is the one that the search prefers. -/
inductive Awaited (s : Simulated) (p : Pattern) (groups : Nat) (clear : Bool) :
    Reply Simulated Answer → Prop where
  | found {next : Simulated} {i j : Nat} (leftmost : Leftmost (runes (s.pending clear)) p i j)
      (preferred : (Searcher.ofPattern p groups).matchEnd? (s.pending clear) =
        some (octets (runes (s.pending clear)) j))
      (cut : s.pending clear =
        ofRunes ((runes (s.pending clear)).take j) ++ next.buffer s.current) :
      Awaited s p groups clear (.ok (.matched true), next)
  | missing {next : Simulated}
      (nowhere : ∀ i ≤ (runes (s.pending clear)).length, ∀ j,
        ¬ p.Spans (runes (s.pending clear)) i j)
      (kept : next.buffer s.current = s.pending clear) :
      Awaited s p groups clear (.ok (.matched false), next)

/-- Either way something is taken from the front, all of it if the output is cleared first. -/
theorem Awaited.front {s next : Simulated} {p : Pattern} {groups : Nat} {clear : Bool}
    {answer : Except Fault Answer} (awaited : s.Awaited p groups clear (answer, next)) :
    ∃ front, s.buffer s.current = front ++ next.buffer s.current := by
  cases clear with
  | false =>
      cases awaited with
      | found leftmost preferred cut => exact ⟨_, cut⟩
      | missing nowhere kept => exact ⟨[], kept.symm⟩
  | true =>
      have nothing : next.buffer s.current = [] := by
        cases awaited with
        | found leftmost preferred cut => exact (List.append_eq_nil_iff.mp cut.symm).2
        | missing nowhere kept => exact kept
      exact ⟨s.buffer s.current, by rw [nothing, List.append_nil]⟩

/-- A text falls apart at every place between two of its runes. -/
theorem cut_at (content : Text) (j : Nat) :
    content = ofRunes ((runes content).take j) ++ content.drop (octets (runes content) j) := by
  have front : ofRunes ((runes content).take j) <+: content := by
    refine ⟨ofRunes ((runes content).drop j), ?_⟩
    rw [ofRunes, ofRunes, ← List.flatMap_append, List.take_append_drop]
    exact of_runes_runes content
  calc content
      = content.take (octets (runes content) j) ++ content.drop (octets (runes content) j) :=
        (List.take_append_drop _ _).symm
    _ = ofRunes ((runes content).take j) ++ content.drop (octets (runes content) j) := by
        rw [octets, ← List.prefix_iff_eq_take.mp front]

section Calls

variable (s : Simulated)

theorem buffer_emit (device output : Text) :
    (s.emit device output).buffer device = s.buffer device ++ output := by
  simp [emit]

theorem emit_other (device output : Text) {other : Text} (apart : other ≠ device) :
    (s.emit device output).buffer other = s.buffer other :=
  s.buffer_set_other device _ apart

theorem await_fails {pattern : Text} {canceled : Bool} (clear : Bool)
    (hindered : canceled = true ∨ ∃ refusal, Pattern.read pattern = .error refusal) :
    ∃ fault, s.await canceled pattern clear = (.error fault, s) := by
  unfold await Pattern.compile
  cases readable : Pattern.read pattern with
  | error refusal => exact ⟨_, rfl⟩
  | ok result =>
      rcases hindered with rfl | ⟨refusal, unreadable⟩
      · exact ⟨_, rfl⟩
      · rw [readable] at unreadable
        cases unreadable

def cleared (clear : Bool) : Simulated := if clear then s.setBuffer s.current [] else s

theorem cleared_pending (clear : Bool) :
    (s.cleared clear).buffer (s.cleared clear).current = s.pending clear := by
  cases clear <;> simp [cleared, pending]

theorem await_reads {pattern : Text} {p : Pattern} {groups : Nat}
    (readable : Pattern.read pattern = .ok (p, groups)) (clear : Bool) :
    ∃ found next, s.await false pattern clear = (.ok found, next) ∧ Aside s next ∧
      Awaited s p groups clear (.ok (.matched found), next) := by
  have aside : Aside s (s.cleared clear) := by
    cases clear with
    | false => exact Aside.refl s
    | true => exact Aside.set s []
  have current := aside.current
  have held := s.cleared_pending clear
  have compiled : Pattern.compile pattern = .ok (Searcher.ofPattern p groups) := by
    rw [Pattern.compile, readable]
    rfl
  cases found : (Searcher.ofPattern p groups).matchEnd? (s.pending clear) with
  | none =>
      have awaits : s.await false pattern clear = (.ok false, s.cleared clear) := by
        rw [← held] at found
        simp only [await, compiled, Bool.false_eq_true, ↓reduceIte]
        rw [← cleared, found]
      refine ⟨false, _, awaits, aside, .missing (no_match_end found) ?_⟩
      rwa [current] at held
  | some stop =>
      have awaits : s.await false pattern clear = (.ok true,
          (s.cleared clear).setBuffer s.current ((s.pending clear).drop stop)) := by
        rw [← held] at found
        simp only [await, compiled, Bool.false_eq_true, ↓reduceIte]
        rw [← cleared, found, ← held, current]
      obtain ⟨i, j, leftmost, rfl⟩ := match_end_leftmost found
      refine ⟨true, _, awaits, aside.trans (current ▸ Aside.set _ _),
        .found leftmost found ?_⟩
      rw [buffer_set_buffer]
      exact cut_at _ j

theorem await_outcome (canceled : Bool) (pattern : Text) (clear : Bool) :
    (∃ fault, s.await canceled pattern clear = (.error fault, s)) ∨
      ∃ p groups found next, canceled = false ∧
        s.await canceled pattern clear = (.ok found, next) ∧ Aside s next ∧
        Awaited s p groups clear (.ok (.matched found), next) := by
  cases readable : Pattern.read pattern with
  | error refusal => exact .inl (s.await_fails clear (.inr ⟨refusal, readable⟩))
  | ok result =>
      cases canceled with
      | true => exact .inl (s.await_fails clear (.inl rfl))
      | false =>
          obtain ⟨found, next, awaits, aside, awaited⟩ := s.await_reads readable clear
          exact .inr ⟨_, _, found, next, rfl, awaits, aside, awaited⟩

end Calls

/-- The device whose output a call is about: an emission names it, the other calls are about the
current one. -/
def Call.target (s : Simulated) : Call → Text
  | .emit device _ => device
  | _ => s.current

/-- A call takes something from the front of one buffer, or adds what is gained behind it; the
other buffers it leaves alone. -/
structure Touches (s : Simulated) (call : Call) (device : Text) : Prop where
  others : ∀ other, other ≠ device →
    (s.perform call).2.buffer other = s.buffer other ∧ s.gained other call = []
  self : ∃ front rest, s.buffer device = front ++ rest ∧
    (s.perform call).2.buffer device = rest ++ s.gained device call ∧
    (front = [] ∨ s.gained device call = [] ∧ ∃ pattern clear, call = .await false pattern clear)

namespace Touches

variable {s : Simulated} {call : Call} {device : Text}

theorem quiet (same : ∀ other, (s.perform call).2.buffer other = s.buffer other)
    (nothing : ∀ other, s.gained other call = []) (device : Text) : s.Touches call device where
  others other _ := ⟨same other, nothing other⟩
  self := ⟨[], s.buffer device, rfl, by rw [same, nothing, List.append_nil], .inl rfl⟩

theorem failed {fault : Fault} (result : s.perform call = (.error fault, s))
    (nothing : ∀ other, s.gained other call = []) (device : Text) : s.Touches call device :=
  quiet (fun other => by rw [result]) nothing device

theorem comes {output : Text} (same : ∀ other, (s.perform call).2.buffer other =
      (s.emit device output).buffer other)
    (gain : ∀ other, s.gained other call = if device = other then output else []) :
    s.Touches call device where
  others other apart := by
    rw [same, gain, if_neg (Ne.symm apart)]
    exact ⟨s.emit_other device output apart, rfl⟩
  self := by
    refine ⟨[], s.buffer device, rfl, ?_, .inl rfl⟩
    rw [same, gain, if_pos rfl, s.buffer_emit device output]

end Touches

theorem touches (s : Simulated) (call : Call) : s.Touches call (call.target s) := by
  cases call with
  | respond | restrict => exact .quiet (fun _ => rfl) (fun _ => rfl) _
  | emit device output => exact .comes (fun _ => rfl) (fun _ => rfl)
  | switch name =>
      refine .quiet (fun other => ?_) (fun _ => rfl) _
      simp only [perform, switchDevice]
      split <;> rfl
  | send canceled command =>
      cases canceled with
      | true => exact .failed rfl (fun _ => rfl) _
      | false => exact .comes (fun _ => rfl) (fun _ => rfl)
  | await canceled pattern clear =>
      have nothing : ∀ other, s.gained other (.await canceled pattern clear) = [] := by
        simp [gained]
      rcases s.await_outcome canceled pattern clear with
        ⟨fault, fails⟩ | ⟨p, groups, found, next, rfl, awaits, aside, awaited⟩
      · exact .failed (by rw [perform, fails]; rfl) nothing _
      · have performs : (s.perform (.await false pattern clear)).2 = next := by
          rw [perform, awaits]
        obtain ⟨front, cut⟩ := awaited.front
        refine ⟨fun other apart => ⟨?_, nothing other⟩, front, next.buffer s.current, cut, ?_,
          .inr ⟨nothing _, pattern, clear, rfl⟩⟩
        · rw [performs]
          exact aside.others other apart
        · rw [performs, nothing, List.append_nil]
          rfl

theorem Touches.taken_front {s : Simulated} {call : Call} {device : Text}
    (touches : s.Touches call device) :
    ∃ rest, s.buffer device = s.taken device call ++ rest ∧
      (s.perform call).2.buffer device = rest ++ s.gained device call ∧
      (s.taken device call = [] ∨ ∃ pattern clear, call = .await false pattern clear) := by
  obtain ⟨front, rest, before, after, quiet⟩ := touches.self
  have same : s.taken device call = front := by
    rw [taken, before, after]
    rcases quiet with rfl | ⟨nothing, -⟩
    · simp
    · simp [nothing]
  refine ⟨rest, same ▸ before, after, ?_⟩
  exact quiet.imp (fun empty => same.trans empty) And.right

/-- What comes in behind and what is taken in front is all that changes. -/
theorem step_conserves (s : Simulated) (call : Call) (device : Text) :
    s.buffer device ++ s.gained device call =
      s.taken device call ++ (s.perform call).2.buffer device := by
  by_cases apart : device = call.target s
  · obtain ⟨rest, before, after, -⟩ := (s.touches call).taken_front
    rw [← apart] at before after
    rw [after, ← List.append_assoc, ← before]
  · obtain ⟨same, nothing⟩ := (s.touches call).others device apart
    simp [taken, same, nothing]

theorem run_conserves (s : Simulated) (device : Text) (calls : List Call) :
    s.buffer device ++ (s.trail calls).flatMap (fun (t, call) => t.gained device call) =
      (s.trail calls).flatMap (fun (t, call) => t.taken device call) ++
        (s.run calls).buffer device := by
  induction calls generalizing s with
  | nil => simp [trail, run]
  | cons call calls ih =>
      rw [trail, List.flatMap_cons, List.flatMap_cons, ← List.append_assoc, step_conserves,
        List.append_assoc, ih, ← List.append_assoc]
      rfl

theorem step_transcript (s : Simulated) (call : Call) :
    (s.perform call).2.transcript = s.transcript ++ s.exchanged call := by
  cases call with
  | respond | emit | restrict => exact (List.append_nil _).symm
  | switch name =>
      simp only [perform, switchDevice, exchanged]
      split <;> simp
  | send canceled command =>
      cases canceled with
      | true => exact (List.append_nil _).symm
      | false => rfl
  | await canceled pattern clear =>
      have same : (s.await canceled pattern clear).2.transcript = s.transcript := by
        rcases s.await_outcome canceled pattern clear with
          ⟨fault, fails⟩ | ⟨p, groups, found, next, -, awaits, aside, -⟩
        · rw [fails]
        · rw [awaits]
          exact aside.transcript
      simp [perform, exchanged, same]

theorem run_transcript (s : Simulated) (calls : List Call) :
    (s.run calls).transcript =
      s.transcript ++ (s.trail calls).flatMap fun (t, call) => t.exchanged call := by
  induction calls generalizing s with
  | nil => simp [trail, run]
  | cons call calls ih =>
      rw [trail, List.flatMap_cons, ← List.append_assoc, ← step_transcript, ← ih]
      rfl

/-- A call that fails leaves the session as it was. -/
theorem perform_fails (s : Simulated) (call : Call) {fault : Fault}
    (failed : (s.perform call).1 = .error fault) : (s.perform call).2 = s := by
  cases call with
  | respond | emit | restrict => cases failed
  | switch name =>
      simp only [perform, switchDevice] at failed ⊢
      split at failed
      · cases failed
      · next unknown => rw [if_neg unknown]
  | send canceled command =>
      cases canceled with
      | true => rfl
      | false => cases failed
  | await canceled pattern clear =>
      rcases s.await_outcome canceled pattern clear with
        ⟨fault, fails⟩ | ⟨p, groups, found, next, -, awaits, -, -⟩
      · rw [perform, fails]
      · rw [perform, awaits] at failed
        cases failed

/-- What a call leaves alone and what it takes. -/
structure Keeps (s : Simulated) (call : Call) : Prop where
  failed : ∀ fault, (s.perform call).1 = .error fault → (s.perform call).2 = s
  apart : ∀ device, device ≠ s.current → (∀ output, call ≠ .emit device output) →
    (s.perform call).2.buffer device = s.buffer device
  takes : ∀ device, s.taken device call ≠ [] →
    device = s.current ∧ ∃ pattern clear, call = .await false pattern clear
  awaited : ∀ pattern clear p groups, call = .await false pattern clear →
    Pattern.read pattern = .ok (p, groups) → s.Awaited p groups clear (s.perform call)

theorem step_keeps (s : Simulated) (call : Call) : s.Keeps call where
  failed fault := s.perform_fails call
  apart device apart silent := by
    refine ((s.touches call).others device ?_).1
    cases call with
    | emit other output =>
        rintro rfl
        exact silent output rfl
    | respond | restrict | switch | send | await => exact apart
  takes device some_taken := by
    by_cases apart : device = call.target s
    · subst apart
      obtain ⟨rest, -, -, nothing | ⟨pattern, clear, rfl⟩⟩ := (s.touches call).taken_front
      · exact absurd nothing some_taken
      · exact ⟨rfl, pattern, clear, rfl⟩
    · obtain ⟨same, -⟩ := (s.touches call).others device apart
      simp [taken, same] at some_taken
  awaited pattern clear p groups same readable := by
    subst same
    obtain ⟨found, next, awaits, -, awaited⟩ := s.await_reads readable clear
    rw [perform, awaits]
    exact awaited

/-- No output is lost, put in another order or taken twice: what was taken from a device's
output, followed by what waits in its buffer, is what came in. -/
theorem output_kept_in_order (calls : List Call) :
    (∀ device, (empty.run calls).buffer device <:+ received device calls ∧
      consumed device calls ++ (empty.run calls).buffer device = received device calls) ∧
    (empty.run calls).transcript = exchanges calls ∧
    ∀ call, (empty.run calls).Keeps call := by
  have conserved : ∀ device,
      consumed device calls ++ (empty.run calls).buffer device = received device calls :=
    fun device => (run_conserves empty device calls).symm
  refine ⟨fun device => ⟨⟨_, conserved device⟩, conserved device⟩, ?_, fun call => ?_⟩
  · exact run_transcript empty calls
  · exact step_keeps _ call

/-- An answer that every device gives is awaited on the current one, while another puts out
something by itself. -/
def twoPrompts : List Call :=
  [.respond [] "show" "up and up", .switch "a", .send false "show", .emit "b" "late",
    .await false "u." false]

/-- The first match has been taken and the second one waits. -/
theorem second_prompt_waits :
    (empty.run twoPrompts).transcript = [⟨"a", "show", "up and up"⟩] ∧
    consumed "a" twoPrompts = "up" ∧ (empty.run twoPrompts).buffer "a" = " and up" ∧
    consumed "a" twoPrompts ++ (empty.run twoPrompts).buffer "a" = received "a" twoPrompts ∧
    (empty.run twoPrompts).buffer "b" = "late" ∧
    ((empty.run twoPrompts).perform (.await false "u." false)).1 matches .ok (.matched true) ∧
    ∃ p groups, Pattern.read "u." = .ok (p, groups) ∧
      (empty.run twoPrompts).Awaited p groups false
        ((empty.run twoPrompts).perform (.await false "u." false)) := by
  obtain ⟨outputs, transcript, keeps⟩ := output_kept_in_order twoPrompts
  refine ⟨transcript.trans (by decide +kernel), by decide +kernel, by decide +kernel,
    (outputs "a").2, by decide +kernel, by decide +kernel, _, _, rfl, ?_⟩
  exact (keeps (.await false "u." false)).awaited "u." false _ _ rfl rfl

/-- An emission reaches a device that is not current. -/
theorem emission_elsewhere :
    ¬ ∀ calls call device, device ≠ (empty.run calls).current →
      ((empty.run calls).perform call).2.buffer device = (empty.run calls).buffer device := by
  intro apart
  have same := apart [.switch "a"] (.emit "b" "late") "b" (by decide)
  exact absurd same (by decide)

end DeviceScript.Simulated

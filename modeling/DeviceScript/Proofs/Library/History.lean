import DeviceScript.Proofs.Library.Entered

/-!
Libraries over any history of calls, made while files are written and removed. What is kept was
compiled from its file as it was then and stays for good; what did not compile is read again; and
where no file changes, a library that has seen other calls answers as a new one does.
-/

namespace DeviceScript

open Text

inductive Call where
  | file (path : Text)
  | text (name source : Text)
deriving Repr, DecidableEq

def Call.run (s : CompileSettings) (t : FileTree) (l : Library) : Call → Compiled Script
  | file path => Library.compileFile s t l path
  | text name source => Library.compileText s t l name source

/-- The paths whose scripts a call asks for: a file's own, and those that the walk comes to. -/
def Call.Asks (s : CompileSettings) (t : FileTree) (l : Library) : Call → Text → Prop
  | file path, q => q = t.absolute path ∨ ∃ script, l.given s t (t.absolute path) = .ok script ∧
      DeviceScript.Asks (l.given s t) script [t.absolute path] q
  | text name source, q => ∃ script, (s.compileSource t (t.absolute name) source).1 = .ok script ∧
      DeviceScript.Asks (l.given s t) script [t.absolute name] q

namespace Library

variable {s : CompileSettings} {t : FileTree} {l l' : Library}

/-- The library after calls, each of them made over the files as they are then. -/
def after (s : CompileSettings) (l : Library) (calls : List (FileTree × Call)) : Library :=
  calls.foldl (fun l made => (made.2.run s made.1 l).library) l

theorem compile_file_eq (s : CompileSettings) (t : FileTree) (l : Library) (path : Text) :
    compileFile s t l path =
      withInclusions s t (t.absolute path) (fetch s t l (t.absolute path)) :=
  rfl

theorem compile_text_eq (s : CompileSettings) (t : FileTree) (l : Library) (name source : Text) :
    compileText s t l name source =
      withInclusions s t (t.absolute name)
        ⟨(s.compileSource t (t.absolute name) source).1, l,
          (s.compileSource t (t.absolute name) source).2⟩ :=
  rfl

theorem with_inclusions_grown (path : Text) (one : Compiled Script) :
    Grown s t one.library (withInclusions s t path one).library := by
  cases compiled : one.result with
  | error b =>
      rw [with_inclusions_error path compiled]
      exact .refl s t _
  | ok script => exact (with_inclusions_ok path compiled).2.1

theorem call_grown (s : CompileSettings) (t : FileTree) (l : Library) (call : Call) :
    Grown s t l (call.run s t l).library := by
  cases call with
  | file path => exact (fetch_grown l _).trans (with_inclusions_grown _ _)
  | text name source =>
      rw [Call.run, compile_text_eq]
      exact with_inclusions_grown _ ⟨_, l, _⟩

/-- What a call leaves in the library: what was there, and all that it asks for and is given. -/
theorem call_holds_iff (resolved : l.Resolved) (call : Call) (q : Text) (x : Script) :
    (call.run s t l).library.get? q = some x ↔
      l.get? q = some x ∨ call.Asks s t l q ∧ l.given s t q = .ok x := by
  cases call with
  | file path =>
      have known := (fetch_grown (s := s) (t := t) l (t.absolute path)).given
      have keeps : (fetch s t l (t.absolute path)).library.Resolved :=
        (fetch_grown l (t.absolute path)).resolved resolved
      rw [Call.run, compile_file_eq, Call.Asks]
      cases found : l.given s t (t.absolute path) with
      | error b =>
          rw [with_inclusions_error (b := b) _ (by rw [fetch_result, found]), fetch_holds_iff]
          simp
      | ok script =>
          rw [with_inclusions_holds_iff _ (by rw [fetch_result, found]) keeps
            (given_resolved resolved found), fetch_holds_iff, known]
          simp [or_and_right, or_assoc]
  | text name source =>
      rw [Call.run, compile_text_eq, Call.Asks]
      cases compiled : (s.compileSource t (t.absolute name) source).1 with
      | error b =>
          rw [with_inclusions_error (b := b) _ rfl]
          simp
      | ok script =>
          rw [with_inclusions_holds_iff _ rfl resolved
            (CompileSettings.compile_source_resolved compiled)]
          simp

theorem after_kept {p : Text} {x : Script} (calls : List (FileTree × Call))
    (kept : l.get? p = some x) : (l.after s calls).get? p = some x := by
  induction calls generalizing l with
  | nil => exact kept
  | cons made rest ih => exact ih ((call_grown s made.1 l made.2).kept p x kept)

theorem after_resolved (calls : List (FileTree × Call)) (resolved : l.Resolved) :
    (l.after s calls).Resolved := by
  induction calls generalizing l with
  | nil => exact resolved
  | cons made rest ih => exact ih ((call_grown s made.1 l made.2).resolved resolved)

theorem empty_resolved : Library.empty.Resolved := nofun

theorem after_grown {calls : List (FileTree × Call)} (unchanged : ∀ made ∈ calls, made.1 = t) :
    Grown s t l (l.after s calls) := by
  induction calls generalizing l with
  | nil => exact .refl s t l
  | cons made rest ih =>
      have same := unchanged made (by simp)
      have first := call_grown s made.1 l made.2
      rw [same] at first
      exact first.trans (same ▸ ih fun m member => unchanged m (by simp [member]))

section File

variable (l) (path : Text)

theorem compile_file_keeps {x : Script} (found : l.given s t (t.absolute path) = .ok x) :
    (compileFile s t l path).library.get? (t.absolute path) = some x :=
  (with_inclusions_grown _ _).kept _ _ (fetch_keeps found)

theorem compile_file_result {x y : Script} (found : l.given s t (t.absolute path) = .ok x)
    (ended : (compileFile s t l path).result = .ok y) : y = x := by
  have compiled : (fetch s t l (t.absolute path)).result = .ok x := by rw [fetch_result, found]
  exact ((with_inclusions_ok _ compiled).2.2.2 y ended).1

theorem compile_file_error {b : Breakdown} (broke : l.given s t (t.absolute path) = .error b) :
    (compileFile s t l path).result = .error b := by
  have compiled : (fetch s t l (t.absolute path)).result = .error b := by rw [fetch_result, broke]
  rw [compile_file_eq, with_inclusions_error _ compiled, compiled]

end File

/-- The name of a text is on the chain from the start, so nothing is fetched for it. -/
theorem compile_text_untouched (l : Library) (name source : Text) :
    (compileText s t l name source).library.get? (t.absolute name) = l.get? (t.absolute name) := by
  rw [compile_text_eq]
  cases compiled : (s.compileSource t (t.absolute name) source).1 with
  | error b => rw [with_inclusions_error (b := b) _ rfl]
  | ok script =>
      have one : (⟨.ok script, l, (s.compileSource t (t.absolute name) source).2⟩ :
          Compiled Script).result = .ok script := rfl
      exact (with_inclusions_ok _ one).2.2.1

/-- Two walks over the same scripts that both had enough fuel come to the same. -/
theorem with_inclusions_same {path : Text} {one other : Compiled Script}
    (result : one.result = other.result)
    (given : one.library.given s t = other.library.given s t)
    (resolved : ∀ p x, one.library.given s t p = .ok x → x.Resolved)
    (script : ∀ x, one.result = .ok x → x.Resolved) :
    (withInclusions s t path one).result = (withInclusions s t path other).result := by
  cases compiled : one.result with
  | error b =>
      rw [with_inclusions_error path compiled, with_inclusions_error path (result ▸ compiled),
        result]
  | ok x =>
      have clean q (reaches : Reaches (scriptAt (one.library.given s t)) x q) :=
        reaches_clean resolved (script x compiled) reaches
      obtain ⟨fuel, walked, ends⟩ := with_inclusions_walk path compiled clean
      obtain ⟨more, walkedToo, endsToo⟩ :=
        with_inclusions_walk path (result ▸ compiled) (given ▸ clean)
      rw [walked, walkedToo]
      rw [← given] at endsToo ⊢
      congr 1
      rw [← walk_enough ends (Nat.le_max_left fuel more),
        walk_enough endsToo (Nat.le_max_right fuel more)]

theorem call_result_same {call : Call} (given : l.given s t = l'.given s t)
    (resolved : l.Resolved) : (call.run s t l).result = (call.run s t l').result := by
  cases call with
  | file path =>
      have known (l : Library) := (fetch_grown (s := s) (t := t) l (t.absolute path)).given
      refine with_inclusions_same ?_ ?_ ?_ ?_
      · rw [fetch_result, fetch_result, given]
      · exact (known l).trans (given.trans (known l').symm)
      · intro p x found
        exact given_resolved resolved (known l ▸ found)
      · intro x found
        exact given_resolved resolved (fetch_result l _ ▸ found)
  | text name source =>
      rw [Call.run, Call.run, compile_text_eq, compile_text_eq]
      refine with_inclusions_same rfl given (fun p x => given_resolved resolved) ?_
      intro x compiled
      exact CompileSettings.compile_source_resolved compiled

end Library

/-- A library over any history of calls and of changes to files. A path enters it with the script
of its file at that moment, when a call asks for it and whatever becomes of the inclusions or of the
call; what is kept stays, and is what later calls for the path return; a file that does not compile
is read again by the next call; a text is not kept under its name; and where no file has changed,
any call comes to what it comes to with an empty library. -/
theorem library_history (s : CompileSettings) (past : List (FileTree × Call)) :
    let l := Library.empty.after s past
    (∀ (t : FileTree) (call : Call) (p : Text) (x : Script), l.get? p = none →
      (call.run s t l).library.get? p = some x →
      call.Asks s t l p ∧ ∃ source, t.read p = .ok source ∧ (s.compileSource t p source).1 = .ok x) ∧
    (∀ (t : FileTree) (call : Call) (p source : Text) (x : Script), l.get? p = none →
      call.Asks s t l p → t.read p = .ok source → (s.compileSource t p source).1 = .ok x →
      (call.run s t l).library.get? p = some x) ∧
    (∀ (t : FileTree) (path source : Text) (x : Script), l.get? (t.absolute path) = none →
      t.read (t.absolute path) = .ok source →
      (s.compileSource t (t.absolute path) source).1 = .ok x →
      (Library.compileFile s t l path).library.get? (t.absolute path) = some x) ∧
    (∀ (p : Text) (x : Script), l.get? p = some x → ∀ later : List (FileTree × Call),
      (l.after s later).get? p = some x ∧
      ∀ (t : FileTree) (path : Text), t.absolute path = p →
        Library.fetch s t (l.after s later) p = ⟨.ok x, l.after s later, []⟩ ∧
        ∀ y, (Library.compileFile s t (l.after s later) path).result = .ok y → y = x) ∧
    (∀ (t : FileTree) (call : Call) (p : Text) (b : Breakdown), l.get? p = none →
      s.own t p = .error b →
      (call.run s t l).library.get? p = none ∧
      ∀ (now : FileTree) (path : Text), now.absolute path = p →
        (∀ c, s.own now p = .error c →
          (Library.compileFile s now (call.run s t l).library path).result = .error c) ∧
        ∀ x, s.own now p = .ok x →
          (Library.compileFile s now (call.run s t l).library path).library.get? p = some x) ∧
    (∀ (t : FileTree) (name source : Text),
      (Library.compileText s t l name source).library.get? (t.absolute name) =
        l.get? (t.absolute name)) ∧
    (∀ t : FileTree, (∀ made ∈ past, made.1 = t) → ∀ call : Call,
      (call.run s t l).result = (call.run s t .empty).result) := by
  intro l
  have resolved : l.Resolved := Library.after_resolved past Library.empty_resolved
  refine ⟨?_, ?_, ?_, ?_, ?_, ?_, ?_⟩
  · intro t call p x absent new
    obtain ⟨asked, found⟩ :=
      ((Library.call_holds_iff resolved call p x).mp new).resolve_left (by simp [absent])
    exact ⟨asked, (own_ok (Library.given_own absent ▸ found)).1⟩
  · intro t call p source x absent asked read compiled
    refine (Library.call_holds_iff resolved call p x).mpr (.inr ⟨asked, ?_⟩)
    rw [Library.given_own absent, CompileSettings.own, read]
    exact compiled
  · intro t path source x absent read compiled
    apply Library.compile_file_keeps
    rw [Library.given_own absent, CompileSettings.own, read]
    exact compiled
  · intro p x kept later
    have still := Library.after_kept (s := s) later kept
    refine ⟨still, ?_⟩
    rintro t path rfl
    refine ⟨by simp [Library.fetch, still], ?_⟩
    intro y ended
    exact Library.compile_file_result _ _ (Library.given_kept still) ended
  · intro t call p b absent broke
    have left : (call.run s t l).library.get? p = none := by
      cases kept : (call.run s t l).library.get? p with
      | none => rfl
      | some x =>
          have own := ((Library.call_grown s t l call).new p x kept).resolve_left (by simp [absent])
          rw [broke] at own
          cases own
    refine ⟨left, ?_⟩
    rintro now path rfl
    constructor
    · intro c again
      exact Library.compile_file_error _ _ (Library.given_own left ▸ again)
    · intro x compiled
      exact Library.compile_file_keeps _ _ (Library.given_own left ▸ compiled)
  · intro t name source
    exact Library.compile_text_untouched l name source
  · intro t unchanged call
    have grown := Library.after_grown (s := s) (l := .empty) unchanged
    exact Library.call_result_same grown.given resolved

end DeviceScript

import DeviceScript.Proofs.Library.History

/-!
Libraries that hold all that a script leads to. A file that compiles with everything it includes
leaves such a library behind, without circles; from then on its scripts are given out whatever has
become of the files. Where all files compile alone, circles are what makes a file fail.
-/

namespace DeviceScript

open Text

namespace Library

/-- The paths that the script at `root` leads to, `root` among them. -/
def Leads (l : Library) (root q : Text) : Prop :=
  q = root ∨ ∃ x, l.get? root = some x ∧ Reaches l.get? x q

/-- All that the script at `root` leads to is kept, its inclusions resolved, and nothing leads back
to itself. -/
structure Closed (l : Library) (root : Text) : Prop where
  kept : ∀ q, l.Leads root q → ∃ x, l.get? q = some x
  resolved : ∀ q x, l.Leads root q → l.get? q = some x → x.Resolved
  acyclic : ∀ q, l.Leads root q → ¬ Circles l.get? q

def Extends (l l' : Library) : Prop := ∀ p x, l.get? p = some x → l'.get? p = some x

variable {s : CompileSettings} {t : FileTree} {l l' : Library} {root q : Text} {x : Script}

theorem leads_on (leads : l.Leads root q) (kept : l.get? q = some x) {r : Text}
    (reaches : Reaches l.get? x r) : l.Leads root r := by
  rcases leads with rfl | ⟨first, start, further⟩
  · exact .inr ⟨x, kept, reaches⟩
  · exact .inr ⟨first, start, reaches_trans further kept reaches⟩

theorem compile_file_walk {path : Text} (found : l.given s t (t.absolute path) = .ok x)
    (clean : ∀ q, Reaches (scriptAt (l.given s t)) x q → Path.IsClean q) :
    ∃ fuel, (compileFile s t l path).result =
        (walk (l.given s t) fuel x [t.absolute path]).map (fun _ => x) ∧
      walk (l.given s t) fuel x [t.absolute path] ≠ .error .outOfFuel := by
  have compiled : (fetch s t l (t.absolute path)).result = .ok x := by rw [fetch_result, found]
  rw [← (fetch_grown l (t.absolute path)).given] at clean ⊢
  exact with_inclusions_walk _ compiled clean

namespace Closed

theorem reaches_within (closed : l.Closed root) {find : Text → Option Script}
    (agrees : ∀ p y, l.get? p = some y → find p = some y) {r : Text} (reaches : Reaches find x r)
    (leads : l.Leads root q) (kept : l.get? q = some x) : Reaches l.get? x r := by
  induction reaches generalizing q with
  | direct member => exact .direct member
  | @through script child i path member found _ ih =>
      have next := leads_on leads kept (.direct member)
      obtain ⟨y, there⟩ := closed.kept _ next
      rw [agrees _ _ there] at found
      cases found
      exact .through member there (ih next there)

theorem reaches_clean (closed : l.Closed root) {r : Text} (reaches : Reaches l.get? x r)
    (leads : l.Leads root q) (kept : l.get? q = some x) : Path.IsClean r := by
  induction reaches generalizing q with
  | direct member => exact (closed.resolved q _ leads kept).paths _ member
  | through member found _ ih => exact ih (leads_on leads kept (.direct member)) found

/-- Whatever has become of the files, and whatever else has come to be kept, the scripts of a
closed library are the ones that compiling comes to. -/
theorem compiles (closed : l.Closed root) (more : l.Extends l') (leads : l.Leads root q)
    (kept : l.get? q = some x) (clean : Path.IsClean q) (s : CompileSettings) (t : FileTree) :
    (compileFile s t l' q).result = .ok x := by
  have agrees {p : Text} {y : Script} (there : l.get? p = some y) : l'.given s t p = .ok y :=
    given_kept (more p y there)
  have within {y : Script} {p r : Text} (leads : l.Leads root p) (kept : l.get? p = some y)
      (reaches : Reaches (scriptAt (l'.given s t)) y r) : Reaches l.get? y r :=
    closed.reaches_within (fun _ _ there => script_at_iff.mpr (agrees there)) reaches leads kept
  have found : l'.given s t (t.absolute q) = .ok x := by rw [t.absolute_clean clean, agrees kept]
  have whole r (reaches : Reaches (scriptAt (l'.given s t)) x r) : ∃ y, l'.given s t r = .ok y := by
    obtain ⟨y, here⟩ := closed.kept r (leads_on leads kept (within leads kept reaches))
    exact ⟨y, agrees here⟩
  obtain ⟨fuel, result, ends⟩ := compile_file_walk found fun r reaches =>
    closed.reaches_clean (within leads kept reaches) leads kept
  rw [result]
  rw [t.absolute_clean clean] at found ends ⊢
  rcases walk_root found ends whole with ⟨done, -⟩ | ⟨-, r, near, y, there, circle⟩
  · rw [done]
    rfl
  · -- The circle would be one of the closed library.
    have onward : l.Leads root r := by
      rcases near with rfl | reaches
      · exact leads
      · exact leads_on leads kept (within leads kept reaches)
    obtain ⟨z, here⟩ := closed.kept r onward
    rw [script_at_iff, agrees here] at there
    cases there
    exact absurd ⟨_, here, within onward here circle⟩ (closed.acyclic r onward)

theorem below (closed : l.Closed root) (leads : l.Leads root q) : l.Closed q := by
  have onward {r : Text} (further : l.Leads q r) : l.Leads root r := by
    rcases further with rfl | ⟨x, kept, reaches⟩
    · exact leads
    · exact leads_on leads kept reaches
  constructor
  · intro r further
    exact closed.kept r (onward further)
  · intro r x further kept
    exact closed.resolved r x (onward further) kept
  · intro r further
    exact closed.acyclic r (onward further)

end Closed

/-- A script that compiles with its inclusions leaves all that these lead to behind, whether or not
it is kept itself. -/
theorem with_inclusions_closed {one : Compiled Script} {path : Text} {script : Script}
    (compiled : one.result = .ok script) (resolved : one.library.Resolved)
    (ended : (withInclusions s t path one).result = .ok x) {e : Inclusion}
    (member : e ∈ script.inclusions) :
    (withInclusions s t path one).library.Closed e.resolved := by
  obtain ⟨result, grown, -, after⟩ := with_inclusions_ok (s := s) (t := t) path compiled
  have reached := (after x ended).2
  rw [result] at ended
  obtain ⟨⟨⟩, walked, -⟩ := map_ok_exists ended
  have found {p : Text} {y : Script}
      (kept : (withInclusions s t path one).library.get? p = some y) :
      scriptAt (one.library.given s t) p = some y := by
    rw [script_at_iff, ← grown.given]
    exact given_kept kept
  have near {q : Text} (leads : (withInclusions s t path one).library.Leads e.resolved q) :
      Reaches (scriptAt (one.library.given s t)) script q := by
    rcases leads with rfl | ⟨y, kept, reaches⟩
    · exact .direct member
    · exact .through member (found kept) (reaches_mono (fun _ _ => found) reaches)
  constructor
  · intro q leads
    exact reached q (near leads)
  · intro q y _ kept
    exact grown.resolved resolved q y kept
  · rintro q leads ⟨y, kept, circle⟩
    exact (walk_ok walked (near leads)).2.2 ⟨y, found kept, reaches_mono (fun _ _ => found) circle⟩

theorem compile_file_closed (resolved : l.Resolved) {path : Text} {script : Script}
    (ended : (compileFile s t l path).result = .ok script) :
    (compileFile s t l path).library.get? (t.absolute path) = some script ∧
      (compileFile s t l path).library.Closed (t.absolute path) := by
  cases found : l.given s t (t.absolute path) with
  | error b =>
      rw [compile_file_error l path found] at ended
      cases ended
  | ok x =>
      obtain rfl := compile_file_result l path found ended
      have root := compile_file_keeps l path found
      have grown := call_grown s t l (.file path)
      have compiled : (fetch s t l (t.absolute path)).result = .ok script := by
        rw [fetch_result, found]
      have reached := ((with_inclusions_ok _ compiled).2.2.2 script ended).2
      rw [(fetch_grown l (t.absolute path)).given] at reached
      obtain ⟨fuel, result, ends⟩ := compile_file_walk found fun q reaches =>
        given_reaches_clean resolved (given_resolved resolved found) reaches
      rw [result] at ended
      obtain ⟨⟨⟩, walked, -⟩ := map_ok_exists ended
      -- What is kept now is what was given at the start, so nothing is reached that the walk has
      -- not met.
      have within {find : Script} {q : Text}
          (reaches : Reaches (compileFile s t l path).library.get? find q) :
          Reaches (scriptAt (l.given s t)) find q := by
        refine reaches_mono ?_ reaches
        intro p y kept
        rw [script_at_iff, ← grown.given]
        exact given_kept kept
      refine ⟨root, ?_, ?_, ?_⟩
      · rintro q (rfl | ⟨y, start, reaches⟩)
        · exact ⟨script, root⟩
        · rw [root] at start
          cases start
          exact reached q (within reaches)
      · intro q y _ kept
        exact grown.resolved resolved q y kept
      · rintro q leads ⟨y, kept, circle⟩
        have near : q = t.absolute path ∨ Reaches (scriptAt (l.given s t)) script q := by
          rcases leads with rfl | ⟨z, start, reaches⟩
          · exact .inl rfl
          · rw [root] at start
            cases start
            exact .inr (within reaches)
        refine walk_ok_root found walked near ⟨y, ?_, within circle⟩
        rw [script_at_iff, ← grown.given]
        exact given_kept kept

/-- Where everything compiles alone, a file compiles unless there is a circle, and a circle is what
it tells then. -/
theorem compile_file_circles (resolved : l.Resolved) {path : Text} {script : Script}
    (found : l.given s t (t.absolute path) = .ok script)
    (whole : ∀ q, Reaches (scriptAt (l.given s t)) script q → ∃ x, l.given s t q = .ok x) :
    ((∃ q, (q = t.absolute path ∨ Reaches (scriptAt (l.given s t)) script q) ∧
        Circles (scriptAt (l.given s t)) q) →
      ∃ f, (compileFile s t l path).result = .error (.fault f) ∧ f.TellsCircle) ∧
    ((∀ q, q = t.absolute path ∨ Reaches (scriptAt (l.given s t)) script q →
        ¬ Circles (scriptAt (l.given s t)) q) →
      (compileFile s t l path).result = .ok script) := by
  obtain ⟨fuel, result, ends⟩ := compile_file_walk found fun q reaches =>
    given_reaches_clean resolved (given_resolved resolved found) reaches
  rw [result]
  rcases walk_root found ends whole with ⟨done, free⟩ | ⟨⟨f, broke, tells⟩, q, near, circles⟩
  · refine ⟨?_, fun _ => by rw [done]; rfl⟩
    rintro ⟨q, near, circles⟩
    exact absurd circles (free q near)
  · refine ⟨fun _ => ⟨f, by rw [broke]; rfl, tells⟩, ?_⟩
    intro free
    exact absurd circles (free q near)

theorem compile_file_ends (resolved : l.Resolved) (path : Text) :
    (compileFile s t l path).result ≠ .error .outOfFuel := by
  refine with_inclusions_ends _ ((fetch_grown l _).resolved resolved) ?_ ?_
  · intro x found
    exact given_resolved resolved (fetch_result l _ ▸ found)
  · rw [fetch_result]
    exact given_not_out_of_fuel l _

end Library
end DeviceScript

import DeviceScript.Proofs.Library.Growth

/-!
The files that a call comes to. A walk asks for the scripts of inclusions in their order, up to the
first that breaks down; what it has asked for is kept if it compiles, and nothing else is.
-/

namespace DeviceScript

open Text

section Comes

variable {α ε : Type} {f g : α → Except ε Unit} {x y : α} {xs : List α}

/-- The elements that are come to: nothing before them breaks down. -/
def Comes (f : α → Except ε Unit) (xs : List α) (x : α) : Prop :=
  ∃ before after, xs = before ++ x :: after ∧ forM before f = .ok ()

theorem not_comes_nil : ¬ Comes f [] x := by
  rintro ⟨before, after, same, -⟩
  simp at same

theorem comes_cons_iff : Comes f (x :: xs) y ↔ y = x ∨ f x = .ok () ∧ Comes f xs y := by
  constructor
  · rintro ⟨before, after, same, passed⟩
    cases before with
    | nil => exact .inl (List.cons.inj same).1.symm
    | cons first rest =>
        obtain ⟨rfl, rfl⟩ := List.cons.inj same
        have each := forM_ok_iff.mp passed
        exact .inr ⟨each _ List.mem_cons_self, rest, after, rfl,
          forM_ok_iff.mpr fun z member => each z (List.mem_cons_of_mem _ member)⟩
  · rintro (rfl | ⟨passed, before, after, rfl, others⟩)
    · exact ⟨[], xs, rfl, rfl⟩
    · refine ⟨x :: before, after, rfl, ?_⟩
      exact forM_ok_iff.mpr (List.forall_mem_cons.mpr ⟨passed, forM_ok_iff.mp others⟩)

theorem comes_mem (comes : Comes f xs x) : x ∈ xs := by
  obtain ⟨before, after, rfl, -⟩ := comes
  simp

/-- Two ways to go through a list come to the same elements where they agree but for one kind of
error, with which neither of them ends. -/
theorem comes_same {e : ε} (same : ∀ x ∈ xs, f x ≠ .error e → g x = f x)
    (ends : forM xs f ≠ .error e) (comes : Comes g xs x) : Comes f xs x := by
  induction xs with
  | nil => exact absurd comes not_comes_nil
  | cons first rest ih =>
      rw [List.forM_cons] at ends
      rcases comes_cons_iff.mp comes with here | ⟨passed, later⟩
      · exact comes_cons_iff.mpr (.inl here)
      · have other : f first ≠ .error e := by
          intro broke
          rw [broke] at ends
          exact ends rfl
        rw [same first List.mem_cons_self other] at passed
        rw [passed] at ends
        have onward := ih (fun y member => same y (List.mem_cons_of_mem first member)) ends later
        exact comes_cons_iff.mpr (.inr ⟨passed, onward⟩)

end Comes

section Asks

variable {at' : Text → Except Breakdown Script} {script : Script} {chain : List Text}

/-- The paths that a walk from a script asks for. -/
inductive Asks (at' : Text → Except Breakdown Script) : Script → List Text → Text → Prop
  | here {script : Script} {chain : List Text} {i : Inclusion} {fuel : Nat}
      (comes : Comes (visit at' (walk at' fuel) script chain) script.inclusions i)
      (fresh : i.resolved ∉ chain) : Asks at' script chain i.resolved
  | beneath {script child : Script} {chain : List Text} {i : Inclusion} {fuel : Nat} {path : Text}
      (comes : Comes (visit at' (walk at' fuel) script chain) script.inclusions i)
      (fresh : i.resolved ∉ chain) (found : at' i.resolved = .ok child)
      (further : Asks at' child (chain ++ [i.resolved]) path) : Asks at' script chain path

theorem visit_ends_below {fuel : Nat} {i : Inclusion} {child : Script}
    (ends : visit at' (walk at' fuel) script chain i ≠ .error .outOfFuel)
    (fresh : i.resolved ∉ chain) (found : at' i.resolved = .ok child) :
    walk at' fuel child (chain ++ [i.resolved]) ≠ .error .outOfFuel := by
  intro broke
  simp [visit, fresh, found, broke, Except.mapError, Breakdown.framed] at ends

theorem visit_enough {fuel more : Nat} {i : Inclusion} (le : fuel ≤ more)
    (ends : visit at' (walk at' fuel) script chain i ≠ .error .outOfFuel) :
    visit at' (walk at' more) script chain i = visit at' (walk at' fuel) script chain i := by
  by_cases circle : i.resolved ∈ chain
  · simp [visit, circle]
  · cases found : at' i.resolved with
    | error b => simp [visit, found]
    | ok child =>
        have same := walk_enough (visit_ends_below ends circle found) le
        simp [visit, found, same]

/-- With enough fuel a walk comes to what it comes to with any. -/
theorem comes_enough {fuel other : Nat} {is : List Inclusion} {i : Inclusion}
    (ends : forM is (visit at' (walk at' fuel) script chain) ≠ .error .outOfFuel)
    (comes : Comes (visit at' (walk at' other) script chain) is i) :
    Comes (visit at' (walk at' fuel) script chain) is i := by
  -- Both bounds are set against the larger of the two.
  have more : Comes (visit at' (walk at' (max fuel other)) script chain) is i := by
    obtain ⟨before, after, rfl, passed⟩ := comes
    refine ⟨before, after, rfl, forM_ok_iff.mpr fun j member => ?_⟩
    have ok := forM_ok_iff.mp passed j member
    rw [visit_enough (Nat.le_max_right fuel other) (by simp [ok]), ok]
  exact comes_same (fun j _ => visit_enough (Nat.le_max_left fuel other)) ends more

theorem asks_iff {fuel : Nat} {q : Text}
    (ends : walk at' (fuel + 1) script chain ≠ .error .outOfFuel) :
    Asks at' script chain q ↔
      ∃ i, Comes (visit at' (walk at' fuel) script chain) script.inclusions i ∧
        i.resolved ∉ chain ∧ (q = i.resolved ∨
          ∃ child, at' i.resolved = .ok child ∧ Asks at' child (chain ++ [i.resolved]) q) := by
  constructor
  · rintro (⟨comes, fresh⟩ | ⟨comes, fresh, found, further⟩)
    · exact ⟨_, comes_enough ends comes, fresh, .inl rfl⟩
    · exact ⟨_, comes_enough ends comes, fresh, .inr ⟨_, found, further⟩⟩
  · rintro ⟨i, comes, fresh, rfl | ⟨child, found, further⟩⟩
    · exact .here comes fresh
    · exact .beneath comes fresh found further

end Asks

namespace Library

variable {s : CompileSettings} {t : FileTree} {l : Library}

theorem visit_all_holds_iff {at' : Text → Except Breakdown Script}
    {one : Library → Inclusion → Compiled Unit} {step : Inclusion → Except Breakdown Unit}
    {is : List Inclusion} (asked : Inclusion → Text → Prop)
    (each : ∀ l, l.given s t = at' → ∀ i ∈ is, (one l i).result = step i ∧
      (one l i).library.given s t = at' ∧ (step i ≠ .error .outOfFuel → ∀ q x,
        (one l i).library.get? q = some x ↔ l.get? q = some x ∨ asked i q ∧ at' q = .ok x))
    (ends : forM is step ≠ .error .outOfFuel) (l : Library) (same : l.given s t = at') (q : Text)
    (x : Script) :
    (visitAll one l is).library.get? q = some x ↔
      l.get? q = some x ∨ (∃ i, Comes step is i ∧ asked i q) ∧ at' q = .ok x := by
  induction is generalizing l with
  | nil =>
      have none : ¬ ∃ i, Comes step [] i ∧ asked i q := fun ⟨_, comes, _⟩ => not_comes_nil comes
      simp [visitAll, none]
  | cons i rest ih =>
      obtain ⟨result, given, holds⟩ := each l same i List.mem_cons_self
      rw [List.forM_cons] at ends
      -- The first inclusion is come to in any case, the others only once it has passed.
      have first : (∃ j, Comes step (i :: rest) j ∧ asked j q) ↔
          asked i q ∨ step i = .ok () ∧ ∃ j, Comes step rest j ∧ asked j q := by
        simp only [comes_cons_iff, or_and_right, exists_or, exists_eq_left, and_assoc,
          exists_and_left]
      rw [first]
      unfold visitAll
      cases ended : step i with
      | error b =>
          rw [ended] at result ends
          have going : step i ≠ .error .outOfFuel := ended ▸ ends
          simp only [result, holds going]
          simp
      | ok u =>
          rw [ended] at result ends
          have others := ih (fun l same j member => each l same j (List.mem_cons_of_mem i member))
            ends (one l i).library given
          cases u
          simp only [result, others, holds (by simp [ended]), true_and, or_and_right, or_assoc]

theorem fetch_holds_iff {path q : Text} {x : Script} :
    (fetch s t l path).library.get? q = some x ↔
      l.get? q = some x ∨ q = path ∧ l.given s t q = .ok x := by
  constructor
  · intro found
    by_cases same : q = path
    · subst same
      right
      rw [← (fetch_grown l q).given, given_kept found]
      exact ⟨rfl, rfl⟩
    · rw [fetch_untouched (Ne.symm same)] at found
      exact .inl found
  · rintro (kept | ⟨rfl, found⟩)
    · exact (fetch_grown l path).kept q x kept
    · exact fetch_keeps found

section FetchOne

variable {at' : Text → Except Breakdown Script} {script : Script} {chain : List Text}
  {i : Inclusion} {fuel : Nat}

theorem fetch_one_holds_iff (same : l.given s t = at')
    (ends : visit at' (walk at' fuel) script chain i ≠ .error .outOfFuel)
    (onward : ∀ l child chain, l.given s t = at' → walk at' fuel child chain ≠ .error .outOfFuel →
      ∀ q x, (fetchInclusions s t fuel l child chain).library.get? q = some x ↔
        l.get? q = some x ∨ Asks at' child chain q ∧ at' q = .ok x) (q : Text) (x : Script) :
    (fetchOne s t (fetchInclusions s t fuel) script chain l i).library.get? q = some x ↔
      l.get? q = some x ∨ (i.resolved ∉ chain ∧ (q = i.resolved ∨
        ∃ child, at' i.resolved = .ok child ∧ Asks at' child (chain ++ [i.resolved]) q)) ∧
          at' q = .ok x := by
  by_cases circle : i.resolved ∈ chain
  · rw [fetch_one_circle _ _ circle]
    simp [circle]
  · cases found : at' i.resolved with
    | error b =>
        rw [fetch_one_error _ _ circle (same ▸ found), fetch_holds_iff, same]
        simp [circle]
    | ok child =>
        rw [fetch_one_child _ _ circle (same ▸ found), onward _ _ _
          ((fetch_grown l i.resolved).given.trans same) (visit_ends_below ends circle found),
          fetch_holds_iff, same]
        simp [circle, or_and_right, or_assoc]

end FetchOne

/-- What fetching inclusions leaves in the library: what was there, and what the walk has asked for
as far as it is given. -/
theorem fetch_inclusions_holds_iff (fuel : Nat) (l : Library) (script : Script) (chain : List Text)
    (ends : walk (l.given s t) fuel script chain ≠ .error .outOfFuel) (q : Text) (x : Script) :
    (fetchInclusions s t fuel l script chain).library.get? q = some x ↔
      l.get? q = some x ∨ Asks (l.given s t) script chain q ∧ l.given s t q = .ok x := by
  induction fuel generalizing l script chain q x with
  | zero => exact absurd rfl ends
  | succ fuel ih =>
      generalize known : l.given s t = at' at ends ⊢
      rw [asks_iff ends]
      refine visit_all_holds_iff (fun i q => i.resolved ∉ chain ∧ (q = i.resolved ∨
        ∃ child, at' i.resolved = .ok child ∧ Asks at' child (chain ++ [i.resolved]) q)) ?_ ends l
        known q x
      intro l same i _
      have fetched : Fetched s t chain l _ (visit at' (walk at' fuel) script chain i)
          (fetchOne s t (fetchInclusions s t fuel) script chain l i) :=
        fetch_one_fetched same fun l child chain same =>
          same ▸ fetch_inclusions_walk fuel l child chain
      refine ⟨fetched.result, fetched.grown.given.trans same, fun ends q x => ?_⟩
      exact fetch_one_holds_iff same ends (fun l child chain same ends q x =>
        same ▸ ih l child chain (same ▸ ends) q x) q x

theorem with_inclusions_holds_iff {one : Compiled Script} {script : Script} (path : Text)
    (compiled : one.result = .ok script) (resolved : one.library.Resolved)
    (start : script.Resolved) (q : Text) (x : Script) :
    (withInclusions s t path one).library.get? q = some x ↔ one.library.get? q = some x ∨
      Asks (one.library.given s t) script [path] q ∧ one.library.given s t q = .ok x := by
  have ends : walk (one.library.given s t) (chainBound t one.library) script [path] ≠
      .error .outOfFuel :=
    given_walk_ends (fun _ => given_reaches_clean resolved start) (Nat.le_refl _)
  rw [← fetch_inclusions_holds_iff _ _ _ _ ends]
  simp only [withInclusions, compiled]

end Library
end DeviceScript

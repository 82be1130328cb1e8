import DeviceScript.Proofs.Library.Walk

/-!
How a library grows. Over the same files, what it gives for a path never changes, however much of
it is kept already; so compiling comes to the same as a walk over what the library gives at the
start.
-/

namespace DeviceScript

open Text

/-- What compiling a file alone comes to. -/
def CompileSettings.own (s : CompileSettings) (t : FileTree) (path : Text) :
    Except Breakdown Script :=
  match t.read path with
  | .error problem =>
      .error (.fault (.wrapped ("read script " ++ path) (.said (problem.message path))))
  | .ok source => (s.compileSource t path source).1

theorem own_ok {s : CompileSettings} {t : FileTree} {path : Text} {script : Script}
    (compiled : s.own t path = .ok script) :
    (∃ source, t.read path = .ok source ∧ (s.compileSource t path source).1 = .ok script) ∧
      script.Resolved := by
  unfold CompileSettings.own at compiled
  split at compiled
  · cases compiled
  · next source read =>
      exact ⟨⟨source, read, compiled⟩, CompileSettings.compile_source_resolved compiled⟩

theorem own_not_out_of_fuel (s : CompileSettings) (t : FileTree) (path : Text) :
    s.own t path ≠ .error .outOfFuel := by
  unfold CompileSettings.own
  split
  · simp
  · next source read => exact s.compile_source_ends t path source

namespace Library

variable {s : CompileSettings} {t : FileTree} {l l' l'' : Library}

theorem get_insert (l : Library) (path : Text) (script : Script) (q : Text) :
    (l.insert path script).get? q = (l.get? q).or (if path = q then some script else none) := by
  unfold get? insert
  rw [List.find?_append, Option.map_or]
  congr 1
  by_cases same : path = q
  · simp [same]
  · simp [same]

/-- What the library gives for a path: a script that it keeps, or else that of the file. -/
def given (s : CompileSettings) (t : FileTree) (l : Library) (path : Text) :
    Except Breakdown Script :=
  match l.get? path with
  | some script => .ok script
  | none => s.own t path

theorem given_kept {path : Text} {script : Script} (kept : l.get? path = some script) :
    l.given s t path = .ok script := by
  simp [given, kept]

theorem given_own {path : Text} (absent : l.get? path = none) :
    l.given s t path = s.own t path := by
  simp [given, absent]

/-- A library that has come to keep scripts of the files. -/
structure Grown (s : CompileSettings) (t : FileTree) (l l' : Library) : Prop where
  kept : ∀ p x, l.get? p = some x → l'.get? p = some x
  new : ∀ p x, l'.get? p = some x → l.get? p = some x ∨ s.own t p = .ok x

namespace Grown

theorem refl (s : CompileSettings) (t : FileTree) (l : Library) : Grown s t l l :=
  ⟨fun _ _ kept => kept, fun _ _ kept => .inl kept⟩

theorem trans (first : Grown s t l l') (second : Grown s t l' l'') : Grown s t l l'' where
  kept p x found := second.kept p x (first.kept p x found)
  new p x found := (second.new p x found).elim (first.new p x) .inr

/-- Over the same files a library that has grown gives what it gave. -/
theorem given (grown : Grown s t l l') : l'.given s t = l.given s t := by
  funext p
  cases before : l.get? p with
  | some x => rw [given_kept before, given_kept (grown.kept p x before)]
  | none =>
      cases after : l'.get? p with
      | none => rw [given_own before, given_own after]
      | some x =>
          have own : s.own t p = .ok x :=
            (grown.new p x after).resolve_left (by simp [before])
          rw [given_own before, given_kept after, own]

end Grown

theorem fetch_result (l : Library) (path : Text) :
    (fetch s t l path).result = l.given s t path := by
  unfold fetch given CompileSettings.own
  cases l.get? path with
  | some script => rfl
  | none =>
      cases t.read path with
      | error problem => rfl
      | ok source =>
          simp only
          rcases s.compileSource t path source with ⟨b | script, log⟩ <;> rfl

theorem fetch_get (l : Library) (path q : Text) :
    (fetch s t l path).library.get? q =
      (l.get? q).or (if path = q then (l.given s t path).toOption else none) := by
  unfold fetch given CompileSettings.own
  cases kept : l.get? path with
  | some script =>
      simp only [Except.toOption]
      by_cases same : path = q
      · simp [← same, kept]
      · simp [same]
  | none =>
      simp only
      cases read : t.read path with
      | error problem => simp [Except.toOption]
      | ok source =>
          simp only
          rcases compiled : s.compileSource t path source with ⟨b | script, log⟩
          · simp [Except.toOption]
          · simp only [Except.toOption]
            rw [get_insert]

theorem fetch_untouched {path q : Text} (other : path ≠ q) :
    (fetch s t l path).library.get? q = l.get? q := by
  simp [fetch_get, other]

theorem fetch_grown (l : Library) (path : Text) : Grown s t l (fetch s t l path).library where
  kept q x kept := by simp [fetch_get, kept]
  new q x found := by
    rw [fetch_get, Option.or_eq_some_iff] at found
    rcases found with kept | ⟨absent, new⟩
    · exact .inl kept
    · split at new
      · next same =>
          subst same
          rw [given_own absent] at new
          right
          cases own : s.own t path with
          | error b => simp [own, Except.toOption] at new
          | ok y =>
              simp only [own, Except.toOption, Option.some.injEq] at new
              rw [new]
      · cases new

theorem fetch_keeps {path : Text} {script : Script} (found : l.given s t path = .ok script) :
    (fetch s t l path).library.get? path = some script := by
  rw [fetch_get, found]
  cases kept : l.get? path with
  | none => simp [Except.toOption]
  | some other =>
      rw [given_kept kept] at found
      cases found
      rfl

/-- What fetching inclusions comes to: the library grows, the paths on the chain are left as they
are, and after a success whatever was reached is kept. -/
structure Fetched (s : CompileSettings) (t : FileTree) (chain : List Text) (l : Library)
    (reached : Text → Prop) (step : Except Breakdown Unit) (c : Compiled Unit) : Prop where
  result : c.result = step
  grown : Grown s t l c.library
  untouched : ∀ p ∈ chain, c.library.get? p = l.get? p
  kept : c.result = .ok () → ∀ q, reached q → ∃ x, c.library.get? q = some x

theorem visit_all_fetched {at' : Text → Except Breakdown Script} {chain : List Text}
    {one : Library → Inclusion → Compiled Unit} {reached : Inclusion → Text → Prop}
    {step : Inclusion → Except Breakdown Unit} {is : List Inclusion}
    (each : ∀ l, l.given s t = at' → ∀ i ∈ is, Fetched s t chain l (reached i) (step i) (one l i))
    (l : Library) (same : l.given s t = at') :
    Fetched s t chain l (fun q => ∃ i ∈ is, reached i q) (forM is step) (visitAll one l is) := by
  induction is generalizing l with
  | nil => exact ⟨rfl, .refl s t l, fun _ _ => rfl, by simp⟩
  | cons i rest ih =>
      have first := each l same i (by simp)
      have others := ih (fun l same i member => each l same i (by simp [member])) (one l i).library
        (first.grown.given.trans same)
      rw [List.forM_cons, ← first.result]
      unfold visitAll
      cases ended : (one l i).result with
      | error b =>
          simp only [ended]
          exact ⟨rfl, first.grown, first.untouched, by rintro ⟨⟩⟩
      | ok u =>
          simp only [ended]
          refine ⟨others.result, first.grown.trans others.grown, ?_, ?_⟩
          · intro p member
            exact (others.untouched p member).trans (first.untouched p member)
          · rintro done q ⟨j, member, reaches⟩
            rcases List.mem_cons.mp member with rfl | later
            · obtain ⟨x, kept⟩ := first.kept ended q reaches
              exact ⟨x, others.grown.kept q x kept⟩
            · exact others.kept done q ⟨j, later, reaches⟩

section FetchOne

variable (below : Library → Script → List Text → Compiled Unit) (script : Script)
  {chain : List Text} {i : Inclusion}

theorem fetch_one_result : (fetchOne s t below script chain l i).result =
    visit (l.given s t) (fun child chain =>
      (below (fetch s t l i.resolved).library child chain).result) script chain i := by
  unfold visit
  by_cases circle : chain.contains i.resolved = true
  · simp only [fetchOne, circle, ↓reduceIte]
  · simp only [fetchOne, circle, Bool.false_eq_true, ↓reduceIte, fetch_result]
    cases l.given s t i.resolved with
    | error b => cases b <;> rfl
    | ok child =>
        simp only
        generalize below _ child _ = rest
        rcases rest with ⟨b | u, after, log⟩
        · cases b <;> rfl
        · rfl

theorem fetch_one_circle (circle : i.resolved ∈ chain) :
    (fetchOne s t below script chain l i).library = l := by
  simp [fetchOne, circle]

theorem fetch_one_error {b : Breakdown} (fresh : i.resolved ∉ chain)
    (broke : l.given s t i.resolved = .error b) :
    (fetchOne s t below script chain l i).library = (fetch s t l i.resolved).library := by
  simp only [fetchOne, List.contains_eq_mem, fresh, decide_false, Bool.false_eq_true, ↓reduceIte,
    fetch_result, broke]
  cases b <;> rfl

theorem fetch_one_child {child : Script} (fresh : i.resolved ∉ chain)
    (found : l.given s t i.resolved = .ok child) :
    (fetchOne s t below script chain l i).library =
      (below (fetch s t l i.resolved).library child (chain ++ [i.resolved])).library := by
  simp only [fetchOne, List.contains_eq_mem, fresh, decide_false, Bool.false_eq_true, ↓reduceIte,
    fetch_result, found]
  split <;> rfl

end FetchOne

theorem fetch_one_fetched {below : Library → Script → List Text → Compiled Unit}
    {walked : Script → List Text → Except Breakdown Unit} {script : Script} {chain : List Text}
    {i : Inclusion} {at' : Text → Except Breakdown Script} (same : l.given s t = at')
    (onward : ∀ l child chain, l.given s t = at' → Fetched s t chain l
      (Reaches (scriptAt at') child) (walked child chain) (below l child chain)) :
    Fetched s t chain l
      (fun q => q = i.resolved ∨
        ∃ child, at' i.resolved = .ok child ∧ Reaches (scriptAt at') child q)
      (visit at' walked script chain i) (fetchOne s t below script chain l i) := by
  have fetched := fetch_grown (s := s) (t := t) l i.resolved
  have result : (fetchOne s t below script chain l i).result =
      visit at' walked script chain i := by
    rw [fetch_one_result, same]
    congr 1
    funext child chain
    exact (onward _ child chain (fetched.given.trans same)).result
  -- A path on the chain is refused before anything is fetched, so the chain stays untouched.
  by_cases circle : i.resolved ∈ chain
  · refine ⟨result, ?_, ?_, ?_⟩
    · rw [fetch_one_circle below script circle]
      exact .refl s t l
    · intro p among
      rw [fetch_one_circle below script circle]
    · intro done
      exact absurd circle (visit_ok_iff.mp (result ▸ done)).1
  · have apart : ∀ p ∈ chain, (fetch s t l i.resolved).library.get? p = l.get? p := by
      intro p among
      exact fetch_untouched fun alike => circle (alike ▸ among)
    cases found : at' i.resolved with
    | error b =>
        have library := fetch_one_error below script circle (same ▸ found)
        refine ⟨result, library ▸ fetched, library ▸ apart, ?_⟩
        intro done
        obtain ⟨-, child, other, -⟩ := visit_ok_iff.mp (result ▸ done)
        rw [found] at other
        cases other
    | ok child =>
        have library := fetch_one_child below script circle (same ▸ found)
        have rest := onward (fetch s t l i.resolved).library child (chain ++ [i.resolved])
          (fetched.given.trans same)
        refine ⟨result, library ▸ fetched.trans rest.grown, ?_, ?_⟩
        · intro p among
          rw [library, rest.untouched p (List.mem_append_left _ among), apart p among]
        · intro done
          obtain ⟨-, other, again, ended⟩ := visit_ok_iff.mp (result ▸ done)
          rw [found] at again
          cases again
          rw [library]
          rintro q (rfl | ⟨other, again, further⟩)
          · exact ⟨child, rest.grown.kept _ _ (fetch_keeps (same ▸ found))⟩
          · cases again
            exact rest.kept (rest.result.trans ended) q further

/-- Compiling what a script includes is a walk over what the library gives. -/
theorem fetch_inclusions_walk (fuel : Nat) (l : Library) (script : Script) (chain : List Text) :
    Fetched s t chain l (Reaches (scriptAt (l.given s t)) script)
      (walk (l.given s t) fuel script chain) (fetchInclusions s t fuel l script chain) := by
  induction fuel generalizing l script chain with
  | zero => exact ⟨rfl, .refl s t l, fun _ _ => rfl, by rintro ⟨⟩⟩
  | succ fuel ih =>
      generalize known : l.given s t = at'
      have all : Fetched s t chain l
          (fun q => ∃ i ∈ script.inclusions, q = i.resolved ∨
            ∃ child, at' i.resolved = .ok child ∧ Reaches (scriptAt at') child q)
          (forM script.inclusions (visit at' (walk at' fuel) script chain))
          (fetchInclusions s t (fuel + 1) l script chain) := by
        refine visit_all_fetched ?_ l known
        intro l same i _
        exact fetch_one_fetched same fun l child chain same => same ▸ ih l child chain
      refine ⟨all.result, all.grown, all.untouched, ?_⟩
      intro done q reaches
      refine all.kept done q ?_
      cases reaches with
      | direct member => exact ⟨_, member, .inl rfl⟩
      | through member found further => exact ⟨_, member, .inr ⟨_, script_at_iff.mp found, further⟩⟩

def Resolved (l : Library) : Prop := ∀ p x, l.get? p = some x → x.Resolved

theorem given_resolved (resolved : l.Resolved) {p : Text} {x : Script}
    (found : l.given s t p = .ok x) : x.Resolved := by
  cases kept : l.get? p with
  | some y =>
      rw [given_kept kept] at found
      cases found
      exact resolved p x kept
  | none =>
      rw [given_own kept] at found
      exact (own_ok found).2

theorem Grown.resolved (grown : Grown s t l l') (resolved : l.Resolved) : l'.Resolved := by
  intro p x kept
  rcases grown.new p x kept with before | own
  · exact resolved p x before
  · exact (own_ok own).2

theorem reaches_clean {at' : Text → Except Breakdown Script}
    (resolved : ∀ p x, at' p = .ok x → x.Resolved) {script : Script} (start : script.Resolved)
    {q : Text} (reaches : Reaches (scriptAt at') script q) : Path.IsClean q := by
  induction reaches with
  | direct member => exact start.paths _ member
  | through member found _ ih => exact ih (resolved _ _ (script_at_iff.mp found))

theorem given_reaches_clean (resolved : l.Resolved) {script : Script} (start : script.Resolved)
    {q : Text} (reaches : Reaches (scriptAt (l.given s t)) script q) : Path.IsClean q :=
  reaches_clean (fun _ _ => given_resolved resolved) start reaches

/-- A clean path with a script is that of a file or of a script that is kept. -/
theorem given_finite {q : Text} {x : Script} (clean : Path.IsClean q)
    (found : l.given s t q = .ok x) :
    q ∈ l.scripts.map Prod.fst ++ t.files.map fun entry => FileTree.pathOf entry.1 := by
  cases kept : l.get? q with
  | some y =>
      obtain ⟨entry, first, -⟩ := Option.map_eq_some_iff.mp kept
      have named : entry.1 = q := by simpa using List.find?_some first
      have among := List.mem_of_find?_eq_some first
      exact List.mem_append_left _ (List.mem_map.mpr ⟨entry, among, named⟩)
  | none =>
      rw [given_own kept] at found
      obtain ⟨⟨source, read, -⟩, -⟩ := own_ok found
      exact List.mem_append_right _ (FileTree.read_clean clean read)

theorem given_not_out_of_fuel (l : Library) (p : Text) : l.given s t p ≠ .error .outOfFuel := by
  cases kept : l.get? p with
  | some x => simp [given_kept kept]
  | none =>
      rw [given_own kept]
      exact own_not_out_of_fuel s t p

theorem given_walk_ends {script : Script} {path : Text} {fuel : Nat}
    (clean : ∀ q, Reaches (scriptAt (l.given s t)) script q → Path.IsClean q)
    (enough : chainBound t l ≤ fuel) :
    walk (l.given s t) fuel script [path] ≠ .error .outOfFuel := by
  refine walk_ends (l.scripts.map Prod.fst ++ t.files.map fun entry => FileTree.pathOf entry.1)
    ?_ (given_not_out_of_fuel l) (List.nodup_singleton path) (by simp) (by simp) ?_
  · intro q x reaches found
    exact given_finite (clean q reaches) found
  · simp only [List.length_append, List.length_map, List.length_singleton]
    unfold chainBound at enough
    omega

/-- What a script and its inclusions come to, after the script itself has. -/
theorem with_inclusions_ok {one : Compiled Script} {script : Script} (path : Text)
    (compiled : one.result = .ok script) :
    (withInclusions s t path one).result =
        (walk (one.library.given s t) (chainBound t one.library) script [path]).map
          (fun _ => script) ∧
      Grown s t one.library (withInclusions s t path one).library ∧
      (withInclusions s t path one).library.get? path = one.library.get? path ∧
      ∀ x, (withInclusions s t path one).result = .ok x → x = script ∧
        ∀ q, Reaches (scriptAt (one.library.given s t)) script q →
          ∃ y, (withInclusions s t path one).library.get? q = some y := by
  have all := fetch_inclusions_walk (s := s) (t := t) (chainBound t one.library) one.library script
    [path]
  unfold withInclusions
  simp only [compiled]
  refine ⟨by rw [all.result], all.grown, all.untouched path (by simp), ?_⟩
  intro x done
  obtain ⟨⟨⟩, ended, rfl⟩ := map_ok_exists done
  exact ⟨rfl, all.kept ended⟩

theorem with_inclusions_error {one : Compiled Script} {b : Breakdown} (path : Text)
    (broke : one.result = .error b) : withInclusions s t path one = one := by
  simp [withInclusions, broke]

theorem with_inclusions_walk {one : Compiled Script} {script : Script} (path : Text)
    (compiled : one.result = .ok script)
    (clean : ∀ q, Reaches (scriptAt (one.library.given s t)) script q → Path.IsClean q) :
    ∃ fuel, (withInclusions s t path one).result =
        (walk (one.library.given s t) fuel script [path]).map (fun _ => script) ∧
      walk (one.library.given s t) fuel script [path] ≠ .error .outOfFuel :=
  ⟨chainBound t one.library, (with_inclusions_ok path compiled).1,
    given_walk_ends clean (Nat.le_refl _)⟩

theorem with_inclusions_ends {one : Compiled Script} (path : Text) (resolved : one.library.Resolved)
    (start : ∀ x, one.result = .ok x → x.Resolved) (ends : one.result ≠ .error .outOfFuel) :
    (withInclusions s t path one).result ≠ .error .outOfFuel := by
  cases compiled : one.result with
  | error b =>
      rw [with_inclusions_error path compiled]
      exact ends
  | ok script =>
      obtain ⟨fuel, result, ends⟩ := with_inclusions_walk path compiled fun q reaches =>
        given_reaches_clean resolved (start script compiled) reaches
      rw [result]
      cases walked : walk (one.library.given s t) fuel script [path] with
      | ok u => simp [Except.map]
      | error b =>
          rw [walked] at ends
          simpa [Except.map] using ends

end Library
end DeviceScript

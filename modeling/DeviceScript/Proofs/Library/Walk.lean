import DeviceScript.Proofs.Library.Inclusions
import Mathlib.Data.List.Perm.Subperm

/-!
The walk through what a script includes, over scripts that are given. A walk that succeeds has met
no circle anywhere below the script; one that fails has met a path without a script or a circle.
Paths that can be walked are finite in number, and no path stands twice on one chain, so the walk
comes to its end.
-/

namespace DeviceScript

open Text

/-- How a script tells what broke down in one that it includes. -/
def Breakdown.framed (script : Script) (i : Inclusion) : Breakdown → Breakdown
  | .fault f => .fault (Library.framed script i f)
  | other => other

/-- One inclusion on a walk: a circle, a path without a script, or a script to walk on from. -/
def visit (at' : Text → Except Breakdown Script)
    (below : Script → List Text → Except Breakdown Unit) (script : Script) (chain : List Text)
    (i : Inclusion) : Except Breakdown Unit :=
  if chain.contains i.resolved then .error (.fault (Library.circle script i chain))
  else
    match at' i.resolved with
    | .error breakdown => .error (breakdown.framed script i)
    | .ok child => (below child (chain ++ [i.resolved])).mapError (.framed script i)

/-- The walk through the inclusions of a script. `chain` holds the paths on the way to it. -/
def walk (at' : Text → Except Breakdown Script) : Nat → Script → List Text → Except Breakdown Unit
  | 0, _, _ => .error .outOfFuel
  | fuel + 1, script, chain => forM script.inclusions (visit at' (walk at' fuel) script chain)

/-- The paths that a script leads to over the scripts that `find` gives. -/
inductive Reaches (find : Text → Option Script) : Script → Text → Prop
  | direct {script : Script} {i : Inclusion} (member : i ∈ script.inclusions) :
      Reaches find script i.resolved
  | through {script child : Script} {i : Inclusion} {path : Text} (member : i ∈ script.inclusions)
      (found : find i.resolved = some child) (further : Reaches find child path) :
      Reaches find script path

def Circles (find : Text → Option Script) (path : Text) : Prop :=
  ∃ script, find path = some script ∧ Reaches find script path

/-- The script at a path where compiling comes to one. -/
def scriptAt (at' : Text → Except Breakdown Script) (path : Text) : Option Script :=
  (at' path).toOption

@[simp] theorem script_at_iff {at' : Text → Except Breakdown Script} {path : Text} {x : Script} :
    scriptAt at' path = some x ↔ at' path = .ok x := by
  unfold scriptAt
  cases at' path <;> simp [Except.toOption]

def Fault.TellsCircle (f : Fault) : Prop :=
  ∃ r rest, f.report? = some r ∧ r.kind = .syntaxError ∧
    r.text = ofString "circular include: " ++ rest

section ForM

variable {α ε : Type} {f g : α → Except ε Unit} {xs : List α}

theorem forM_ok_iff : forM xs f = .ok () ↔ ∀ x ∈ xs, f x = .ok () := by
  induction xs with
  | nil => simp [pure, Except.pure]
  | cons x rest ih =>
      rw [List.forM_cons, List.forall_mem_cons, ← ih]
      cases f x with
      | error e => simp [bind, Except.bind]
      | ok u => simp [bind, Except.bind]

theorem forM_error {e : ε} (broke : forM xs f = .error e) : ∃ x ∈ xs, f x = .error e := by
  induction xs with
  | nil => cases broke
  | cons x rest ih =>
      rw [List.forM_cons] at broke
      cases first : f x with
      | error other =>
          rw [first] at broke
          cases broke
          exact ⟨x, by simp, first⟩
      | ok u =>
          rw [first] at broke
          obtain ⟨y, member, same⟩ := ih broke
          exact ⟨y, by simp [member], same⟩

theorem forM_same {e : ε} (same : ∀ x ∈ xs, f x ≠ .error e → g x = f x)
    (other : forM xs f ≠ .error e) : forM xs g = forM xs f := by
  induction xs with
  | nil => rfl
  | cons x rest ih =>
      rw [List.forM_cons] at other
      rw [List.forM_cons, List.forM_cons]
      cases first : f x with
      | error b =>
          rw [first] at other
          rw [same x (by simp) (first ▸ other), first]
          rfl
      | ok u =>
          rw [first] at other
          rw [same x (by simp) (by simp [first]), first]
          exact ih (fun y member => same y (by simp [member])) other

end ForM

section Walk

variable {at' : Text → Except Breakdown Script} {script : Script} {chain : List Text}

theorem reaches_trans {find : Text → Option Script} {q r : Text} {x : Script}
    (first : Reaches find script q) (found : find q = some x) (second : Reaches find x r) :
    Reaches find script r := by
  induction first with
  | direct member => exact .through member found second
  | through member opened _ ih => exact .through member opened (ih found)

theorem reaches_mono {find other : Text → Option Script} {path : Text}
    (more : ∀ p x, find p = some x → other p = some x) (reaches : Reaches find script path) :
    Reaches other script path := by
  induction reaches with
  | direct member => exact .direct member
  | through member found _ ih => exact .through member (more _ _ found) ih

theorem visit_ok_iff {below : Script → List Text → Except Breakdown Unit} {i : Inclusion} :
    visit at' below script chain i = .ok () ↔
      i.resolved ∉ chain ∧ ∃ child, at' i.resolved = .ok child ∧
        below child (chain ++ [i.resolved]) = .ok () := by
  unfold visit
  by_cases circle : i.resolved ∈ chain
  · simp [circle]
  · cases found : at' i.resolved with
    | error b => simp [circle]
    | ok child =>
        cases on : below child (chain ++ [i.resolved]) <;> simp [circle, on, Except.mapError]

theorem visit_error {below : Script → List Text → Except Breakdown Unit} {i : Inclusion}
    {b : Breakdown} (failed : visit at' below script chain i = .error b) :
    i.resolved ∈ chain ∧ b = .fault (Library.circle script i chain) ∨
      i.resolved ∉ chain ∧
        ((∃ e, at' i.resolved = .error e ∧ b = e.framed script i) ∨
          ∃ child e, at' i.resolved = .ok child ∧
            below child (chain ++ [i.resolved]) = .error e ∧ b = e.framed script i) := by
  unfold visit at failed
  by_cases circle : i.resolved ∈ chain
  · simp only [List.contains_eq_mem, circle, decide_true, ↓reduceIte,
      Except.error.injEq] at failed
    exact .inl ⟨circle, failed.symm⟩
  · simp only [List.contains_eq_mem, circle, decide_false, Bool.false_eq_true,
      ↓reduceIte] at failed
    refine .inr ⟨circle, ?_⟩
    cases found : at' i.resolved with
    | error e =>
        simp only [found, Except.error.injEq] at failed
        exact .inl ⟨e, rfl, failed.symm⟩
    | ok child =>
        simp only [found] at failed
        cases on : below child (chain ++ [i.resolved]) with
        | ok u => simp [on, Except.mapError] at failed
        | error e =>
            simp only [on, Except.mapError, Except.error.injEq] at failed
            exact .inr ⟨child, e, rfl, on, failed.symm⟩

theorem walk_ok {fuel : Nat} (ended : walk at' fuel script chain = .ok ()) {path : Text}
    (reaches : Reaches (scriptAt at') script path) :
    path ∉ chain ∧ (∃ x, at' path = .ok x) ∧ ¬ Circles (scriptAt at') path := by
  induction fuel generalizing script chain path with
  | zero => cases ended
  | succ fuel ih =>
      have visited := forM_ok_iff.mp ended
      cases reaches with
      | direct member =>
          obtain ⟨fresh, child, found, below⟩ := visit_ok_iff.mp (visited _ member)
          refine ⟨fresh, ⟨child, found⟩, ?_⟩
          rintro ⟨again, same, circle⟩
          rw [script_at_iff, found] at same
          cases same
          exact absurd (by simp) (ih below circle).1
      | through member found further =>
          obtain ⟨-, child, same, below⟩ := visit_ok_iff.mp (visited _ member)
          rw [script_at_iff, same] at found
          cases found
          obtain ⟨apart, rest⟩ := ih below further
          exact ⟨fun among => apart (by simp [among]), rest⟩

theorem framed_tells_circle {i : Inclusion} {f : Fault} (tells : f.TellsCircle) :
    (Library.framed script i f).TellsCircle := by
  obtain ⟨r, rest, reported, kind, text⟩ := tells
  refine ⟨r.addFrame ⟨script.path, i.line, -1⟩, rest, ?_, kind, text⟩
  simp [Library.framed, reported, Fault.report?]

/-- The paths on the chain are those that lead to the script. -/
def LeadTo (at' : Text → Except Breakdown Script) (chain : List Text) (script : Script) : Prop :=
  ∀ p ∈ chain, ∃ x, at' p = .ok x ∧
    ∀ q, Reaches (scriptAt at') script q → Reaches (scriptAt at') x q

theorem lead_to_root {root : Text} (start : at' root = .ok script) : LeadTo at' [root] script := by
  intro p among
  rw [List.mem_singleton.mp among]
  exact ⟨script, start, fun _ reaches => reaches⟩

theorem LeadTo.onward (leads : LeadTo at' chain script) {i : Inclusion}
    (member : i ∈ script.inclusions) {child : Script} (found : at' i.resolved = .ok child) :
    LeadTo at' (chain ++ [i.resolved]) child := by
  intro p among
  rcases List.mem_append.mp among with before | last
  · obtain ⟨x, stands, leadsOn⟩ := leads p before
    exact ⟨x, stands, fun q further => leadsOn q (.through member (script_at_iff.mpr found) further)⟩
  · rw [List.mem_singleton.mp last]
    exact ⟨child, found, fun _ further => further⟩

theorem walk_error {fuel : Nat} {b : Breakdown} (leads : LeadTo at' chain script)
    (broke : walk at' fuel script chain = .error b) :
    b = .outOfFuel ∨ (∃ q e, Reaches (scriptAt at') script q ∧ at' q = .error e) ∨
      (∃ f, b = .fault f ∧ f.TellsCircle) ∧
        ∃ q, (q ∈ chain ∨ Reaches (scriptAt at') script q) ∧ Circles (scriptAt at') q := by
  induction fuel generalizing script chain b with
  | zero =>
      cases broke
      exact .inl rfl
  | succ fuel ih =>
      obtain ⟨i, member, failed⟩ := forM_error broke
      rcases visit_error failed with
        ⟨circle, rfl⟩ | ⟨-, ⟨e, missing, -⟩ | ⟨child, e, found, below, rfl⟩⟩
      · obtain ⟨x, found, onward⟩ := leads _ circle
        refine .inr (.inr ⟨⟨_, rfl, _, _, rfl, rfl, rfl⟩, i.resolved, .inl circle, x,
          script_at_iff.mpr found, ?_⟩)
        exact onward _ (.direct member)
      · exact .inr (.inl ⟨i.resolved, e, .direct member, missing⟩)
      · have onward {q : Text} (further : Reaches (scriptAt at') child q) :
            Reaches (scriptAt at') script q :=
          .through member (script_at_iff.mpr found) further
        rcases ih (leads.onward member found) below with
          rfl | ⟨q, e, further, missing⟩ | ⟨⟨f, rfl, tells⟩, q, near, circles⟩
        · exact .inl rfl
        · exact .inr (.inl ⟨q, e, onward further, missing⟩)
        · refine .inr (.inr ⟨⟨_, rfl, framed_tells_circle tells⟩, q, ?_, circles⟩)
          rcases near with among | further
          · rcases List.mem_append.mp among with before | last
            · exact .inl before
            · rw [List.mem_singleton.mp last]
              exact .inr (.direct member)
          · exact .inr (onward further)

theorem framed_fault {i : Inclusion} {b : Breakdown} {f : Fault}
    (told : .fault f = b.framed script i) :
    ∃ g, b = .fault g ∧ f = Library.framed script i g := by
  cases b with
  | fault g => exact ⟨g, rfl, Breakdown.fault.inj told⟩
  | crash => cases told
  | outOfFuel => cases told

/-- Only faults are told anew. -/
theorem framed_eq {i : Inclusion} {b c : Breakdown} (framed : c = b.framed script i)
    (other : ∀ f, c ≠ .fault f) : b = c := by
  cases b with
  | fault f => exact absurd framed (other _)
  | _ => exact framed.symm

theorem walk_more {fuel : Nat} (enough : walk at' fuel script chain ≠ .error .outOfFuel) :
    walk at' (fuel + 1) script chain = walk at' fuel script chain := by
  induction fuel generalizing script chain with
  | zero => exact absurd rfl enough
  | succ fuel ih =>
      refine forM_same ?_ enough
      intro i _ other
      unfold visit at other ⊢
      split
      · rfl
      · next fresh =>
          rw [if_neg fresh] at other
          split
          · rfl
          · next child found =>
              rw [found] at other
              cases below : walk at' fuel child (chain ++ [i.resolved]) with
              | ok u => rw [ih (by simp [below]), below]
              | error b =>
                  have going : b ≠ .outOfFuel := by
                    rintro rfl
                    simp [below, Except.mapError, Breakdown.framed] at other
                  rw [ih (by simpa [below] using going), below]

theorem walk_enough {fuel more : Nat} (enough : walk at' fuel script chain ≠ .error .outOfFuel)
    (le : fuel ≤ more) : walk at' more script chain = walk at' fuel script chain := by
  induction le with
  | refl => rfl
  | step _ ih => rw [walk_more (ih ▸ enough), ih]

/-- A walk over finitely many paths ends: no path stands twice on a chain. -/
theorem walk_ends {fuel : Nat} (all : List Text)
    (finite : ∀ q x, Reaches (scriptAt at') script q → at' q = .ok x → q ∈ all)
    (bounded : ∀ q, at' q ≠ .error .outOfFuel) (distinct : chain.Nodup)
    (within : ∀ p ∈ chain.tail, p ∈ all) (started : chain ≠ [])
    (enough : all.length + 2 ≤ fuel + chain.length) :
    walk at' fuel script chain ≠ .error .outOfFuel := by
  induction fuel generalizing script chain with
  | zero =>
      -- The bound is used up only by a chain that is longer than there are paths.
      have short : chain.tail.length ≤ all.length :=
        (List.subperm_of_subset distinct.tail within).length_le
      have length : chain.length = chain.tail.length + 1 := by
        cases chain with
        | nil => exact absurd rfl started
        | cons => rfl
      omega
  | succ fuel ih =>
      intro broke
      obtain ⟨i, member, failed⟩ := forM_error broke
      rcases visit_error failed with
        ⟨-, told⟩ | ⟨fresh, ⟨e, missing, framed⟩ | ⟨child, e, found, below, framed⟩⟩
      · cases told
      · exact bounded i.resolved (framed_eq framed nofun ▸ missing)
      · refine ih ?_ ?_ ?_ ?_ ?_ (framed_eq framed nofun ▸ below)
        · intro q x further
          exact finite q x (.through member (script_at_iff.mpr found) further)
        · exact distinct.append (List.nodup_singleton _) (by simpa using fresh)
        · rw [List.tail_append_of_ne_nil started]
          intro p among
          rcases List.mem_append.mp among with before | last
          · exact within p before
          · rw [List.mem_singleton.mp last]
            exact finite _ child (.direct member) found
        · simp
        · simp only [List.length_append, List.length_singleton]
          omega

theorem walk_ok_root {fuel : Nat} {root q : Text} (start : at' root = .ok script)
    (ended : walk at' fuel script [root] = .ok ())
    (leads : q = root ∨ Reaches (scriptAt at') script q) : ¬ Circles (scriptAt at') q := by
  rcases leads with rfl | reaches
  · rintro ⟨again, same, circle⟩
    rw [script_at_iff, start] at same
    cases same
    exact absurd (by simp) (walk_ok ended circle).1
  · exact (walk_ok ended reaches).2.2

/-- A walk from a script to which all scripts are given: it meets a circle, or there is none. -/
theorem walk_root {fuel : Nat} {root : Text} (start : at' root = .ok script)
    (ends : walk at' fuel script [root] ≠ .error .outOfFuel)
    (whole : ∀ q, Reaches (scriptAt at') script q → ∃ x, at' q = .ok x) :
    walk at' fuel script [root] = .ok () ∧
        (∀ q, q = root ∨ Reaches (scriptAt at') script q → ¬ Circles (scriptAt at') q) ∨
      (∃ f, walk at' fuel script [root] = .error (.fault f) ∧ f.TellsCircle) ∧
        ∃ q, (q = root ∨ Reaches (scriptAt at') script q) ∧ Circles (scriptAt at') q := by
  cases ended : walk at' fuel script [root] with
  | ok u =>
      exact .inl ⟨rfl, fun q leads => walk_ok_root start ended leads⟩
  | error b =>
      rcases walk_error (lead_to_root start) ended with
        rfl | ⟨q, e, reaches, missing⟩ | ⟨⟨f, rfl, tells⟩, q, near, circles⟩
      · exact absurd ended ends
      · obtain ⟨x, found⟩ := whole q reaches
        rw [missing] at found
        cases found
      · refine .inr ⟨⟨f, rfl, tells⟩, q, ?_, circles⟩
        simpa using near

end Walk
end DeviceScript

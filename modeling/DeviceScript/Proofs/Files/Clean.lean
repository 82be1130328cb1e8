import DeviceScript.Files.Tree
import DeviceScript.Proofs.Source.Lines

/-!
Clean paths. A path seen from a working directory is clean, a clean path stays as it is, and it
leads to the one file that has its components.
-/

namespace DeviceScript

open Text

namespace Path

/-- A component that leads one level down. -/
def IsStep (component : Text) : Prop :=
  component ≠ [] ∧ component ≠ ofString "." ∧ component ≠ ofString ".." ∧ slash ∉ component

/-- A path from the root that takes no detours. -/
def IsClean (p : Text) : Prop :=
  ∃ components, p = FileTree.pathOf components ∧ ∀ c ∈ components, IsStep c

theorem join_component_steps {before : List Text} {component : Text}
    (steps : ∀ c ∈ before, IsStep c) (whole : slash ∉ component) :
    ∀ c ∈ joinComponent true before component, IsStep c := by
  unfold joinComponent
  split
  · exact steps
  · next present =>
      split
      · -- Whatever was joined before leads down, so a double dot takes it back.
        cases before with
        | nil => simp
        | cons last rest =>
            have down : ¬ (last == ofString "..") = true := by
              simpa using (steps last (by simp)).2.2.1
            simp only [down, Bool.false_eq_true, ↓reduceIte]
            exact fun c member => steps c (by simp [member])
      · next forward =>
          simp only [Bool.or_eq_true, List.isEmpty_iff, beq_iff_eq, not_or] at present forward
          intro c member
          rcases List.mem_cons.mp member with rfl | earlier
          · exact ⟨present.1, present.2, forward, whole⟩
          · exact steps c earlier

theorem fold_components_steps (parts before : List Text) (steps : ∀ c ∈ before, IsStep c)
    (whole : ∀ part ∈ parts, slash ∉ part) :
    ∀ c ∈ parts.foldl (joinComponent true) before, IsStep c := by
  induction parts generalizing before with
  | nil => exact steps
  | cons part rest ih =>
      exact ih _ (join_component_steps steps (whole part (by simp)))
        fun p member => whole p (by simp [member])

theorem clean_is_clean {p : Text} (rooted : isAbsolute p = true) : IsClean (clean p) := by
  refine ⟨((splitOn slash p).foldl (joinComponent true) []).reverse,
    by simp [clean, rooted]; rfl, ?_⟩
  intro c member
  exact fold_components_steps _ [] (by simp) (split_on_parts slash p) c (List.mem_reverse.mp member)

theorem absolute_is_clean (cwd : List Text) (p : Text) :
    IsClean (absolute (FileTree.pathOf cwd) p) := by
  unfold absolute
  split
  · next rooted => exact clean_is_clean rooted
  · have rooted (rest : Text) : isAbsolute (FileTree.pathOf cwd ++ rest) = true := rfl
    cases p with
    | nil => exact clean_is_clean (by simpa using rooted [])
    | cons first others =>
        refine clean_is_clean (p := FileTree.pathOf cwd ++ [slash] ++ first :: others) ?_
        rw [List.append_assoc]
        exact rooted _

theorem fold_steps (components before : List Text) (steps : ∀ c ∈ components, IsStep c) :
    components.foldl (joinComponent true) before = components.reverse ++ before := by
  induction components generalizing before with
  | nil => rfl
  | cons c rest ih =>
      obtain ⟨present, noDot, noDots, -⟩ := steps c (by simp)
      have joined : joinComponent true before c = c :: before := by
        simp [joinComponent, present, noDot, noDots]
      rw [List.foldl_cons, joined, ih _ fun c member => steps c (by simp [member])]
      simp

theorem split_path_of {components : List Text} (steps : ∀ c ∈ components, IsStep c) :
    splitOn slash (FileTree.pathOf components) =
      [] :: if components = [] then [[]] else components := by
  have split : splitOn slash (FileTree.pathOf components) =
      [] :: splitOn slash (joinWith [slash] components) := by
    rw [FileTree.pathOf, splitOn]
    simp
  rw [split]
  congr 1
  by_cases none : components = []
  · simp [none, joinWith, splitOn]
  · rw [if_neg none]
    exact split_on_join slash components none fun c member => (steps c member).2.2.2

theorem absolute_of_clean (cwd : Text) {p : Text} (clean : IsClean p) : absolute cwd p = p := by
  obtain ⟨components, rfl, steps⟩ := clean
  have rooted : isAbsolute (FileTree.pathOf components) = true := rfl
  simp only [absolute, Path.clean, rooted, ↓reduceIte, split_path_of steps]
  by_cases none : components = []
  · subst none
    rfl
  · rw [if_neg none, List.foldl_cons, show joinComponent true [] [] = [] from rfl,
      fold_steps components [] steps]
    simp [FileTree.pathOf]

end Path

namespace FileTree

open DeviceScript.Path

variable {t : FileTree}

def absolute (t : FileTree) (p : Text) : Text := Path.absolute (pathOf t.cwd) p

theorem absolute_clean (t : FileTree) {p : Text} (clean : IsClean p) : t.absolute p = p :=
  Path.absolute_of_clean _ clean

theorem content_mem {at' : List Text} {content : Text} (found : t.content? at' = some content) :
    at' ∈ t.files.map Prod.fst := by
  unfold content? at found
  obtain ⟨entry, first, -⟩ := Option.map_eq_some_iff.mp found
  have named : entry.1 = at' := by simpa using List.find?_some first
  exact List.mem_map.mpr ⟨entry, List.mem_of_find?_eq_some first, named⟩

theorem follow_steps {here components : List Text} (steps : ∀ c ∈ components, IsStep c)
    {at' : List Text} {content : Text}
    (found : t.follow here components = .ok (.file at' content)) :
    at' = here ++ components ∧ at' ∈ t.files.map Prod.fst := by
  induction components generalizing here with
  | nil => cases found
  | cons c rest ih =>
      obtain ⟨present, noDot, noDots, -⟩ := steps c (by simp)
      have down : (c.isEmpty || c == ofString ".") = false ∧ (c == ofString "..") = false := by
        simp [present, noDot, noDots]
      rw [follow] at found
      simp only [down, Bool.false_eq_true, ↓reduceIte] at found
      split at found
      · cases found
      · split at found
        · obtain ⟨same, member⟩ := ih (fun c member => steps c (by simp [member])) found
          exact ⟨by simpa using same, member⟩
        · split at found
          · cases found
          · next content stands =>
              split at found
              · next last =>
                  cases found
                  rw [List.isEmpty_iff] at last
                  exact ⟨by simp [last], content_mem stands⟩
              · cases found

/-- A clean path that can be read is the path of a file of the tree. -/
theorem read_clean {p content : Text} (clean : IsClean p) (read : t.read p = .ok content) :
    p ∈ t.files.map fun entry => pathOf entry.1 := by
  obtain ⟨components, rfl, steps⟩ := clean
  have found : ∃ at', t.find (pathOf components) = .ok (.file at' content) := by
    unfold FileTree.read at read
    split at read
    · cases read
    · cases read
    · next at' stands found =>
        cases read
        exact ⟨at', found⟩
  obtain ⟨at', found⟩ := found
  have rooted : (pathOf components).isEmpty = false ∧ isAbsolute (pathOf components) = true :=
    ⟨rfl, rfl⟩
  simp only [find, rooted, Bool.false_eq_true, ↓reduceIte, split_path_of steps] at found
  split at found
  · cases found
  · rw [follow] at found
    simp only [List.isEmpty_nil, Bool.true_or, ↓reduceIte] at found
    by_cases none : components = []
    · simp [none, follow] at found
    · rw [if_neg none] at found
      obtain ⟨same, member⟩ := follow_steps steps found
      rw [List.nil_append] at same
      subst same
      obtain ⟨entry, among, named⟩ := List.mem_map.mp member
      exact List.mem_map.mpr ⟨entry, among, congrArg pathOf named⟩

end FileTree
end DeviceScript

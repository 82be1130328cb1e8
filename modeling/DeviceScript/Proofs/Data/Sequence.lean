import Mathlib.Data.List.Forall2
import Mathlib.Data.List.Nodup

/-!
Sequences that are gone through one element at a time: what is known of each element of one list is
known of what it became in the other.
-/

namespace DeviceScript

theorem forall_placed_cons {α : Type} {holds : Nat → α → Prop} {first : α} {rest : List α} :
    (∀ i x, (first :: rest)[i]? = some x → holds i x) ↔
      holds 0 first ∧ ∀ i x, rest[i]? = some x → holds (i + 1) x := by
  constructor
  · intro each
    exact ⟨each 0 first rfl, fun i x found => each (i + 1) x found⟩
  · rintro ⟨here, each⟩ i x found
    cases i with
    | zero =>
        cases found
        exact here
    | succ i => exact each i x found

section Related

variable {α β : Type} {R : α → β → Prop} {xs : List α} {ys : List β}

theorem mem_of_forall₂ (all : List.Forall₂ R xs ys) : ∀ y ∈ ys, ∃ x ∈ xs, R x y := by
  induction all with
  | nil => simp
  | cons first _ ih =>
      intro y member
      rcases List.mem_cons.mp member with rfl | later
      · exact ⟨_, by simp, first⟩
      · obtain ⟨x, among, related⟩ := ih y later
        exact ⟨x, by simp [among], related⟩

theorem forall_related {P : α → Prop} {Q : β → Prop} (all : List.Forall₂ R xs ys)
    (alike : ∀ x y, R x y → (P x ↔ Q y)) : (∀ x ∈ xs, P x) ↔ ∀ y ∈ ys, Q y := by
  induction all with
  | nil => simp
  | cons first _ ih => rw [List.forall_mem_cons, List.forall_mem_cons, ih, alike _ _ first]

theorem map_related {γ : Type} {f : α → γ} {g : β → γ} (all : List.Forall₂ R xs ys)
    (alike : ∀ x y, R x y → f x = g y) : xs.map f = ys.map g := by
  induction all with
  | nil => rfl
  | cons first _ ih => rw [List.map_cons, List.map_cons, ih, alike _ _ first]

theorem related_along {γ : Type} {S : α → γ → Prop} {T : β → γ → Prop} {zs : List γ}
    (all : List.Forall₂ R xs ys) (other : List.Forall₂ S xs zs)
    (along : ∀ x y z, R x y → S x z → T y z) : List.Forall₂ T ys zs := by
  induction all generalizing zs with
  | nil =>
      cases other
      exact .nil
  | cons first _ ih =>
      cases other with
      | cons second others => exact .cons (along _ _ _ first second) (ih others)

theorem related_exists_iff : (∃ ys, List.Forall₂ R xs ys) ↔ ∀ x ∈ xs, ∃ y, R x y := by
  induction xs with
  | nil => simp
  | cons x rest ih =>
      rw [List.forall_mem_cons, ← ih]
      constructor
      · rintro ⟨_, all⟩
        cases all with
        | cons first others => exact ⟨⟨_, first⟩, _, others⟩
      · rintro ⟨⟨y, first⟩, ys, others⟩
        exact ⟨y :: ys, .cons first others⟩

/-- Where related elements have names that are alike, names are distinct on both sides or on none. -/
theorem nodup_related {γ δ : Type} {f : α → γ} {g : β → δ}
    (alike : ∀ a b a' b', R a b → R a' b' → (f a = f a' ↔ g b = g b'))
    (all : List.Forall₂ R xs ys) : (xs.map f).Nodup ↔ (ys.map g).Nodup := by
  induction all with
  | nil => simp
  | @cons a b xs ys first others ih =>
      have present : f a ∈ xs.map f ↔ g b ∈ ys.map g := by
        constructor
        · intro among
          obtain ⟨a', member, same⟩ := List.mem_map.mp among
          obtain ⟨b', member', related⟩ := mem_of_forall₂ others.flip a' member
          exact List.mem_map.mpr ⟨b', member', (alike _ _ _ _ related first).mp same⟩
        · intro among
          obtain ⟨b', member', same⟩ := List.mem_map.mp among
          obtain ⟨a', member, related⟩ := mem_of_forall₂ others b' member'
          exact List.mem_map.mpr ⟨a', member, (alike _ _ _ _ related first).mpr same⟩
      simp only [List.map_cons, List.nodup_cons, present, ih]

/-- Where no two elements go by one name, a name finds the element that goes by it. -/
theorem find_named_iff {γ : Type} [BEq γ] [LawfulBEq γ] {f : α → γ}
    (distinct : (xs.map f).Nodup) {name : γ} {x : α} :
    xs.find? (fun x => f x == name) = some x ↔ x ∈ xs ∧ f x = name := by
  constructor
  · intro found
    exact ⟨List.mem_of_find?_eq_some found, by simpa using List.find?_some found⟩
  · rintro ⟨member, rfl⟩
    have found : (xs.find? fun other => f other == f x).isSome = true :=
      List.find?_isSome.mpr ⟨x, member, beq_self_eq_true _⟩
    obtain ⟨other, found⟩ := Option.isSome_iff_exists.mp found
    have same : f other = f x := by simpa using List.find?_some found
    rw [found, List.inj_on_of_nodup_map distinct (List.mem_of_find?_eq_some found) member same]

end Related

section Sequence

variable {α β ε : Type}

theorem mapM_some {f : α → Option β} {xs : List α} {ys : List β} (all : xs.mapM f = some ys) :
    List.Forall₂ (fun x y => f x = some y) xs ys := by
  induction xs generalizing ys with
  | nil =>
      cases all
      exact .nil
  | cons x rest ih =>
      cases first : f x with
      | none => simp [first] at all
      | some y =>
          cases others : rest.mapM f with
          | none => simp [first, others] at all
          | some more =>
              simp only [List.mapM_cons, first, others, Option.pure_def, Option.bind_eq_bind,
                Option.bind_some, Option.some.injEq] at all
              subst all
              exact .cons first (ih others)

theorem mapM_none {f : α → Option β} {xs : List α} (none : xs.mapM f = none) :
    ∃ x ∈ xs, f x = .none := by
  induction xs with
  | nil => cases none
  | cons x rest ih =>
      cases first : f x with
      | none => exact ⟨x, by simp, first⟩
      | some y =>
          cases others : rest.mapM f with
          | none =>
              obtain ⟨z, member, refused⟩ := ih others
              exact ⟨z, by simp [member], refused⟩
          | some more => simp [first, others] at none

theorem mapM_ok {f : α → Except ε β} {xs : List α} {ys : List β} (all : xs.mapM f = .ok ys) :
    List.Forall₂ (fun x y => f x = .ok y) xs ys := by
  induction xs generalizing ys with
  | nil =>
      cases all
      exact .nil
  | cons x rest ih =>
      rw [List.mapM_cons] at all
      cases first : f x with
      | error e =>
          rw [first] at all
          cases all
      | ok y =>
          cases others : rest.mapM f with
          | error e =>
              rw [first, others] at all
              cases all
          | ok more =>
              rw [first, others] at all
              cases all
              exact .cons first (ih others)

theorem mapM_error {f : α → Except ε β} {xs : List α} {e : ε} (broke : xs.mapM f = .error e) :
    ∃ x ∈ xs, f x = .error e := by
  induction xs with
  | nil => cases broke
  | cons x rest ih =>
      rw [List.mapM_cons] at broke
      cases first : f x with
      | error other =>
          rw [first] at broke
          cases broke
          exact ⟨x, List.mem_cons_self, first⟩
      | ok y =>
          cases others : rest.mapM f with
          | error other =>
              rw [first, others] at broke
              cases broke
              obtain ⟨z, member, same⟩ := ih others
              exact ⟨z, List.mem_cons_of_mem x member, same⟩
          | ok more =>
              rw [first, others] at broke
              cases broke

theorem map_ok_exists {f : α → β} {x : Except ε α} {y : β} (mapped : x.map f = .ok y) :
    ∃ a, x = .ok a ∧ f a = y := by
  cases x with
  | error e => cases mapped
  | ok a =>
      cases mapped
      exact ⟨a, rfl, rfl⟩

theorem bind_ok_iff {x : Except ε α} {f : α → Except ε β} {y : β} :
    (x >>= f) = .ok y ↔ ∃ a, x = .ok a ∧ f a = .ok y := by
  cases x with
  | error e => simp [bind, Except.bind]
  | ok a => simp [bind, Except.bind]

theorem map_error_ok_iff {δ : Type} {g : ε → δ} {x : Except ε α} {a : α} :
    x.mapError g = .ok a ↔ x = .ok a := by
  cases x <;> simp [Except.mapError]

end Sequence

end DeviceScript

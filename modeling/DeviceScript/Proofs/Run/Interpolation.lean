import DeviceScript.Proofs.Run.Loading
import DeviceScript.Proofs.Token.Forms

/-!
Variables in texts. A parameter is cut at its references in two phases, first at those in braces
and then at bare ones in the stretches between them. What is put together again is what one reader
makes of the text who goes through it once, from left to right.
-/

namespace DeviceScript

open Text

namespace Text.Segment

variable {α : Type} {find : Text → Option (α × Nat)}

theorem cut_after_skip (skip : Nat) (t : Text) : cutAfter find skip t = cut find (t.drop skip) := by
  induction t generalizing skip with
  | nil => simp [cut, cutAfter]
  | cons b rest ih =>
      cases skip with
      | zero => rfl
      | succ skip => exact ih skip

theorem cut_marked {written rest : Text} {a : α} (some : written ≠ [])
    (found : find (written ++ rest) = .some (a, written.length)) :
    cut find (written ++ rest) = .mark a written :: cut find rest := by
  cases written with
  | nil => exact absurd rfl some
  | cons b inside =>
      have here : find (b :: (inside ++ rest)) = .some (a, inside.length + 1) := found
      simp only [cut, List.cons_append, cutAfter, here]
      rw [Nat.add_sub_cancel, cut_after_skip, List.drop_left, List.take_succ_cons, List.take_left]
      rfl

theorem cut_unfound {b : UInt8} {rest : Text} (unfound : find (b :: rest) = none) :
    cut find (b :: rest) = consByte b (cut find rest) := by
  simp only [cut, cutAfter, unfound]

theorem cut_stretch {stretch rest : Text}
    (unfound : ∀ b u, b ∈ stretch → find (b :: u) = none) :
    cut find (stretch ++ rest) = stretch.foldr consByte (cut find rest) := by
  induction stretch with
  | nil => rfl
  | cons b more ih =>
      have later := ih fun c u member => unfound c u (List.mem_cons_of_mem b member)
      rw [List.cons_append, cut_unfound (unfound b _ List.mem_cons_self), later, List.foldr_cons]

/-- A cut that begins with a stretch to copy begins as the text does. -/
theorem cut_literal_first {t first : Text} {others : List (Segment α)}
    (begins : cut find t = .literal first :: others) : first <+: t := by
  induction t generalizing first others with
  | nil => cases begins
  | cons b rest ih =>
      cases found : find (b :: rest) with
      | some read => simp [cut, cutAfter, found] at begins
      | none =>
          rw [cut_unfound found] at begins
          cases later : cut find rest with
          | nil =>
              rw [later] at begins
              cases begins
              simp
          | cons segment more =>
              rw [later] at begins
              cases segment with
              | literal t =>
                  cases begins
                  exact (List.prefix_cons_inj b).mpr (ih later)
              | mark a written =>
                  cases begins
                  simp

theorem cons_bytes_literal (stretch first : Text) (others : List (Segment α)) :
    stretch.foldr consByte (.literal first :: others) = .literal (stretch ++ first) :: others := by
  induction stretch with
  | nil => rfl
  | cons b rest ih =>
      rw [List.foldr_cons, ih]
      rfl

theorem cons_bytes_new {segments : List (Segment α)}
    (new : ∀ t others, segments ≠ .literal t :: others) {stretch : Text} (some : stretch ≠ []) :
    stretch.foldr consByte segments = .literal stretch :: segments := by
  induction stretch with
  | nil => exact absurd rfl some
  | cons b rest ih =>
      cases rest with
      | nil =>
          cases segments with
          | nil => rfl
          | cons segment others =>
              cases segment with
              | literal t => exact absurd rfl (new t others)
              | mark a written => rfl
      | cons c inside =>
          rw [List.foldr_cons, ih nofun]
          rfl

/-- Cuts the stretches once more. -/
def refined (g : Text → List (Segment α)) : Segment α → List (Segment α)
  | literal t => g t
  | marked => [marked]

/-- A stretch in front of a cut text is cut again together with the stretch that the text begins
with. -/
theorem refined_stretch {g : Text → List (Segment α)} (empty : g [] = []) (rest : Text) :
    ∃ first others, first <+: rest ∧ ∀ stretch : Text,
      (stretch.foldr consByte (cut find rest)).flatMap (refined g) =
        g (stretch ++ first) ++ others := by
  by_cases new : ∀ t others, cut find rest ≠ .literal t :: others
  · refine ⟨[], (cut find rest).flatMap (refined g), List.nil_prefix, fun stretch => ?_⟩
    by_cases some : stretch = []
    · subst some
      simp [empty]
    · rw [cons_bytes_new new some, List.flatMap_cons, List.append_nil]
      rfl
  · simp only [not_forall, not_not] at new
    obtain ⟨first, others, begins⟩ := new
    refine ⟨first, others.flatMap (refined g), cut_literal_first begins, fun stretch => ?_⟩
    rw [begins, cons_bytes_literal, List.flatMap_cons]
    rfl

/-! An octet to copy adds itself to the text and nothing to the marks. -/

theorem expand_cons_byte (value? : α → Option Text) (b : UInt8) (segments : List (Segment α)) :
    (consByte b segments).flatMap (expand value?) = b :: segments.flatMap (expand value?) := by
  cases segments with
  | nil => rfl
  | cons segment others => cases segment <;> rfl

theorem marks_cons_byte (b : UInt8) (segments : List (Segment α)) :
    (consByte b segments).filterMap what? = segments.filterMap what? := by
  cases segments with
  | nil => rfl
  | cons segment others => cases segment <;> rfl

end Text.Segment

/-! References at the front of a text. -/

/-- The longest identifier that a text begins with. -/
structure LongestName (t name : Text) : Prop where
  identifier : isName name = true
  begins : name <+: t
  longest : ∀ other, isName other = true → other <+: t → other.length ≤ name.length

theorem name_taken {name : Text} (named : isName name = true) (rest : Text) :
    (name ++ rest).takeWhile isNamePart = name ++ rest.takeWhile isNamePart :=
  List.takeWhile_append_of_pos (Token.name_parts named)

theorem name_extended {name more : Text} (named : isName name = true)
    (parts : ∀ b ∈ more, isNamePart b = true) : isName (name ++ more) = true := by
  cases name with
  | nil => cases named
  | cons b rest =>
      simp only [isName, Bool.and_eq_true, List.all_eq_true, List.cons_append] at named ⊢
      constructor
      · exact named.1
      · intro c member
        rcases List.mem_append.mp member with inside | after
        · exact named.2 c inside
        · exact parts c after

theorem longest_name_iff {t name : Text} :
    LongestName t name ↔ isName name = true ∧ name = t.takeWhile isNamePart := by
  constructor
  · intro longest
    obtain ⟨rest, rfl⟩ := longest.begins
    refine ⟨longest.identifier, ?_⟩
    have taken := name_taken longest.identifier rest
    -- With what could still be taken, the name would be longer.
    have whole := longest.longest (name ++ rest.takeWhile isNamePart)
      (name_extended longest.identifier (List.all_eq_true.mp List.all_takeWhile))
      ((List.prefix_append_right_inj name).mpr (List.takeWhile_prefix _))
    rw [List.length_append] at whole
    have nothing : rest.takeWhile isNamePart = [] := List.eq_nil_of_length_eq_zero (by omega)
    rw [taken, nothing, List.append_nil]
  · rintro ⟨named, rfl⟩
    refine ⟨named, List.takeWhile_prefix _, ?_⟩
    rintro other identifier ⟨rest, rfl⟩
    rw [name_taken identifier, List.length_append]
    exact Nat.le_add_right _ _

theorem leading_name_iff {t name : Text} :
    leadingName t = name ∧ name ≠ [] ↔ LongestName t name := by
  rw [longest_name_iff]
  simp only [leadingName]
  by_cases named : isName (t.takeWhile isNamePart) = true
  · rw [if_pos named]
    constructor
    · rintro ⟨rfl, -⟩
      exact ⟨named, rfl⟩
    · rintro ⟨named, same⟩
      refine ⟨same.symm, ?_⟩
      rintro rfl
      cases named
  · rw [if_neg named]
    constructor
    · rintro ⟨rfl, some⟩
      exact absurd rfl some
    · rintro ⟨other, rfl⟩
      exact absurd other named

theorem longest_name_append {name rest : Text} (named : isName name = true) :
    LongestName (name ++ rest) name ↔ ∀ b, rest.head? = some b → isNamePart b = false := by
  rw [longest_name_iff, name_taken named]
  cases rest with
  | nil => simp [named]
  | cons b more => cases part : isNamePart b <;> simp [named, part]

def inBraces (name : Text) : Text := [0x7b, ascii '$'] ++ name ++ [0x7d]

def dollared (name : Text) : Text := ascii '$' :: name

theorem braced_reference_iff {t name : Text} {width : Nat} :
    bracedReference? t = some (name, width) ↔
      isName name = true ∧ inBraces name <+: t ∧ width = (inBraces name).length := by
  simp only [bracedReference?, Option.bind_eq_some_iff, Token.drop_start_iff,
    Option.ite_none_right_eq_some, Bool.and_eq_true, Bool.not_eq_true', List.isEmpty_eq_false_iff,
    beq_iff_eq, Option.some.injEq, Prod.mk.injEq]
  constructor
  · rintro ⟨inside, rfl, ⟨some, closed⟩, rfl, rfl⟩
    obtain ⟨named, ⟨rest, same⟩, -⟩ := leading_name_iff.mp ⟨rfl, some⟩
    refine ⟨named, ?_, by simp [inBraces]⟩
    generalize leadingName inside = name at same closed
    subst same
    rw [List.drop_left] at closed
    obtain ⟨more, rfl⟩ := List.head?_eq_some_iff.mp closed
    exact ⟨more, by simp [inBraces]⟩
  · rintro ⟨named, ⟨rest, rfl⟩, rfl⟩
    have leads : LongestName (name ++ 0x7d :: rest) name := by
      apply (longest_name_append named).mpr
      rintro b ⟨rfl⟩
      decide
    obtain ⟨same, some⟩ := leading_name_iff.mpr leads
    refine ⟨name ++ 0x7d :: rest, by simp [inBraces], ?_⟩
    rw [same, List.drop_left]
    exact ⟨⟨some, rfl⟩, rfl, by simp [inBraces]⟩

theorem bare_reference_iff {t name : Text} {width : Nat} :
    bareReference? t = some (name, width) ↔
      ∃ inside, t = ascii '$' :: inside ∧ LongestName inside name ∧
        width = (dollared name).length := by
  simp only [bareReference?, Option.bind_eq_some_iff, Token.drop_start_iff,
    Option.ite_none_left_eq_some, List.isEmpty_iff, Option.some.injEq, Prod.mk.injEq,
    List.singleton_append]
  constructor
  · rintro ⟨inside, rfl, some, rfl, rfl⟩
    exact ⟨inside, rfl, leading_name_iff.mp ⟨rfl, some⟩, rfl⟩
  · rintro ⟨inside, rfl, longest, rfl⟩
    obtain ⟨rfl, some⟩ := leading_name_iff.mpr longest
    exact ⟨inside, rfl, some, rfl, rfl⟩

theorem longest_name_exists {t name : Text} (named : isName name = true) (begins : name <+: t) :
    ∃ longest, LongestName t longest := by
  obtain ⟨rest, rfl⟩ := begins
  refine ⟨_, longest_name_iff.mpr ⟨?_, rfl⟩⟩
  rw [name_taken named]
  exact name_extended named (List.all_eq_true.mp List.all_takeWhile)

theorem braced_reference_none {t : Text} :
    bracedReference? t = none ↔ ∀ name, isName name = true → ¬ inBraces name <+: t := by
  constructor
  · intro none name named begins
    rw [braced_reference_iff.mpr ⟨named, begins, rfl⟩] at none
    cases none
  · intro free
    by_contra found
    obtain ⟨⟨name, width⟩, read⟩ := Option.ne_none_iff_exists'.mp found
    obtain ⟨named, begins, -⟩ := braced_reference_iff.mp read
    exact free name named begins

theorem bare_reference_none {t : Text} :
    bareReference? t = none ↔ ∀ name, isName name = true → ¬ dollared name <+: t := by
  constructor
  · rintro none name named ⟨rest, rfl⟩
    obtain ⟨longest, leads⟩ := longest_name_exists named (List.prefix_append name rest)
    cases none.symm.trans (bare_reference_iff.mpr ⟨name ++ rest, rfl, leads, rfl⟩)
  · intro free
    by_contra found
    obtain ⟨⟨name, width⟩, read⟩ := Option.ne_none_iff_exists'.mp found
    obtain ⟨inside, rfl, longest, -⟩ := bare_reference_iff.mp read
    exact free name longest.identifier ((List.prefix_cons_inj _).mpr longest.begins)

/-! The two phases, seen from the front of the text. -/

theorem references_refined (t : Text) :
    references t = (Segment.cut bracedReference? t).flatMap
      (Segment.refined (Segment.cut bareReference?)) := by
  simp only [references]
  congr
  funext segment
  cases segment <;> rfl

theorem references_braced {name : Text} (named : isName name = true) (rest : Text) :
    references (inBraces name ++ rest) = .mark name (inBraces name) :: references rest := by
  have found := braced_reference_iff.mpr ⟨named, List.prefix_append (inBraces name) rest, rfl⟩
  rw [references_refined, Segment.cut_marked (by simp [inBraces]) found, List.flatMap_cons,
    ← references_refined]
  rfl

/-- A bare reference stands in a stretch between references in braces, as far as its name goes. -/
theorem references_bare {name rest : Text} (longest : LongestName (name ++ rest) name) :
    references (dollared name ++ rest) = .mark name (dollared name) :: references rest := by
  have unbraced (b : UInt8) (u : Text) (member : b ∈ dollared name) :
      bracedReference? (b :: u) = none := by
    apply braced_reference_none.mpr
    rintro other - ⟨after, same⟩
    obtain ⟨rfl, -⟩ := List.cons.inj same
    rcases List.mem_cons.mp member with dollar | inside
    · exact absurd dollar (by decide)
    · exact absurd inside (Token.name_free longest.identifier (by decide))
  obtain ⟨first, others, begins, cut⟩ :=
    @Segment.refined_stretch _ bracedReference? (Segment.cut bareReference?) rfl rest
  have short : LongestName (name ++ first) name := by
    refine ⟨longest.identifier, List.prefix_append _ _, fun other named inside => ?_⟩
    have further := (List.prefix_append_right_inj name).mpr begins
    exact longest.longest other named (inside.trans further)
  have found : bareReference? (dollared name ++ first) = some (name, (dollared name).length) :=
    bare_reference_iff.mpr ⟨_, rfl, short, rfl⟩
  have some : dollared name ≠ [] := by simp [dollared]
  have after : references rest = Segment.cut bareReference? first ++ others := by
    rw [references_refined]
    exact cut []
  rw [references_refined, Segment.cut_stretch unbraced, cut (dollared name),
    Segment.cut_marked some found, List.cons_append, after]

theorem references_copied {b : UInt8} {rest : Text} (unbraced : bracedReference? (b :: rest) = none)
    (unmarked : bareReference? (b :: rest) = none) (value? : Text → Option Text) :
    (references (b :: rest)).flatMap (Segment.expand value?) =
        b :: (references rest).flatMap (Segment.expand value?) ∧
      (references (b :: rest)).filterMap Segment.what? =
        (references rest).filterMap Segment.what? := by
  obtain ⟨first, others, begins, cut⟩ :=
    @Segment.refined_stretch _ bracedReference? (Segment.cut bareReference?) rfl rest
  have short : bareReference? (b :: first) = none := by
    rw [bare_reference_none] at unmarked ⊢
    intro name named inside
    exact unmarked name named (inside.trans ((List.prefix_cons_inj b).mpr begins))
  have here : references (b :: rest) =
      Segment.consByte b (Segment.cut bareReference? first) ++ others := by
    rw [references_refined, Segment.cut_unfound unbraced, ← Segment.cut_unfound short]
    exact cut [b]
  have after : references rest = Segment.cut bareReference? first ++ others := by
    rw [references_refined]
    exact cut []
  rw [here, after]
  constructor
  · rw [List.flatMap_append, List.flatMap_append, Segment.expand_cons_byte, List.cons_append]
  · rw [List.filterMap_append, List.filterMap_append, Segment.marks_cons_byte]

/-- One reader who goes through a text from left to right. At each place there is a reference in
braces to take, or a bare reference with the longest name, or else an octet to copy. -/
inductive OnePass : Text → List (Segment Text) → Prop where
  | done : OnePass [] []
  | braced {name rest : Text} {segments : List (Segment Text)} (named : isName name = true)
      (onward : OnePass rest segments) :
      OnePass (inBraces name ++ rest) (.mark name (inBraces name) :: segments)
  | bare {name rest : Text} {segments : List (Segment Text)}
      (longest : LongestName (name ++ rest) name) (onward : OnePass rest segments) :
      OnePass (dollared name ++ rest) (.mark name (dollared name) :: segments)
  | copied {b : UInt8} {rest : Text} {segments : List (Segment Text)}
      (unbraced : ∀ name, isName name = true → ¬ inBraces name <+: b :: rest)
      (unmarked : ∀ name, isName name = true → ¬ dollared name <+: b :: rest)
      (onward : OnePass rest segments) : OnePass (b :: rest) (.literal [b] :: segments)

namespace OnePass

theorem total (t : Text) : ∃ segments, OnePass t segments := by
  -- Each step leaves a shorter text to go through.
  induction length : t.length using Nat.strongRecOn generalizing t with
  | ind n ih =>
      subst length
      cases t with
      | nil => exact ⟨[], done⟩
      | cons b rest =>
          cases braced : bracedReference? (b :: rest) with
          | some read =>
              obtain ⟨named, ⟨after, same⟩, -⟩ := braced_reference_iff.mp braced
              rw [← same] at ih ⊢
              have shorter : after.length < (inBraces read.1 ++ after).length := by
                simp only [inBraces, List.length_append, List.length_cons]
                omega
              obtain ⟨segments, onward⟩ := ih after.length shorter after rfl
              exact ⟨_, .braced named onward⟩
          | none =>
              cases bare : bareReference? (b :: rest) with
              | some read =>
                  obtain ⟨inside, same, longest, -⟩ := bare_reference_iff.mp bare
                  obtain ⟨after, rfl⟩ := longest.begins
                  rw [same] at ih ⊢
                  have shorter : after.length < (ascii '$' :: (read.1 ++ after)).length := by
                    simp only [List.length_cons, List.length_append]
                    omega
                  obtain ⟨segments, onward⟩ := ih after.length shorter after rfl
                  exact ⟨_, .bare longest onward⟩
              | none =>
                  obtain ⟨segments, onward⟩ := ih rest.length (by simp) rest rfl
                  exact ⟨_, .copied (braced_reference_none.mp braced)
                    (bare_reference_none.mp bare) onward⟩

theorem unique {t : Text} {segments others : List (Segment Text)} (pass : OnePass t segments)
    (again : OnePass t others) : segments = others := by
  induction pass generalizing others with
  | done =>
      generalize same : ([] : Text) = t at again
      cases again with
      | done => rfl
      | braced _ _ => simp [inBraces] at same
      | bare _ _ => cases same
      | copied _ _ _ => cases same
  | @braced name rest segments named onward ih =>
      -- A reference in braces is read in one way, so whoever takes one here takes this one.
      have found := braced_reference_iff.mpr ⟨named, List.prefix_append (inBraces name) rest, rfl⟩
      generalize same : inBraces name ++ rest = t at again found
      cases again with
      | done => simp [inBraces] at same
      | @braced other after more identifier onward' =>
          have read := braced_reference_iff.mpr
            ⟨identifier, List.prefix_append (inBraces other) after, rfl⟩
          cases found.symm.trans read
          rw [ih (List.append_cancel_left same ▸ onward')]
      | bare _ _ => exact absurd (List.cons.inj same).1 (by decide)
      | copied unbraced _ _ => exact absurd ⟨rest, same⟩ (unbraced name named)
  | @bare name rest segments longest onward ih =>
      -- The name of a bare reference is the longest there is, and nobody may stop before its end.
      have found : bareReference? (dollared name ++ rest) = some (name, (dollared name).length) :=
        bare_reference_iff.mpr ⟨_, rfl, longest, rfl⟩
      generalize same : dollared name ++ rest = t at again found
      cases again with
      | done => cases same
      | braced _ _ => exact absurd (List.cons.inj same).1 (by decide)
      | @bare other after more longest' onward' =>
          have read : bareReference? (dollared other ++ after) =
              some (other, (dollared other).length) :=
            bare_reference_iff.mpr ⟨_, rfl, longest', rfl⟩
          cases found.symm.trans read
          rw [ih (List.append_cancel_left same ▸ onward')]
      | copied _ unmarked _ => exact absurd ⟨rest, same⟩ (unmarked name longest.identifier)
  | @copied b rest segments unbraced unmarked onward ih =>
      generalize same : b :: rest = t at again unbraced unmarked
      cases again with
      | done => cases same
      | braced named _ => exact absurd (List.prefix_append _ _) (unbraced _ named)
      | bare longest _ => exact absurd (List.prefix_append _ _) (unmarked _ longest.identifier)
      | copied _ _ onward' =>
          cases same
          rw [ih onward']

/-- What the two phases come to. -/
theorem references_agree {t : Text} {segments : List (Segment Text)} (pass : OnePass t segments)
    (value? : Text → Option Text) :
    (references t).flatMap (Segment.expand value?) = segments.flatMap (Segment.expand value?) ∧
      (references t).filterMap Segment.what? = segments.filterMap Segment.what? := by
  induction pass with
  | done => exact ⟨rfl, rfl⟩
  | braced named onward ih =>
      rw [references_braced named]
      constructor
      · rw [List.flatMap_cons, List.flatMap_cons, ih.1]
      · exact congrArg (List.cons _) ih.2
  | bare longest onward ih =>
      rw [references_bare longest]
      constructor
      · rw [List.flatMap_cons, List.flatMap_cons, ih.1]
      · exact congrArg (List.cons _) ih.2
  | copied unbraced unmarked onward ih =>
      obtain ⟨text, marks⟩ := references_copied (braced_reference_none.mpr unbraced)
        (bare_reference_none.mpr unmarked) value?
      rw [text, marks, ih.1, ih.2]
      exact ⟨rfl, rfl⟩

variable {t : Text} {segments : List (Segment Text)}

theorem interpolate_eq (pass : OnePass t segments) (vars : Vars) :
    interpolate vars t = segments.flatMap (Segment.expand vars.get?) :=
  (pass.references_agree vars.get?).1

theorem missing_eq (pass : OnePass t segments) (vars : Vars) :
    missingVars vars t =
      (segments.filterMap Segment.what?).filter fun name => (vars.get? name).isNone := by
  simp only [missingVars, (pass.references_agree vars.get?).2]

theorem interpolate_congr (pass : OnePass t segments) {vars vars' : Vars}
    (same : ∀ name ∈ segments.filterMap Segment.what?, vars'.get? name = vars.get? name) :
    interpolate vars' t = interpolate vars t := by
  rw [pass.interpolate_eq, pass.interpolate_eq]
  apply List.flatMap_congr
  intro segment member
  cases segment with
  | literal t => rfl
  | mark name written =>
      have named : name ∈ segments.filterMap Segment.what? :=
        List.mem_filterMap.mpr ⟨_, member, rfl⟩
      simp only [Segment.expand, same name named]

end OnePass

def Value.text? : Value → Option Text
  | .text t => some t
  | _ => none

theorem Value.missing_text (vars : Vars) (v : Value) :
    v.missingVars vars = v.text?.toList.flatMap (DeviceScript.missingVars vars) := by
  cases v with
  | text t => simp [Value.missingVars, Value.text?]
  | _ => rfl

namespace Instruction

variable (i : Instruction)

/-- The texts of an instruction in which variables are filled in. -/
def texts : List Text := if i.op.isContextSwitch then [] else i.params.filterMap Value.text?

/-- The variables that an instruction refers to, in the order of one pass over each text. -/
def Refers (names : List Text) : Prop :=
  ∃ passes, List.Forall₂ OnePass i.texts passes ∧
    names = passes.flatMap fun segments => segments.filterMap Segment.what?

theorem missing_texts (vars : Vars) :
    i.missingVars vars = i.texts.flatMap (DeviceScript.missingVars vars) := by
  simp only [missingVars, texts]
  by_cases switch : i.op.isContextSwitch = true
  · rw [if_pos switch, if_pos switch]
    rfl
  · rw [if_neg switch, if_neg switch, List.filterMap_eq_flatMap_toList, List.flatMap_assoc]
    apply List.flatMap_congr
    intro v member
    exact v.missing_text vars

theorem refers_exists : ∃ names, i.Refers names := by
  have each (ts : List Text) : ∃ passes, List.Forall₂ OnePass ts passes := by
    induction ts with
    | nil => exact ⟨[], .nil⟩
    | cons t rest ih =>
        obtain ⟨segments, pass⟩ := OnePass.total t
        obtain ⟨passes, others⟩ := ih
        exact ⟨segments :: passes, .cons pass others⟩
  obtain ⟨passes, gone⟩ := each i.texts
  exact ⟨_, passes, gone, rfl⟩

/-- The missing variables are those of one pass, in its order. -/
theorem missing_referred {i : Instruction} {names : List Text} (refers : i.Refers names)
    (vars : Vars) : i.missingVars vars = names.filter fun name => (vars.get? name).isNone := by
  obtain ⟨passes, gone, rfl⟩ := refers
  rw [missing_texts]
  generalize i.texts = ts at gone
  induction gone with
  | nil => rfl
  | cons pass others ih =>
      rw [List.flatMap_cons, List.flatMap_cons, List.filter_append, pass.missing_eq, ih]

theorem interpolated_length (vars : Vars) : (i.interpolated vars).length = i.params.length := by
  simp only [interpolated]
  split
  · rfl
  · exact List.length_map ..

theorem interpolated_at (vars : Vars) {k : Nat} {v : Value} (here : i.params[k]? = some v) :
    (i.interpolated vars)[k]? =
      some (if i.op.isContextSwitch then v else v.interpolate vars) := by
  simp only [interpolated]
  split
  · exact here
  · rw [List.getElem?_map, here]
    rfl

end Instruction

namespace Machine

variable {ω : Type}

/-- Carries out an instruction with its variables filled in, after telling whoever watches. -/
def fillsIn (h : Host ω) (child : Machine → ω → Progress ω) (m : Machine) (i : Instruction)
    (w : ω) : Progress ω :=
  let params := i.interpolated m.vars
  m.execute h child i params
    (h.observe ⟨m.depth, m.pc, { i with params := params }, m.stack, m.vars⟩ w)

def unsetWarning (m : Machine) (name : Text) : LogEntry :=
  ⟨.warn, "variable not set", [("name", name), ("script", m.script.path), ("line", ofInt m.line)]⟩

end Machine

/-- Filling in variables is one pass over a text from left to right: at each place a reference in
braces is taken, else a bare reference with the longest name, else an octet copied; a reference to a
variable that is set becomes its value, which is not looked at again, so that only the variables
that are named have a say, and any other stays as it is written. An instruction keeps its line and
its number of parameters, and those that are no text, and the script stays as it is. Every
reference that is not set is warned of in order under the policy of warnings, and the first of them
is what the strict policy fails with, which is the only thing it does about them. -/
theorem interpolation_in_one_pass {ω : Type} (h : Host ω) (child : Machine → ω → Progress ω)
    (m : Machine) (i : Instruction) (w : ω) :
    (∀ t, ∃! segments, OnePass t segments) ∧
    (∀ t segments, OnePass t segments → ∀ vars,
      interpolate vars t = segments.flatMap (Segment.expand vars.get?) ∧
      ∀ vars', (∀ name ∈ segments.filterMap Segment.what?, vars'.get? name = vars.get? name) →
        interpolate vars' t = interpolate vars t) ∧
    ((i.interpolated m.vars).length = i.params.length ∧
      ∀ (k : Nat) v, i.params[k]? = some v → (i.interpolated m.vars)[k]? = some
        (match v with
        | .text t => .text (if i.op.isContextSwitch then t else interpolate m.vars t)
        | other => other)) ∧
    (m.step h child i w).machine.script = m.script ∧
    ∃ names, i.Refers names ∧
      let unset := names.filter fun name => (m.vars.get? name).isNone
      (m.missing = .ignore → m.step h child i w = m.fillsIn h child i w) ∧
      (m.missing = .warn → m.step h child i w =
        m.fillsIn h child i (unset.foldl (fun w name => h.log (m.unsetWarning name) w) w)) ∧
      (m.missing = .error → (unset = [] → m.step h child i w = m.fillsIn h child i w) ∧
        ∀ name others, unset = name :: others → m.step h child i w =
          .failed (m.report .missingVariable ("variable '" ++ name ++ "' is not set")) m w) := by
  refine ⟨?_, ?_, ⟨i.interpolated_length m.vars, ?_⟩, (m.step_stays h child i w).1, ?_⟩
  · intro t
    obtain ⟨segments, pass⟩ := OnePass.total t
    exact ⟨segments, pass, fun others again => again.unique pass⟩
  · intro t segments pass vars
    exact ⟨pass.interpolate_eq vars, fun vars' same => pass.interpolate_congr same⟩
  · intro k v here
    rw [i.interpolated_at m.vars here]
    cases v <;> split <;> rfl
  · obtain ⟨names, refers⟩ := i.refers_exists
    refine ⟨names, refers, ?_⟩
    have missing := Instruction.missing_referred refers m.vars
    simp only [← missing]
    refine ⟨?_, ?_, ?_⟩
    · intro policy
      simp only [Machine.step, policy]
      rfl
    · intro policy
      simp only [Machine.step, policy, Machine.warnings, List.foldl_map]
      rfl
    · intro policy
      constructor
      · intro none
        simp only [Machine.step, policy, none]
        rfl
      · intro name others first
        simp only [Machine.step, policy, first]

/-- References that are nested, cut short or put together by a value. -/
example :
    interpolate (Vars.ofList [("a", "\x7b$b\x7d"), ("b", "1")]) "\x7b$a\x7d$b\x7b$a$b$\x7bb\x7d$" =
      "\x7b$b\x7d1\x7b\x7b$b\x7d1$\x7bb\x7d$" := by decide

end DeviceScript

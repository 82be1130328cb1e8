import DeviceScript.Text.Blank

/-!
How a text splits into runes. A rune is read off the front without looking past the continuation
octets there, so texts can be cut and joined between runes, and at every ASCII octet.
-/

namespace DeviceScript.Text

/-- A rune takes its first octet and some of the continuation octets after it. -/
theorem first_rune_raw (b : UInt8) (rest : Text) :
    ∃ more after, rest = more ++ after ∧ (firstRune b rest).raw = b :: more ∧
      ∀ c ∈ more, isContinuation c = true := by
  unfold firstRune
  rcases rest with _ | ⟨c, _ | ⟨d, _ | ⟨e, rest⟩⟩⟩
  · simp only
    split <;> exact ⟨[], [], rfl, rfl, by simp⟩
  all_goals
    simp only
    repeat' split
    all_goals first
      | exact ⟨[], _, rfl, rfl, by simp⟩
      | exact ⟨[_], _, rfl, rfl, by simp_all⟩
      | exact ⟨[_, _], _, rfl, rfl, by simp_all⟩
      | exact ⟨[_, _, _], _, rfl, rfl, by simp_all⟩

/-- What comes after the continuation octets makes no difference. -/
theorem first_rune_local (b : UInt8) (rest : Text) :
    firstRune b rest = firstRune b (rest.takeWhile isContinuation) := by
  unfold firstRune
  rcases rest with _ | ⟨c, _ | ⟨d, _ | ⟨e, rest⟩⟩⟩
  · rfl
  · cases cc : isContinuation c <;> simp [cc]
  · cases cc : isContinuation c <;> cases dc : isContinuation d <;> simp [cc, dc]
  · cases cc : isContinuation c <;> cases dc : isContinuation d <;>
      cases ec : isContinuation e <;> simp [cc, dc, ec]

theorem first_rune_take (b : UInt8) (rest : Text) (k : Nat)
    (fits : (firstRune b rest).raw.length ≤ k + 1) :
    firstRune b (rest.take k) = firstRune b rest := by
  unfold firstRune at fits ⊢
  rcases rest with _ | ⟨c, _ | ⟨d, _ | ⟨e, rest⟩⟩⟩ <;> rcases k with _ | _ | _ | k <;>
    simp only [List.take] at * <;> grind

theorem first_rune_ascii {b : UInt8} (plain : b < 0x80) (rest : Text) :
    firstRune b rest = ⟨b.toNat, [b]⟩ := by
  simp [firstRune, plain]

theorem runes_after (skip : Nat) (t : Text) : runesAfter skip t = runes (t.drop skip) := by
  induction t generalizing skip with
  | nil => simp [runes, runesAfter]
  | cons b rest ih =>
      cases skip with
      | zero => rfl
      | succ skip => exact ih skip

theorem runes_split {b : UInt8} {more after : Text}
    (first : (firstRune b (more ++ after)).raw = b :: more) :
    runes (b :: (more ++ after)) = firstRune b (more ++ after) :: runes after := by
  have rest : runes (b :: (more ++ after)) = firstRune b (more ++ after) ::
      runesAfter ((firstRune b (more ++ after)).raw.length - 1) (more ++ after) := rfl
  rw [rest, first, runes_after]
  simp

theorem runes_ascii {b : UInt8} (plain : b < 0x80) (rest : Text) :
    runes (b :: rest) = ⟨b.toNat, [b]⟩ :: runes rest := by
  have first : (firstRune b ([] ++ rest)).raw = [b] := by
    rw [List.nil_append, first_rune_ascii plain]
  have split := runes_split first
  rwa [List.nil_append, first_rune_ascii plain] at split

/-- Induction on a text rune by rune. -/
@[elab_as_elim]
theorem rune_induction {motive : Text → Prop} (nil : motive [])
    (rune : ∀ (b : UInt8) (more after : Text), (firstRune b (more ++ after)).raw = b :: more →
      motive after → motive (b :: (more ++ after))) (t : Text) : motive t := by
  induction size : t.length using Nat.strongRecOn generalizing t with
  | _ n ih =>
      cases t with
      | nil => exact nil
      | cons b rest =>
          obtain ⟨more, after, rfl, first, -⟩ := first_rune_raw b rest
          refine rune b more after first (ih after.length ?_ after rfl)
          rw [← size, List.length_cons, List.length_append]
          omega

@[simp] theorem of_runes_runes (t : Text) : ofRunes (runes t) = t := by
  induction t using rune_induction with
  | nil => rfl
  | rune b more after first ih =>
      rw [runes_split first]
      simpa [ofRunes, first] using ih

/-- A text may be read in two parts if the second begins a rune. -/
theorem runes_append (t u : Text) (begins : ∀ c ∈ u.head?, isContinuation c = false) :
    runes (t ++ u) = runes t ++ runes u := by
  induction t using rune_induction with
  | nil => rfl
  | rune b more after first ih =>
      have same : firstRune b (more ++ (after ++ u)) = firstRune b (more ++ after) := by
        rw [first_rune_local, first_rune_local b (more ++ after), ← List.append_assoc]
        congr 1
        generalize more ++ after = rest
        cases u with
        | nil => simp
        | cons c u =>
            have stop : isContinuation c = false := begins c rfl
            simp only [List.takeWhile_append, List.takeWhile_cons, stop]
            split
            · next all =>
                have whole := (List.takeWhile_sublist isContinuation).eq_of_length all
                simp [whole]
            · rfl
      have again : runes (b :: (more ++ (after ++ u))) =
          firstRune b (more ++ (after ++ u)) :: runes (after ++ u) := by
        refine runes_split ?_
        rw [same]
        exact first
      rw [runes_split first, List.cons_append, List.append_assoc, again, ih, same,
        List.cons_append]

/-- Runes taken off the end or off the front leave the others as they were read. -/
theorem runes_of_runes {t : Text} {rs rs' : List Rune} (split : runes t = rs ++ rs') :
    runes (ofRunes rs) = rs ∧ runes (ofRunes rs') = rs' := by
  induction t using rune_induction generalizing rs with
  | nil =>
      obtain ⟨rfl, rfl⟩ := List.append_eq_nil_iff.mp split.symm
      exact ⟨rfl, rfl⟩
  | rune b more after first ih =>
      rw [runes_split first] at split
      cases rs with
      | nil =>
          rw [List.nil_append] at split
          refine ⟨rfl, ?_⟩
          rw [← split, ← runes_split first, of_runes_runes]
      | cons r rs =>
          obtain ⟨rfl, rest⟩ := List.cons.inj split
          obtain ⟨before, behind⟩ := ih rest
          refine ⟨?_, behind⟩
          have text : ofRunes (firstRune b (more ++ after) :: rs) = b :: (more ++ ofRunes rs) := by
            simp [ofRunes, first]
          -- The rune has all its octets, so it is read the same without what was cut off.
          have same : firstRune b (more ++ ofRunes rs) = firstRune b (more ++ after) := by
            have whole : ofRunes rs <+: after := by
              refine ⟨ofRunes rs', ?_⟩
              rw [← of_runes_runes after, rest]
              simp [ofRunes]
            obtain ⟨cut, rfl⟩ := whole
            have kept := first_rune_take b (more ++ (ofRunes rs ++ cut))
              (more ++ ofRunes rs).length (by rw [first]; simp)
            rwa [← List.append_assoc, List.take_left, List.append_assoc] at kept
          rw [text, runes_split (by rw [same]; exact first), same, before]

/-! White space between words. -/

theorem drop_right_while_cut (p : UInt8 → Bool) (t : Text) :
    ∃ dropped, t = dropRightWhile p t ++ dropped ∧ ∀ b ∈ dropped, p b = true := by
  refine ⟨(t.reverse.takeWhile p).reverse, ?_, fun b member => ?_⟩
  · unfold dropRightWhile
    rw [← List.reverse_append, List.takeWhile_append_dropWhile, List.reverse_reverse]
  · exact List.all_eq_true.mp List.all_takeWhile b (List.mem_reverse.mp member)

theorem drop_right_while_kept {p : UInt8 → Bool} {t : Text} (last : ∀ b ∈ t.getLast?, p b = false) :
    dropRightWhile p t = t := by
  unfold dropRightWhile
  rcases List.eq_nil_or_concat t with rfl | ⟨front, b, rfl⟩
  · rfl
  · rw [List.concat_eq_append] at last ⊢
    have kept : p b = false := last b (by simp)
    simp [kept]

theorem drop_right_while_last (p : UInt8 → Bool) (t : Text) :
    ∀ b ∈ (dropRightWhile p t).getLast?, p b = false := by
  intro b last
  unfold dropRightWhile at last
  rw [List.getLast?_reverse] at last
  have stops := List.head?_dropWhile_not p t.reverse
  rw [Option.mem_def.mp last] at stops
  simpa using stops

theorem drop_right_while_first {p : UInt8 → Bool} {b : UInt8} (kept : p b = false) (rest : Text) :
    ∃ more, dropRightWhile p (b :: rest) = b :: more := by
  unfold dropRightWhile
  rw [List.reverse_cons, List.dropWhile_append]
  split
  · exact ⟨[], by simp [kept]⟩
  · exact ⟨_, by rw [List.reverse_append]; rfl⟩

/-- No white space at either end. -/
def Trimmed (t : Text) : Prop :=
  (∀ b ∈ t.head?, isBlankByte b = false) ∧ ∀ b ∈ t.getLast?, isBlankByte b = false

theorem trim_trimmed {t : Text} (trimmed : Trimmed t) : trimBlankBytes t = t := by
  have front : t.dropWhile isBlankByte = t := by
    cases t with
    | nil => rfl
    | cons b rest => simp [trimmed.1 b rfl]
  unfold trimBlankBytes
  rw [front]
  exact drop_right_while_kept trimmed.2

theorem trim_blank_bytes_solid {b : UInt8} (solid : isBlankByte b = false) (rest : Text) :
    ∃ more, trimBlankBytes (b :: rest) = b :: more := by
  have front : (b :: rest).dropWhile isBlankByte = b :: rest := by simp [solid]
  unfold trimBlankBytes
  rw [front]
  exact drop_right_while_first solid rest

theorem trimmed_trim (t : Text) : Trimmed (trimBlankBytes t) := by
  refine ⟨?_, drop_right_while_last isBlankByte _⟩
  intro b first
  unfold trimBlankBytes at first
  cases front : t.dropWhile isBlankByte with
  | nil =>
      rw [front] at first
      cases first
  | cons c rest =>
      have kept : isBlankByte c = false := by
        have stops := List.head?_dropWhile_not isBlankByte t
        rw [front] at stops
        simpa using stops
      obtain ⟨more, same⟩ := drop_right_while_first kept rest
      rw [front, same] at first
      cases first
      exact kept

theorem trim_sublist (t : Text) : (trimBlankBytes t).Sublist t := by
  have back := List.dropWhile_sublist isBlankByte (l := (t.dropWhile isBlankByte).reverse)
  have kept := back.reverse
  rw [List.reverse_reverse] at kept
  exact kept.trans (List.dropWhile_sublist isBlankByte)

/-! White space of whole lines. -/

theorem is_blank_append (t u : Text) (begins : ∀ c ∈ u.head?, isContinuation c = false) :
    isBlank (t ++ u) = (isBlank t && isBlank u) := by
  unfold isBlank
  rw [runes_append t u begins, List.all_append]

theorem is_blank_ascii {b : UInt8} (plain : b < 0x80) (solid : isBlankCode b.toNat = false)
    (rest : Text) : isBlank (b :: rest) = false := by
  unfold isBlank
  rw [runes_ascii plain]
  simp [Rune.isBlank, solid]

def dropBlankEnd (rs : List Rune) : List Rune := (rs.reverse.dropWhile Rune.isBlank).reverse

theorem trim_eq (t : Text) : trim t = ofRunes (dropBlankEnd ((runes t).dropWhile Rune.isBlank)) :=
  rfl

theorem drop_blank_end_cut (rs : List Rune) :
    ∃ gone, rs = dropBlankEnd rs ++ gone ∧ ∀ r ∈ gone, r.isBlank = true := by
  refine ⟨(rs.reverse.takeWhile Rune.isBlank).reverse, ?_, ?_⟩
  · unfold dropBlankEnd
    rw [← List.reverse_append, List.takeWhile_append_dropWhile, List.reverse_reverse]
  · intro r member
    exact List.all_eq_true.mp List.all_takeWhile r (List.mem_reverse.mp member)

theorem drop_blank_end_last (rs : List Rune) :
    ∀ r ∈ (dropBlankEnd rs).getLast?, r.isBlank = false := by
  intro r last
  unfold dropBlankEnd at last
  rw [List.getLast?_reverse] at last
  have stops := List.head?_dropWhile_not Rune.isBlank rs.reverse
  rw [Option.mem_def.mp last] at stops
  simpa using stops

theorem drop_blank_end_kept {rs : List Rune} (last : ∀ r ∈ rs.getLast?, r.isBlank = false) :
    dropBlankEnd rs = rs := by
  unfold dropBlankEnd
  rcases List.eq_nil_or_concat rs with rfl | ⟨front, r, rfl⟩
  · rfl
  · rw [List.concat_eq_append] at last ⊢
    have kept : r.isBlank = false := last r (by simp)
    simp [kept]

theorem drop_blank_end_append {rs rs' : List Rune}
    (last : ∀ r ∈ rs.getLast?, r.isBlank = false) :
    dropBlankEnd (rs ++ rs') = rs ++ dropBlankEnd rs' := by
  have stops : rs.reverse.dropWhile Rune.isBlank = rs.reverse := by
    have kept := congrArg List.reverse (drop_blank_end_kept last)
    rwa [dropBlankEnd, List.reverse_reverse] at kept
  unfold dropBlankEnd
  rw [List.reverse_append, List.dropWhile_append, stops]
  split
  · next none => simp [List.isEmpty_iff.mp none]
  · simp

/-- No white space at either end. -/
def Stripped (t : Text) : Prop :=
  (∀ r ∈ (runes t).head?, r.isBlank = false) ∧ ∀ r ∈ (runes t).getLast?, r.isBlank = false

theorem drop_while_kept {rs : List Rune} (first : ∀ r ∈ rs.head?, r.isBlank = false) :
    rs.dropWhile Rune.isBlank = rs := by
  cases rs with
  | nil => rfl
  | cons r rs => simp [first r rfl]

theorem trim_stripped {t : Text} (stripped : Stripped t) : trim t = t := by
  rw [trim_eq, drop_while_kept stripped.1, drop_blank_end_kept stripped.2, of_runes_runes]

theorem runes_trim (t : Text) :
    runes (trim t) = dropBlankEnd ((runes t).dropWhile Rune.isBlank) := by
  have front : runes t = (runes t).takeWhile Rune.isBlank ++ (runes t).dropWhile Rune.isBlank :=
    List.takeWhile_append_dropWhile.symm
  obtain ⟨gone, back, -⟩ := drop_blank_end_cut ((runes t).dropWhile Rune.isBlank)
  have kept := (runes_of_runes front).2
  rw [trim_eq]
  exact (runes_of_runes (kept.trans back)).1

theorem trim_mem {t : Text} {b : UInt8} (member : b ∈ trim t) : b ∈ t := by
  rw [trim_eq] at member
  obtain ⟨r, kept, inside⟩ := List.mem_flatMap.mp member
  have among : r ∈ runes t := by
    refine (List.dropWhile_sublist Rune.isBlank).subset ?_
    exact List.mem_reverse.mp ((List.dropWhile_sublist _).subset (List.mem_reverse.mp kept))
  rw [← of_runes_runes t]
  exact List.mem_flatMap.mpr ⟨r, among, inside⟩

theorem stripped_trim (t : Text) : Stripped (trim t) := by
  unfold Stripped
  rw [runes_trim]
  refine ⟨?_, drop_blank_end_last _⟩
  intro r first
  obtain ⟨gone, back, -⟩ := drop_blank_end_cut ((runes t).dropWhile Rune.isBlank)
  have stops := List.head?_dropWhile_not Rune.isBlank (runes t)
  rw [back, List.head?_append, Option.mem_def.mp first, Option.some_or] at stops
  simpa using stops

theorem is_blank_trim (t : Text) : isBlank (trim t) = isBlank t := by
  obtain ⟨gone, back, blank⟩ := drop_blank_end_cut ((runes t).dropWhile Rune.isBlank)
  unfold isBlank
  rw [runes_trim]
  generalize dropBlankEnd ((runes t).dropWhile Rune.isBlank) = kept at back
  calc kept.all Rune.isBlank = (kept ++ gone).all Rune.isBlank := by
        rw [List.all_append, List.all_eq_true.mpr blank, Bool.and_true]
    _ = ((runes t).takeWhile Rune.isBlank ++ (runes t).dropWhile Rune.isBlank).all
          Rune.isBlank := by
        rw [← back, List.all_append, List.all_takeWhile, Bool.true_and]
    _ = (runes t).all Rune.isBlank := by rw [List.takeWhile_append_dropWhile]

/-- Where a text begins with something that is not blank, only its end is trimmed. -/
theorem trim_append {front back : Text} (apart : runes (front ++ back) = runes front ++ runes back)
    (first : ∀ r ∈ (runes front ++ runes back).head?, r.isBlank = false)
    (last : ∀ r ∈ (runes front).getLast?, r.isBlank = false) :
    ∃ kept gone, back = kept ++ gone ∧ trim (front ++ back) = front ++ kept ∧
      (gone = [] ↔ ∀ r ∈ (runes back).getLast?, r.isBlank = false) := by
  obtain ⟨gone, cut, -⟩ := drop_blank_end_cut (runes back)
  refine ⟨ofRunes (dropBlankEnd (runes back)), ofRunes gone, ?_, ?_, ?_⟩
  · conv => lhs; rw [← of_runes_runes back, cut]
    simp [ofRunes]
  · rw [trim_eq, apart, drop_while_kept first, drop_blank_end_append last]
    conv => rhs; rw [← of_runes_runes front]
    simp [ofRunes]
  · constructor
    · intro none
      have nothing : gone = [] := by
        rw [← (runes_of_runes cut).2, none]
        rfl
      rw [nothing, List.append_nil] at cut
      rw [cut]
      exact drop_blank_end_last _
    · intro solid
      have nothing : gone = [] := by
        rw [drop_blank_end_kept solid] at cut
        simpa using cut
      rw [nothing]
      rfl

end DeviceScript.Text

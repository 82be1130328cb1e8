import DeviceScript.Proofs.Text.Runes
import DeviceScript.Proofs.Token.Words
import DeviceScript.Token.Line

/-!
Lines of each form. A line that is written as a form prescribes is read as that form, and by no
other that is tried before it.
-/

namespace DeviceScript.Token

open Text

/-- Arguments after a name: one space before them, if there are any. -/
def spaced (args : Text) : Text := if args = [] then [] else 32 :: args

@[simp] theorem spaced_nil : spaced [] = [] := rfl

theorem spaced_cons {args : Text} (some : args ≠ []) : spaced args = 32 :: args := if_neg some

theorem spaced_begins (args : Text) : ∀ c ∈ (spaced args).head?, isContinuation c = false := by
  unfold spaced
  split
  · exact nofun
  · simp [isContinuation]

theorem spaced_one_line {args : Text} (oneLine : newline ∉ args) : newline ∉ spaced args := by
  unfold spaced
  split
  · exact nofun
  · simpa [oneLine] using (by decide : newline ≠ 32)

theorem spaced_last {name args : Text} (solid : ∀ b ∈ name.getLast?, isBlankByte b = false)
    (trimmed : Trimmed args) : ∀ b ∈ (name ++ spaced args).getLast?, isBlankByte b = false := by
  by_cases none : args = []
  · subst none
    simpa using solid
  · obtain ⟨front, last, rfl⟩ := (List.eq_nil_or_concat args).resolve_left none
    rw [spaced_cons none, List.concat_eq_append, ← List.cons_append, ← List.append_assoc,
      List.getLast?_append]
    exact fun b ends => trimmed.2 b (by simpa using ends)

theorem trim_space (t : Text) : trimBlankBytes (32 :: t) = trimBlankBytes t := by
  have front : (32 :: t).dropWhile isBlankByte = t.dropWhile isBlankByte := by
    simp [isBlankByte]
  unfold trimBlankBytes
  rw [front]

/-- What follows a name after some white space is taken without the white space around it. -/
theorem rest_after_blank {t : Text} (blank : ∀ b ∈ t.head?, isBlankByte b = true)
    (oneLine : newline ∉ t) : restAfterName t = some (trimBlankBytes t) := by
  have clean : newline ∉ trimBlankBytes t := fun member => oneLine ((trim_sublist t).subset member)
  unfold restAfterName
  cases t with
  | nil => rfl
  | cons b rest =>
      simp only
      split
      · next none => rw [List.isEmpty_iff.mp none]
      · simp [blank b rfl, clean]

theorem rest_after_spaced {args : Text} (trimmed : Trimmed args) (oneLine : newline ∉ args) :
    restAfterName (spaced args) = some args := by
  by_cases none : args = []
  · subst none
    rfl
  · have clean : newline ∉ 32 :: args := by
      simpa [oneLine] using (by decide : newline ≠ 32)
    rw [spaced_cons none, rest_after_blank (by simp [isBlankByte]) clean, trim_space,
      trim_trimmed trimmed]

/-- A name that is cut short leaves the rest of it behind, and no white space. -/
theorem rest_after_part {t : Text} (more : ∀ b ∈ t.head?, isBlankByte b = false) (some : t ≠ []) :
    restAfterName t = none := by
  obtain ⟨b, rest, rfl⟩ := List.exists_cons_of_ne_nil some
  have first : isBlankByte b = false := more b rfl
  obtain ⟨more, kept⟩ := trim_blank_bytes_solid first rest
  unfold restAfterName
  simp [kept, first]

theorem drop_start_iff {start t rest : Text} :
    dropStart? start t = some rest ↔ t = start ++ rest := by
  unfold dropStart?
  rw [Option.ite_none_right_eq_some, List.isPrefixOf_iff_prefix, Option.some.injEq]
  constructor
  · rintro ⟨⟨more, rfl⟩, rfl⟩
    simp
  · rintro rfl
    exact ⟨List.prefix_append _ _, by simp⟩

/-! Words with spaces between them, after a name. -/

theorem join_cons (w : Text) {ws : List Text} (some : ∀ v ∈ ws, v ≠ []) :
    joinWith " " (w :: ws) = w ++ spaced (joinWith " " ws) := by
  cases ws with
  | nil => simp [joinWith]
  | cons v ws =>
      have more : joinWith " " (v :: ws) ≠ [] := by
        cases ws <;> simp [joinWith, some v List.mem_cons_self]
      rw [spaced_cons more]
      simp [joinWith, ofString, String.utf8EncodeChar]

theorem join_mem {ws : List Text} {b : UInt8} (member : b ∈ joinWith " " ws) :
    b = 32 ∨ ∃ w ∈ ws, b ∈ w := by
  induction ws with
  | nil => cases member
  | cons w ws ih =>
      cases ws with
      | nil => exact .inr ⟨w, List.mem_cons_self, member⟩
      | cons v ws =>
          have parts : b ∈ w ∨ b = 32 ∨ b ∈ joinWith " " (v :: ws) := by
            simpa [joinWith, ofString, String.utf8EncodeChar] using member
          rcases parts with here | space | later
          · exact .inr ⟨w, List.mem_cons_self, here⟩
          · exact .inl space
          · rcases ih later with space | ⟨u, among, inside⟩
            · exact .inl space
            · exact .inr ⟨u, List.mem_cons_of_mem w among, inside⟩

theorem join_trimmed {ws : List Text} (each : ∀ w ∈ ws, w ≠ [] ∧ Trimmed w) :
    Trimmed (joinWith " " ws) := by
  induction ws with
  | nil => exact ⟨nofun, nofun⟩
  | cons w ws ih =>
      obtain ⟨some, trimmed⟩ := each w List.mem_cons_self
      have others v (member : v ∈ ws) := each v (List.mem_cons_of_mem w member)
      have rest := ih others
      rw [join_cons w fun v member => (others v member).1]
      refine ⟨?_, spaced_last trimmed.2 rest⟩
      obtain ⟨b, more, rfl⟩ := List.exists_cons_of_ne_nil some
      exact trimmed.1

/-- A name at the front of a text, before its arguments, is the first that fits: a shorter one
leaves a part of the name behind, and a longer one would hold the space. -/
theorem name_before_spaced {name other args rest : Text} (solid : ∀ b ∈ name, isBlankByte b = false)
    (spaceless : (32 : UInt8) ∉ other) (different : other ≠ name)
    (begins : name ++ spaced args = other ++ rest) : restAfterName rest = none := by
  rcases List.append_eq_append_iff.mp begins with ⟨more, rfl, after⟩ | ⟨more, rfl, rfl⟩
  · -- `other` goes on after `name`, so it holds what `args` are set off with.
    have some : more ≠ [] := by
      rintro rfl
      exact different (List.append_nil name)
    obtain ⟨b, more, rfl⟩ := List.exists_cons_of_ne_nil some
    unfold spaced at after
    split at after
    · cases after
    · obtain ⟨rfl, -⟩ := List.cons.inj after
      exact absurd (by simp) spaceless
  · have some : more ≠ [] := by
      rintro rfl
      exact different (List.append_nil other).symm
    obtain ⟨b, more, rfl⟩ := List.exists_cons_of_ne_nil some
    refine rest_after_part ?_ (by simp)
    intro c first
    have same : b = c := by simpa using first
    exact same ▸ solid b (by simp)

theorem first_name_eq {follow : Text → Option Text} {names : List Text} {name t found : Text}
    (listed : name ∈ names) (here : (dropStart? name t).bind follow = some found)
    (others : ∀ m ∈ names, m ≠ name → (dropStart? m t).bind follow = none) :
    firstName follow names t = some (name, found) := by
  have one (m : Text) : ((dropStart? m t).bind fun rest => (follow rest).map fun x => (m, x)) =
      ((dropStart? m t).bind follow).map fun x => (m, x) := by
    cases dropStart? m t <;> rfl
  unfold firstName
  simp only [one]
  induction names with
  | nil => cases listed
  | cons m names ih =>
      rw [List.findSome?_cons]
      by_cases same : m = name
      · rw [same, here]
        rfl
      · rw [others m List.mem_cons_self same]
        have later : name ∈ names := by
          rcases List.mem_cons.mp listed with first | later
          · exact absurd first.symm same
          · exact later
        exact ih later fun n among => others n (List.mem_cons_of_mem m among)

/-- Of the splits after blanks only the first leaves no blank to the name. -/
theorem blank_splits_begin (t : Text) :
    ∃ others, blankSplits t = dropBlanks t :: others ∧
      ∀ u ∈ others, ∃ b rest, u = b :: rest ∧ isBlankByte b = true := by
  induction t with
  | nil => exact ⟨[], rfl, nofun⟩
  | cons b rest ih =>
      by_cases blank : isBlankByte b = true
      · obtain ⟨others, same, begin⟩ := ih
        refine ⟨others ++ [b :: rest], by simp [blankSplits, dropBlanks, blank, same], ?_⟩
        intro u member
        rcases List.mem_append.mp member with earlier | last
        · exact begin u earlier
        · exact ⟨b, rest, List.mem_singleton.mp last, blank⟩
      · exact ⟨[], by simp [blankSplits, dropBlanks, blank], nofun⟩

theorem first_name_read {follow : Text → Option Text} {names : List Text} {t name found : Text}
    (read : firstName follow names t = some (name, found)) :
    name ∈ names ∧ ∃ rest, t = name ++ rest ∧ follow rest = some found := by
  obtain ⟨m, among, fits⟩ := List.exists_of_findSome?_eq_some read
  obtain ⟨rest, begins, follows⟩ := Option.bind_eq_some_iff.mp fits
  obtain ⟨other, after, same⟩ := Option.map_eq_some_iff.mp follows
  cases same
  exact ⟨among, rest, drop_start_iff.mp begins, after⟩

/-- An operation of that name would be an inclusion, which is tried first. -/
theorem operation_line_name {names : List Text} {line name rest : Text}
    (found : operationLine? names line = some (name, rest)) (other : inclusionLine? line = none) :
    name ≠ ofString "include" := by
  rintro rfl
  obtain ⟨start, member, first⟩ := List.exists_of_findSome?_eq_some found
  obtain ⟨-, after, rfl, follows⟩ := first_name_read first
  obtain ⟨others, splits, begin⟩ := blank_splits_begin line
  rw [splits] at member
  rcases List.mem_cons.mp member with whole | later
  · have started : dropStart? "include" (dropBlanks line) = some after :=
      drop_start_iff.mpr whole.symm
    simp [inclusionLine?, started, follows] at other
  · -- The name would begin with white space.
    obtain ⟨b, more, same, blank⟩ := begin _ later
    obtain ⟨rfl, -⟩ := List.cons.inj same
    exact absurd blank (by decide)

/-! A line that begins with something else. -/

section Begins

variable {b : UInt8} {rest : Text} (solid : isBlankByte b = false)

include solid

theorem drop_blanks_solid : dropBlanks (b :: rest) = b :: rest := by
  simp [dropBlanks, solid]

theorem blank_splits_solid : blankSplits (b :: rest) = [b :: rest] := by
  simp [blankSplits, solid]

omit solid in
theorem drop_start_other {c : UInt8} (other : b ≠ c) : dropStart? [c] (b :: rest) = none := by
  simpa [dropStart?] using other.symm

theorem not_section (other : b ≠ ascii '[') : sectionLine? (b :: rest) = none := by
  have start : dropStart? "[" (b :: rest) = none := drop_start_other other
  unfold sectionLine?
  rw [drop_blanks_solid solid, start]
  rfl

theorem not_comment (other : b ≠ ascii '#') : commentLine? (b :: rest) = none := by
  have start : dropStart? "#" (b :: rest) = none := drop_start_other other
  unfold commentLine?
  rw [drop_blanks_solid solid, start]
  rfl

theorem not_inclusion (other : b ≠ ascii 'i') : inclusionLine? (b :: rest) = none := by
  have start : dropStart? "include" (b :: rest) = none := by
    cases found : dropStart? "include" (b :: rest) with
    | none => rfl
    | some after => exact absurd (List.cons.inj (drop_start_iff.mp found)).1 other
  simp [inclusionLine?, drop_blanks_solid solid, start]

theorem not_known_keyword (other : b ≠ ascii '<') (names : List Text) :
    knownKeywordLine? names (b :: rest) = none := by
  have start : dropStart? "<" (b :: rest) = none := drop_start_other other
  simp [knownKeywordLine?, drop_blanks_solid solid, start]

theorem not_keyword (other : b ≠ ascii '<') : keywordLine? (b :: rest) = none := by
  have start : dropStart? "<" (b :: rest) = none := drop_start_other other
  unfold keywordLine?
  rw [drop_blanks_solid solid, start]
  rfl

end Begins

/-- A name that can stand at the start of an operation line: no white space in it, and nothing that
another form of line begins with. -/
structure Leads (name : Text) : Prop where
  solid : ∀ b ∈ name, isBlankByte b = false
  shown : isBlank name = false
  start : ∀ b ∈ name.head?, b ≠ ascii '[' ∧ b ≠ ascii '#' ∧ b ≠ ascii '<'
  other : name ≠ ofString "include"

theorem Leads.cons {name : Text} (leads : Leads name) : ∃ b rest, name = b :: rest := by
  refine List.exists_cons_of_ne_nil ?_
  rintro rfl
  cases leads.shown

theorem inclusion_before_spaced {name args : Text} (leads : Leads name) :
    inclusionLine? (name ++ spaced args) = none := by
  obtain ⟨b, more, rfl⟩ := leads.cons
  unfold inclusionLine?
  rw [List.cons_append, drop_blanks_solid (leads.solid b List.mem_cons_self), ← List.cons_append]
  cases found : dropStart? "include" (b :: more ++ spaced args) with
  | none => rfl
  | some rest =>
      exact name_before_spaced leads.solid (by decide) leads.other.symm (drop_start_iff.mp found)

theorem operation_before_spaced {names : List Text} {name args : Text} (leads : Leads name)
    (listed : name ∈ names) (spaceless : ∀ m ∈ names, (32 : UInt8) ∉ m) (trimmed : Trimmed args)
    (oneLine : newline ∉ args) :
    operationLine? names (name ++ spaced args) = some (name, args) := by
  have found : firstName restAfterName names (name ++ spaced args) = some (name, args) := by
    refine first_name_eq listed ?_ ?_
    · rw [drop_start_iff.mpr rfl]
      exact rest_after_spaced trimmed oneLine
    · intro m among different
      cases begins : dropStart? m (name ++ spaced args) with
      | none => rfl
      | some rest =>
          exact name_before_spaced leads.solid (spaceless m among) different
            (drop_start_iff.mp begins)
  obtain ⟨b, more, rfl⟩ := leads.cons
  unfold operationLine?
  rw [List.cons_append, blank_splits_solid (leads.solid b List.mem_cons_self), ← List.cons_append]
  simpa using found

theorem no_return_at_end {t : Text} (last : ∀ b ∈ t.getLast?, isBlankByte b = false) :
    dropRightWhile (· == 13) t = t := by
  refine drop_right_while_kept ?_
  intro b ends
  have solid := last b ends
  simp only [beq_eq_false_iff_ne]
  rintro rfl
  cases solid

theorem operation_line_tokens {v : Vocabulary} {name args : Text} (leads : Leads name)
    (listed : name ∈ v.operations) (spaceless : ∀ m ∈ v.operations, (32 : UInt8) ∉ m)
    (trimmed : Trimmed args) (oneLine : newline ∉ args) (n : Int) :
    lineTokens? v (name ++ spaced args) n = some (⟨.operation, name, n⟩ :: arguments args n) := by
  have kept : dropRightWhile (· == 13) (name ++ spaced args) = name ++ spaced args := by
    refine no_return_at_end (spaced_last ?_ trimmed)
    intro b ends
    exact leads.solid b (List.mem_of_mem_getLast? ends)
  have shown : isBlank (name ++ spaced args) = false := by
    rw [is_blank_append _ _ (spaced_begins args), leads.shown, Bool.false_and]
  have operation := operation_before_spaced leads listed spaceless trimmed oneLine
  have inclusion : inclusionLine? (name ++ spaced args) = none := inclusion_before_spaced leads
  obtain ⟨b, more, rfl⟩ := leads.cons
  have solid := leads.solid b List.mem_cons_self
  obtain ⟨noSection, noComment, noKeyword⟩ := leads.start b rfl
  unfold lineTokens?
  simp only [kept, shown, Bool.false_eq_true, ↓reduceIte, inclusion, operation]
  simp only [List.cons_append, not_section solid noSection, not_comment solid noComment,
    not_known_keyword solid noKeyword, not_keyword solid noKeyword]

/-! Lines that begin with a mark. -/

theorem cut_at {mark : UInt8} {before : Text} (free : mark ∉ before) (after : Text) :
    cut mark (before ++ mark :: after) = some (before, after) := by
  induction before with
  | nil => simp [cut]
  | cons b before ih =>
      have other : b ≠ mark := fun same => free (same ▸ List.mem_cons_self)
      have rest := ih fun member => free (List.mem_cons_of_mem b member)
      simp [cut, other, rest]

theorem cut_some {mark : UInt8} {t before after : Text}
    (found : cut mark t = some (before, after)) : t = before ++ mark :: after ∧ mark ∉ before := by
  induction t generalizing before with
  | nil => cases found
  | cons b rest ih =>
      unfold cut at found
      split at found
      · next same =>
          cases found
          simpa using same
      · next other =>
          obtain ⟨⟨front, back⟩, inner, same⟩ := Option.map_eq_some_iff.mp found
          cases same
          obtain ⟨parts, free⟩ := ih inner
          refine ⟨by rw [parts]; rfl, ?_⟩
          intro member
          rcases List.mem_cons.mp member with first | later
          · exact other (by simp [first])
          · exact free later

theorem guard_pass {p : Prop} [Decidable p] (holds : p) : (guard p : Option Unit) = some () :=
  if_pos holds

theorem guard_read {p : Prop} [Decidable p] {u : Unit} (passed : (guard p : Option Unit) = some u) :
    p := by
  by_cases holds : p
  · exact holds
  · have fails : (guard p : Option Unit) = none := if_neg holds
    rw [fails] at passed
    cases passed

theorem section_line_tokens (v : Vocabulary) {name : Text} (trimmed : Trimmed name)
    (free : ascii ']' ∉ name) (n : Int) :
    lineTokens? v ("[" ++ name ++ "]") n = some [⟨.sectionName, name, n⟩] := by
  have written : (("[" : Text) ++ name ++ "]") = ascii '[' :: (name ++ [ascii ']']) := rfl
  rw [written]
  have kept : dropRightWhile (· == 13) (ascii '[' :: (name ++ [ascii ']'])) =
      ascii '[' :: (name ++ [ascii ']']) := by
    refine no_return_at_end ?_
    intro b ends
    rw [← List.cons_append, List.getLast?_concat] at ends
    cases ends
    rfl
  have header : sectionLine? (ascii '[' :: (name ++ [ascii ']'])) = some name := by
    have inside : dropStart? "[" (ascii '[' :: (name ++ [ascii ']'])) =
        some (name ++ [ascii ']']) := drop_start_iff.mpr rfl
    unfold sectionLine?
    rw [drop_blanks_solid (by decide)]
    refine Option.bind_eq_some_iff.mpr ⟨_, inside, ?_⟩
    refine Option.bind_eq_some_iff.mpr ⟨_, cut_at free [], ?_⟩
    refine Option.bind_eq_some_iff.mpr ⟨(), guard_pass rfl, ?_⟩
    exact congrArg some (trim_trimmed trimmed)
  unfold lineTokens?
  simp only [kept, is_blank_ascii (by decide : ascii '[' < 0x80) (by decide), Bool.false_eq_true,
    ↓reduceIte, header]

theorem comment_line_tokens (v : Vocabulary) {content : Text} (oneLine : newline ∉ content)
    (ends : ∀ b ∈ content.getLast?, b ≠ 13) (n : Int) :
    lineTokens? v ("#" ++ content) n = some [⟨.comment, content, n⟩] := by
  have written : (("#" : Text) ++ content) = ascii '#' :: content := rfl
  rw [written]
  have kept : dropRightWhile (· == 13) (ascii '#' :: content) = ascii '#' :: content := by
    refine drop_right_while_kept ?_
    intro b last
    rw [List.getLast?_cons] at last
    cases found : content.getLast? with
    | none =>
        rw [found] at last
        cases last
        rfl
    | some c =>
        rw [found] at last
        cases last
        simpa using ends c found
  have comment : commentLine? (ascii '#' :: content) = some content := by
    have start : dropStart? "#" (ascii '#' :: content) = some content := drop_start_iff.mpr rfl
    unfold commentLine?
    rw [drop_blanks_solid (by decide)]
    refine Option.bind_eq_some_iff.mpr ⟨_, start, ?_⟩
    exact Option.bind_eq_some_iff.mpr ⟨(), guard_pass (by simpa using oneLine), rfl⟩
  unfold lineTokens?
  simp only [kept, is_blank_ascii (by decide : ascii '#' < 0x80) (by decide), Bool.false_eq_true,
    ↓reduceIte, comment, not_section (by decide : isBlankByte (ascii '#') = false) (by decide)]

/-! Keywords. -/

theorem name_part_solid {b : UInt8} (part : isNamePart b = true) : isBlankByte b = false := by
  cases blank : isBlankByte b with
  | false => rfl
  | true =>
      simp only [isBlankByte, Bool.or_eq_true, beq_iff_eq] at blank
      rcases blank with (((rfl | rfl) | rfl) | rfl) | rfl <;> cases part

theorem name_parts {name : Text} (named : isName name = true) :
    ∀ b ∈ name, isNamePart b = true := by
  cases name with
  | nil => cases named
  | cons b rest =>
      simp only [isName, Bool.and_eq_true, List.all_eq_true] at named
      intro c member
      rcases List.mem_cons.mp member with rfl | later
      · simp [isNamePart, named.1]
      · exact named.2 c later

theorem name_free {name : Text} (named : isName name = true) {b : UInt8}
    (other : isNamePart b = false) : b ∉ name := by
  intro member
  rw [name_parts named b member] at other
  cases other

theorem name_begins {name : Text} (named : isName name = true) :
    ∃ b rest, name = b :: rest ∧ isNameStart b = true := by
  cases name with
  | nil => cases named
  | cons b rest =>
      simp only [isName, Bool.and_eq_true] at named
      exact ⟨b, rest, rfl, named.1⟩

theorem name_start_shown {b : UInt8} (start : isNameStart b = true) (rest : Text) :
    isBlank (b :: rest) = false := by
  have range : 65 ≤ b.toNat ∧ b.toNat ≤ 122 := by
    simp only [isNameStart, isLetter, Bool.or_eq_true, Bool.and_eq_true, decide_eq_true_eq,
      beq_iff_eq, UInt8.le_iff_toNat_le] at start
    rcases start with (upper | lower) | rfl
    · exact ⟨upper.1, Nat.le_trans upper.2 (by decide)⟩
    · exact ⟨Nat.le_trans (by decide) lower.1, lower.2⟩
    · decide
  have plain : b < 0x80 := UInt8.lt_iff_toNat_lt.mpr (Nat.lt_of_le_of_lt range.2 (by decide))
  refine is_blank_ascii plain ?_ rest
  simp only [isBlankCode, Bool.or_eq_false_iff, Bool.and_eq_false_iff, decide_eq_false_iff_not,
    beq_eq_false_iff_ne]
  omega

theorem name_leads {name : Text} (named : isName name = true) (other : name ≠ ofString "include") :
    Leads name where
  solid b member := name_part_solid (name_parts named b member)
  shown := by
    obtain ⟨b, rest, rfl, start⟩ := name_begins named
    exact name_start_shown start rest
  start b first := by
    have part := name_parts named b (List.mem_of_mem_head? first)
    refine ⟨?_, ?_, ?_⟩ <;> rintro rfl <;> cases part
  other := other

theorem before_closing (inside : Text) : beforeClosing (inside ++ [ascii '>']) = some inside := by
  have kept : dropRightWhile isBlankByte (inside ++ [ascii '>']) = inside ++ [ascii '>'] := by
    refine drop_right_while_kept ?_
    intro b ends
    rw [List.getLast?_concat] at ends
    cases ends
    rfl
  unfold beforeClosing
  rw [kept, List.reverse_append]
  simp

theorem keyword_follow_spaced {args : Text} (trimmed : Trimmed args) (oneLine : newline ∉ args) :
    keywordFollow (spaced args ++ [ascii '>']) = some args := by
  unfold keywordFollow
  rw [before_closing]
  exact rest_after_spaced trimmed oneLine

/-- The closing bracket makes no difference to which names fit. -/
theorem keyword_before_spaced {name other args rest : Text}
    (solid : ∀ b ∈ name, isBlankByte b = false) (named : isName other = true)
    (different : other ≠ name) (begins : name ++ spaced args ++ [ascii '>'] = other ++ rest) :
    keywordFollow rest = none := by
  have some : rest ≠ [] := by
    rintro rfl
    have among : ascii '>' ∈ other := by
      rw [List.append_nil] at begins
      simp [← begins]
    exact name_free named (by decide) among
  obtain ⟨front, b, rfl⟩ := (List.eq_nil_or_concat rest).resolve_left some
  rw [List.concat_eq_append, ← List.append_assoc] at begins
  obtain ⟨before, last⟩ := List.append_inj' begins rfl
  cases last
  unfold keywordFollow
  rw [List.concat_eq_append, before_closing]
  exact name_before_spaced solid (name_free named (by decide)) different before

theorem first_name_none {follow : Text → Option Text} {names : List Text} {t : Text}
    (others : ∀ m ∈ names, (dropStart? m t).bind follow = none) :
    firstName follow names t = none := by
  unfold firstName
  rw [List.findSome?_eq_none_iff]
  intro m among
  have none := others m among
  cases begins : dropStart? m t with
  | none => rfl
  | some rest =>
      rw [begins] at none
      simp [show follow rest = Option.none from none]

section Keyword

variable {name args : Text} (named : isName name = true) (trimmed : Trimmed args)
variable (oneLine : newline ∉ args)

include named trimmed oneLine

theorem known_keyword_line {names : List Text} (each : ∀ m ∈ names, isName m = true) :
    knownKeywordLine? names (ascii '<' :: (name ++ spaced args ++ [ascii '>'])) =
      if name ∈ names then some (name, args) else none := by
  have solid b (member : b ∈ name) := name_part_solid (name_parts named b member)
  have others (m : Text) (among : m ∈ names) (different : m ≠ name) :
      (dropStart? m (name ++ spaced args ++ [ascii '>'])).bind keywordFollow = none := by
    cases begins : dropStart? m (name ++ spaced args ++ [ascii '>']) with
    | none => rfl
    | some rest =>
        exact keyword_before_spaced solid (each m among) different (drop_start_iff.mp begins)
  have found : firstName keywordFollow names (name ++ spaced args ++ [ascii '>']) =
      if name ∈ names then some (name, args) else none := by
    split
    · next listed =>
        refine first_name_eq listed ?_ others
        rw [List.append_assoc, drop_start_iff.mpr rfl]
        exact keyword_follow_spaced trimmed oneLine
    · next unlisted =>
        refine first_name_none fun m among => others m among ?_
        rintro rfl
        exact unlisted among
  have start : dropStart? "<" (ascii '<' :: (name ++ spaced args ++ [ascii '>'])) =
      some (name ++ spaced args ++ [ascii '>']) := drop_start_iff.mpr rfl
  obtain ⟨b, rest, rfl, -⟩ := name_begins named
  have single : blankSplits (b :: rest ++ spaced args ++ [ascii '>']) =
      [b :: rest ++ spaced args ++ [ascii '>']] := blank_splits_solid (solid b List.mem_cons_self)
  unfold knownKeywordLine?
  rw [drop_blanks_solid (by decide), start]
  simp only [Option.bind_eq_bind, Option.bind_some, single, List.findSome?_cons, found]
  split
  · next same => exact same.symm
  · next same => exact same.symm

theorem keyword_line :
    keywordLine? (ascii '<' :: (name ++ spaced args ++ [ascii '>'])) = some (name, args) := by
  have solid b (member : b ∈ name) := name_part_solid (name_parts named b member)
  have start : dropStart? "<" (ascii '<' :: (name ++ spaced args ++ [ascii '>'])) =
      some (name ++ spaced args ++ [ascii '>']) := drop_start_iff.mpr rfl
  have run : (name ++ spaced args ++ [ascii '>']).takeWhile isNamePart = name := by
    rw [List.append_assoc, List.takeWhile_append_of_pos (name_parts named)]
    have ends : (spaced args ++ [ascii '>']).takeWhile isNamePart = [] := by
      unfold spaced
      split <;> rfl
    rw [ends, List.append_nil]
  have whole : dropBlanks (name ++ spaced args ++ [ascii '>']) =
      name ++ spaced args ++ [ascii '>'] := by
    obtain ⟨b, rest, rfl, -⟩ := name_begins named
    exact drop_blanks_solid (solid b List.mem_cons_self)
  have follow : keywordFollow ((name ++ spaced args ++ [ascii '>']).drop name.length) =
      some args := by
    rw [List.append_assoc, List.drop_left]
    exact keyword_follow_spaced trimmed oneLine
  unfold keywordLine?
  rw [drop_blanks_solid (by decide)]
  refine Option.bind_eq_some_iff.mpr ⟨_, start, ?_⟩
  rw [whole]
  dsimp only
  rw [run]
  refine Option.bind_eq_some_iff.mpr ⟨(), guard_pass named, ?_⟩
  exact Option.bind_eq_some_iff.mpr ⟨_, follow, rfl⟩

end Keyword

theorem keyword_line_tokens {v : Vocabulary} (names : ∀ m ∈ v.keywords, isName m = true)
    {name args : Text} (named : isName name = true) (trimmed : Trimmed args)
    (oneLine : newline ∉ args) (n : Int) :
    lineTokens? v ("<" ++ name ++ spaced args ++ ">") n =
      some (⟨.keyword, name, n⟩ :: arguments args n) := by
  have written : (("<" : Text) ++ name ++ spaced args ++ ">") =
      ascii '<' :: (name ++ spaced args ++ [ascii '>']) := rfl
  rw [written]
  have kept : dropRightWhile (· == 13) (ascii '<' :: (name ++ spaced args ++ [ascii '>'])) =
      ascii '<' :: (name ++ spaced args ++ [ascii '>']) := by
    refine no_return_at_end ?_
    intro b ends
    rw [← List.cons_append, List.getLast?_concat] at ends
    cases ends
    rfl
  have solid : isBlankByte (ascii '<') = false := rfl
  unfold lineTokens?
  simp only [kept, is_blank_ascii (by decide : ascii '<' < 0x80) (by decide), Bool.false_eq_true,
    ↓reduceIte, not_section solid (by decide), not_comment solid (by decide),
    not_inclusion solid (by decide), known_keyword_line named trimmed oneLine names,
    keyword_line named trimmed oneLine]
  by_cases known : name ∈ v.keywords
  · rw [if_pos known]
  · rw [if_neg known]

/-! Inclusions and commands, where white space is trimmed. -/

theorem stripped_no_return {t : Text} (stripped : Stripped t) :
    dropRightWhile (· == 13) t = t := by
  refine drop_right_while_kept ?_
  intro b ends
  refine beq_eq_false_iff_ne.mpr ?_
  rintro rfl
  obtain ⟨front, rfl⟩ := List.getLast?_eq_some_iff.mp ends
  have last := stripped.2 ⟨13, [13]⟩ (by
    rw [runes_append front [13] (by simp [isContinuation])]
    simp [runes, runesAfter, firstRune])
  cases last

theorem inclusion_line_tokens (v : Vocabulary) {rest : Text}
    (blank : ∀ b ∈ rest.head?, isBlankByte b = true) (oneLine : newline ∉ rest)
    (stripped : Stripped ("include" ++ rest)) (n : Int) :
    lineTokens? v ("include" ++ rest) n = some [⟨.inclusion, trimBlankBytes rest, n⟩] := by
  have written : (("include" : Text) ++ rest) = ascii 'i' :: ("nclude" ++ rest) := rfl
  have solid : isBlankByte (ascii 'i') = false := rfl
  have inclusion : inclusionLine? ("include" ++ rest) = some (trimBlankBytes rest) := by
    unfold inclusionLine?
    rw [written, drop_blanks_solid solid, ← written, drop_start_iff.mpr rfl, Option.bind_some]
    exact rest_after_blank blank oneLine
  unfold lineTokens?
  rw [stripped_no_return stripped]
  simp only [inclusion]
  rw [written]
  simp only [is_blank_ascii (by decide : ascii 'i' < 0x80) (by decide), Bool.false_eq_true,
    ↓reduceIte, not_section solid (by decide), not_comment solid (by decide)]

/-- No form of a line fits, but that of a command. -/
def isPlainCommand (v : Vocabulary) (line : Text) : Bool :=
  (sectionLine? line).isNone && (commentLine? line).isNone && (inclusionLine? line).isNone
    && (knownKeywordLine? v.keywords line).isNone && (keywordLine? line).isNone
    && (operationLine? v.operations line).isNone

section Command

variable {v : Vocabulary} {text : Text} (stripped : Stripped text) (shown : isBlank text = false)

include stripped shown

theorem command_line_tokens (oneLine : newline ∉ text) (plain : isPlainCommand v text = true)
    (n : Int) : lineTokens? v text n = some [⟨.command, text, n⟩] := by
  simp only [isPlainCommand, Bool.and_eq_true, Option.isNone_iff_eq_none] at plain
  obtain ⟨⟨⟨⟨⟨noSection, noComment⟩, noInclusion⟩, noKnown⟩, noKeyword⟩, noOperation⟩ := plain
  unfold lineTokens?
  simp only [stripped_no_return stripped, shown, Bool.false_eq_true, ↓reduceIte, noSection,
    noComment, noInclusion, noKnown, noKeyword, noOperation, trim_stripped stripped]
  simp [oneLine]

/-- A line that could be a command is read as what it could be otherwise. -/
theorem hidden_line_tokens (hidden : isPlainCommand v text = false) (n : Int) :
    ∃ t args, lineTokens? v text n = some (t :: args) ∧ t.kind ≠ .command := by
  unfold lineTokens?
  unfold isPlainCommand at hidden
  simp only [stripped_no_return stripped, shown, Bool.false_eq_true, ↓reduceIte]
  cases header : sectionLine? text with
  | some name => exact ⟨_, _, rfl, nofun⟩
  | none =>
  cases comment : commentLine? text with
  | some content => exact ⟨_, _, rfl, nofun⟩
  | none =>
  cases inclusion : inclusionLine? text with
  | some path => exact ⟨_, _, rfl, nofun⟩
  | none =>
  cases known : knownKeywordLine? v.keywords text with
  | some found => exact ⟨_, _, rfl, nofun⟩
  | none =>
  cases keyword : keywordLine? text with
  | some found => exact ⟨_, _, rfl, nofun⟩
  | none =>
  cases operation : operationLine? v.operations text with
  | some found => exact ⟨_, _, rfl, nofun⟩
  | none => simp [header, comment, inclusion, known, keyword, operation] at hidden

end Command

end DeviceScript.Token

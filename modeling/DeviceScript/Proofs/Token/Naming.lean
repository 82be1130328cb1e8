import DeviceScript.Proofs.Source.Instructions
import DeviceScript.Proofs.Token.RoundTrip
import Mathlib.Data.List.TakeWhile

/-!
Names of a vocabulary in lines. A name that is an identifier fits a line only as the whole word that
the line begins with, so it makes no difference where in the vocabulary it is listed.
-/

namespace DeviceScript.Token

open Text

/-- A name found after blanks is found after all of them. -/
theorem splits_name_iff {follow : Text → Option Text} {names : List Text}
    (named : ∀ m ∈ names, isName m = true) (t : Text) (found : Text × Text) :
    (blankSplits t).findSome? (firstName follow names) = some found ↔
      firstName follow names (dropBlanks t) = some found := by
  obtain ⟨others, same, begin⟩ := blank_splits_begin t
  have none : others.findSome? (firstName follow names) = none := by
    rw [List.findSome?_eq_none_iff]
    intro u member
    obtain ⟨b, rest, rfl, blank⟩ := begin u member
    refine first_name_none fun m among => ?_
    cases starts : dropStart? m (b :: rest) with
    | none => rfl
    | some after =>
        obtain ⟨c, more, rfl, -⟩ := name_begins (named m among)
        obtain ⟨rfl, -⟩ := List.cons.inj (drop_start_iff.mp starts)
        have part := name_parts (named _ among) b List.mem_cons_self
        rw [name_part_solid part] at blank
        cases blank
  rw [same, List.findSome?_cons, none]
  cases firstName follow names (dropBlanks t) <;> simp

/-- What follows a name decides which name it is, so that the first that fits is the only one. -/
theorem first_name_iff {follow : Text → Option Text} {names : List Text} {word : Text → Text}
    (whole : ∀ m ∈ names, ∀ rest found, follow rest = some found → m = word (m ++ rest))
    (t name found : Text) :
    firstName follow names t = some (name, found) ↔
      name ∈ names ∧ ∃ rest, t = name ++ rest ∧ follow rest = some found := by
  constructor
  · exact first_name_read
  · rintro ⟨listed, rest, rfl, follows⟩
    refine first_name_eq listed (by rw [drop_start_iff.mpr rfl]; exact follows) ?_
    intro m among different
    cases starts : dropStart? m (name ++ rest) with
    | none => rfl
    | some after =>
        refine Option.eq_none_iff_forall_ne_some.mpr fun other read => different ?_
        rw [whole m among after other read, whole name listed rest found follows,
          drop_start_iff.mp starts]

/-! Operations: the word ends where white space begins. -/

/-- The first word of a text: what stands between the white space it begins with and the next. -/
def leadingWord (t : Text) : Text := (dropBlanks t).takeWhile fun b => !isBlankByte b

def afterWord (t : Text) : Text := (dropBlanks t).dropWhile fun b => !isBlankByte b

theorem leading_word_append_after (t : Text) : leadingWord t ++ afterWord t = dropBlanks t :=
  List.takeWhile_append_dropWhile

theorem after_word_begins (t : Text) : ∀ b ∈ (afterWord t).head?, isBlankByte b = true := by
  intro b first
  have stops := List.head?_dropWhile_not (fun b => !isBlankByte b) (dropBlanks t)
  unfold afterWord at first
  rw [Option.mem_def.mp first] at stops
  simpa using stops

theorem after_word_subset (t : Text) {b : UInt8} (member : b ∈ afterWord t) : b ∈ t :=
  (drop_blanks_suffix t).mem ((List.dropWhile_suffix _).mem member)

/-- The rest of a line after a name begins with white space, if there is any. -/
theorem rest_after_begins {t found : Text} (read : restAfterName t = some found) :
    ∀ b ∈ t.head?, isBlankByte b = true := by
  intro b first
  by_contra solid
  have none : restAfterName t = none := by
    refine rest_after_part ?_ ?_
    · intro c head
      cases (Option.mem_def.mp first).symm.trans (Option.mem_def.mp head)
      simpa using solid
    · rintro rfl
      cases first
  rw [none] at read
  cases read

theorem word_ends {name rest : Text} (solid : ∀ b ∈ name, isBlankByte b = false)
    (blank : ∀ b ∈ rest.head?, isBlankByte b = true) :
    (name ++ rest).takeWhile (fun b => !isBlankByte b) = name ∧
      (name ++ rest).dropWhile (fun b => !isBlankByte b) = rest := by
  have part : ∀ b ∈ name, (!isBlankByte b) = true := fun b member => by simp [solid b member]
  rw [List.takeWhile_append_of_pos part, List.dropWhile_append_of_pos part]
  cases rest with
  | nil => simp
  | cons b rest => simp [blank b rfl]

theorem operation_line_iff {names : List Text} (named : ∀ m ∈ names, isName m = true)
    {line : Text} (oneLine : newline ∉ line) (name rest : Text) :
    operationLine? names line = some (name, rest) ↔
      name ∈ names ∧ name = leadingWord line ∧ rest = trimBlankBytes (afterWord line) := by
  have solid m (among : m ∈ names) b (member : b ∈ m) : isBlankByte b = false :=
    name_part_solid (name_parts (named m among) b member)
  have whole : ∀ m ∈ names, ∀ rest found, restAfterName rest = some found →
      m = (m ++ rest).takeWhile fun b => !isBlankByte b := by
    intro m among rest found read
    exact (word_ends (solid m among) (rest_after_begins read)).1.symm
  unfold operationLine?
  rw [splits_name_iff named, first_name_iff whole]
  refine and_congr_right fun listed => ⟨?_, ?_⟩
  · rintro ⟨after, parts, read⟩
    obtain ⟨word, tail⟩ := word_ends (solid name listed) (rest_after_begins read)
    unfold leadingWord afterWord
    rw [parts, word, tail]
    exact ⟨rfl, rest_after_read read⟩
  · rintro ⟨rfl, rfl⟩
    refine ⟨afterWord line, (leading_word_append_after line).symm, ?_⟩
    exact rest_after_blank (after_word_begins line) fun member =>
      oneLine (after_word_subset line member)

/-! Keywords: the name ends where no character of a name stands. -/

theorem before_closing_prefix {t inside : Text} (closed : beforeClosing t = some inside) :
    inside ++ [ascii '>'] <+: t := by
  obtain ⟨dropped, cut, -⟩ := drop_right_while_cut isBlankByte t
  have front : dropRightWhile isBlankByte t <+: t := ⟨dropped, cut.symm⟩
  unfold beforeClosing at closed
  split at closed
  · next last before same =>
      split at closed
      · next bracket =>
          cases closed
          obtain rfl := beq_iff_eq.mp bracket
          rwa [← List.reverse_reverse (dropRightWhile isBlankByte t), same, List.reverse_cons]
            at front
      · cases closed
  · cases closed

theorem keyword_follow_begins {t found : Text} (read : keywordFollow t = some found) :
    ∃ b rest, t = b :: rest ∧ isNamePart b = false := by
  obtain ⟨inside, closed, after⟩ := Option.bind_eq_some_iff.mp read
  obtain ⟨blanks, rfl⟩ := before_closing_prefix closed
  cases inside with
  | nil => exact ⟨ascii '>', blanks, rfl, rfl⟩
  | cons b more =>
      refine ⟨b, more ++ [ascii '>'] ++ blanks, rfl, ?_⟩
      have blank := rest_after_begins after b rfl
      cases part : isNamePart b with
      | false => rfl
      | true => rw [name_part_solid part] at blank; cases blank

theorem keyword_line_iff (line name rest : Text) :
    keywordLine? line = some (name, rest) ↔
      ∃ inside, dropStart? "<" (dropBlanks line) = some inside ∧
        name = (dropBlanks inside).takeWhile isNamePart ∧ isName name = true ∧
        keywordFollow ((dropBlanks inside).drop name.length) = some rest := by
  constructor
  · intro read
    obtain ⟨inside, begins, checked⟩ := Option.bind_eq_some_iff.mp read
    obtain ⟨_, named, found⟩ := Option.bind_eq_some_iff.mp checked
    obtain ⟨after, follows, same⟩ := Option.bind_eq_some_iff.mp found
    cases same
    exact ⟨inside, begins, rfl, guard_read named, follows⟩
  · rintro ⟨inside, begins, rfl, named, follows⟩
    refine Option.bind_eq_some_iff.mpr ⟨inside, begins, ?_⟩
    refine Option.bind_eq_some_iff.mpr ⟨(), guard_pass named, ?_⟩
    exact Option.bind_eq_some_iff.mpr ⟨_, follows, rfl⟩

theorem known_keyword_line_iff {names : List Text} (named : ∀ m ∈ names, isName m = true)
    (line name rest : Text) :
    knownKeywordLine? names line = some (name, rest) ↔
      name ∈ names ∧ keywordLine? line = some (name, rest) := by
  have ends {m rest found : Text} (among : m ∈ names) (read : keywordFollow rest = some found) :
      (m ++ rest).takeWhile isNamePart = m := by
    obtain ⟨b, more, rfl, stops⟩ := keyword_follow_begins read
    rw [List.takeWhile_append_of_pos (name_parts (named m among))]
    simp [stops]
  have whole : ∀ m ∈ names, ∀ rest found, keywordFollow rest = some found →
      m = (m ++ rest).takeWhile isNamePart :=
    fun m among rest found read => (ends among read).symm
  have known : knownKeywordLine? names line = some (name, rest) ↔
      ∃ inside, dropStart? "<" (dropBlanks line) = some inside ∧
        name ∈ names ∧ ∃ after, dropBlanks inside = name ++ after ∧
          keywordFollow after = some rest := by
    unfold knownKeywordLine?
    simp only [Option.bind_eq_bind, Option.bind_eq_some_iff, splits_name_iff named,
      first_name_iff whole]
  rw [known, keyword_line_iff]
  constructor
  · rintro ⟨inside, begins, listed, after, parts, read⟩
    refine ⟨listed, inside, begins, ?_, named name listed, ?_⟩
    · rw [parts, ends listed read]
    · rwa [parts, List.drop_left]
  · rintro ⟨listed, inside, begins, word, -, read⟩
    refine ⟨inside, begins, listed, (dropBlanks inside).drop name.length, ?_, read⟩
    have front : name <+: dropBlanks inside := word ▸ List.takeWhile_prefix _
    exact (List.prefix_iff_eq_append.mp front).symm

/-! Lines. -/

theorem leading_word_blank {b : UInt8} (blank : isBlankByte b = true) (rest : Text) :
    leadingWord (b :: rest) = leadingWord rest := by
  simp [leadingWord, dropBlanks, blank]

theorem leading_word_solid {b : UInt8} (solid : isBlankByte b = false) (rest : Text) :
    leadingWord (b :: rest) = b :: rest.takeWhile fun c => !isBlankByte c := by
  simp [leadingWord, dropBlanks, solid]

theorem leading_word_append {blanks : Text} (blank : ∀ b ∈ blanks, isBlankByte b = true)
    (t : Text) : leadingWord (t ++ blanks) = leadingWord t := by
  induction t with
  | nil =>
      unfold leadingWord dropBlanks
      rw [List.nil_append, List.dropWhile_eq_nil_iff.mpr blank]
      rfl
  | cons b rest ih =>
      cases first : isBlankByte b with
      | true => rw [List.cons_append, leading_word_blank first, ih, leading_word_blank first]
      | false =>
          have ends : blanks.takeWhile (fun c => !isBlankByte c) = [] := by
            cases blanks with
            | nil => rfl
            | cons c more => simp [blank c List.mem_cons_self]
          rw [List.cons_append, leading_word_solid first, leading_word_solid first,
            List.takeWhile_append, ends]
          split
          · next whole => rw [List.append_nil, (List.takeWhile_prefix _).eq_of_length whole]
          · rfl

/-- The carriage returns at the end of a line are no part of its first word. -/
theorem leading_word_no_return (line : Text) :
    leadingWord (dropRightWhile (· == 13) line) = leadingWord line := by
  obtain ⟨returns, cut, ends⟩ := drop_right_while_cut (· == 13) line
  have blank : ∀ b ∈ returns, isBlankByte b = true := by
    intro b member
    obtain rfl := beq_iff_eq.mp (ends b member)
    rfl
  conv => rhs; rw [cut, leading_word_append blank]

theorem no_return_one_line {line : Text} (oneLine : newline ∉ line) :
    newline ∉ dropRightWhile (· == 13) line := by
  obtain ⟨returns, cut, -⟩ := drop_right_while_cut (· == 13) line
  rw [cut] at oneLine
  exact fun member => oneLine (List.mem_append_left _ member)

/-- White space of lines that is none of words does not begin a name. -/
theorem named_line_shown {line : Text} (named : isName (leadingWord line) = true) :
    isBlank line = false := by
  induction line with
  | nil => cases named
  | cons b rest ih =>
      cases first : isBlankByte b with
      | true =>
          rw [leading_word_blank first] at named
          have plain : b < 0x80 := by
            simp only [isBlankByte, Bool.or_eq_true, beq_iff_eq] at first
            rcases first with (((rfl | rfl) | rfl) | rfl) | rfl <;> decide
          rw [is_blank_cons_ascii plain, ih named, Bool.and_false]
      | false =>
          rw [leading_word_solid first] at named
          simp only [isName, Bool.and_eq_true] at named
          exact name_start_shown named.1 rest

/-- The line is none of those that are tried before an operation. -/
structure Unclaimed (v : Vocabulary) (line : Text) : Prop where
  header : sectionLine? (dropRightWhile (· == 13) line) = none
  comment : commentLine? (dropRightWhile (· == 13) line) = none
  inclusion : inclusionLine? (dropRightWhile (· == 13) line) = none
  known : knownKeywordLine? v.keywords (dropRightWhile (· == 13) line) = none
  keyword : keywordLine? (dropRightWhile (· == 13) line) = none

theorem unclaimed_line_tokens {v : Vocabulary} (regular : Regular v) {line : Text}
    (oneLine : newline ∉ line) (unclaimed : Unclaimed v line) (n : Int) :
    ∃ rest, lineTokens? v line n =
      if leadingWord line ∈ v.operations then
        some (⟨.operation, leadingWord line, n⟩ :: arguments rest n)
      else if isBlank line then some []
      else some [⟨.command, rest, n⟩] := by
  have within := no_return_one_line oneLine
  have operation := operation_line_iff regular.operations within
  rw [leading_word_no_return] at operation
  obtain ⟨header, comment, inclusion, known, keyword⟩ := unclaimed
  unfold lineTokens?
  simp only [is_blank_no_return, header, comment, inclusion, known, keyword]
  by_cases listed : leadingWord line ∈ v.operations
  · have shown := named_line_shown (regular.operations _ listed)
    have read := (operation (leadingWord line) _).mpr ⟨listed, rfl, rfl⟩
    refine ⟨trimBlankBytes (afterWord (dropRightWhile (· == 13) line)), ?_⟩
    simp [listed, shown, read]
  · have unread : operationLine? v.operations (dropRightWhile (· == 13) line) = none := by
      refine Option.eq_none_iff_forall_ne_some.mpr fun found read => listed ?_
      obtain ⟨among, word, -⟩ := (operation found.1 found.2).mp read
      exact word ▸ among
    exact ⟨trim (dropRightWhile (· == 13) line), by simp [listed, unread, within]⟩

theorem line_tokens_relisted {v w : Vocabulary} (regular : Regular v)
    (operations : ∀ m, m ∈ v.operations ↔ m ∈ w.operations)
    (keywords : ∀ m, m ∈ v.keywords ↔ m ∈ w.keywords) {line : Text} (oneLine : newline ∉ line)
    (n : Int) : lineTokens? v line n = lineTokens? w line n := by
  have within := no_return_one_line oneLine
  have other : Regular w :=
    ⟨fun m listed => regular.operations m ((operations m).mpr listed),
      fun m listed => regular.keywords m ((keywords m).mpr listed)⟩
  have known : knownKeywordLine? v.keywords (dropRightWhile (· == 13) line) =
      knownKeywordLine? w.keywords (dropRightWhile (· == 13) line) := by
    refine Option.ext fun found => ?_
    rw [known_keyword_line_iff regular.keywords, known_keyword_line_iff other.keywords,
      keywords found.1]
  have operation : operationLine? v.operations (dropRightWhile (· == 13) line) =
      operationLine? w.operations (dropRightWhile (· == 13) line) := by
    refine Option.ext fun found => ?_
    rw [operation_line_iff regular.operations within, operation_line_iff other.operations within,
      operations found.1]
  unfold lineTokens?
  simp only [known, operation]

/-- Vocabularies of identifiers that list the same names, in whatever order and however often, have
the same tokens on every line. A line that is no section, comment, inclusion or keyword is an
operation if and only if its first word is the name of one, and then it is that operation: a name
that is only a part of the word makes no difference. -/
theorem names_in_any_order {v w : Vocabulary} (regular : Regular v)
    (operations : ∀ m, m ∈ v.operations ↔ m ∈ w.operations)
    (keywords : ∀ m, m ∈ v.keywords ↔ m ∈ w.keywords) {line : Text} (oneLine : newline ∉ line)
    (n : Int) :
    ∃ tokens, lineTokens? v line n = some tokens ∧ lineTokens? w line n = some tokens ∧
      (Unclaimed v line →
        ((∃ t ∈ tokens.head?, t.kind = .operation) ↔ leadingWord line ∈ v.operations) ∧
        ∀ t ∈ tokens.head?, t.kind = .operation → t.text = leadingWord line) := by
  have same := line_tokens_relisted regular operations keywords oneLine n
  obtain ⟨tokens, read⟩ : ∃ tokens, lineTokens? v line n = some tokens := by
    cases blank : isBlank line with
    | true => exact ⟨[], blank_line_tokens v blank n⟩
    | false =>
        obtain ⟨s, -, read⟩ := shown_line_tokens v oneLine blank n
        exact ⟨_, read⟩
  refine ⟨tokens, read, same ▸ read, fun unclaimed => ?_⟩
  obtain ⟨rest, written⟩ := unclaimed_line_tokens regular oneLine unclaimed n
  rw [read] at written
  by_cases listed : leadingWord line ∈ v.operations
  · rw [if_pos listed] at written
    cases written
    simp [listed]
  · rw [if_neg listed] at written
    split at written
    · cases written
      simp [listed]
    · cases written
      simp [listed]

def switching : Vocabulary := ⟨["set", "settle", "send"], ["if", "ifset"]⟩

def switchingAgain : Vocabulary := ⟨["settle", "send", "set", "settle"], ["ifset", "if", "if"]⟩

/-- The longer name is found behind the one that is a part of it. -/
theorem settle_found_behind_set :
    Regular switching ∧ (∀ m, m ∈ switching.operations ↔ m ∈ switchingAgain.operations) ∧
    (∀ m, m ∈ switching.keywords ↔ m ∈ switchingAgain.keywords) ∧
    newline ∉ (" settle down\r" : Text) ∧ Unclaimed switching " settle down\r" ∧
    ∃ tokens, lineTokens? switching " settle down\r" 4 = some tokens ∧
      lineTokens? switchingAgain " settle down\r" 4 = some tokens ∧
      ∃ t ∈ tokens.head?, t.kind = .operation ∧ t.text = "settle" := by
  have regular : Regular switching := ⟨by decide, by decide⟩
  have operations m : m ∈ switching.operations ↔ m ∈ switchingAgain.operations := by
    simp only [switching, switchingAgain, List.mem_cons, List.not_mem_nil]
    tauto
  have keywords m : m ∈ switching.keywords ↔ m ∈ switchingAgain.keywords := by
    simp only [switching, switchingAgain, List.mem_cons, List.not_mem_nil]
    tauto
  have oneLine : newline ∉ (" settle down\r" : Text) := by decide
  have unclaimed : Unclaimed switching " settle down\r" := by
    constructor <;> decide
  obtain ⟨tokens, read, again, word⟩ :=
    names_in_any_order regular operations keywords oneLine 4
  obtain ⟨operation, named⟩ := word unclaimed
  obtain ⟨t, first, kind⟩ := operation.mpr (by decide)
  exact ⟨regular, operations, keywords, oneLine, unclaimed, tokens, read, again, t, first, kind,
    named t first kind⟩

end DeviceScript.Token

import DeviceScript.Token.Word

/-!
The words of an argument list. A word is a run without white space or a quoted text, which may be
left open at the end of the list; words that are written out with spaces between them are read back
as they are.
-/

namespace DeviceScript.Token

open Text

/-- The marks that a quoted word begins with. -/
def IsQuote (q : UInt8) : Prop := q = ascii '"' ∨ q = ascii '\''

instance (q : UInt8) : Decidable (IsQuote q) := inferInstanceAs (Decidable (_ ∨ _))

/-- The inside of a quoted word: a backslash stands before another octet, and the quote only after
a backslash. -/
inductive Escaped (q : UInt8) : Text → Prop
  | nil : Escaped q []
  | plain {b : UInt8} {rest : Text} (other : b ≠ q) (bare : b ≠ backslash)
      (more : Escaped q rest) : Escaped q (b :: rest)
  | pair {c : UInt8} {rest : Text} (oneLine : c ≠ newline) (more : Escaped q rest) :
      Escaped q (backslash :: c :: rest)

/-- A word without quotes. -/
structure Solid (w : Text) : Prop where
  some : w ≠ []
  solid : ∀ b ∈ w, isBlankByte b = false
  bare : ∀ b ∈ w.head?, ¬ IsQuote b

/-- A quoted word. -/
def Closed (w : Text) : Prop := ∃ q inside, IsQuote q ∧ Escaped q inside ∧ w = q :: (inside ++ [q])

/-- A quoted word whose closing quote is missing. -/
def Open (w : Text) : Prop := ∃ q inside, IsQuote q ∧ Escaped q inside ∧ w = q :: inside

theorem quote_ne_backslash {q : UInt8} (quote : IsQuote q) : q ≠ backslash := by
  rcases quote with rfl | rfl <;> decide

theorem quote_not_blank {q : UInt8} (quote : IsQuote q) : isBlankByte q = false := by
  rcases quote with rfl | rfl <;> decide

theorem bare_unclosed {w : Text} (bare : ∀ b ∈ w.head?, ¬ IsQuote b) {q : UInt8}
    (quote : IsQuote q) : isClosedBy q w = false := by
  cases w with
  | nil => rfl
  | cons b rest =>
      have other : b ≠ q := by
        rintro rfl
        exact bare b rfl quote
      simp [isClosedBy, other]

section Span

variable {q : UInt8} (quote : IsQuote q)

include quote

theorem quoted_span_closed {inside : Text} (escaped : Escaped q inside) (rest : Text) :
    quotedSpan q (inside ++ q :: rest) = inside.length + 1 := by
  induction escaped with
  | nil =>
      cases rest with
      | nil => simp [quotedSpan, quote_ne_backslash quote]
      | cons c rest => simp [quotedSpan]
  | @plain b more other bare _ ih =>
      cases more with
      | nil => simpa [quotedSpan, other, bare] using ih
      | cons c more => simpa [quotedSpan, other, bare] using ih
  | @pair c more oneLine _ ih =>
      have mark : backslash ≠ q := (quote_ne_backslash quote).symm
      simp [quotedSpan, mark, oneLine, ih]

theorem quoted_span_open {inside : Text} (escaped : Escaped q inside) :
    quotedSpan q inside = inside.length := by
  induction escaped with
  | nil => rfl
  | @plain b more other bare _ ih =>
      cases more with
      | nil => simp [quotedSpan, bare]
      | cons c more => simpa [quotedSpan, other, bare] using ih
  | @pair c more oneLine _ ih =>
      have mark : backslash ≠ q := (quote_ne_backslash quote).symm
      simp [quotedSpan, mark, oneLine, ih]

/-- A backslash at the very end has nothing to escape and is left out. -/
theorem quoted_span_dangling {inside : Text} (escaped : Escaped q inside) :
    quotedSpan q (inside ++ [backslash]) = inside.length := by
  have mark : backslash ≠ q := (quote_ne_backslash quote).symm
  induction escaped with
  | nil => simp [quotedSpan]
  | @plain b more other bare _ ih =>
      cases more with
      | nil => simp [quotedSpan, other, bare]
      | cons c more => simpa [quotedSpan, other, bare] using ih
  | @pair c more oneLine _ ih => simp [quotedSpan, mark, oneLine, ih]

omit quote in
/-- A text on one line is closed by a quote, or it is left open. -/
theorem escaped_cases (q : UInt8) (t : Text) (oneLine : newline ∉ t) :
    (∃ inside rest, t = inside ++ q :: rest ∧ Escaped q inside) ∨ Escaped q t ∨
      ∃ inside, t = inside ++ [backslash] ∧ Escaped q inside := by
  induction size : t.length using Nat.strongRecOn generalizing t with
  | _ n ih =>
      cases t with
      | nil => exact .inr (.inl .nil)
      | cons b t =>
          obtain ⟨first, later⟩ := not_or.mp (mt List.mem_cons.mpr oneLine)
          by_cases closes : b = q
          · exact .inl ⟨[], t, by simp [closes], .nil⟩
          · by_cases bare : b = backslash
            · subst bare
              cases t with
              | nil => exact .inr (.inr ⟨[], rfl, .nil⟩)
              | cons c t =>
                  obtain ⟨second, later⟩ := not_or.mp (mt List.mem_cons.mpr later)
                  have mark : c ≠ newline := fun same => second same.symm
                  rcases ih t.length (by simp at size; omega) t later rfl with
                    ⟨inside, rest, rfl, escaped⟩ | escaped | ⟨inside, rfl, escaped⟩
                  · exact .inl ⟨backslash :: c :: inside, rest, rfl, .pair mark escaped⟩
                  · exact .inr (.inl (.pair mark escaped))
                  · exact .inr (.inr ⟨backslash :: c :: inside, rfl, .pair mark escaped⟩)
            · rcases ih t.length (by simp at size; omega) t later rfl with
                ⟨inside, rest, rfl, escaped⟩ | escaped | ⟨inside, rfl, escaped⟩
              · exact .inl ⟨b :: inside, rest, rfl, .plain closes bare escaped⟩
              · exact .inr (.inl (.plain closes bare escaped))
              · exact .inr (.inr ⟨b :: inside, rfl, .plain closes bare escaped⟩)

end Span

/-! Reading words off the front. -/

@[simp] theorem words_nil : words [] = [] := rfl

theorem words_after (skip : Nat) (t : Text) : wordsAfter skip t = words (t.drop skip) := by
  induction t generalizing skip with
  | nil => simp [words, wordsAfter]
  | cons b rest ih =>
      cases skip with
      | zero => rfl
      | succ skip => exact ih skip

theorem words_blank {b : UInt8} (blank : isBlankByte b = true) (rest : Text) :
    words (b :: rest) = words rest := by
  simp [words, wordsAfter, blank]

theorem words_span {b : UInt8} {more rest : Text} (word : isBlankByte b = false)
    (span : wordSpan b (more ++ rest) = more.length + 1) :
    words (b :: (more ++ rest)) = (b :: more) :: words rest := by
  have first : words (b :: (more ++ rest)) =
      (b :: (more ++ rest)).take (wordSpan b (more ++ rest)) :: wordsAfter (wordSpan b (more ++ rest) - 1) (more ++ rest) := by
    simp [words, wordsAfter, word]
  rw [first, span, words_after]
  simp

theorem words_solid {w : Text} (solid : Solid w) {rest : Text}
    (ends : ∀ b ∈ rest.head?, isBlankByte b = true) : words (w ++ rest) = w :: words rest := by
  obtain ⟨b, more, rfl⟩ := List.exists_cons_of_ne_nil solid.some
  have bare : ¬ IsQuote b := solid.bare b rfl
  refine words_span (solid.solid b List.mem_cons_self) ?_
  have run : (more ++ rest).takeWhile (fun c => !isBlankByte c) = more := by
    rw [List.takeWhile_append_of_pos]
    · cases rest with
      | nil => simp
      | cons c rest => simp [ends c rfl]
    · intro c member
      simp [solid.solid c (List.mem_cons_of_mem b member)]
  unfold wordSpan
  rw [if_neg (by simpa [IsQuote] using bare), run]

theorem words_closed {w : Text} (closed : Closed w) (rest : Text) :
    words (w ++ rest) = w :: words rest := by
  obtain ⟨q, inside, quote, escaped, rfl⟩ := closed
  refine words_span (quote_not_blank quote) ?_
  unfold wordSpan
  rw [if_pos (by simpa [IsQuote] using quote), List.append_assoc, List.singleton_append,
    quoted_span_closed quote escaped]
  simp

theorem words_open {w : Text} (left : Open w) : words w = [w] := by
  obtain ⟨q, inside, quote, escaped, rfl⟩ := left
  have span : wordSpan q (inside ++ []) = inside.length + 1 := by
    unfold wordSpan
    rw [if_pos (by simpa [IsQuote] using quote), List.append_nil, quoted_span_open quote escaped]
  have whole := words_span (quote_not_blank quote) span
  rwa [List.append_nil] at whole

theorem words_dangling {w : Text} (left : Open w) :
    words (w ++ [backslash]) = [w, [backslash]] := by
  obtain ⟨q, inside, quote, escaped, rfl⟩ := left
  refine (words_span (quote_not_blank quote) ?_).trans ?_
  · unfold wordSpan
    rw [if_pos (by simpa [IsQuote] using quote), quoted_span_dangling quote escaped]
  · rfl

/-! Words with spaces between them. -/

theorem words_alone {w : Text} (whole : Solid w ∨ Closed w) : words w = [w] := by
  have read : words (w ++ []) = w :: words [] := by
    rcases whole with solid | closed
    · exact words_solid solid nofun
    · exact words_closed closed []
  rwa [List.append_nil] at read

theorem words_join_append {front : List Text} (each : ∀ w ∈ front, Solid w ∨ Closed w)
    (last : Text) : words (joinWith " " (front ++ [last])) = front ++ words last := by
  induction front with
  | nil => rfl
  | cons w front ih =>
      have rest := ih fun v member => each v (List.mem_cons_of_mem w member)
      have spaced : joinWith " " (w :: (front ++ [last])) =
          w ++ 32 :: joinWith " " (front ++ [last]) := by
        cases front <;> simp [joinWith, ofString, String.utf8EncodeChar]
      rw [List.cons_append, spaced]
      rcases each w List.mem_cons_self with solid | closed
      · rw [words_solid solid (by simp [isBlankByte]), words_blank (by decide), rest,
          List.cons_append]
      · rw [words_closed closed, words_blank (by decide), rest, List.cons_append]

theorem words_join {ws : List Text} (each : ∀ w ∈ ws, Solid w ∨ Closed w) :
    words (joinWith " " ws) = ws := by
  rcases List.eq_nil_or_concat ws with rfl | ⟨front, last, rfl⟩
  · rfl
  · rw [List.concat_eq_append] at each ⊢
    have before := words_join_append (fun w member => each w (List.mem_append_left _ member)) last
    rw [before, words_alone (each last (by simp))]

/-- Only the last word of a list can be left open, but for a backslash that the list ends with. -/
def Worded (t : Text) : Prop :=
  (∀ w ∈ words t, Solid w ∨ Closed w) ∨
  ∃ front o, (∀ w ∈ front, Solid w ∨ Closed w) ∧ Open o ∧
    ((words t = front ++ [o] ∧ o <:+ t) ∨ words t = front ++ [o, [backslash]])

theorem worded_cons {t rest w : Text} (read : words t = w :: words rest)
    (whole : Solid w ∨ Closed w) (part : rest <:+ t) (worded : Worded rest) : Worded t := by
  have each {front : List Text} (all : ∀ v ∈ front, Solid v ∨ Closed v) :
      ∀ v ∈ w :: front, Solid v ∨ Closed v := by
    intro v member
    rcases List.mem_cons.mp member with rfl | later
    · exact whole
    · exact all v later
  rcases worded with all | ⟨front, o, all, left, ⟨words, last⟩ | words⟩
  · exact .inl (read ▸ each all)
  · exact .inr ⟨w :: front, o, each all, left, .inl ⟨by rw [read, words]; rfl, last.trans part⟩⟩
  · exact .inr ⟨w :: front, o, each all, left, .inr (by rw [read, words]; rfl)⟩

theorem words_forms (t : Text) (oneLine : newline ∉ t) : Worded t := by
  induction size : t.length using Nat.strongRecOn generalizing t with
  | _ n ih =>
      cases t with
      | nil => exact .inl (by simp)
      | cons b t =>
          have later : newline ∉ t := fun member => oneLine (List.mem_cons_of_mem b member)
          have shorter {rest : Text} (part : rest <:+ t) : Worded rest := by
            have bound := part.length_le
            refine ih rest.length ?_ rest (fun member => later (part.mem member)) rfl
            rw [← size, List.length_cons]
            omega
          -- White space comes first, a quoted word that is closed or left open, or a plain word.
          by_cases blank : isBlankByte b = true
          · have same := words_blank blank t
            rcases shorter List.suffix_rfl with all | ⟨front, o, all, left, ⟨words, last⟩ | words⟩
            · exact .inl (same ▸ all)
            · exact .inr ⟨front, o, all, left,
                .inl ⟨same.trans words, last.trans (List.suffix_cons b t)⟩⟩
            · exact .inr ⟨front, o, all, left, .inr (same.trans words)⟩
          · have word : isBlankByte b = false := by simpa using blank
            by_cases quote : IsQuote b
            · rcases escaped_cases b t later with
                ⟨inside, rest, rfl, escaped⟩ | escaped | ⟨inside, rfl, escaped⟩
              · have closed : Closed (b :: (inside ++ [b])) := ⟨b, inside, quote, escaped, rfl⟩
                have part : rest <:+ inside ++ b :: rest := ⟨inside ++ [b], by simp⟩
                have read := words_closed closed rest
                rw [List.cons_append, List.append_assoc, List.singleton_append] at read
                exact worded_cons read (.inr closed) (part.trans (List.suffix_cons b _))
                  (shorter part)
              · have left : Open (b :: t) := ⟨b, t, quote, escaped, rfl⟩
                exact .inr ⟨[], b :: t, nofun, left, .inl ⟨words_open left, List.suffix_rfl⟩⟩
              · have left : Open (b :: inside) := ⟨b, inside, quote, escaped, rfl⟩
                exact .inr ⟨[], b :: inside, nofun, left, .inr (words_dangling left)⟩
            · let run := t.takeWhile fun c => !isBlankByte c
              let rest := t.dropWhile fun c => !isBlankByte c
              have cut : run ++ rest = t := List.takeWhile_append_dropWhile
              have solid : Solid (b :: run) := by
                refine ⟨by simp, ?_, by simpa using quote⟩
                intro c member
                rcases List.mem_cons.mp member with rfl | among
                · exact word
                · simpa using List.all_eq_true.mp List.all_takeWhile c among
              have part : rest <:+ t := List.dropWhile_suffix _
              have ends : ∀ c ∈ rest.head?, isBlankByte c = true := by
                intro c first
                have stops := List.head?_dropWhile_not (fun c => !isBlankByte c) t
                rw [Option.mem_def.mp first] at stops
                simpa using stops
              have read := words_solid solid ends
              rw [List.cons_append, cut] at read
              exact worded_cons read (.inl solid) (part.trans (List.suffix_cons b t)) (shorter part)

end DeviceScript.Token

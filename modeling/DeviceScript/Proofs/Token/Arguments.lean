import DeviceScript.Proofs.Text.Quoting
import DeviceScript.Proofs.Token.Forms
import DeviceScript.Token.Render

/-!
Arguments that are written out and read again. A closed word comes back as the same token, quoted
anew if it was; an open one as well, unless a backslash stands after it.
-/

namespace DeviceScript.Token

open Text

/-! Whether the quote at the end of a word is escaped. -/

/-- The number of backslashes that a text ends with. -/
def endBackslashes (t : Text) : Nat := (t.reverse.takeWhile (· == backslash)).length

theorem end_backslashes_cons (b : UInt8) (t : Text) :
    endBackslashes (b :: t) = if endBackslashes t = t.length then
      t.length + (if b = backslash then 1 else 0) else endBackslashes t := by
  unfold endBackslashes
  rw [List.reverse_cons, List.takeWhile_append]
  by_cases all : (t.reverse.takeWhile (· == backslash)).length = t.length
  · rw [if_pos (by simpa using all), if_pos all]
    by_cases mark : b = backslash <;> simp [mark]
  · rw [if_neg (by simpa using all), if_neg all]

theorem end_backslashes_bare {b : UInt8} (bare : b ≠ backslash) (t : Text) :
    endBackslashes (b :: t) = endBackslashes t := by
  rw [end_backslashes_cons, if_neg bare]
  split
  · next all => exact all.symm
  · rfl

/-- A backslash and what it takes along are no backslashes, or two. -/
theorem end_backslashes_pair (c : UInt8) (t : Text) :
    endBackslashes (backslash :: c :: t) % 2 = endBackslashes t % 2 := by
  have bound : endBackslashes t ≤ t.length := by
    have part := (List.takeWhile_sublist (l := t.reverse) (· == backslash)).length_le
    rwa [List.length_reverse] at part
  rw [end_backslashes_cons, end_backslashes_cons, List.length_cons, if_pos rfl]
  by_cases mark : c = backslash
  · rw [if_pos mark]
    repeat' split
    all_goals omega
  · rw [if_neg mark]
    repeat' split
    all_goals omega

theorem escaped_end_concat (q b : UInt8) (inside : Text) :
    hasEscapedEnd (q :: (inside ++ [b])) = (endBackslashes inside % 2 == 1) := by
  simp [hasEscapedEnd, endBackslashes]

theorem escaped_end_even {q : UInt8} {inside : Text} (escaped : Escaped q inside) :
    endBackslashes inside % 2 = 0 := by
  induction escaped with
  | nil => rfl
  | plain other bare _ ih => rw [end_backslashes_bare bare, ih]
  | pair oneLine _ ih => rw [end_backslashes_pair, ih]

/-- A quote inside is the second of a pair. -/
theorem escaped_quote_odd {q : UInt8} {text : Text} (escaped : Escaped q text) {front : Text}
    (last : text = front ++ [q]) : endBackslashes front % 2 = 1 := by
  induction escaped generalizing front with
  | nil => simp at last
  | plain other bare _ ih =>
      cases front with
      | nil => exact absurd (List.cons.inj last).1 other
      | cons b front =>
          obtain ⟨rfl, rest⟩ := List.cons.inj last
          rw [end_backslashes_bare bare, ih rest]
  | @pair c rest oneLine more ih =>
      rcases front with _ | ⟨b, _ | ⟨d, front⟩⟩
      · cases (List.cons.inj last).2
      · obtain ⟨rfl, -⟩ := List.cons.inj last
        rfl
      · obtain ⟨rfl, second⟩ := List.cons.inj last
        obtain ⟨rfl, further⟩ := List.cons.inj second
        rw [end_backslashes_pair, ih further]

theorem closed_by {q : UInt8} {inside : Text} (escaped : Escaped q inside) :
    isClosedBy q (q :: (inside ++ [q])) = true := by
  have last : (q :: (inside ++ [q])).getLast? = some q := by
    rw [← List.cons_append, List.getLast?_concat]
  simp [isClosedBy, escaped_end_concat, escaped_end_even escaped, last]

theorem open_unclosed {w : Text} (left : Open w) (q : UInt8) : isClosedBy q w = false := by
  obtain ⟨p, inside, quote, escaped, rfl⟩ := left
  cases closed : isClosedBy q (p :: inside) with
  | false => rfl
  | true =>
      simp only [isClosedBy, Bool.and_eq_true, decide_eq_true_eq, beq_iff_eq, List.head?_cons,
        Option.some.injEq, List.length_cons, Bool.not_eq_true'] at closed
      obtain ⟨⟨⟨long, rfl⟩, last⟩, unescaped⟩ := closed
      obtain ⟨front, b, rfl⟩ := (List.eq_nil_or_concat inside).resolve_left (by
        rintro rfl
        simp at long)
      rw [List.concat_eq_append] at *
      rw [← List.cons_append, List.getLast?_concat] at last
      obtain rfl := Option.some.inj last
      rw [escaped_end_concat, escaped_quote_odd escaped rfl] at unescaped
      cases unescaped

/-! The tokens of words. -/

theorem of_word_cases (w : Text) (n : Int) :
    (∃ t, ofWord w n = ⟨.quoted, t, n⟩) ∨
      ((ofWord w n).kind ≠ .quoted ∧ (ofWord w n).text = w) := by
  unfold ofWord
  repeat' split
  all_goals first
    | exact .inl ⟨_, rfl⟩
    | exact .inr ⟨nofun, rfl⟩

def moved (n : Int) (t : Token) : Token := { t with line := n }

theorem of_word_moved (w : Text) (n m : Int) : (ofWord w n).moved m = ofWord w m := by
  unfold ofWord
  repeat' split
  all_goals rfl

theorem of_word_unclosed {w : Text} (unclosed : ∀ q, IsQuote q → isClosedBy q w = false) (n : Int) :
    (ofWord w n).kind ≠ .quoted ∧ (ofWord w n).text = w := by
  unfold ofWord
  rw [unclosed _ (.inl rfl), unclosed _ (.inr rfl)]
  simp only [Bool.false_eq_true, ↓reduceIte]
  repeat' split
  all_goals exact ⟨nofun, rfl⟩

theorem argument_text_bare {t : Token} (bare : t.kind ≠ .quoted) : t.argumentText = t.text := by
  unfold argumentText
  split
  · contradiction
  · rfl

theorem of_word_quote (t : Text) (n : Int) : ofWord (quote t) n = ⟨.quoted, t, n⟩ := by
  have closed : isClosedBy (ascii '"') (quote t) = true := by
    obtain ⟨inside, written, -, escaped, -⟩ := quote_inside t
    rw [written]
    exact closed_by escaped
  unfold ofWord
  rw [if_pos closed, unquote_quote]

/-- A word as it is written out again, and what it is read as then. -/
theorem argument_again {w : Text} (whole : Solid w ∨ Closed w) (n m : Int) :
    (Solid (ofWord w n).argumentText ∨ Closed (ofWord w n).argumentText) ∧
      ofWord (ofWord w n).argumentText m = (ofWord w n).moved m := by
  rcases of_word_cases w n with ⟨t, same⟩ | ⟨bare, text⟩
  · rw [same]
    exact ⟨.inr (quote_closed t), of_word_quote t m⟩
  · rw [argument_text_bare bare, text]
    exact ⟨whole, (of_word_moved w n m).symm⟩

theorem argument_one_line {w : Text} (oneLine : newline ∉ w) (n : Int) :
    newline ∉ (ofWord w n).argumentText := by
  rcases of_word_cases w n with ⟨t, same⟩ | ⟨bare, text⟩
  · rw [same]
    exact quote_one_line t
  · rwa [argument_text_bare bare, text]

theorem open_argument {w : Text} (left : Open w) (n : Int) : (ofWord w n).argumentText = w := by
  obtain ⟨bare, text⟩ := of_word_unclosed (fun q _ => open_unclosed left q) n
  rw [argument_text_bare bare, text]

/-- A quote is left open. -/
def isOpen (t : Token) : Bool :=
  t.kind != .quoted && t.text.head?.any (fun b => decide (IsQuote b)) &&
    !isClosedBy (ascii '"') t.text && !isClosedBy (ascii '\'') t.text

theorem whole_not_open {w : Text} (whole : Solid w ∨ Closed w) (n : Int) :
    (ofWord w n).isOpen = false := by
  unfold isOpen
  rcases of_word_cases w n with ⟨t, same⟩ | ⟨bare, text⟩
  · simp [same]
  · rw [text]
    rcases whole with solid | ⟨q, inside, quote, escaped, rfl⟩
    · obtain ⟨b, rest, rfl⟩ := List.exists_cons_of_ne_nil solid.some
      simp [solid.bare b rfl]
    · have closed := closed_by escaped
      rcases quote with rfl | rfl <;> simp [closed]

theorem open_is_open {w : Text} (left : Open w) (n : Int) : (ofWord w n).isOpen = true := by
  obtain ⟨bare, text⟩ := of_word_unclosed (fun q _ => open_unclosed left q) n
  unfold isOpen
  rw [text, open_unclosed left, open_unclosed left]
  obtain ⟨q, inside, quote, -, rfl⟩ := left
  simp [bare, quote]

/-- A quote is left open, but for a backslash that comes last. -/
def endsOpen (args : List Token) : Bool :=
  match args.reverse with
  | last :: before :: _ => before.isOpen && last.text == [backslash]
  | _ => false

/-! Lists of arguments. -/

theorem words_after_part {t w : Text} {skip : Nat} (member : w ∈ wordsAfter skip t) :
    w ≠ [] ∧ ∀ b ∈ w, b ∈ t := by
  induction t generalizing skip with
  | nil => cases skip <;> cases member
  | cons c rest ih =>
      have later {skip : Nat} (among : w ∈ wordsAfter skip rest) :
          w ≠ [] ∧ ∀ b ∈ w, b ∈ c :: rest :=
        ⟨(ih among).1, fun b inside => List.mem_cons_of_mem c ((ih among).2 b inside)⟩
      unfold wordsAfter at member
      split at member
      · cases member
      · next same =>
          cases same
          exact later member
      · next same =>
          cases same
          split at member
          · exact later member
          · rcases List.mem_cons.mp member with rfl | after
            · have some : wordSpan c rest ≠ 0 := by
                unfold wordSpan
                split <;> simp
              exact ⟨by simp [some], fun b inside => List.mem_of_mem_take inside⟩
            · exact later after

theorem argument_some {t : Text} {n : Int} : ∀ u ∈ (arguments t n).map argumentText, u ≠ [] := by
  intro u member
  obtain ⟨a, among, rfl⟩ := List.mem_map.mp member
  obtain ⟨w, read, rfl⟩ := List.mem_map.mp among
  rcases of_word_cases w n with ⟨inside, same⟩ | ⟨bare, text⟩
  · rw [same]
    exact nofun
  · rw [argument_text_bare bare, text]
    exact (words_after_part read).1

def argumentsText (args : List Token) : Text := joinWith " " (args.map argumentText)

theorem whole_trimmed {w : Text} (whole : Solid w ∨ Closed w) : w ≠ [] ∧ Trimmed w := by
  rcases whole with solid | ⟨q, inside, quote, -, rfl⟩
  · exact ⟨solid.some, fun b first => solid.solid b (List.mem_of_mem_head? first),
      fun b last => solid.solid b (List.mem_of_mem_getLast? last)⟩
  · refine ⟨by simp, ?_, ?_⟩
    · intro b first
      cases first
      exact quote_not_blank quote
    · intro b last
      rw [← List.cons_append, List.getLast?_concat] at last
      cases last
      exact quote_not_blank quote

theorem ends_open_not {args : List Token} (each : ∀ t ∈ args.dropLast, t.isOpen = false) :
    endsOpen args = false := by
  unfold endsOpen
  split
  · next last before others same =>
      have parts : args = others.reverse ++ [before] ++ [last] := by
        rw [← List.reverse_reverse args, same]
        simp
      have closed := each before (by simp [parts])
      rw [closed, Bool.false_and]
  · rfl

theorem ends_open_dangling (front : List Token) {o last : Token} (left : o.isOpen = true)
    (mark : last.text = [backslash]) : endsOpen (front ++ [o, last]) = true := by
  simp [endsOpen, left, mark]

theorem open_space {o : Text} (left : Open o) : Open (o ++ [32]) := by
  obtain ⟨q, inside, quote, escaped, rfl⟩ := left
  refine ⟨q, inside ++ [32], quote, ?_, rfl⟩
  have other : (32 : UInt8) ≠ q := by
    rintro rfl
    exact absurd quote (by decide)
  induction escaped with
  | nil => exact .plain other (by decide) .nil
  | plain different bare _ ih => exact .plain different bare ih
  | pair oneLine _ ih => exact .pair oneLine ih

theorem join_last_two (front : List Text) (a b : Text) :
    joinWith " " (front ++ [a, b]) = joinWith " " (front ++ [a ++ 32 :: b]) := by
  induction front with
  | nil => simp [joinWith, ofString, String.utf8EncodeChar]
  | cons w front ih =>
      cases front with
      | nil => simpa [joinWith] using ih
      | cons v front => simpa [joinWith] using ih

section Again

variable {front : List Text} (whole : ∀ w ∈ front, Solid w ∨ Closed w) (n m : Int)

def rewritten (ws : List Text) : List Text := ws.map fun w => (ofWord w n).argumentText

theorem arguments_text_words (ws : List Text) :
    argumentsText (ws.map fun w => ofWord w n) = joinWith " " (rewritten n ws) := by
  unfold argumentsText rewritten
  rw [List.map_map]
  rfl

include whole

theorem rewritten_whole : ∀ u ∈ rewritten n front, Solid u ∨ Closed u := by
  intro u member
  obtain ⟨w, among, rfl⟩ := List.mem_map.mp member
  exact (argument_again (whole w among) n 0).1

theorem rewritten_again :
    (rewritten n front).map (fun u => ofWord u m) =
      (front.map fun w => ofWord w n).map (moved m) := by
  unfold rewritten
  rw [List.map_map, List.map_map]
  exact List.map_congr_left fun w member => (argument_again (whole w member) n m).2

theorem whole_arguments_again :
    Trimmed (joinWith " " (rewritten n front)) ∧
      arguments (joinWith " " (rewritten n front)) m =
        (front.map fun w => ofWord w n).map (moved m) := by
  have again := rewritten_whole whole n
  refine ⟨join_trimmed fun u member => whole_trimmed (again u member), ?_⟩
  unfold arguments
  rw [words_join again, rewritten_again whole]

/-- An open word at the end is copied, and goes on to the end. -/
theorem open_arguments_again {o : Text} (left : Open o)
    (ends : ∀ b ∈ o.getLast?, isBlankByte b = false) :
    Trimmed (joinWith " " (rewritten n (front ++ [o]))) ∧
      arguments (joinWith " " (rewritten n (front ++ [o]))) m =
        ((front ++ [o]).map fun w => ofWord w n).map (moved m) := by
  have again := rewritten_whole whole n
  have parts : rewritten n (front ++ [o]) = rewritten n front ++ [o] := by
    simp [rewritten, open_argument left]
  rw [parts]
  constructor
  · refine join_trimmed ?_
    intro u member
    rcases List.mem_append.mp member with early | last
    · exact whole_trimmed (again u early)
    · rw [List.mem_singleton.mp last]
      obtain ⟨q, inside, quote, -, rfl⟩ := left
      refine ⟨by simp, ?_, ends⟩
      intro b first
      cases first
      exact quote_not_blank quote
  · unfold arguments
    rw [words_join_append again, words_open left, List.map_append, rewritten_again whole]
    simp [of_word_moved]

/-- An open word before a backslash takes the space between them along. -/
theorem dangling_arguments_again {o : Text} (left : Open o) :
    Trimmed (joinWith " " (rewritten n (front ++ [o, [backslash]]))) ∧
      arguments (joinWith " " (rewritten n (front ++ [o, [backslash]]))) m ≠
        ((front ++ [o, [backslash]]).map fun w => ofWord w n).map (moved m) := by
  have again := rewritten_whole whole n
  have longer := open_space left
  have parts : joinWith " " (rewritten n (front ++ [o, [backslash]])) =
      joinWith " " (rewritten n front ++ [o ++ [32] ++ [backslash]]) := by
    have copied : rewritten n (front ++ [o, [backslash]]) =
        rewritten n front ++ [o, [backslash]] := by
      simp only [rewritten, List.map_append, List.map_cons, List.map_nil, open_argument left]
      rfl
    rw [copied, join_last_two]
    simp
  rw [parts]
  constructor
  · refine join_trimmed ?_
    intro u member
    rcases List.mem_append.mp member with early | last
    · exact whole_trimmed (again u early)
    · rw [List.mem_singleton.mp last]
      refine ⟨by simp, ?_, ?_⟩
      · obtain ⟨q, inside, quote, -, rfl⟩ := left
        intro b first
        cases first
        exact quote_not_blank quote
      · intro b ends
        rw [List.getLast?_concat] at ends
        cases ends
        rfl
  · -- Up to the open word the lists agree; that word has grown by the space.
    intro same
    unfold arguments at same
    rw [words_join_append again, words_dangling longer, List.map_append, rewritten_again whole,
      List.map_append, List.map_append, List.append_cancel_left_eq] at same
    have first := congrArg Token.text (List.cons.inj same).1
    have text := (of_word_unclosed (fun q _ => open_unclosed left q) n).2
    rw [(of_word_unclosed (fun q _ => open_unclosed longer q) m).2] at first
    have size := congrArg List.length (first.trans text)
    simp at size

end Again

theorem arguments_again {t : Text} (oneLine : newline ∉ t) (trimmed : Trimmed t) (n m : Int) :
    Trimmed (argumentsText (arguments t n)) ∧ newline ∉ argumentsText (arguments t n) ∧
      (arguments (argumentsText (arguments t n)) m = (arguments t n).map (moved m) ↔
        endsOpen (arguments t n) = false) := by
  have clean : newline ∉ joinWith " " (rewritten n (words t)) := by
    intro member
    rcases join_mem member with space | ⟨u, among, inside⟩
    · cases space
    · obtain ⟨w, read, rfl⟩ := List.mem_map.mp among
      exact argument_one_line (fun within => oneLine ((words_after_part read).2 _ within)) n inside
  have text : argumentsText (arguments t n) = joinWith " " (rewritten n (words t)) :=
    arguments_text_words n (words t)
  have each {ws : List Text} (whole : ∀ w ∈ ws, Solid w ∨ Closed w) :
      ∀ a ∈ ws.map fun w => ofWord w n, a.isOpen = false := by
    intro a member
    obtain ⟨w, among, rfl⟩ := List.mem_map.mp member
    exact whole_not_open (whole w among) n
  rw [text]
  unfold arguments
  -- All words are whole, or the last is left open, or it is left open and a backslash follows.
  rcases words_forms t oneLine with whole | ⟨front, o, whole, left, ⟨read, last⟩ | read⟩
  · obtain ⟨ends, same⟩ := whole_arguments_again whole n m
    refine ⟨ends, clean, iff_of_true same (ends_open_not ?_)⟩
    exact fun a member => each whole a ((List.dropLast_sublist _).subset member)
  · rw [read] at clean ⊢
    have solid : ∀ b ∈ o.getLast?, isBlankByte b = false := by
      obtain ⟨before, rfl⟩ := last
      intro b ends
      exact trimmed.2 b (by simp [List.getLast?_append, Option.mem_def.mp ends])
    obtain ⟨ends, same⟩ := open_arguments_again whole n m left solid
    refine ⟨ends, clean, iff_of_true same (ends_open_not ?_)⟩
    intro a member
    exact each whole a (by simpa using member)
  · rw [read] at clean ⊢
    obtain ⟨ends, other⟩ := dangling_arguments_again whole n m left
    refine ⟨ends, clean, iff_of_false other ?_⟩
    rw [List.map_append]
    have mark : (ofWord [backslash] n).text = [backslash] := rfl
    have dangling := ends_open_dangling (front.map fun w => ofWord w n) (open_is_open left n) mark
    simp [dangling]

end DeviceScript.Token

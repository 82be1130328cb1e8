import DeviceScript.Proofs.Grammar.Block
import Mathlib.Data.List.Basic

/-!
From the lines of a source to its statements. A line has one statement or none, so the statements
of a source stand on lines of their own, in order, and blanking a line takes away its statement
and no other.
-/

namespace DeviceScript

open Text

namespace Token

/-- All tokens of the statement stand on line `n`, and only the first starts a statement. -/
def OnLine (n : Int) (s : Statement) : Prop :=
  s.head.isPrimary = true ∧ s.head.line = n ∧ ∀ t ∈ s.args, t.isPrimary = false ∧ t.line = n

theorem of_word_argument (w : Text) (n : Int) :
    (ofWord w n).isPrimary = false ∧ (ofWord w n).line = n := by
  unfold ofWord
  repeat' split
  all_goals exact ⟨rfl, rfl⟩

theorem arguments_on_line (kind : TokenKind) (name rest : Text) (n : Int)
    (starts : kind.isPrimary = true) : OnLine n ⟨⟨kind, name, n⟩, arguments rest n⟩ := by
  refine ⟨starts, rfl, ?_⟩
  intro t member
  obtain ⟨w, -, rfl⟩ := List.mem_map.mp member
  exact of_word_argument w n

theorem alone_on_line (kind : TokenKind) (name : Text) (n : Int)
    (starts : kind.isPrimary = true) : OnLine n ⟨⟨kind, name, n⟩, []⟩ :=
  ⟨starts, rfl, by simp⟩

def lineStatement? (v : Vocabulary) (n : Int) (line : Text) : Option Statement :=
  match lineTokens? v line n with
  | some (head :: args) => some ⟨head, args⟩
  | _ => none

theorem line_tokens_cases (v : Vocabulary) (line : Text) (n : Int) (oneLine : newline ∉ line) :
    lineTokens? v line n = some [] ∨
      ∃ s, OnLine n s ∧ lineTokens? v line n = some (s.head :: s.args) := by
  -- The one way for a line to have no tokens at all is a newline inside it.
  have kept : (dropRightWhile (· == 13) line).contains newline = false := by
    have part : (dropRightWhile (· == 13) line).Sublist line := by
      have dropped : (line.reverse.dropWhile (· == 13)).Sublist line.reverse :=
        List.dropWhile_sublist _
      simpa [dropRightWhile] using dropped.reverse
    simpa using fun found => oneLine (part.subset found)
  unfold lineTokens?
  simp only [kept]
  split
  · exact Or.inl rfl
  · right
    repeat' split
    · exact ⟨_, alone_on_line _ _ n rfl, rfl⟩
    · exact ⟨_, alone_on_line _ _ n rfl, rfl⟩
    · exact ⟨_, alone_on_line _ _ n rfl, rfl⟩
    · exact ⟨_, arguments_on_line _ _ _ n rfl, rfl⟩
    · exact ⟨_, arguments_on_line _ _ _ n rfl, rfl⟩
    · exact ⟨_, arguments_on_line _ _ _ n rfl, rfl⟩
    · contradiction
    · exact ⟨_, alone_on_line _ _ n rfl, rfl⟩

/-- The statements of lines numbered from `n` on. -/
def linesStatements (v : Vocabulary) : Int → List Text → List Statement
  | _, [] => []
  | n, line :: rest => (lineStatement? v n line).toList ++ linesStatements v (n + 1) rest

theorem line_statement_on_line (v : Vocabulary) (n : Int) (line : Text) (oneLine : newline ∉ line)
    (s : Statement) (found : lineStatement? v n line = some s) : OnLine n s := by
  unfold lineStatement? at found
  rcases line_tokens_cases v line n oneLine with blank | ⟨t, onLine, read⟩
  · simp [blank] at found
  · simp only [read, Option.some.injEq] at found
    subst found
    exact onLine

theorem statements_append (head : Token) (args rest : List Token)
    (arguments : ∀ t ∈ args, t.isPrimary = false)
    (anew : ∀ t ∈ rest.head?, t.isPrimary = true) :
    statements (head :: (args ++ rest)) = ⟨head, args⟩ :: statements rest := by
  induction args generalizing head with
  | nil =>
      cases rest with
      | nil => rfl
      | cons next others =>
          have starts : next.isPrimary = true := anew next rfl
          have first : ∃ tail more, statements (next :: others) = ⟨next, tail⟩ :: more := by
            unfold statements
            repeat' split
            all_goals exact ⟨_, _, rfl⟩
          obtain ⟨tail, more, cutting⟩ := first
          rw [List.nil_append, statements, cutting]
          simp [starts]
  | cons arg others ih =>
      have follows : arg.isPrimary = false := arguments arg (by simp)
      have tail := ih arg fun t member => arguments t (by simp [member])
      rw [List.cons_append, statements, tail]
      simp [follows]

/-- Lines without newlines can be read, each into its own statement. -/
theorem lines_tokens_statements (v : Vocabulary) (ls : List Text) (n : Int)
    (oneLine : ∀ line ∈ ls, newline ∉ line) :
    ∃ tokens, linesTokens? v n ls = some tokens ∧
      (∀ t ∈ tokens.head?, t.isPrimary = true) ∧
      statements tokens = linesStatements v n ls := by
  induction ls generalizing n with
  | nil => exact ⟨[], rfl, by simp, rfl⟩
  | cons line rest ih =>
      obtain ⟨others, read, starts, same⟩ := ih (n + 1) fun l member => oneLine l (by simp [member])
      have firstLine := line_tokens_cases v line n (oneLine line (by simp))
      unfold linesTokens? linesStatements lineStatement?
      rcases firstLine with blank | ⟨s, onLine, first⟩
      · exact ⟨others, by simp [blank, read], starts, by simp [blank, same]⟩
      · -- The tokens of later lines start with a head, so `s` takes none of them along.
        refine ⟨s.head :: s.args ++ others, by simp [first, read], ?_, ?_⟩
        · simpa using onLine.1
        · have cutting := statements_append s.head s.args others
            (fun t member => (onLine.2.2 t member).1) starts
          simp [first, ← same, cutting]

theorem lines_statements_ascend (v : Vocabulary) (ls : List Text) (n : Int)
    (oneLine : ∀ line ∈ ls, newline ∉ line) :
    LinesAscend (linesStatements v n ls) ∧
      ∀ s ∈ linesStatements v n ls, n ≤ s.line ∧ OnLine s.line s := by
  induction ls generalizing n with
  | nil => simp [linesStatements, LinesAscend]
  | cons line rest ih =>
      obtain ⟨ascend, later⟩ := ih (n + 1) fun l member => oneLine l (by simp [member])
      unfold linesStatements
      cases found : lineStatement? v n line with
      | none =>
          refine ⟨ascend, ?_⟩
          intro s member
          obtain ⟨above, onLine⟩ := later s member
          exact ⟨by omega, onLine⟩
      | some s =>
          have onLine := line_statement_on_line v n line (oneLine line (by simp)) s found
          have here : s.line = n := onLine.2.1
          constructor
          · refine List.pairwise_cons.mpr ⟨?_, ascend⟩
            intro t member
            have above := (later t member).1
            omega
          · intro t member
            rcases List.mem_cons.mp member with rfl | member
            · exact ⟨by omega, here ▸ onLine⟩
            · obtain ⟨above, onLine⟩ := later t member
              exact ⟨by omega, onLine⟩

end Token

/-- Lines numbered from `n` on, those of `gone` blanked. -/
def blankLines (gone : List Int) : Int → List Text → List Text
  | _, [] => []
  | n, line :: rest => (if n ∈ gone then [] else line) :: blankLines gone (n + 1) rest

def blanked (gone : List Int) (source : Text) : Text :=
  joinWith [newline] (blankLines gone 1 (lines source))

theorem line_statement_blank (v : Vocabulary) (n : Int) : Token.lineStatement? v n [] = none := rfl

theorem blank_lines_statements (v : Vocabulary) (gone : List Int) (ls : List Text) (n : Int)
    (oneLine : ∀ line ∈ ls, newline ∉ line) :
    Token.linesStatements v n (blankLines gone n ls) =
      (Token.linesStatements v n ls).filter fun s => s.line ∉ gone := by
  induction ls generalizing n with
  | nil => rfl
  | cons line rest ih =>
      have tail := ih (n + 1) fun l member => oneLine l (by simp [member])
      simp only [blankLines, Token.linesStatements, tail, List.filter_append]
      congr 1
      by_cases removed : n ∈ gone
      · cases found : Token.lineStatement? v n line with
        | none => simp [removed, line_statement_blank]
        | some s =>
            have here : s.line = n :=
              (Token.line_statement_on_line v n line (oneLine line (by simp)) s found).2.1
            simp [removed, line_statement_blank, here]
      · cases found : Token.lineStatement? v n line with
        | none => simp [removed, found]
        | some s =>
            have here : s.line = n :=
              (Token.line_statement_on_line v n line (oneLine line (by simp)) s found).2.1
            simp [removed, found, here]

theorem split_on_parts (mark : UInt8) (t : Text) : ∀ part ∈ splitOn mark t, mark ∉ part := by
  induction t with
  | nil => simp [splitOn]
  | cons b rest ih =>
      unfold splitOn
      by_cases same : b = mark
      · simpa [same] using ih
      · cases parts : splitOn mark rest with
        | nil => simp [same, Ne.symm same]
        | cons part others =>
            rw [parts] at ih
            have first := ih part (by simp)
            intro piece member
            simp only [beq_iff_eq, same, ↓reduceIte, List.mem_cons] at member
            rcases member with rfl | member
            · simp [Ne.symm same, first]
            · exact ih piece (by simp [member])

theorem split_on_ne_nil (mark : UInt8) (t : Text) : splitOn mark t ≠ [] := by
  cases t with
  | nil => simp [splitOn]
  | cons b rest =>
      unfold splitOn
      repeat' split
      all_goals simp

theorem split_on_append (mark : UInt8) (part rest : Text) (clean : mark ∉ part) :
    splitOn mark (part ++ mark :: rest) = part :: splitOn mark rest := by
  induction part with
  | nil => simp [splitOn]
  | cons b others ih =>
      have other : b ≠ mark := fun same => clean (by simp [same])
      have tail := ih fun found => clean (by simp [found])
      rw [List.cons_append, splitOn, tail]
      simp [other]

theorem split_on_clean (mark : UInt8) (part : Text) (clean : mark ∉ part) :
    splitOn mark part = [part] := by
  induction part with
  | nil => rfl
  | cons b others ih =>
      have other : b ≠ mark := fun same => clean (by simp [same])
      have tail := ih fun found => clean (by simp [found])
      rw [splitOn, tail]
      simp [other]

theorem split_on_join (mark : UInt8) (parts : List Text) (some : parts ≠ [])
    (clean : ∀ part ∈ parts, mark ∉ part) : splitOn mark (joinWith [mark] parts) = parts := by
  induction parts with
  | nil => exact absurd rfl some
  | cons part rest ih =>
      have first := clean part (by simp)
      cases rest with
      | nil => exact split_on_clean mark part first
      | cons next others =>
          have tail := ih (by simp) fun p member => clean p (by simp [member])
          rw [joinWith, List.append_assoc, List.singleton_append,
            split_on_append mark part _ first]
          · exact congrArg (part :: ·) tail
          · simp

theorem lines_join (ls : List Text) (some : ls ≠ []) (oneLine : ∀ line ∈ ls, newline ∉ line) :
    lines (joinWith [newline] ls) = ls :=
  split_on_join newline ls some oneLine

theorem lines_clean (source : Text) : ∀ line ∈ lines source, newline ∉ line :=
  split_on_parts newline source

theorem blank_lines_clean (gone : List Int) (ls : List Text) (n : Int)
    (oneLine : ∀ line ∈ ls, newline ∉ line) : ∀ line ∈ blankLines gone n ls, newline ∉ line := by
  induction ls generalizing n with
  | nil => simp [blankLines]
  | cons line rest ih =>
      intro piece member
      rcases List.mem_cons.mp member with rfl | member
      · split
        · simp
        · exact oneLine line (by simp)
      · exact ih (n + 1) (fun l member => oneLine l (by simp [member])) piece member

theorem lines_blanked (gone : List Int) (source : Text) :
    lines (blanked gone source) = blankLines gone 1 (lines source) := by
  apply lines_join
  · cases split : lines source with
    | nil => exact absurd split (split_on_ne_nil newline source)
    | cons line rest => simp [blankLines]
  · exact blank_lines_clean gone _ 1 (lines_clean source)

def sourceStatements (v : Vocabulary) (source : Text) : List Statement :=
  Token.linesStatements v 1 (lines source)

/-- Every source can be cut into tokens, and the tokens into its statements. -/
theorem source_tokens_statements (v : Vocabulary) (source : Text) :
    ∃ tokens, Token.sourceTokens? v source = some tokens ∧
      statements tokens = sourceStatements v source := by
  obtain ⟨tokens, read, -, same⟩ :=
    Token.lines_tokens_statements v (lines source) 1 (lines_clean source)
  exact ⟨tokens, read, same⟩

theorem source_statements_ascend (v : Vocabulary) (source : Text) :
    LinesAscend (sourceStatements v source) :=
  (Token.lines_statements_ascend v (lines source) 1 (lines_clean source)).1

theorem source_statement_on_line (v : Vocabulary) (source : Text) (s : Statement)
    (member : s ∈ sourceStatements v source) : Token.OnLine s.line s :=
  ((Token.lines_statements_ascend v (lines source) 1 (lines_clean source)).2 s member).2

/-- Blanking lines takes away the statements on them. -/
theorem blanked_statements (v : Vocabulary) (gone : List Int) (source : Text) :
    sourceStatements v (blanked gone source) =
      (sourceStatements v source).filter fun s => s.line ∉ gone := by
  unfold sourceStatements
  rw [lines_blanked]
  exact blank_lines_statements v gone _ 1 (lines_clean source)

end DeviceScript

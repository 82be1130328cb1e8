import DeviceScript.Proofs.Schema.Vocabulary
import DeviceScript.Proofs.Source.Lines
import DeviceScript.Proofs.Token.Arguments

/-!
Tokens that are written out as a source and read again. Every statement gets a line of its own and
comes back as one statement; which statements come back as they were can be told from the
statement alone.
-/

namespace DeviceScript

open Text

namespace Token

/-! What the parts of a line can be. -/

theorem rest_after_read {t rest : Text} (read : restAfterName t = some rest) :
    rest = trimBlankBytes t := by
  unfold restAfterName at read
  simp only at read
  split at read
  · next none =>
      cases read
      exact (List.isEmpty_iff.mp none).symm
  · split at read
    · cases read
      rfl
    · cases read

theorem keyword_follow_read {t rest : Text} (read : keywordFollow t = some rest) :
    Trimmed rest ∧ ∀ b ∈ rest, b ∈ t := by
  obtain ⟨inside, closed, after⟩ := Option.bind_eq_some_iff.mp read
  have part : ∀ b ∈ inside, b ∈ t := by
    unfold beforeClosing at closed
    split at closed
    · next last front same =>
        split at closed
        · cases closed
          intro b member
          have among : b ∈ (dropRightWhile isBlankByte t).reverse := by
            rw [same]
            exact List.mem_cons_of_mem _ (List.mem_reverse.mp member)
          have dropped := List.mem_reverse.mp (List.mem_reverse.mp among)
          exact List.mem_reverse.mp ((List.dropWhile_sublist _).subset dropped)
        · cases closed
    · cases closed
  rw [rest_after_read after]
  exact ⟨trimmed_trim inside, fun b member => part b ((trim_sublist inside).subset member)⟩

theorem blank_splits_suffix {t u : Text} (member : u ∈ blankSplits t) : u <:+ t := by
  induction t with
  | nil =>
      obtain rfl := List.mem_singleton.mp member
      exact List.suffix_rfl
  | cons b rest ih =>
      unfold blankSplits at member
      split at member
      · rcases List.mem_append.mp member with later | whole
        · exact (ih later).trans (List.suffix_cons b rest)
        · exact List.mem_singleton.mp whole ▸ List.suffix_rfl
      · exact List.mem_singleton.mp member ▸ List.suffix_rfl

theorem drop_blanks_suffix (t : Text) : dropBlanks t <:+ t := List.dropWhile_suffix _

section Read

variable {line : Text}

theorem section_read {name : Text} (read : sectionLine? line = some name) :
    Trimmed name ∧ ascii ']' ∉ name ∧ ∀ b ∈ name, b ∈ line := by
  obtain ⟨inside, begins, found⟩ := Option.bind_eq_some_iff.mp read
  obtain ⟨⟨content, after⟩, parts, checked⟩ := Option.bind_eq_some_iff.mp found
  obtain ⟨_, -, same⟩ := Option.bind_eq_some_iff.mp checked
  cases same
  obtain ⟨whole, free⟩ := cut_some parts
  have kept := (trim_sublist content).subset
  refine ⟨trimmed_trim content, fun member => free (kept member), ?_⟩
  intro b member
  refine (drop_blanks_suffix line).mem ?_
  rw [drop_start_iff.mp begins, whole]
  exact List.mem_append_right _ (List.mem_append_left _ (kept member))

theorem comment_read {content : Text} (read : commentLine? line = some content) :
    newline ∉ content ∧ content <:+ line := by
  obtain ⟨rest, begins, checked⟩ := Option.bind_eq_some_iff.mp read
  obtain ⟨_, clean, same⟩ := Option.bind_eq_some_iff.mp checked
  cases same
  refine ⟨by simpa using guard_read clean, List.IsSuffix.trans ?_ (drop_blanks_suffix line)⟩
  rw [drop_start_iff.mp begins]
  exact List.suffix_append _ _

theorem inclusion_read {path : Text} (read : inclusionLine? line = some path) :
    Trimmed path ∧ ∀ b ∈ path, b ∈ line := by
  obtain ⟨rest, begins, after⟩ := Option.bind_eq_some_iff.mp read
  rw [rest_after_read after]
  refine ⟨trimmed_trim rest, fun b member => (drop_blanks_suffix line).mem ?_⟩
  rw [drop_start_iff.mp begins]
  exact List.mem_append_right _ ((trim_sublist rest).subset member)

theorem known_keyword_read {names : List Text} {name rest : Text}
    (read : knownKeywordLine? names line = some (name, rest)) :
    name ∈ names ∧ Trimmed rest ∧ ∀ b ∈ rest, b ∈ line := by
  obtain ⟨inside, begins, found⟩ := Option.bind_eq_some_iff.mp read
  obtain ⟨start, among, first⟩ := List.exists_of_findSome?_eq_some found
  obtain ⟨listed, after, parts, follows⟩ := first_name_read first
  obtain ⟨trimmed, part⟩ := keyword_follow_read follows
  refine ⟨listed, trimmed, fun b member => (drop_blanks_suffix line).mem ?_⟩
  rw [drop_start_iff.mp begins]
  refine List.mem_append_right _ ((blank_splits_suffix among).mem ?_)
  rw [parts]
  exact List.mem_append_right _ (part b member)

theorem keyword_read {name rest : Text} (read : keywordLine? line = some (name, rest)) :
    isName name = true ∧ Trimmed rest ∧ ∀ b ∈ rest, b ∈ line := by
  obtain ⟨inside, begins, checked⟩ := Option.bind_eq_some_iff.mp read
  obtain ⟨_, named, found⟩ := Option.bind_eq_some_iff.mp checked
  obtain ⟨after, follows, same⟩ := Option.bind_eq_some_iff.mp found
  cases same
  obtain ⟨trimmed, part⟩ := keyword_follow_read follows
  refine ⟨guard_read named, trimmed, fun b member => (drop_blanks_suffix line).mem ?_⟩
  rw [drop_start_iff.mp begins]
  refine List.mem_append_right _ ((drop_blanks_suffix inside).mem ?_)
  exact List.mem_of_mem_drop (part b member)

theorem operation_read {names : List Text} {name rest : Text}
    (read : operationLine? names line = some (name, rest)) :
    name ∈ names ∧ Trimmed rest ∧ ∀ b ∈ rest, b ∈ line := by
  obtain ⟨start, among, first⟩ := List.exists_of_findSome?_eq_some read
  obtain ⟨listed, after, parts, follows⟩ := first_name_read first
  rw [rest_after_read follows]
  refine ⟨listed, trimmed_trim after, fun b member => (blank_splits_suffix among).mem ?_⟩
  rw [parts]
  exact List.mem_append_right _ ((trim_sublist after).subset member)

end Read

/-- The statements that lines have. -/
inductive Read (v : Vocabulary) (n : Int) : Statement → Prop
  | sectionName {name : Text} (trimmed : Trimmed name) (free : ascii ']' ∉ name)
      (oneLine : newline ∉ name) : Read v n ⟨⟨.sectionName, name, n⟩, []⟩
  | comment {content : Text} (oneLine : newline ∉ content) (ends : ∀ b ∈ content.getLast?, b ≠ 13) :
      Read v n ⟨⟨.comment, content, n⟩, []⟩
  | inclusion {path : Text} (trimmed : Trimmed path) (oneLine : newline ∉ path) :
      Read v n ⟨⟨.inclusion, path, n⟩, []⟩
  | keyword {name rest : Text} (named : isName name = true) (trimmed : Trimmed rest)
      (oneLine : newline ∉ rest) : Read v n ⟨⟨.keyword, name, n⟩, arguments rest n⟩
  | operation {name rest : Text} (listed : name ∈ v.operations) (other : name ≠ ofString "include")
      (trimmed : Trimmed rest) (oneLine : newline ∉ rest) :
      Read v n ⟨⟨.operation, name, n⟩, arguments rest n⟩
  | command {text : Text} (stripped : Stripped text) (shown : isBlank text = false)
      (oneLine : newline ∉ text) : Read v n ⟨⟨.command, text, n⟩, []⟩

/-- All names of a vocabulary are identifiers. -/
structure Regular (v : Vocabulary) : Prop where
  operations : ∀ m ∈ v.operations, isName m = true
  keywords : ∀ m ∈ v.keywords, isName m = true

theorem line_statement_read {v : Vocabulary} (regular : Regular v) {line : Text}
    (oneLine : newline ∉ line) {n : Int} {s : Statement}
    (found : lineStatement? v n line = some s) : Read v n s := by
  have within : ∀ b ∈ dropRightWhile (· == 13) line, b ∈ line := by
    intro b member
    exact List.mem_reverse.mp ((List.dropWhile_sublist _).subset (List.mem_reverse.mp member))
  have clean {t : Text} (part : ∀ b ∈ t, b ∈ dropRightWhile (· == 13) line) : newline ∉ t :=
    fun member => oneLine (within _ (part _ member))
  have returns := drop_right_while_last (· == 13) line
  unfold lineStatement? lineTokens? at found
  simp only at found
  generalize dropRightWhile (· == 13) line = kept at *
  -- The forms in the order in which they are tried.
  cases blank : isBlank kept with
  | true => simp [blank] at found
  | false =>
  simp only [blank, Bool.false_eq_true, ↓reduceIte] at found
  cases header : sectionLine? kept with
  | some name =>
      simp only [header] at found
      cases found
      obtain ⟨trimmed, free, part⟩ := section_read header
      exact .sectionName trimmed free (clean part)
  | none =>
  cases comment : commentLine? kept with
  | some content =>
      simp only [header, comment] at found
      cases found
      obtain ⟨single, before, rfl⟩ := comment_read comment
      refine .comment single fun b last => ?_
      simpa using returns b (by simp [List.getLast?_append, Option.mem_def.mp last])
  | none =>
  cases inclusion : inclusionLine? kept with
  | some path =>
      simp only [header, comment, inclusion] at found
      cases found
      obtain ⟨trimmed, part⟩ := inclusion_read inclusion
      exact .inclusion trimmed (clean part)
  | none =>
  cases known : knownKeywordLine? v.keywords kept with
  | some pair =>
      simp only [header, comment, inclusion, known] at found
      cases found
      obtain ⟨listed, trimmed, part⟩ := known_keyword_read known
      exact .keyword (regular.keywords _ listed) trimmed (clean part)
  | none =>
  cases keyword : keywordLine? kept with
  | some pair =>
      simp only [header, comment, inclusion, known, keyword] at found
      cases found
      obtain ⟨named, trimmed, part⟩ := keyword_read keyword
      exact .keyword named trimmed (clean part)
  | none =>
  cases operation : operationLine? v.operations kept with
  | some pair =>
      simp only [header, comment, inclusion, known, keyword, operation] at found
      cases found
      obtain ⟨listed, trimmed, part⟩ := operation_read operation
      exact .operation listed (operation_line_name operation inclusion) trimmed (clean part)
  | none =>
      have single : newline ∉ kept := clean fun b member => member
      simp only [header, comment, inclusion, known, keyword, operation, List.contains_eq_mem,
        single, decide_false, Bool.false_eq_true, ↓reduceIte] at found
      cases found
      exact .command (stripped_trim kept) ((is_blank_trim kept).trans blank)
        fun member => single (trim_mem member)

end Token

/-! Statements that are written out. -/

def Statement.moved (n : Int) (s : Statement) : Statement :=
  ⟨s.head.moved n, s.args.map (Token.moved n)⟩

/-- What a statement is not read back from as it was: a command whose text is a line of another
form, an inclusion whose path ends with white space, and arguments that end with a quote left open
and a backslash. -/
def Statement.isAltered (v : Vocabulary) (s : Statement) : Bool :=
  match s.head.kind with
  | .command => !Token.isPlainCommand v s.head.text
  | .inclusion => (runes s.head.text).getLast?.any Rune.isBlank
  | _ => Token.endsOpen s.args

namespace Token

/-- The path of an inclusion comes back without the white space that it ends with. -/
theorem inclusion_again (v : Vocabulary) {path : Text} (trimmed : Trimmed path)
    (oneLine : newline ∉ path) (m : Int) :
    newline ∉ trim ("include " ++ path) ∧
    ∃ again, lineTokens? v (trim ("include " ++ path)) m = some [⟨.inclusion, again, m⟩] ∧
      (again = path ↔ (runes path).getLast?.any Rune.isBlank = false) := by
  have apart : runes ("include" ++ 32 :: path) = runes "include" ++ runes (32 :: path) :=
    runes_append _ _ (by simp [isContinuation])
  have first : ∀ r ∈ (runes "include" ++ runes (32 :: path)).head?, r.isBlank = false := by
    intro r head
    cases head
    rfl
  obtain ⟨kept, gone, parts, trims, ends⟩ := trim_append apart first (by decide)
  have written : (("include " : Text) ++ path) = "include" ++ 32 :: path := rfl
  have clean : newline ∉ kept := by
    intro member
    have among : newline ∈ 32 :: path := parts ▸ List.mem_append_left gone member
    rcases List.mem_cons.mp among with space | inside
    · cases space
    · exact oneLine inside
  have blank : ∀ b ∈ kept.head?, isBlankByte b = true := by
    intro b head
    have same : b ∈ (32 :: path).head? := by
      rw [parts, List.head?_append, Option.mem_def.mp head]
      rfl
    cases same
    rfl
  have stripped := stripped_trim ("include" ++ 32 :: path)
  rw [trims] at stripped
  rw [written, trims]
  refine ⟨?_, _, inclusion_line_tokens v blank clean stripped m, ?_⟩
  · simp only [List.mem_append, not_or]
    exact ⟨by decide, clean⟩
  · have solid : (runes path).getLast?.any Rune.isBlank = false ↔ path = [] ∨ gone = [] := by
      rw [ends, runes_ascii (by decide)]
      cases read : runes path with
      | nil =>
          have none : path = [] := by
            rw [← of_runes_runes path, read]
            rfl
          exact iff_of_true rfl (.inl none)
      | cons r rs =>
          have some : path ≠ [] := by
            rintro rfl
            cases read
          rw [List.getLast?_cons_cons, or_iff_right some]
          cases (r :: rs).getLast? <;> simp
    -- What is kept of the path is a proper part of it, unless all is kept.
    rw [solid]
    cases kept with
    | nil =>
        refine ⟨fun same => .inl same.symm, ?_⟩
        rintro (rfl | rfl)
        · rfl
        · cases parts
    | cons b kept =>
        obtain ⟨rfl, rest⟩ : 32 = b ∧ path = kept ++ gone := List.cons.inj parts
        rw [trim_space]
        constructor
        · intro same
          have short := (trim_sublist kept).length_le
          rw [same, rest, List.length_append] at short
          exact .inr (List.length_eq_zero_iff.mp (by omega))
        · rintro (none | rfl)
          · rw [none] at rest
            obtain ⟨rfl, -⟩ := List.append_eq_nil_iff.mp rest.symm
            exact none.symm
          · rw [List.append_nil] at rest
            rw [← rest, trim_trimmed trimmed]

theorem read_again {v : Vocabulary} (regular : Regular v) {n : Int} {s : Statement}
    (read : Read v n s) (m : Int) : newline ∉ s.render ∧
      ∃ again, lineStatement? v m s.render = some again ∧
        (again = s.moved m ↔ s.isAltered v = false) := by
  have statement {text : Text} {head : Token} {args : List Token}
      (tokens : lineTokens? v text m = some (head :: args)) :
      lineStatement? v m text = some ⟨head, args⟩ := by
    unfold lineStatement?
    rw [tokens]
  -- Sections and comments always come back; for the other forms `isAltered` decides.
  cases read with
  | @sectionName name trimmed free oneLine =>
      have written : Statement.render ⟨⟨.sectionName, name, n⟩, []⟩ = "[" ++ name ++ "]" :=
        List.append_nil _
      rw [written]
      refine ⟨?_, _, statement (section_line_tokens v trimmed free m), iff_of_true rfl rfl⟩
      simp only [List.mem_append, not_or]
      exact ⟨⟨by decide, oneLine⟩, by decide⟩
  | @comment content oneLine ends =>
      have written : Statement.render ⟨⟨.comment, content, n⟩, []⟩ = "#" ++ content :=
        List.append_nil _
      rw [written]
      refine ⟨?_, _, statement (comment_line_tokens v oneLine ends m), iff_of_true rfl rfl⟩
      simp only [List.mem_append, not_or]
      exact ⟨by decide, oneLine⟩
  | @inclusion path trimmed oneLine =>
      have written : Statement.render ⟨⟨.inclusion, path, n⟩, []⟩ = trim ("include " ++ path) :=
        List.append_nil _
      obtain ⟨clean, again, tokens, same⟩ := inclusion_again v trimmed oneLine m
      rw [written]
      refine ⟨clean, _, statement tokens, Iff.trans ?_ same⟩
      simp [Statement.moved, moved]
  | @keyword name rest named trimmed oneLine =>
      obtain ⟨ends, clean, same⟩ := arguments_again oneLine trimmed n m
      have written : Statement.render ⟨⟨.keyword, name, n⟩, arguments rest n⟩ =
          "<" ++ name ++ spaced (argumentsText (arguments rest n)) ++ ">" := by
        unfold Statement.render
        rw [join_cons _ argument_some]
        rfl
      rw [written]
      refine ⟨?_, _, statement (keyword_line_tokens regular.keywords named ends clean m), ?_⟩
      · simp only [List.mem_append, not_or]
        exact ⟨⟨⟨by decide, name_free named (by decide)⟩, spaced_one_line clean⟩, by decide⟩
      · refine Iff.trans ?_ same
        simp [Statement.moved, moved]
  | @operation name rest listed other trimmed oneLine =>
      obtain ⟨ends, clean, same⟩ := arguments_again oneLine trimmed n m
      have named := regular.operations name listed
      have written : Statement.render ⟨⟨.operation, name, n⟩, arguments rest n⟩ =
          name ++ spaced (argumentsText (arguments rest n)) := by
        unfold Statement.render
        rw [join_cons _ argument_some]
        exact List.append_nil _
      have tokens := operation_line_tokens (name_leads named other) listed
        (fun m among => name_free (regular.operations m among) (by decide)) ends clean m
      rw [written]
      refine ⟨?_, _, statement tokens, ?_⟩
      · simp only [List.mem_append, not_or]
        exact ⟨name_free named (by decide), spaced_one_line clean⟩
      · refine Iff.trans ?_ same
        simp [Statement.moved, moved]
  | @command text stripped shown oneLine =>
      have written : Statement.render ⟨⟨.command, text, n⟩, []⟩ = text := List.append_nil _
      rw [written]
      refine ⟨oneLine, ?_⟩
      cases plain : isPlainCommand v text with
      | true =>
          refine ⟨_, statement (command_line_tokens stripped shown oneLine plain m), ?_⟩
          exact iff_of_true rfl (by simp [Statement.isAltered, plain])
      | false =>
          obtain ⟨head, args, tokens, kind⟩ := hidden_line_tokens stripped shown plain m
          refine ⟨_, statement tokens, iff_of_false ?_ (by simp [Statement.isAltered, plain])⟩
          intro same
          exact kind (congrArg (fun s : Statement => s.head.kind) same)

end Token

/-! Whole sources. -/

def Token.content (t : Token) : TokenKind × Text := (t.kind, t.text)

def Statement.content (s : Statement) : List (TokenKind × Text) :=
  s.head.content :: s.args.map Token.content

theorem statement_content_moved {n : Int} {s t : Statement} (onLine : Token.OnLine n t) :
    t.content = s.content ↔ t = s.moved n := by
  obtain ⟨-, line, args⟩ := onLine
  have stays : t.moved n = t := by
    obtain ⟨⟨kind, text, k⟩, rest⟩ := t
    obtain rfl : k = n := line
    have each : rest.map (Token.moved k) = rest.map id :=
      List.map_congr_left fun a member => by
        obtain ⟨_, rfl⟩ := args a member
        rfl
    rw [Statement.moved, each, List.map_id]
    rfl
  have anew (u : Statement) : u.moved n = ⟨⟨u.head.content.1, u.head.content.2, n⟩,
      (u.args.map Token.content).map fun c => ⟨c.1, c.2, n⟩⟩ := by
    unfold Statement.moved
    rw [List.map_map]
    rfl
  constructor
  · intro same
    obtain ⟨head, rest⟩ := List.cons.inj same
    rw [← stays, anew t, anew s, head, rest]
  · rintro rfl
    unfold Statement.content Statement.moved
    rw [List.map_map]
    rfl

theorem statements_flat (tokens : List Token) :
    (statements tokens).flatMap (fun s => s.head :: s.args) = tokens := by
  induction tokens with
  | nil => rfl
  | cons head rest ih =>
      unfold statements
      cases cut : statements rest with
      | nil =>
          rw [cut] at ih
          simpa using ih
      | cons following others =>
          rw [cut] at ih
          simp only
          split <;> simpa using ih

/-- Where statements begin depends on what the tokens are. -/
theorem statements_content {ts us : List Token}
    (same : ts.map Token.content = us.map Token.content) :
    (statements ts).map Statement.content = (statements us).map Statement.content := by
  induction ts generalizing us with
  | nil =>
      obtain rfl := List.map_eq_nil_iff.mp same.symm
      rfl
  | cons t ts ih =>
      cases us with
      | nil => cases same
      | cons u us =>
          obtain ⟨first, rest⟩ := List.cons.inj same
          have later := ih rest
          unfold statements
          cases cut : statements ts with
          | nil =>
              rw [cut] at later
              rw [List.map_eq_nil_iff.mp later.symm]
              simp [Statement.content, first]
          | cons s ss =>
              rw [cut] at later
              obtain ⟨r, rs, cut', begins, others⟩ := List.map_eq_cons_iff.mp later.symm
              obtain ⟨head, args⟩ := List.cons.inj begins
              have primary : r.head.isPrimary = s.head.isPrimary :=
                congrArg (fun c : TokenKind × Text => c.1.isPrimary) head
              rw [cut']
              simp only [primary]
              split <;> simp [Statement.content, first, head, args, others]

theorem tokens_content_iff {ts us : List Token} :
    ts.map Token.content = us.map Token.content ↔
      (statements ts).map Statement.content = (statements us).map Statement.content := by
  refine ⟨statements_content, ?_⟩
  intro same
  have flat (ts : List Token) :
      ts.map Token.content = ((statements ts).map Statement.content).flatten := by
    conv => lhs; rw [← statements_flat ts]
    rw [List.map_flatMap, List.flatMap_def]
    rfl
  rw [flat, flat, same]

theorem lines_statement_line {v : Vocabulary} {n : Int} {ls : List Text} {s : Statement}
    (member : s ∈ Token.linesStatements v n ls) :
    ∃ k, ∃ line ∈ ls, Token.lineStatement? v k line = some s := by
  induction ls generalizing n with
  | nil => cases member
  | cons line rest ih =>
      rcases List.mem_append.mp member with here | later
      · exact ⟨n, line, List.mem_cons_self, by simpa using here⟩
      · obtain ⟨k, other, among, found⟩ := ih later
        exact ⟨k, other, List.mem_cons_of_mem line among, found⟩

/-- Statements that are written out, one to a line, come back one by one. -/
theorem rendered_statements {v : Vocabulary} (regular : Token.Regular v) {ss : List Statement}
    (read : ∀ s ∈ ss, ∃ k, Token.Read v k s) (n : Int) :
    (∀ line ∈ ss.map Statement.render, newline ∉ line) ∧
    ((Token.linesStatements v n (ss.map Statement.render)).map Statement.content =
        ss.map Statement.content ↔ ∀ s ∈ ss, s.isAltered v = false) := by
  induction ss generalizing n with
  | nil => exact ⟨nofun, iff_of_true rfl nofun⟩
  | cons s ss ih =>
      obtain ⟨k, here⟩ := read s List.mem_cons_self
      obtain ⟨clean, again, found, same⟩ := Token.read_again regular here n
      obtain ⟨others, rest⟩ := ih (fun t later => read t (List.mem_cons_of_mem s later)) (n + 1)
      have onLine := Token.line_statement_on_line v n _ clean again found
      refine ⟨List.forall_mem_cons.mpr ⟨clean, others⟩, ?_⟩
      rw [List.map_cons, Token.linesStatements, found, List.forall_mem_cons, ← same, ← rest,
        ← statement_content_moved onLine]
      simp

theorem standard_regular : Token.Regular Schema.standard.vocabulary := by
  rw [Schema.standard_vocabulary]
  exact ⟨by decide, by decide⟩

/-- A source in the standard language that is written out from its tokens has the same tokens again,
exactly if it has no statement that writing alters. -/
theorem source_round_trip_iff (source : Text) :
    ∃ tokens again, Token.sourceTokens? Schema.standard.vocabulary source = some tokens ∧
      Token.sourceTokens? Schema.standard.vocabulary (renderTokens tokens) = some again ∧
      (again.map Token.content = tokens.map Token.content ↔
        ∀ s ∈ statements tokens, s.isAltered Schema.standard.vocabulary = false) := by
  obtain ⟨tokens, read, cut⟩ := source_tokens_statements Schema.standard.vocabulary source
  obtain ⟨again, readAgain, cutAgain⟩ :=
    source_tokens_statements Schema.standard.vocabulary (renderTokens tokens)
  refine ⟨tokens, again, read, readAgain, ?_⟩
  have each : ∀ s ∈ statements tokens, ∃ k, Token.Read Schema.standard.vocabulary k s := by
    intro s member
    rw [cut] at member
    obtain ⟨k, line, among, found⟩ := lines_statement_line member
    exact ⟨k, Token.line_statement_read standard_regular (lines_clean source line among) found⟩
  obtain ⟨clean, same⟩ := rendered_statements standard_regular each 1
  rw [tokens_content_iff, cutAgain, ← same]
  unfold sourceStatements renderTokens
  -- Without statements the text is empty, and that is one blank line.
  by_cases none : statements tokens = []
  · rw [none]
    exact iff_of_true rfl rfl
  · rw [lines_join _ (by simpa using none) clean]

/-- A backslash after an open quote comes back with a space in the quote. -/
theorem open_quote_grows :
    ∃ tokens again, Token.sourceTokens? Schema.standard.vocabulary "comment \"abc\\" = some tokens ∧
      Token.sourceTokens? Schema.standard.vocabulary (renderTokens tokens) = some again ∧
      tokens = [⟨.operation, "comment", 1⟩, ⟨.word, "\"abc", 1⟩, ⟨.word, "\\", 1⟩] ∧
      again = [⟨.operation, "comment", 1⟩, ⟨.word, "\"abc ", 1⟩, ⟨.word, "\\", 1⟩] := by
  rw [Schema.standard_vocabulary]
  exact ⟨_, _, rfl, rfl, rfl, rfl⟩

end DeviceScript

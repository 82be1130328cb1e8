import DeviceScript.Proofs.Token.RoundTrip

/-!
Any text can be an argument. Between double quotes, as statements are written out, and between
single quotes, with a backslash before what would be misread, it comes back octet by octet.
-/

namespace DeviceScript

open Text

namespace Token

/-! Between single quotes. -/

/-- A backslash before every backslash and every single quote. -/
def escapeSingle (t : Text) : Text :=
  t.flatMap fun b => if b = backslash ∨ b = ascii '\'' then [backslash, b] else [b]

def singleQuoted (t : Text) : Text := ascii '\'' :: (escapeSingle t ++ [ascii '\''])

def doubled (t : Text) : Text :=
  t.flatMap fun b => if b = backslash then [backslash, b] else [b]

section Cons

variable {b : UInt8} (rest : Text)

theorem escape_single_special (special : b = backslash ∨ b = ascii '\'') :
    escapeSingle (b :: rest) = backslash :: b :: escapeSingle rest := by
  simp [escapeSingle, special]

theorem escape_single_plain (plain : ¬ (b = backslash ∨ b = ascii '\'')) :
    escapeSingle (b :: rest) = b :: escapeSingle rest := by
  simp [escapeSingle, plain]

theorem doubled_backslash : doubled (backslash :: rest) = backslash :: backslash :: doubled rest :=
  rfl

theorem doubled_plain (plain : b ≠ backslash) : doubled (b :: rest) = b :: doubled rest := by
  simp [doubled, plain]

end Cons

section Replace

variable {first second by' b : UInt8} {rest : Text}

theorem replace_pair_here :
    replacePair first second by' (first :: second :: rest) =
      by' :: replacePair first second by' rest := by
  simp [replacePair]

theorem replace_pair_past (other : b = first → ∀ c ∈ rest.head?, c ≠ second) :
    replacePair first second by' (b :: rest) = b :: replacePair first second by' rest := by
  cases rest with
  | nil => rfl
  | cons c rest =>
      have apart : ¬ (b = first ∧ c = second) := fun both => other both.1 c rfl both.2
      simp [replacePair, apart]

end Replace

theorem escape_single_begins (t : Text) : ∀ c ∈ (escapeSingle t).head?, c ≠ ascii '\'' := by
  cases t with
  | nil => exact nofun
  | cons b rest =>
      intro c first
      by_cases special : b = backslash ∨ b = ascii '\''
      · rw [escape_single_special rest special] at first
        cases first
        decide
      · rw [escape_single_plain rest special] at first
        cases first
        exact fun same => special (.inr same)

/-- Undoing the escapes of quotes leaves those of backslashes alone. -/
theorem quotes_unescaped (t : Text) :
    replacePair backslash (ascii '\'') (ascii '\'') (escapeSingle t) = doubled t := by
  induction t with
  | nil => rfl
  | cons b rest ih =>
      by_cases mark : b = backslash
      · -- What follows an escaped backslash is no quote, since that has a backslash of its own.
        subst mark
        have apart : ∀ c ∈ (backslash :: escapeSingle rest).head?, c ≠ ascii '\'' := by
          rintro _ ⟨⟩
          decide
        rw [escape_single_special rest (.inl rfl), replace_pair_past fun _ => apart,
          replace_pair_past fun _ => escape_single_begins rest, ih, doubled_backslash]
      · by_cases quote : b = ascii '\''
        · subst quote
          rw [escape_single_special rest (.inr rfl), replace_pair_here, ih,
            doubled_plain rest (by decide)]
        · rw [escape_single_plain rest (by simp [mark, quote]),
            replace_pair_past fun same => absurd same mark, ih, doubled_plain rest mark]

theorem backslashes_unescaped (t : Text) :
    replacePair backslash backslash backslash (doubled t) = t := by
  induction t with
  | nil => rfl
  | cons b rest ih =>
      by_cases mark : b = backslash
      · rw [mark, doubled_backslash, replace_pair_here, ih]
      · rw [doubled_plain rest mark, replace_pair_past fun same => absurd same mark, ih]

theorem unescape_escape_single (t : Text) : unescapeSingle (escapeSingle t) = t := by
  unfold unescapeSingle
  rw [quotes_unescaped, backslashes_unescaped]

theorem escape_single_escaped (t : Text) : Escaped (ascii '\'') (escapeSingle t) := by
  induction t with
  | nil => exact .nil
  | cons b rest ih =>
      by_cases special : b = backslash ∨ b = ascii '\''
      · rw [escape_single_special rest special]
        refine .pair ?_ ih
        rcases special with rfl | rfl <;> decide
      · rw [escape_single_plain rest special]
        exact .plain (fun quote => special (.inr quote)) (fun mark => special (.inl mark)) ih

theorem single_quoted_closed (t : Text) : Closed (singleQuoted t) :=
  ⟨ascii '\'', escapeSingle t, .inr rfl, escape_single_escaped t, rfl⟩

theorem single_quoted_one_line {t : Text} (oneLine : newline ∉ t) : newline ∉ singleQuoted t := by
  have clean : newline ∉ escapeSingle t := by
    intro member
    obtain ⟨b, among, written⟩ := List.mem_flatMap.mp member
    split at written
    · next special =>
        rcases List.mem_cons.mp written with mark | other
        · cases mark
        · exact oneLine (List.mem_singleton.mp other ▸ among)
    · exact oneLine (List.mem_singleton.mp written ▸ among)
  simp only [singleQuoted, List.mem_cons, List.mem_append, List.not_mem_nil, or_false, not_or]
  exact ⟨by decide, clean, by decide⟩

theorem of_word_single_quoted (t : Text) (n : Int) :
    ofWord (singleQuoted t) n = ⟨.quoted, t, n⟩ := by
  have closed : isClosedBy (ascii '\'') (singleQuoted t) = true :=
    closed_by (escape_single_escaped t)
  have other : isClosedBy (ascii '"') (singleQuoted t) = false := by
    simp [isClosedBy, singleQuoted, ascii]
  have inside : ((singleQuoted t).drop 1).dropLast = escapeSingle t := by
    simp [singleQuoted]
  unfold ofWord
  rw [other, closed, inside, unescape_escape_single]
  rfl

/-! Arguments that are quoted texts. -/

def quotedArguments (given : List Text) (n : Int) : List Token :=
  given.map fun t => ⟨.quoted, t, n⟩

/-- A way to put a text between quotes from which it is read back. -/
structure Quoting (write : Text → Text) : Prop where
  closed : ∀ t, Closed (write t)
  read : ∀ t n, ofWord (write t) n = ⟨.quoted, t, n⟩

theorem quoting_double : Quoting quote := ⟨quote_closed, of_word_quote⟩

theorem quoting_single : Quoting singleQuoted := ⟨single_quoted_closed, of_word_single_quoted⟩

def written (write : Text → Text) (given : List Text) : Text := joinWith " " (given.map write)

section Written

variable {write : Text → Text}

theorem arguments_written (quoting : Quoting write) (given : List Text) (n : Int) :
    arguments (written write given) n = quotedArguments given n := by
  have whole : ∀ w ∈ given.map write, Solid w ∨ Closed w := by
    intro w member
    obtain ⟨t, -, rfl⟩ := List.mem_map.mp member
    exact .inr (quoting.closed t)
  unfold arguments quotedArguments written
  rw [words_join whole, List.map_map]
  exact List.map_congr_left fun t _ => quoting.read t n

theorem written_trimmed (quoting : Quoting write) (given : List Text) :
    Trimmed (written write given) := by
  apply join_trimmed
  intro w member
  obtain ⟨t, -, rfl⟩ := List.mem_map.mp member
  exact whole_trimmed (.inr (quoting.closed t))

theorem written_one_line {given : List Text} (each : ∀ t ∈ given, newline ∉ write t) :
    newline ∉ written write given := by
  intro member
  rcases join_mem member with space | ⟨w, among, inside⟩
  · cases space
  · obtain ⟨t, given, rfl⟩ := List.mem_map.mp among
    exact each t given inside

end Written

/-! Lines that a name begins. -/

/-- A name of the vocabulary, with the kind of token it is read as. -/
def Heads (v : Vocabulary) (kind : TokenKind) (name : Text) : Prop :=
  kind = .operation ∧ name ∈ v.operations ∨ kind = .keyword ∧ name ∈ v.keywords

def headed (kind : TokenKind) (name args : Text) : Text :=
  if kind = .keyword then "<" ++ name ++ spaced args ++ ">" else name ++ spaced args

section Headed

variable {v : Vocabulary} {kind : TokenKind} {name : Text} (heads : Heads v kind name)

include heads

theorem headed_line_tokens (regular : Regular v) (plain : ofString "include" ∉ v.operations)
    {args : Text} (trimmed : Trimmed args) (oneLine : newline ∉ args) (n : Int) :
    newline ∉ headed kind name args ∧
      lineTokens? v (headed kind name args) n = some (⟨kind, name, n⟩ :: arguments args n) := by
  rcases heads with ⟨rfl, listed⟩ | ⟨rfl, listed⟩
  · have named := regular.operations name listed
    have other : name ≠ ofString "include" := fun same => plain (same ▸ listed)
    have shown : headed .operation name args = name ++ spaced args := rfl
    rw [shown]
    constructor
    · simp only [List.mem_append, not_or]
      exact ⟨name_free named (by decide), spaced_one_line oneLine⟩
    · exact operation_line_tokens (name_leads named other) listed
        (fun m among => name_free (regular.operations m among) (by decide)) trimmed oneLine n
  · have named := regular.keywords name listed
    have shown : headed .keyword name args = "<" ++ name ++ spaced args ++ ">" := rfl
    rw [shown]
    constructor
    · simp only [List.mem_append, not_or]
      exact ⟨⟨⟨by decide, name_free named (by decide)⟩, spaced_one_line oneLine⟩, by decide⟩
    · exact keyword_line_tokens regular.keywords named trimmed oneLine n

/-- A statement with quoted arguments is written out as a name and its arguments. -/
theorem render_quoted (given : List Text) (n : Int) :
    renderTokens (⟨kind, name, n⟩ :: quotedArguments given n) =
      headed kind name (written quote given) := by
  have follow : ∀ t ∈ quotedArguments given n, t.isPrimary = false := by
    intro t member
    obtain ⟨s, -, rfl⟩ := List.mem_map.mp member
    rfl
  have single : statements (⟨kind, name, n⟩ :: quotedArguments given n) =
      [⟨⟨kind, name, n⟩, quotedArguments given n⟩] := by
    have cut := statements_append ⟨kind, name, n⟩ (quotedArguments given n) [] follow nofun
    rwa [List.append_nil] at cut
  have texts : (quotedArguments given n).map argumentText = given.map quote := by
    unfold quotedArguments
    rw [List.map_map]
    rfl
  have some : ∀ w ∈ given.map quote, w ≠ [] := by
    intro w member
    obtain ⟨t, -, rfl⟩ := List.mem_map.mp member
    exact nofun
  unfold renderTokens
  rw [single]
  change Statement.render _ = _
  unfold Statement.render
  rw [texts, join_cons _ some]
  rcases heads with ⟨rfl, -⟩ | ⟨rfl, -⟩
  · exact List.append_nil _
  · rfl

end Headed

theorem source_one_line {v : Vocabulary} {line : Text} (oneLine : newline ∉ line)
    {tokens : List Token} (read : lineTokens? v line 1 = some tokens) :
    sourceTokens? v line = some tokens := by
  unfold sourceTokens? lines
  rw [split_on_clean newline line oneLine]
  simp [linesTokens?, read]

theorem standard_no_inclusion : ofString "include" ∉ Schema.standard.vocabulary.operations := by
  rw [Schema.standard_vocabulary]
  decide

/-- A statement of the standard language with quoted arguments is written out on one line, from
which the statement is read again. Texts between single quotes are read as they were before they
were escaped, alone and as the arguments of a statement. -/
theorem quoted_arguments_kept :
    (∀ t n, arguments (singleQuoted t) n = [⟨.quoted, t, n⟩]) ∧
    ∀ kind name, Heads Schema.standard.vocabulary kind name → ∀ given n,
      newline ∉ renderTokens (⟨kind, name, n⟩ :: quotedArguments given n) ∧
      sourceTokens? Schema.standard.vocabulary
          (renderTokens (⟨kind, name, n⟩ :: quotedArguments given n)) =
        some (⟨kind, name, 1⟩ :: quotedArguments given 1) ∧
      ((∀ t ∈ given, newline ∉ t) →
        lineTokens? Schema.standard.vocabulary
            (headed kind name (written singleQuoted given)) n =
          some (⟨kind, name, n⟩ :: quotedArguments given n)) := by
  constructor
  · intro t n
    exact arguments_written quoting_single [t] n
  · intro kind name heads given n
    have double (m : Int) := headed_line_tokens heads standard_regular standard_no_inclusion
      (written_trimmed quoting_double given) (written_one_line fun t _ => quote_one_line t) m
    rw [render_quoted heads]
    refine ⟨(double n).1, ?_, ?_⟩
    · rw [source_one_line (double 1).1 (double 1).2, arguments_written quoting_double]
    · intro clean
      have single := headed_line_tokens heads standard_regular standard_no_inclusion
        (written_trimmed quoting_single given)
        (written_one_line fun t among => single_quoted_one_line (clean t among)) n
      rw [single.2, arguments_written quoting_single]

/-- A condition whose operands hold quotes, backslashes, a closing bracket and what is no UTF-8. -/
theorem hard_operands_kept :
    Heads Schema.standard.vocabulary .keyword "if" ∧
    sourceTokens? Schema.standard.vocabulary
        (renderTokens (⟨.keyword, "if", 7⟩ :: quotedArguments ["\n>#\"", [92, 39, 255]] 7)) =
      some [⟨.keyword, "if", 1⟩, ⟨.quoted, "\n>#\"", 1⟩, ⟨.quoted, [92, 39, 255], 1⟩] ∧
    lineTokens? Schema.standard.vocabulary
        (headed .keyword "if" (written singleQuoted ["$x>#\"", [92, 39, 255]])) 7 =
      some [⟨.keyword, "if", 7⟩, ⟨.quoted, "$x>#\"", 7⟩, ⟨.quoted, [92, 39, 255], 7⟩] := by
  have heads : Heads Schema.standard.vocabulary .keyword "if" := by
    rw [Schema.standard_vocabulary]
    exact .inr ⟨rfl, by decide⟩
  refine ⟨heads, ?_, ?_⟩
  · exact (quoted_arguments_kept.2 .keyword "if" heads _ 7).2.1
  · exact (quoted_arguments_kept.2 .keyword "if" heads _ 7).2.2 (by decide)

end Token
end DeviceScript

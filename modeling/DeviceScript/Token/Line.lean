import DeviceScript.Token.Word
import DeviceScript.Text.Blank

/-!
Lines of a script. A line is a section header, a comment, an inclusion, a keyword in angle
brackets, an operation or, failing all those, a device command; the first that fits wins.
-/

namespace DeviceScript

/-- The names that lex as operations and keywords, in the order they are tried. -/
structure Vocabulary where
  operations : List Text
  keywords : List Text
deriving Repr, DecidableEq

namespace Token

open Text

def dropBlanks (t : Text) : Text := t.dropWhile isBlankByte

/-- The text after `blanks` and the name at its front, for every split that leaves some of the
blanks to the name, from the one that leaves none on. -/
def blankSplits : Text → List Text
  | [] => [[]]
  | b :: rest => if isBlankByte b then blankSplits rest ++ [b :: rest] else [b :: rest]

/-- What follows a name: nothing but blanks, or blanks and a text on one line. -/
def restAfterName (t : Text) : Option Text :=
  let trimmed := trimBlankBytes t
  if trimmed.isEmpty then some []
  else if t.head?.any isBlankByte && !trimmed.contains newline then some trimmed
  else none

/-- The inside of an angle-bracketed text: all before the last `>`, which only blanks follow. -/
def beforeClosing (t : Text) : Option Text :=
  match (dropRightWhile isBlankByte t).reverse with
  | b :: inside => if b == ascii '>' then some inside.reverse else none
  | [] => none

/-- The first name that the text begins with and whose remainder `follow` accepts. -/
def firstName (follow : Text → Option Text) (names : List Text) (t : Text) :
    Option (Text × Text) :=
  names.findSome? fun name =>
    (dropStart? name t).bind fun rest => (follow rest).map fun found => (name, found)

def keywordFollow (t : Text) : Option Text := (beforeClosing t).bind restAfterName

def sectionLine? (line : Text) : Option Text := do
  let inside ← dropStart? "[" (dropBlanks line)
  let (content, after) ← cut (ascii ']') inside
  guard (after.all isBlankByte)
  return trimBlankBytes content

def commentLine? (line : Text) : Option Text := do
  let content ← dropStart? "#" (dropBlanks line)
  guard (!content.contains newline)
  return content

def inclusionLine? (line : Text) : Option Text :=
  (dropStart? "include" (dropBlanks line)).bind restAfterName

def knownKeywordLine? (names : List Text) (line : Text) : Option (Text × Text) := do
  let inside ← dropStart? "<" (dropBlanks line)
  (blankSplits inside).findSome? (firstName keywordFollow names)

def keywordLine? (line : Text) : Option (Text × Text) := do
  let inside ← dropStart? "<" (dropBlanks line)
  let start := dropBlanks inside
  let name := start.takeWhile isNamePart
  guard (isName name)
  let rest ← keywordFollow (start.drop name.length)
  return (name, rest)

def operationLine? (names : List Text) (line : Text) : Option (Text × Text) :=
  (blankSplits line).findSome? (firstName restAfterName names)

/-- The tokens of one line; nothing if no form fits, which only a line that holds a newline can
bring about. -/
def lineTokens? (v : Vocabulary) (raw : Text) (n : Int) : Option (List Token) :=
  let line := dropRightWhile (· == 13) raw
  if isBlank line then some []
  else if let some name := sectionLine? line then some [⟨.sectionName, name, n⟩]
  else if let some content := commentLine? line then some [⟨.comment, content, n⟩]
  else if let some path := inclusionLine? line then some [⟨.inclusion, path, n⟩]
  else if let some (name, rest) := knownKeywordLine? v.keywords line then
    some (⟨.keyword, name, n⟩ :: arguments rest n)
  else if let some (name, rest) := keywordLine? line then
    some (⟨.keyword, name, n⟩ :: arguments rest n)
  else if let some (name, rest) := operationLine? v.operations line then
    some (⟨.operation, name, n⟩ :: arguments rest n)
  else if line.contains newline then none
  else some [⟨.command, trim line, n⟩]

def linesTokens? (v : Vocabulary) : Int → List Text → Option (List Token)
  | _, [] => some []
  | n, line :: rest =>
      match lineTokens? v line n, linesTokens? v (n + 1) rest with
      | some first, some others => some (first ++ others)
      | _, _ => none

def sourceTokens? (v : Vocabulary) (source : Text) : Option (List Token) :=
  linesTokens? v 1 (lines source)

end Token
end DeviceScript

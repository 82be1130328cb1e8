import DeviceScript.Token.Basic
import DeviceScript.Text.Quoted

/-! Words of an argument list and the tokens they become. -/

namespace DeviceScript.Token

open Text

/-- The length of a quoted word after its opening quote, up to and with the closing quote, or
to the end. A backslash takes the octet after it along, unless there is none. -/
def quotedSpan (quote : UInt8) : Text → Nat
  | [] => 0
  | [b] => if b == backslash then 0 else 1
  | b :: c :: rest =>
      if b == quote then 1
      else if b == backslash then
        if c == newline then 0 else quotedSpan quote rest + 2
      else quotedSpan quote (c :: rest) + 1

def wordSpan (b : UInt8) (rest : Text) : Nat :=
  if b == ascii '"' || b == ascii '\'' then quotedSpan b rest + 1
  else (rest.takeWhile fun c => !isBlankByte c).length + 1

/-- The words of a text after `skip` octets that belong to an earlier one. -/
def wordsAfter : Nat → Text → List Text
  | _, [] => []
  | skip + 1, _ :: rest => wordsAfter skip rest
  | 0, b :: rest =>
      if isBlankByte b then wordsAfter 0 rest
      else
        let span := wordSpan b rest
        (b :: rest).take span :: wordsAfter (span - 1) rest

def words (t : Text) : List Text := wordsAfter 0 t

/-- Whether an odd number of backslashes stands before the last octet, the first octet of the
word left out. -/
def hasEscapedEnd (w : Text) : Bool :=
  ((w.drop 1).reverse.drop 1 |>.takeWhile (· == backslash)).length % 2 == 1

/-- Replaces every occurrence of a two-octet sequence by one octet, from left to right. -/
def replacePair (first second by' : UInt8) : Text → Text
  | [] => []
  | [b] => [b]
  | b :: c :: rest =>
      if b == first && c == second then by' :: replacePair first second by' rest
      else b :: replacePair first second by' (c :: rest)

def unescapeSingle (inside : Text) : Text :=
  replacePair backslash backslash backslash (replacePair backslash (ascii '\'') (ascii '\'') inside)

private def openBrace : UInt8 := 0x7b

private def closeBrace : UInt8 := 0x7d

/-- A variable reference: a dollar sign and a name, as such or in braces. -/
def isVariableRef (w : Text) : Bool :=
  match w with
  | a :: rest =>
      if a == ascii '$' then isName rest
      else
        match rest with
        | b :: inner =>
            a == openBrace && b == ascii '$' && inner.getLast? == some closeBrace
              && isName inner.dropLast
        | [] => false
  | [] => false

/-- An optional minus, digits, and optionally a point and digits. -/
def isNumber (w : Text) : Bool :=
  let body :=
    match w with
    | b :: rest => if b == ascii '-' then rest else w
    | [] => []
  let whole := body.takeWhile isDigit
  match body.drop whole.length with
  | [] => !whole.isEmpty
  | point :: part => !whole.isEmpty && point == ascii '.' && !part.isEmpty && part.all isDigit

def isClosedBy (quote : UInt8) (w : Text) : Bool :=
  w.length ≥ 2 && w.head? == some quote && w.getLast? == some quote && !hasEscapedEnd w

def ofWord (w : Text) (line : Int) : Token :=
  if isClosedBy (ascii '"') w then
    match unquote w with
    | some t => ⟨.quoted, t, line⟩
    | none => ⟨.word, w, line⟩
  else if isClosedBy (ascii '\'') w then ⟨.quoted, unescapeSingle ((w.drop 1).dropLast), line⟩
  else if isVariableRef w then ⟨.variableRef, w, line⟩
  else if isNumber w then ⟨.number, w, line⟩
  else if isOperator w then ⟨.comparison, w, line⟩
  else ⟨.word, w, line⟩

def arguments (t : Text) (line : Int) : List Token := (words t).map fun w => ofWord w line

end DeviceScript.Token

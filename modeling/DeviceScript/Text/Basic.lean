/-!
Texts are sequences of octets. Script sources are UTF-8, but an escape in a script can
produce any octet, and joining two texts can join half characters, so octets are the unit
that every part of the library agrees on.
-/

namespace DeviceScript

abbrev Text := List UInt8

def ascii (c : Char) : UInt8 := c.toNat.toUInt8

namespace Text

def ofString (s : String) : Text := s.toList.flatMap String.utf8EncodeChar

instance : Coe String Text := ⟨ofString⟩

def newline : UInt8 := 10

def ofNat (n : Nat) : Text := (Nat.toDigits 10 n).map ascii

def ofInt : Int → Text
  | .ofNat n => ofNat n
  | .negSucc n => ascii '-' :: ofNat (n + 1)

/-- The digits of `n` in base sixteen, at least `width` of them. -/
def hex (width n : Nat) : Text :=
  let digits := (Nat.toDigits 16 n).map ascii
  List.replicate (width - digits.length) (ascii '0') ++ digits

/-- The digits of `n` in base ten, at least `width` of them. -/
def padded (width n : Nat) : Text :=
  let digits := ofNat n
  List.replicate (width - digits.length) (ascii '0') ++ digits

def joinWith (separator : Text) : List Text → Text
  | [] => []
  | [part] => part
  | part :: rest => part ++ separator ++ joinWith separator rest

/-- The parts between the octets `mark`; there is always at least one. -/
def splitOn (mark : UInt8) : Text → List Text
  | [] => [[]]
  | b :: rest =>
      if b == mark then [] :: splitOn mark rest
      else
        match splitOn mark rest with
        | [] => [[b]]
        | part :: parts => (b :: part) :: parts

def lines (t : Text) : List Text := splitOn newline t

def startsWith (start t : Text) : Bool := start.isPrefixOf t

def dropStart? (start t : Text) : Option Text :=
  if start.isPrefixOf t then some (t.drop start.length) else none

def hasPart (part : Text) : Text → Bool
  | [] => part.isEmpty
  | b :: rest => part.isPrefixOf (b :: rest) || hasPart part rest

/-- The text before and after the first `mark`. -/
def cut (mark : UInt8) : Text → Option (Text × Text)
  | [] => none
  | b :: rest =>
      if b == mark then some ([], rest)
      else (cut mark rest).map fun (before, after) => (b :: before, after)

def cutText (part : Text) : Text → Option (Text × Text)
  | [] => if part.isEmpty then some ([], []) else none
  | b :: rest =>
      if part.isPrefixOf (b :: rest) then some ([], (b :: rest).drop part.length)
      else (cutText part rest).map fun (before, after) => (b :: before, after)

def dropRightWhile (p : UInt8 → Bool) (t : Text) : Text :=
  (t.reverse.dropWhile p).reverse

/-- Octet-wise order. -/
def precedes (a b : Text) : Bool := !decide (b < a)

def sorted (ts : List Text) : List Text := ts.mergeSort precedes

/-- Byte-wise white space of the line grammar: tab, newline, form feed, return, space. -/
def isBlankByte (b : UInt8) : Bool :=
  b == 9 || b == 10 || b == 12 || b == 13 || b == 32

def isDigit (b : UInt8) : Bool := 48 ≤ b && b ≤ 57

def isLetter (b : UInt8) : Bool := (65 ≤ b && b ≤ 90) || (97 ≤ b && b ≤ 122)

def isNameStart (b : UInt8) : Bool := isLetter b || b == ascii '_'

def isNamePart (b : UInt8) : Bool := isNameStart b || isDigit b

/-- An identifier: a letter or underscore, then letters, digits and underscores. -/
def isName : Text → Bool
  | [] => false
  | b :: rest => isNameStart b && rest.all isNamePart

def toLowerByte (b : UInt8) : UInt8 := if 65 ≤ b && b ≤ 90 then b + 32 else b

def hexValue? (b : UInt8) : Option Nat :=
  if isDigit b then some (b.toNat - 48)
  else if 97 ≤ b && b ≤ 102 then some (b.toNat - 87)
  else if 65 ≤ b && b ≤ 70 then some (b.toNat - 55)
  else none

def trimBlankBytes (t : Text) : Text :=
  dropRightWhile isBlankByte (t.dropWhile isBlankByte)

end Text
end DeviceScript

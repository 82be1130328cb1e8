import DeviceScript.Text.Category

/-!
Double-quoted texts. Writing keeps printable characters and escapes the rest; reading accepts
the escapes that writing produces and a few more.
-/

namespace DeviceScript.Text

def escapeLetter? (code : Nat) : Option Char :=
  match code with
  | 7 => some 'a'
  | 8 => some 'b'
  | 9 => some 't'
  | 10 => some 'n'
  | 11 => some 'v'
  | 12 => some 'f'
  | 13 => some 'r'
  | _ => none

def backslash : UInt8 := ascii '\\'

def quoteMark : UInt8 := ascii '"'

def Rune.quoted (r : Rune) : Text :=
  if !r.isValid then backslash :: ascii 'x' :: r.raw.flatMap fun b => hex 2 b.toNat
  else if r.code == 34 || r.code == 92 then backslash :: r.raw
  else if isPrintable r.code then r.raw
  else
    match escapeLetter? r.code with
    | some letter => [backslash, ascii letter]
    | none =>
        if r.code < 0x20 || r.code == 0x7F then backslash :: ascii 'x' :: hex 2 r.code
        else if r.code < 0x10000 then backslash :: ascii 'u' :: hex 4 r.code
        else backslash :: ascii 'U' :: hex 8 r.code

/-- The text between double quotes, with escapes where it is not printable. -/
def quote (t : Text) : Text :=
  quoteMark :: (runes t).flatMap Rune.quoted ++ [quoteMark]

def unescapeLetter? (b : UInt8) : Option UInt8 :=
  if b == ascii 'a' then some 7
  else if b == ascii 'b' then some 8
  else if b == ascii 't' then some 9
  else if b == ascii 'n' then some 10
  else if b == ascii 'v' then some 11
  else if b == ascii 'f' then some 12
  else if b == ascii 'r' then some 13
  else if b == backslash || b == quoteMark then some b
  else none

/-- The value of exactly `count` digits in base sixteen at the front. -/
def takeHex (count : Nat) (t : Text) : Option Nat :=
  let digits := t.take count
  if digits.length == count then
    digits.foldlM (fun value b => (hexValue? b).map (value * 16 + ·)) 0
  else none

private def isOctal (b : UInt8) : Bool := 48 ≤ b && b ≤ 55

/-- The octets that the escape after a backslash stands for, and how many octets follow its
first one. -/
def readEscape (b : UInt8) (rest : Text) : Option (Text × Nat) :=
  match unescapeLetter? b with
  | some octet => some ([octet], 0)
  | none =>
      if b == ascii 'x' then (takeHex 2 rest).map fun n => ([n.toUInt8], 2)
      else if b == ascii 'u' then
        (takeHex 4 rest).bind fun n => if isScalar n then some (encode n, 4) else none
      else if b == ascii 'U' then
        (takeHex 8 rest).bind fun n => if isScalar n then some (encode n, 8) else none
      else if isOctal b then
        match rest with
        | c :: d :: _ =>
            if isOctal c && isOctal d then
              let n := (b.toNat - 48) * 64 + (c.toNat - 48) * 8 + (d.toNat - 48)
              if n < 256 then some ([n.toUInt8], 2) else none
            else none
        | _ => none
      else none

/-- Reads the inside of a quoted text up to a closing quote that ends it; `skip` octets
belong to an escape already read. -/
def readQuoted : Nat → Text → Option Text
  | _, [] => none
  | skip + 1, _ :: rest => readQuoted skip rest
  | 0, b :: rest =>
      if b == quoteMark then if rest.isEmpty then some [] else none
      else if b == newline then none
      else if b == backslash then
        match rest with
        | [] => none
        | c :: after =>
            (readEscape c after).bind fun (octets, count) =>
              (readQuoted (count + 1) rest).map (octets ++ ·)
      else
        let r := firstRune b rest
        (readQuoted (r.raw.length - 1) rest).map (encode r.code ++ ·)

def unquote (t : Text) : Option Text :=
  match t with
  | b :: rest => if b == quoteMark then readQuoted 0 rest else none
  | [] => none

end DeviceScript.Text

import DeviceScript.Number.Binary64
import DeviceScript.Text.Integer

/-!
Reading double-precision numbers: decimal and hexadecimal notation, infinities and NaN.
-/

namespace DeviceScript.Binary64

open Text

/-- What a numeral says: digits in `base`, of which `fraction` stand after the point, and an
exponent, of ten in base ten and of two in base sixteen. -/
structure Numeral where
  negative : Bool
  base : Nat
  digits : List Nat
  fraction : Nat
  exponent : Int

private structure Mantissa where
  digits : List Nat
  fraction : Nat
  seenPoint : Bool
  rest : Text

private def digitOf? (base : Nat) (b : UInt8) : Option Nat :=
  (hexValue? b).filter (· < base)

/-- Digits with at most one point; underscores are passed over here and checked later. -/
private def readMantissa (base : Nat) (seenPoint : Bool) : Text → Mantissa
  | [] => ⟨[], 0, seenPoint, []⟩
  | b :: rest =>
      if b == ascii '_' then readMantissa base seenPoint rest
      else if b == ascii '.' then
        if seenPoint then ⟨[], 0, seenPoint, b :: rest⟩ else readMantissa base true rest
      else
        match digitOf? base b with
        | none => ⟨[], 0, seenPoint, b :: rest⟩
        | some d =>
            let more := readMantissa base seenPoint rest
            { more with
              digits := d :: more.digits
              fraction := if seenPoint then more.fraction + 1 else more.fraction }

/-- The exponent after its letter. It stops growing at ten thousand, far outside the range. -/
private def readExponent (t : Text) : Option Int :=
  let (sign, digits) : Int × Text :=
    match t with
    | [] => (1, [])
    | b :: rest =>
        if b == ascii '+' then (1, rest) else if b == ascii '-' then (-1, rest) else (1, b :: rest)
  match digits with
  | [] => none
  | first :: _ =>
      if isDigit first && digits.all (fun b => isDigit b || b == ascii '_') then
        let size : Nat := (digits.filter isDigit).foldl
          (fun e b => if e < 10000 then e * 10 + (b.toNat - 48) else e) 0
        some (sign * size)
      else none

/-- Underscores stand only between digits; the mark of the base counts as a digit. -/
private def underscoresOk (isHex : Bool) : UInt8 → Text → Bool
  | last, [] => last != ascii '_'
  | last, b :: rest =>
      if isDigit b || (isHex && (digitOf? 16 b).isSome) then underscoresOk isHex (ascii '0') rest
      else if b == ascii '_' then last == ascii '0' && underscoresOk isHex b rest
      else last != ascii '_' && underscoresOk isHex (ascii '!') rest

private def splitSign (t : Text) : Bool × Text :=
  match t with
  | [] => (false, [])
  | b :: rest =>
      if b == ascii '-' then (true, rest) else if b == ascii '+' then (false, rest)
      else (false, b :: rest)

private def afterHexMark? : Text → Option Text
  | a :: b :: c :: rest =>
      if a == ascii '0' && toLowerByte b == ascii 'x' then some (c :: rest) else none
  | _ => none

def readNumeral (t : Text) : Option Numeral :=
  let (negative, unsigned) := splitSign t
  let hexBody := afterHexMark? unsigned
  let isHex := hexBody.isSome
  let body := hexBody.getD unsigned
  let base := if isHex then 16 else 10
  let read := readMantissa base false body
  if read.digits.isEmpty then none
  else
    let exponent? : Option Int :=
      match read.rest with
      | [] => if isHex then none else some 0
      | b :: rest =>
          if toLowerByte b == (if isHex then ascii 'p' else ascii 'e') then readExponent rest
          else none
    exponent?.bind fun exponent =>
      if t.contains (ascii '_')
          && !underscoresOk isHex (if isHex then ascii '0' else ascii '^') body then none
      else some ⟨negative, base, read.digits, read.fraction, exponent⟩

/-- The nearest double; nothing where it would be infinite. Exponents far outside the range are
decided without computing the power. -/
def Numeral.value? (n : Numeral) : Option Binary64 :=
  let mantissa := n.digits.foldl (fun value d => value * n.base + d) 0
  if mantissa == 0 then some (finite n.negative 0)
  else
    let significant := (n.digits.dropWhile (· == 0)).length
    let perDigit : Int := if n.base == 16 then 4 else 1
    let exponent := n.exponent - perDigit * n.fraction
    let magnitude := perDigit * significant + exponent
    let power := if n.base == 16 then 2 else 10
    let result :=
      if magnitude > 5000 then infinite n.negative
      else if magnitude < -5000 then finite n.negative 0
      else if 0 ≤ exponent then ofRatio n.negative (mantissa * Nat.pow power exponent.toNat) 1
      else ofRatio n.negative mantissa (Nat.pow power (-exponent).toNat)
    match result with
    | infinite _ => none
    | value => some value

private def isWord (word : String) (t : Text) : Bool := t.map toLowerByte == ofString word

def read (t : Text) : Option Binary64 :=
  let (negative, unsigned) := splitSign t
  if isWord "inf" unsigned || isWord "infinity" unsigned then some (infinite negative)
  else if isWord "nan" t then some nan
  else (readNumeral t).bind Numeral.value?

end DeviceScript.Binary64

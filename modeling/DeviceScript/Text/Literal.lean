import DeviceScript.Text.Integer

/-! Integers in any of the usual bases, with underscores between their digits. -/

namespace DeviceScript.Text

inductive LiteralProblem where
  | malformed
  | outOfRange
deriving Repr, DecidableEq

/-- A letter marks base two, eight or sixteen. -/
def baseOfMark? (mark : UInt8) : Option Nat :=
  let mark := toLowerByte mark
  if mark == ascii 'b' then some 2
  else if mark == ascii 'o' then some 8
  else if mark == ascii 'x' then some 16
  else none

/-- The base of a numeral and its digits. A leading zero alone means base eight. -/
def splitBase (t : Text) : Nat × Text :=
  match t with
  | 48 :: mark :: digit :: rest =>
      match baseOfMark? mark with
      | some base => (base, digit :: rest)
      | none => (8, mark :: digit :: rest)
  | 48 :: rest => (8, rest)
  | other => (10, other)

/-- Underscores follow a digit or the base mark, and a digit follows them. -/
def underscoresApart (isHex : Bool) : Bool → Bool → Text → Bool
  | _, afterUnderscore, [] => !afterUnderscore
  | afterDigit, afterUnderscore, b :: rest =>
      if isDigit b || (isHex && (hexValue? b).isSome) then underscoresApart isHex true false rest
      else if b == ascii '_' then afterDigit && underscoresApart isHex false true rest
      else !afterUnderscore && underscoresApart isHex false false rest

/-- The value of digits, up to the first that is none or the first at which it leaves 64 bits. -/
def literalValue (base : Nat) : Nat → Text → Except LiteralProblem Nat
  | value, [] => .ok value
  | value, b :: rest =>
      if b == ascii '_' then literalValue base value rest
      else
        match (hexValue? b).filter (· < base) with
        | none => .error .malformed
        | some d =>
            let next := value * base + d
            if next < 18446744073709551616 then literalValue base next rest else .error .outOfRange

def readLiteral (t : Text) : Except LiteralProblem Int :=
  let (negative, unsigned) : Bool × Text :=
    match t with
    | 43 :: rest => (false, rest)
    | 45 :: rest => (true, rest)
    | other => (false, other)
  if unsigned.isEmpty then .error .malformed
  else
    let (base, digits) := splitBase unsigned
    let marked := base != 10 && digits.length + 2 == unsigned.length
    match literalValue base 0 digits with
    | .error problem => .error problem
    | .ok value =>
        if unsigned.contains (ascii '_')
            && !underscoresApart (base == 16) (marked || base == 8) false digits then
          .error .malformed
        else
          let signed : Int := if negative then -value else value
          if minInt ≤ signed && signed ≤ maxInt then .ok signed else .error .outOfRange

end DeviceScript.Text

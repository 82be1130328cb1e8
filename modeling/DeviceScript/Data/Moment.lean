import DeviceScript.Text.Integer

/-! Dates and times as documents write them, kept in the zone they were written in. -/

namespace DeviceScript

/-- A point in time with its offset from universal time in minutes and the name of its zone. -/
structure Moment where
  year : Nat
  month : Nat
  day : Nat
  hour : Nat
  minute : Nat
  second : Nat
  nanosecond : Nat
  offset : Int
  zone : Text
deriving Repr, DecidableEq

namespace Moment

open Text

def isLeap (year : Nat) : Bool := year % 4 == 0 && (year % 100 != 0 || year % 400 == 0)

def daysIn (year month : Nat) : Nat :=
  if month == 2 then if isLeap year then 29 else 28
  else if [4, 6, 9, 11].contains month then 30
  else 31

def isValid (m : Moment) : Bool :=
  1 ≤ m.month && m.month ≤ 12 && 1 ≤ m.day && m.day ≤ daysIn m.year m.month
    && m.hour < 24 && m.minute < 60 && m.second < 60

def offsetText (offset : Int) : Text :=
  (if offset < 0 then ascii '-' else ascii '+')
    :: padded 2 (offset.natAbs / 60) ++ padded 2 (offset.natAbs % 60)

private def fractionText (nanosecond : Nat) : Text :=
  if nanosecond == 0 then []
  else ascii '.' :: dropRightWhile (· == ascii '0') (padded 9 nanosecond)

def render (m : Moment) : Text :=
  padded 4 m.year ++ "-" ++ padded 2 m.month ++ "-" ++ padded 2 m.day ++ " "
    ++ padded 2 m.hour ++ ":" ++ padded 2 m.minute ++ ":" ++ padded 2 m.second
    ++ fractionText m.nanosecond ++ " " ++ offsetText m.offset ++ " "
    ++ (if m.zone.isEmpty then offsetText m.offset else m.zone)

private def number (least most : Nat) (t : Text) : Option (Nat × Text) :=
  let digits := (t.take most).takeWhile isDigit
  if digits.length < least then none else some (digitsValue digits, t.drop digits.length)

/-- Year, month and day. Months and days may have one digit unless `strict`. -/
def readDate (strict : Bool) (t : Text) : Option (Nat × Nat × Nat × Text) := do
  let least := if strict then 2 else 1
  let (year, rest) ← number 4 4 t
  let rest ← dropStart? "-" rest
  let (month, rest) ← number least 2 rest
  let rest ← dropStart? "-" rest
  let (day, rest) ← number least 2 rest
  return (year, month, day, rest)

private def readFraction (t : Text) : Nat × Text :=
  match t with
  | b :: rest =>
      let digits := rest.takeWhile isDigit
      if (b == ascii '.' || b == ascii ',') && !digits.isEmpty then
        let nine := digits.take 9
        (digitsValue nine * Nat.pow 10 (9 - nine.length), rest.drop digits.length)
      else (0, t)
  | [] => (0, [])

def readTime (strict : Bool) (t : Text) : Option (Nat × Nat × Nat × Nat × Text) := do
  let least := if strict then 2 else 1
  let (hour, rest) ← number least 2 t
  let rest ← dropStart? ":" rest
  let (minute, rest) ← number least 2 rest
  let rest ← dropStart? ":" rest
  let (second, rest) ← number least 2 rest
  let (nanosecond, rest) := readFraction rest
  return (hour, minute, second, nanosecond, rest)

/-- The offset and name of a zone: the letter Z, or signed hours and minutes. -/
def readZone (t : Text) : Option (Int × Text) :=
  if t == ofString "Z" then some (0, "UTC")
  else
    match t with
    | sign :: rest => do
        guard (sign == ascii '+' || sign == ascii '-')
        let (hours, rest) ← number 2 2 rest
        let rest ← dropStart? ":" rest
        let (minutes, rest) ← number 2 2 rest
        guard (rest.isEmpty && hours ≤ 24 && minutes ≤ 60)
        let size : Int := hours * 60 + minutes
        return (if sign == ascii '-' then -size else size, if size == 0 then "UTC" else [])
    | [] => none

def checked (m : Moment) : Option Moment := if m.isValid then some m else none

end Moment
end DeviceScript

import DeviceScript.Number.Writing
import DeviceScript.Text.Integer

/-! Durations in nanoseconds and the ways they are written. -/

namespace DeviceScript.Duration

open Text

def microsecond : Int := 1000

def second : Int := 1000000000

/-- The nearest multiple of `unit`, a half going away from zero. -/
def roundTo (unit d : Int) : Int :=
  let size : Int := d.natAbs
  let down := size - size % unit
  let near := if 2 * (size % unit) < unit then down else down + unit
  let limit := if d < 0 then -minInt else maxInt
  let near := if limit < near then limit else near
  if d < 0 then -near else near

/-- A count of the smallest of `places` decimal places, without trailing zeros. -/
def decimalText (places n : Nat) : Text :=
  let part := dropRightWhile (· == ascii '0') (padded places (n % Nat.pow 10 places))
  ofNat (n / Nat.pow 10 places)
    ++ (if n % Nat.pow 10 places == 0 then [] else ascii '.' :: part)

/-- In the largest of nanoseconds, microseconds, milliseconds and seconds that leaves a whole
part; from a minute on with minutes, from an hour on with hours. -/
def render (d : Int) : Text :=
  let n := d.natAbs
  let size : Text :=
    if n == 0 then "0s"
    else if n < 1000 then ofNat n ++ "ns"
    else if n < 1000000 then decimalText 3 n ++ "µs"
    else if n < 1000000000 then decimalText 6 n ++ "ms"
    else
      let minutes := n / 60000000000
      let rest := decimalText 9 (n % 60000000000) ++ "s"
      if minutes == 0 then rest
      else if minutes < 60 then ofNat minutes ++ "m" ++ rest
      else ofNat (minutes / 60) ++ "h" ++ ofNat (minutes % 60) ++ "m" ++ rest
  if d < 0 then ascii '-' :: size else size

/-- The seconds of a duration: whole seconds and the rest are rounded on their own, then their
sum is. -/
def seconds (d : Int) : Binary64 :=
  let whole := (Binary64.ofInt (d.tdiv second)).units?.getD 0
  let part := d.tmod second
  let rest := (Binary64.ofRatio (part < 0) part.natAbs second.natAbs).units?.getD 0
  Binary64.addFinite whole rest

/-- At most `places` places of a number, without trailing zeros; further places are cut off. -/
def trimPlaces (places : Nat) (written : Text) : Text :=
  match cut (ascii '.') written with
  | none => written
  | some (whole, part) =>
      let part := dropRightWhile (· == ascii '0') (part.take places)
      if part.isEmpty then whole else whole ++ "." ++ part

/-- The short form in reports: below a second to the microsecond, from a second on in seconds
with two places. -/
def brief (d : Int) : Text :=
  if d < second then render (roundTo microsecond d)
  else
    match seconds d with
    | .finite _ units => trimPlaces 2 (Binary64.fixedDigits 6 units) ++ "s"
    | other => other.general ++ "s"

end DeviceScript.Duration

import DeviceScript.Number.Binary64
import DeviceScript.Text.Basic

/-!
Writing double-precision numbers, with the fewest digits that read back or with a fixed
number of places.
-/

namespace DeviceScript.Binary64

open Text

/-- Decimal digits `d₁d₂…` standing for 0.d₁d₂… · 10^point. -/
structure Decimal where
  digits : List Nat
  point : Int
deriving Repr, DecidableEq

/-- The half-way points to the neighbours of a positive size, in quarter units, and whether
they round back to it. -/
private def roundingInterval (units : Nat) : Nat × Nat × Bool :=
  let step := spacing units
  let below := if step > 1 && units == Nat.pow 2 units.log2 then step else 2 * step
  (4 * units - below, 4 * units + 2 * step, units / step % 2 == 0)

private def digitsOf (n : Nat) : List Nat := (Nat.toDigits 10 n).map fun c => c.toNat - 48

private def dropTrailingZeros (digits : List Nat) : List Nat :=
  (digits.reverse.dropWhile (· == 0)).reverse

/-- The number of digits before the point: the least `p` with the value below 10^p. -/
private def magnitude (units : Nat) : Int :=
  let whole := units / Nat.pow 2 unitExponent
  if whole > 0 then (Nat.toDigits 10 whole).length
  else
    -- 10^330 times the smallest unit exceeds one, so the digits of the scaled value count it
    let scaled := units * Nat.pow 10 330 / Nat.pow 2 unitExponent
    ((Nat.toDigits 10 scaled).length : Int) - 330

/-- The multiples of 10^(point - count) next to the value that round back to it, the nearer
first. -/
private def candidate? (units : Nat) (point : Int) (count : Nat) : Option Nat :=
  let (low, high, closed) := roundingInterval units
  let exponent : Int := point - count
  -- quarter units per grid step, as a ratio
  let (num, den) : Nat × Nat :=
    if 0 ≤ exponent then (4 * Nat.pow 2 unitExponent * Nat.pow 10 exponent.toNat, 1)
    else (4 * Nat.pow 2 unitExponent, Nat.pow 10 (-exponent).toNat)
  let inside (k : Nat) : Bool :=
    let point := k * num
    if closed then low * den ≤ point && point ≤ high * den
    else low * den < point && point < high * den
  let floor := 4 * units * den / num
  let remainder := 4 * units * den % num
  let nearFirst : List Nat :=
    if 2 * remainder < num || (2 * remainder == num && floor % 2 == 0) then [floor, floor + 1]
    else [floor + 1, floor]
  nearFirst.find? fun k => k > 0 && inside k

private def shortestFrom (units : Nat) (point : Int) : Nat → Nat → Decimal
  | 0, _ => ⟨[], 0⟩
  | fuel + 1, count =>
      match candidate? units point count with
      | some k =>
          let digits := digitsOf k
          ⟨dropTrailingZeros digits, point + (digits.length - count : Int)⟩
      | none => shortestFrom units point fuel (count + 1)

/-- The fewest digits that read back as the given positive size, nearest to it. -/
def shortest (units : Nat) : Decimal :=
  if units == 0 then ⟨[], 0⟩ else shortestFrom units (magnitude units) 18 1

private def digitText (digits : List Nat) : Text := digits.map fun d => (48 + d).toUInt8

private def exponentText (e : Int) : Text :=
  ascii 'e' :: (if e < 0 then ascii '-' else ascii '+') :: padded 2 e.natAbs

/-- Positional notation from 10^-4 up to 10^6, and exponent notation outside. -/
private def generalDigits (d : Decimal) : Text :=
  let e := d.point - 1
  if d.digits.isEmpty then ofString "0"
  else if e < -4 || 6 ≤ e then
    let head := digitText (d.digits.take 1)
    let tail := digitText (d.digits.drop 1)
    head ++ (if tail.isEmpty then [] else ascii '.' :: tail) ++ exponentText e
  else if d.point ≤ 0 then
    ofString "0." ++ List.replicate (-d.point).toNat (ascii '0') ++ digitText d.digits
  else
    let places := d.point.toNat
    let whole := digitText (d.digits.take places)
    let padding := List.replicate (places - whole.length) (ascii '0')
    let tail := digitText (d.digits.drop places)
    whole ++ padding ++ (if tail.isEmpty then [] else ascii '.' :: tail)

def general : Binary64 → Text
  | nan => ofString "NaN"
  | infinite negative => ofString (if negative then "-Inf" else "+Inf")
  | finite negative units =>
      let digits := generalDigits (shortest units)
      if negative then ascii '-' :: digits else digits

/-- A finite size with exactly `places` digits after the point. -/
def fixedDigits (places units : Nat) : Text :=
  let scaled := roundDiv (units * Nat.pow 10 places) (Nat.pow 2 unitExponent)
  let whole := scaled / Nat.pow 10 places
  let part := scaled % Nat.pow 10 places
  ofNat whole ++ (if places == 0 then [] else ascii '.' :: padded places part)

end DeviceScript.Binary64

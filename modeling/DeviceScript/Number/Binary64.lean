/-!
Double-precision numbers as exact values. A finite number is a whole multiple of the smallest
positive one, 2^-1074, so its size is a natural number of such units and comparison is
comparison of integers.
-/

namespace DeviceScript

inductive Binary64 where
  | nan
  | infinite (negative : Bool)
  | finite (negative : Bool) (units : Nat)
deriving Repr, DecidableEq

namespace Binary64

/-- Two to the number of units in one. -/
def unitExponent : Nat := 1074

/-- The first size, in units, that is too large to be finite. -/
def overflow : Nat := Nat.pow 2 (1024 + unitExponent)

/-- `n / d` as the nearest whole number, a half going to the even neighbour. -/
def roundDiv (n d : Nat) : Nat :=
  let floor := n / d
  let twice := 2 * (n % d)
  if twice < d then floor
  else if d < twice then floor + 1
  else if floor % 2 == 0 then floor else floor + 1

/-- The power of two by which a size of `units` steps when it keeps 53 significant bits. -/
def spacing (units : Nat) : Nat :=
  if units < Nat.pow 2 53 then 1 else Nat.pow 2 (units.log2 - 52)

/-- The nearest number to `numerator / denominator`, a half going to the even neighbour. -/
def ofRatio (negative : Bool) (numerator denominator : Nat) : Binary64 :=
  let scaled := numerator * Nat.pow 2 unitExponent
  let step := spacing (scaled / denominator)
  let units := roundDiv scaled (denominator * step) * step
  if overflow ≤ units then infinite negative else finite negative units

def ofInt (n : Int) : Binary64 := ofRatio (n < 0) n.natAbs 1

/-- The exact value in units, where there is one. -/
def units? : Binary64 → Option Int
  | finite negative units => some (if negative then -(units : Int) else units)
  | _ => none

def addFinite (a b : Int) : Binary64 :=
  let sum := a + b
  ofRatio (sum < 0) sum.natAbs (Nat.pow 2 unitExponent)

def less : Binary64 → Binary64 → Bool
  | nan, _ => false
  | _, nan => false
  | infinite a, infinite b => a && !b
  | infinite a, finite _ _ => a
  | finite _ _, infinite b => !b
  | finite a m, finite b n =>
      (if a then -(m : Int) else m) < (if b then -(n : Int) else n)

/-- Equality of values; the two zeros are equal and a NaN equals nothing. -/
def equal : Binary64 → Binary64 → Bool
  | infinite a, infinite b => a == b
  | finite a m, finite b n =>
      (if a then -(m : Int) else m) == (if b then -(n : Int) else n)
  | _, _ => false

def lessEqual (a b : Binary64) : Bool := less a b || equal a b

end Binary64
end DeviceScript

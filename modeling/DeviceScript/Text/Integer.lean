import DeviceScript.Text.Basic

/-! Signed 64-bit integers: their decimal form and wrap-around arithmetic. -/

namespace DeviceScript.Text

def minInt : Int := -9223372036854775808

def maxInt : Int := 9223372036854775807

/-- The representative modulo 2^64 in the signed range. -/
def wrap64 (n : Int) : Int := n.bmod 18446744073709551616

def digitsValue (t : Text) : Nat :=
  t.foldl (fun value b => value * 10 + (b.toNat - 48)) 0

/-- Reads an optionally signed run of digits that fits the signed range. -/
def readInt (t : Text) : Option Int :=
  let (negative, digits) : Bool × Text :=
    match t with
    | [] => (false, [])
    | b :: rest =>
        if b == ascii '-' then (true, rest)
        else if b == ascii '+' then (false, rest)
        else (false, b :: rest)
  if digits.isEmpty || !digits.all isDigit then none
  else
    let value : Int := digitsValue digits
    let signed := if negative then -value else value
    if minInt ≤ signed && signed ≤ maxInt then some signed else none

end DeviceScript.Text

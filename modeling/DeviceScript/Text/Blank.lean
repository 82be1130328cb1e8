import DeviceScript.Text.Utf8

/-! White space of whole lines, which is wider than the white space between words. -/

namespace DeviceScript.Text

/-- The code points with the Unicode property White_Space. -/
def isBlankCode (code : Nat) : Bool :=
  (9 ≤ code && code ≤ 13) || code == 0x20 || code == 0x85 || code == 0xA0 || code == 0x1680
    || (0x2000 ≤ code && code ≤ 0x200A) || code == 0x2028 || code == 0x2029 || code == 0x202F
    || code == 0x205F || code == 0x3000

def Rune.isBlank (r : Rune) : Bool := isBlankCode r.code

def trim (t : Text) : Text :=
  let kept := (runes t).dropWhile Rune.isBlank
  ofRunes (kept.reverse.dropWhile Rune.isBlank).reverse

def isBlank (t : Text) : Bool := (runes t).all Rune.isBlank

end DeviceScript.Text

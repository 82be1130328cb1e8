import DeviceScript.Text.Basic

/-!
Reading octets as UTF-8. Every text splits into runes; an octet that begins no well-formed
sequence stands alone and reads as the replacement character.
-/

namespace DeviceScript.Text

/-- One character of a text: its code point and the octets it was read from. -/
structure Rune where
  code : Nat
  raw : Text
deriving Repr, DecidableEq

def replacement : Nat := 0xFFFD

/-- A lone octet reads as the replacement character but is not that character. -/
def Rune.isValid (r : Rune) : Bool := r.code != replacement || r.raw.length == 3

def isContinuation (b : UInt8) : Bool := 0x80 ≤ b && b ≤ 0xBF

def low (b : UInt8) : Nat := b.toNat % 64

def firstRune (b : UInt8) (rest : Text) : Rune :=
  let lone : Rune := ⟨replacement, [b]⟩
  if b < 0x80 then ⟨b.toNat, [b]⟩
  else
    match rest with
    | c :: rest =>
        if 0xC2 ≤ b && b ≤ 0xDF then
          if isContinuation c then ⟨(b.toNat - 0xC0) * 64 + low c, [b, c]⟩ else lone
        else
          match rest with
          | d :: rest =>
              if 0xE0 ≤ b && b ≤ 0xEF then
                if isContinuation c && isContinuation d
                    && (b != 0xE0 || 0xA0 ≤ c) && (b != 0xED || c ≤ 0x9F) then
                  ⟨(b.toNat - 0xE0) * 4096 + low c * 64 + low d, [b, c, d]⟩
                else lone
              else
                match rest with
                | e :: _ =>
                    if 0xF0 ≤ b && b ≤ 0xF4 && isContinuation c && isContinuation d
                        && isContinuation e && (b != 0xF0 || 0x90 ≤ c) && (b != 0xF4 || c ≤ 0x8F) then
                      ⟨(b.toNat - 0xF0) * 262144 + low c * 4096 + low d * 64 + low e, [b, c, d, e]⟩
                    else lone
                | [] => lone
          | [] => lone
    | [] => lone

/-- The runes of a text after `skip` octets that belong to an earlier rune. -/
def runesAfter : Nat → Text → List Rune
  | _, [] => []
  | skip + 1, _ :: rest => runesAfter skip rest
  | 0, b :: rest =>
      let r := firstRune b rest
      r :: runesAfter (r.raw.length - 1) rest

def runes (t : Text) : List Rune := runesAfter 0 t

def padRight (width : Nat) (t : Text) : Text :=
  t ++ List.replicate (width - (runes t).length) (ascii ' ')

def ofRunes (rs : List Rune) : Text := rs.flatMap Rune.raw

def isUtf8 (t : Text) : Bool := (runes t).all Rune.isValid

/-- Code points that UTF-8 can encode. -/
def isScalar (code : Nat) : Bool := code < 0xD800 || (0xE000 ≤ code && code < 0x110000)

def encode (code : Nat) : Text :=
  if code < 0x80 then [code.toUInt8]
  else if code < 0x800 then [(0xC0 + code / 64).toUInt8, (0x80 + code % 64).toUInt8]
  else if !isScalar code then [0xEF, 0xBF, 0xBD]
  else if code < 0x10000 then
    [(0xE0 + code / 4096).toUInt8, (0x80 + code / 64 % 64).toUInt8, (0x80 + code % 64).toUInt8]
  else
    [(0xF0 + code / 262144).toUInt8, (0x80 + code / 4096 % 64).toUInt8,
     (0x80 + code / 64 % 64).toUInt8, (0x80 + code % 64).toUInt8]

/-- The octets as a string, a lone octet becoming the replacement character. -/
def toString (t : Text) : String :=
  String.ofList ((runes t).map fun r => Char.ofNat r.code)

end DeviceScript.Text

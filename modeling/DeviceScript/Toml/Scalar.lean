import DeviceScript.Data.Datum
import DeviceScript.Number.Reading
import DeviceScript.Text.Quoted

/-! Scalars of TOML documents: strings, numbers, and dates with times. -/

namespace DeviceScript.Toml

open Text

def isSpace (b : UInt8) : Bool := b == 32 || b == 9

def isLineEnd (b : UInt8) : Bool := b == 10 || b == 13

/-! Strings. -/

def readEscape : Text → Option (Text × Nat)
  | [] => none
  | b :: rest =>
      if b == ascii 'b' then some ([8], 1)
      else if b == ascii 't' then some ([9], 1)
      else if b == ascii 'n' then some ([10], 1)
      else if b == ascii 'f' then some ([12], 1)
      else if b == ascii 'r' then some ([13], 1)
      else if b == quoteMark || b == backslash then some ([b], 1)
      else
        let width := if b == ascii 'u' then 4 else if b == ascii 'U' then 8 else 0
        if width == 0 then none
        else
          (takeHex width rest).bind fun code =>
            if isScalar code then some (encode code, width + 1) else none

/-- The inside of a string with escapes. Where lines may end, a backslash before the end of a line
takes away all blanks that follow. `skip` octets belong to what was read before. -/
def unescape : Nat → Text → Option Text
  | _, [] => some []
  | skip + 1, _ :: rest => unescape skip rest
  | 0, b :: rest =>
      if b == backslash then
        let blanks := rest.takeWhile fun c => isSpace c || isLineEnd c
        if blanks.contains newline then unescape blanks.length rest
        else
          (readEscape rest).bind fun (octets, width) => (unescape width rest).map (octets ++ ·)
      else (unescape 0 rest).map (b :: ·)

/-- A string on one line up to its closing mark: its inside as written, and the rest. After a
backslash, if escapes are read, the next octet closes nothing. -/
def readLineString (mark : UInt8) (escapes : Bool) : Text → Option (Text × Text)
  | [] => none
  | b :: rest =>
      if b == mark then some ([], rest)
      else if isLineEnd b then none
      else if escapes && b == backslash then
        match rest with
        | [] => none
        | c :: rest =>
            if isLineEnd c then none
            else
              (readLineString mark escapes rest).map fun (inside, rest) => (b :: c :: inside, rest)
      else (readLineString mark escapes rest).map fun (inside, rest) => (b :: inside, rest)

/-- Two marks stand before, and no escape begins with the first of them. -/
private def tooManyMarks (mark : UInt8) (escapes : Bool) (before : Text) : Bool :=
  before.take 2 == [mark, mark] && !(escapes && (before.drop 2).head? == some backslash)

/-- A string over several lines up to its three closing marks. Up to two more marks before them
belong to the string. `before` is what was read, last octet first. -/
def readBlockString (mark : UInt8) (escapes : Bool) : Text → Text → Option (Text × Text)
  | _, [] => none
  | before, b :: rest =>
      if b == mark && rest.take 2 == [mark, mark] then
        if (rest.drop 2).head? == some mark then
          if tooManyMarks mark escapes before then none
          else readBlockString mark escapes (b :: before) rest
        else some (before.reverse, rest.drop 2)
      else if escapes && b == backslash then
        match rest with
        | [] => none
        | c :: rest => readBlockString mark escapes (c :: b :: before) rest
      else readBlockString mark escapes (b :: before) rest

/-- A line end right after the opening marks does not count. -/
def dropFirstLineEnd : Text → Text
  | 10 :: rest => rest
  | 13 :: 10 :: rest => rest
  | t => t

def apostrophe : UInt8 := 39

def readSimpleString (t : Text) : Option (Text × Text) :=
  match t with
  | [] => none
  | mark :: rest =>
      if mark == quoteMark then do
        let (inside, rest) ← readLineString mark true rest
        return (← unescape 0 inside, rest)
      else if mark == apostrophe then readLineString mark false rest
      else none

def readString (t : Text) : Option (Text × Text) :=
  if startsWith [quoteMark, quoteMark, quoteMark] t then do
    let (inside, rest) ← readBlockString quoteMark true [] (t.drop 3)
    return (← unescape 0 (dropFirstLineEnd inside), rest)
  else if startsWith [apostrophe, apostrophe, apostrophe] t then do
    let (inside, rest) ← readBlockString apostrophe false [] (t.drop 3)
    return (dropFirstLineEnd inside, rest)
  else readSimpleString t

/-! Numbers and moments. -/

inductive NumberKind where
  | integer
  | float
  | moment
deriving Repr, DecidableEq

private def isFloatMark (b : UInt8) : Bool :=
  b == ascii '.' || b == ascii 'e' || b == ascii 'E'

private def isFloatByte (b : UInt8) : Bool :=
  isDigit b || isFloatMark b || b == ascii '_' || b == ascii '-' || b == ascii '+'

private def isMomentByte (b : UInt8) : Bool :=
  isDigit b || [ascii '-', ascii ':', ascii 'T', ascii 't', 32, ascii '.', ascii 'Z', ascii 'z',
    ascii '+'].contains b

private def isDecimalByte (b : UInt8) : Bool := isDigit b || b == ascii '_'

/-- How long a decimal number is, and whether it is a float. -/
private def decimalSpan (t : Text) : NumberKind × Nat :=
  let digits := (t.takeWhile isDecimalByte).length
  if (t.drop digits).head?.any isFloatMark then (.float, (t.takeWhile isFloatByte).length)
  else (.integer, digits)

private def plainSpan (t : Text) : NumberKind × Nat :=
  let digits := t.takeWhile isDigit
  match t.drop digits.length with
  | b :: _ =>
      if (b == ascii '-' || b == ascii ':') && (1 < digits.length || digits != [ascii '0']) then
        (.moment, (t.takeWhile isMomentByte).length)
      else decimalSpan t
  | [] => decimalSpan t

private def digitOfBase (base : Nat) (b : UInt8) : Bool := (hexValue? b).any (· < base)

private def baseOf? (mark : UInt8) : Option Nat :=
  if mark == ascii 'x' then some 16
  else if mark == ascii 'o' then some 8
  else if mark == ascii 'b' then some 2
  else none

private def numberSpan (t : Text) : Option (NumberKind × Nat) :=
  match t with
  | [] => none
  | b :: rest =>
      if b == ascii '+' || b == ascii '-' then
        if startsWith "inf" rest || startsWith "nan" rest then some (.float, 4)
        else if rest.head? == some (ascii '0') && (rest.drop 1).head?.any (fun m => (baseOf? m).isSome)
        then none
        else if rest.head?.any isDigit then
          let (kind, length) := decimalSpan rest
          some (kind, length + 1)
        else none
      else if b == ascii '0' then
        match rest with
        | mark :: digits =>
            match baseOf? mark with
            | some base =>
                if digits.head?.any (digitOfBase base) then
                  let length :=
                    (digits.takeWhile fun d => digitOfBase base d || d == ascii '_').length
                  some (.integer, length + 2)
                else none
            | none => some (plainSpan t)
        | [] => some (.integer, 1)
      else if isDigit b then some (plainSpan t)
      else if startsWith "inf" t || startsWith "nan" t then some (.float, 3)
      else none

/-- Underscores stand between digits only. -/
def underscoresOk (t : Text) : Bool := go false t
where
  go (afterDigit : Bool) : Text → Bool
    | [] => afterDigit
    | b :: rest => (b != ascii '_' || afterDigit) && go (hexValue? b).isSome rest

private def isSpecialFloat (t : Text) : Bool :=
  ["nan", "+nan", "-nan", "inf", "-inf", "+inf"].any fun s => ofString s == t

private def hasLeadingZero (t : Text) : Bool :=
  match t with
  | b :: c :: rest =>
      (b == ascii '0' && (baseOf? c).isNone)
        || ((b == ascii '-' || b == ascii '+') && c == ascii '0' && !rest.isEmpty)
  | _ => false

private def withoutUnderscores (t : Text) : Text := t.filter (· != ascii '_')

/-- The value of an integer, in the signed 64-bit range. -/
def readInteger (t : Text) : Option Int :=
  if !underscoresOk t || hasLeadingZero t then none
  else
    match t with
    | 48 :: mark :: digits =>
        (baseOf? mark).bind fun base =>
          let value : Nat :=
            (withoutUnderscores digits).foldl (fun n d => n * base + (hexValue? d).getD 0) 0
          if (value : Int) ≤ maxInt then some value else none
    | _ => readInt (withoutUnderscores t)

private def floatParts (t : Text) : List Text :=
  ((t.splitBy fun a b => isFloatMark a == isFloatMark b).filter
    fun part => !part.head?.any isFloatMark)

private def pointsOk : Text → Bool
  | [] => true
  | b :: rest => (b != ascii '.' || rest.head?.any isDigit) && pointsOk rest

def readFloat (t : Text) : Option Binary64 :=
  let parts := floatParts t
  if !parts.all (fun part => isSpecialFloat part || underscoresOk part) || parts.head?.any hasLeadingZero
      || !pointsOk t then none
  else if t == ofString "+nan" || t == ofString "-nan" then some .nan
  else Binary64.read (withoutUnderscores t)

/-- Blanks and small letters are other spellings of the marks of a moment. -/
private def momentByte (b : UInt8) : UInt8 :=
  if b == ascii 'z' then ascii 'Z' else if b == ascii 't' || b == 32 then ascii 'T' else b

def readMoment (t : Text) : Option Moment :=
  let t := (dropRightWhile (· == 32) t).map momentByte
  let dated := do
    let (year, month, day, rest) ← Moment.readDate true t
    if rest.isEmpty then Moment.checked ⟨year, month, day, 0, 0, 0, 0, 0, "date-local"⟩
    else
      let rest ← dropStart? "T" rest
      let (hour, minute, second, nanosecond, rest) ← Moment.readTime true rest
      if rest.isEmpty then
        Moment.checked ⟨year, month, day, hour, minute, second, nanosecond, 0, "datetime-local"⟩
      else
        let (offset, zone) ← Moment.readZone rest
        Moment.checked ⟨year, month, day, hour, minute, second, nanosecond, offset, zone⟩
  let timed := do
    let (hour, minute, second, nanosecond, rest) ← Moment.readTime true t
    guard rest.isEmpty
    Moment.checked ⟨0, 1, 1, hour, minute, second, nanosecond, 0, "time-local"⟩
  dated.or timed

def readScalar (t : Text) : Option (Datum × Text) :=
  if t.head?.any fun b => b == quoteMark || b == apostrophe then
    (readString t).map fun (inside, rest) => (.text inside, rest)
  else
    let word := t.takeWhile isLetter
    if word == ofString "true" then some (.bool true, t.drop 4)
    else if word == ofString "false" then some (.bool false, t.drop 5)
    else do
      let (kind, length) ← numberSpan t
      let token := t.take length
      let datum ← match kind with
        | .integer => (readInteger token).map Datum.int
        | .float => (readFloat token).map Datum.float
        | .moment => (readMoment token).map Datum.moment
      return (datum, t.drop length)

end DeviceScript.Toml

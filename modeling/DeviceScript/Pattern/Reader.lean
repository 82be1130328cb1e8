import DeviceScript.Pattern.Basic
import DeviceScript.Text.Script

/-!
Reading patterns. The notation has literals, classes in brackets, escapes, groups with flags,
alternatives and repetition; what it refuses is reported with the part at fault.
-/

namespace DeviceScript.Pattern

open Text

inductive Complaint where
  | invalidRange
  | invalidEscape
  | invalidGroupName
  | unsupportedGroup
  | nestedRepetition
  | invalidCount
  | notUtf8
  | missingBracket
  | missingParenthesis
  | missingOperand
  | trailingBackslash
  | unexpectedParenthesis
deriving Repr, DecidableEq

structure Refusal where
  complaint : Complaint
  part : Text
deriving Repr, DecidableEq

def Complaint.message : Complaint → String
  | invalidRange => "invalid character class range"
  | invalidEscape => "invalid escape sequence"
  | invalidGroupName => "invalid named capture"
  | unsupportedGroup => "invalid or unsupported Perl syntax"
  | nestedRepetition => "invalid nested repetition operator"
  | invalidCount => "invalid repeat count"
  | notUtf8 => "invalid UTF-8"
  | missingBracket => "missing closing ]"
  | missingParenthesis => "missing closing )"
  | missingOperand => "missing argument to repetition operator"
  | trailingBackslash => "trailing backslash at end of expression"
  | unexpectedParenthesis => "unexpected )"

def Refusal.message (r : Refusal) : Text :=
  "error parsing regexp: " ++ ofString r.complaint.message ++ ": `" ++ r.part ++ "`"

private def refuse (complaint : Complaint) (part : Text) : Except Refusal α :=
  .error ⟨complaint, part⟩

structure Flags where
  fold : Bool
  multiLine : Bool
  dotAll : Bool
  lazy : Bool
deriving Repr, DecidableEq

/-- What `whole` has more than `rest`, a tail of it. -/
private def before (whole rest : Text) : Text := whole.take (whole.length - rest.length)

private def nextRune (t : Text) : Except Refusal (Nat × Text) :=
  match t with
  | [] => .ok (replacement, [])
  | b :: rest =>
      let r := firstRune b rest
      if r.isValid then .ok (r.code, rest.drop (r.raw.length - 1)) else refuse .notUtf8 t

/-- The first tail of the text that does not begin with a well-formed character. -/
private def invalidTail? : Nat → Text → Option Text
  | 0, _ => none
  | _, [] => none
  | fuel + 1, b :: rest =>
      let r := firstRune b rest
      if r.isValid then invalidTail? fuel (rest.drop (r.raw.length - 1)) else some (b :: rest)

private def checkUtf8 (t : Text) : Except Refusal Unit :=
  match invalidTail? (t.length + 1) t with
  | none => .ok ()
  | some tail => refuse .notUtf8 tail

private def hexOf (code : Nat) : Option Nat :=
  if code < 128 then hexValue? code.toUInt8 else none

private def isOctal (b : UInt8) : Bool := 48 ≤ b && b ≤ 55

/-- Digits in braces after the mark of base sixteen, up to the closing brace. -/
private def readBraced : Nat → Nat → Nat → Text → Except Refusal (Option Nat × Text)
  | 0, _, _, t => .ok (none, t)
  | fuel + 1, count, value, t =>
      if t.isEmpty then .ok (none, t)
      else do
        let (c, rest) ← nextRune t
        if c == 125 then return (if count == 0 then none else some value, rest)
        match hexOf c with
        | none => return (none, rest)
        | some d =>
            let value := value * 16 + d
            if value > 0x10FFFF then return (none, rest)
            readBraced fuel (count + 1) value rest

/-- The character of an escape; `t` begins with the backslash. -/
private def readEscape (t : Text) : Except Refusal (Nat × Text) := do
  let afterMark := t.drop 1
  if afterMark.isEmpty then refuse .trailingBackslash []
  let (c, rest) ← nextRune afterMark
  let octal : Nat × Text :=
    let more := (rest.take 2).takeWhile isOctal
    (more.foldl (fun n b => n * 8 + (b.toNat - 48)) (c - 48), rest.drop more.length)
  let (found, rest) : Option Nat × Text ←
    if c == 48 then pure (some octal.1, octal.2)
    else if 49 ≤ c && c ≤ 55 then
      if (rest.take 1).any isOctal then pure (some octal.1, octal.2) else pure (none, rest)
    else if c == 120 then
      if rest.isEmpty then pure (none, rest)
      else do
        let (first, afterFirst) ← nextRune rest
        if first == 123 then readBraced (rest.length + 1) 0 0 afterFirst
        else
          let (second, afterSecond) ← nextRune afterFirst
          match hexOf first, hexOf second with
          | some x, some y => pure (some (x * 16 + y), afterSecond)
          | _, _ => pure (none, afterSecond)
    else if c == 97 then pure (some 7, rest)
    else if c == 102 then pure (some 12, rest)
    else if c == 110 then pure (some 10, rest)
    else if c == 114 then pure (some 13, rest)
    else if c == 116 then pure (some 9, rest)
    else if c == 118 then pure (some 11, rest)
    else if c < 128 && !(isLetter c.toUInt8 || isDigit c.toUInt8) then pure (some c, rest)
    else pure (none, rest)
  match found with
  | some code => return (code, rest)
  | none => refuse .invalidEscape (before t rest)

private def digitRanges : List (Nat × Nat) := [(48, 57)]

private def blankRanges : List (Nat × Nat) := [(9, 10), (12, 13), (32, 32)]

private def wordRanges : List (Nat × Nat) := [(48, 57), (65, 90), (95, 95), (97, 122)]

/-- Classes written with a backslash and one letter, a capital standing for the complement. -/
private def letterClass? (t : Text) : Option CharRanges :=
  match t with
  | b :: c :: _ =>
      if b != ascii '\\' then none
      else if c == ascii 'd' then some ⟨false, digitRanges⟩
      else if c == ascii 'D' then some ⟨true, digitRanges⟩
      else if c == ascii 's' then some ⟨false, blankRanges⟩
      else if c == ascii 'S' then some ⟨true, blankRanges⟩
      else if c == ascii 'w' then some ⟨false, wordRanges⟩
      else if c == ascii 'W' then some ⟨true, wordRanges⟩
      else none
  | _ => none

private def namedRanges : List (String × List (Nat × Nat)) :=
  [("alnum", [(48, 57), (65, 90), (97, 122)]),
   ("alpha", [(65, 90), (97, 122)]),
   ("ascii", [(0, 127)]),
   ("blank", [(9, 9), (32, 32)]),
   ("cntrl", [(0, 31), (127, 127)]),
   ("digit", digitRanges),
   ("graph", [(33, 126)]),
   ("lower", [(97, 122)]),
   ("print", [(32, 126)]),
   ("punct", [(33, 47), (58, 64), (91, 96), (123, 126)]),
   ("space", [(9, 13), (32, 32)]),
   ("upper", [(65, 90)]),
   ("word", wordRanges),
   ("xdigit", [(48, 57), (65, 70), (97, 102)])]

/-- A class named between `[:` and `:]`; nothing if the text does not close it. -/
private def readNamedClass (t : Text) : Except Refusal (Option (CharRanges × Text)) :=
  if startsWith "[:" t && t.length > 2 then
    match cutText ":]" (t.drop 2) with
    | none => .ok none
    | some (name, rest) =>
        let (negated, bare) : Bool × Text :=
          match dropStart? "^" name with
          | some bare => (true, bare)
          | none => (false, name)
        match namedRanges.find? fun entry => ofString entry.1 == bare with
        | some (_, ranges) => .ok (some (⟨negated, ranges⟩, rest))
        | none => refuse .invalidRange (before t rest)
  else .ok none

private def propertyRanges? (name : Text) : Option (List (Nat × Nat)) :=
  if name == ofString "Any" then some [(0, 0x10FFFF)]
  else (categoryRanges? name).or (scriptRanges? name)

private def readPropertyClass (t : Text) : Except Refusal (Option (CharRanges × Text)) :=
  match t with
  | b :: p :: afterMark =>
      if b == ascii '\\' && (p == ascii 'p' || p == ascii 'P') then do
        let (c, afterFirst) ← nextRune afterMark
        let (sequence, name, rest) : Text × Text × Text ←
          if c != 123 then
            pure (before t afterFirst, before afterMark afterFirst, afterFirst)
          else
            match cut 125 t with
            | none => do
                checkUtf8 t
                refuse .invalidRange t
            | some (start, rest) => do
                let name := start.drop 3
                checkUtf8 name
                pure (before t rest, name, rest)
        let (inverted, bare) : Bool × Text :=
          match dropStart? "^" name with
          | some bare => (true, bare)
          | none => (false, name)
        match propertyRanges? bare with
        | none => refuse .invalidRange sequence
        | some ranges => return some (⟨(p == ascii 'P') != inverted, ranges⟩, rest)
      else .ok none
  | _ => .ok none

private def readClassChar (t whole : Text) : Except Refusal (Nat × Text) :=
  match t with
  | [] => refuse .missingBracket whole
  | b :: _ => if b == ascii '\\' then readEscape t else nextRune t

/-- The members of a bracketed class up to its closing bracket. -/
private def readMembers (whole : Text) : Nat → Bool → Text → Except Refusal (List CharRanges × Text)
  | 0, _, _ => refuse .missingBracket whole
  | fuel + 1, first, t => do
      if !first && startsWith "]" t then return ([], t.drop 1)
      match ← readNamedClass t with
      | some (item, rest) =>
          let (items, rest) ← readMembers whole fuel false rest
          return (item :: items, rest)
      | none =>
      match ← readPropertyClass t with
      | some (item, rest) =>
          let (items, rest) ← readMembers whole fuel false rest
          return (item :: items, rest)
      | none =>
      match letterClass? t with
      | some item =>
          let (items, rest) ← readMembers whole fuel false (t.drop 2)
          return (item :: items, rest)
      | none =>
          let (lo, afterLow) ← readClassChar t whole
          let (hi, rest) : Nat × Text ←
            if startsWith "-" afterLow && afterLow.length ≥ 2 && !startsWith "-]" afterLow then do
              let (hi, rest) ← readClassChar (afterLow.drop 1) whole
              if hi < lo then refuse .invalidRange (before t rest)
              pure (hi, rest)
            else pure (lo, afterLow)
          let (items, rest) ← readMembers whole fuel false rest
          return (⟨false, [(lo, hi)]⟩ :: items, rest)

private def readClass (flags : Flags) (t : Text) : Except Refusal (CharClass × Text) := do
  let inside := t.drop 1
  let (negated, members) : Bool × Text :=
    match dropStart? "^" inside with
    | some rest => (true, rest)
    | none => (false, inside)
  let (items, rest) ← readMembers t (t.length + 1) true members
  return (⟨negated, flags.fold, items⟩, rest)

/-- A count without leading zeros; counts of more than nine digits have no value. -/
private def readCount (t : Text) : Option (Option Nat × Text) :=
  let digits := t.takeWhile isDigit
  if digits.isEmpty then none
  else if digits.length ≥ 2 && startsWith "0" digits then none
  else
    some (digits.foldl
      (fun value b => value.bind fun n => if n ≥ 100000000 then none else some (n * 10 + (b.toNat - 48)))
      (some 0), t.drop digits.length)

/-- Bounds in braces: the least count, the greatest if there is one, and the rest. The least
count is missing if one of the numbers was too large. -/
private def readBounds (t : Text) : Option (Option Nat × Option Nat × Text) := do
  let (least, rest) ← readCount (t.drop 1)
  match rest with
  | [] => none
  | b :: afterFirst =>
      if b == ascii ',' then
        match afterFirst with
        | [] => none
        | c :: afterSecond =>
            if c == 125 then some (least, none, afterSecond)
            else
              let (most, rest) ← readCount afterFirst
              match rest with
              | [] => none
              | d :: after =>
                  if d == 125 then some (if most.isNone then none else least, most, after) else none
      else if b == 125 then some (least, least, afterFirst)
      else none

/-- An open group: what it will become, the flags to go back to, and what stood before it. -/
private structure Group where
  index : Option Nat
  flags : Flags
  alternatives : List Pattern
  items : List Pattern

private structure State where
  flags : Flags
  captures : Nat
  groups : List Group
  alternatives : List Pattern
  items : List Pattern
  lastRepeat : Option Text

private def sequenceOf : List Pattern → Pattern
  | [] => .empty
  | [p] => p
  | p :: rest => .seq p (sequenceOf rest)

private def choiceOf : List Pattern → Pattern
  | [] => .empty
  | [p] => p
  | p :: rest => .alt p (choiceOf rest)

/-- The pattern read so far at the current level; items and alternatives are kept last first. -/
private def State.current (s : State) : Pattern :=
  choiceOf (s.alternatives.reverse ++ [sequenceOf s.items.reverse])

private def State.push (s : State) (p : Pattern) : State := { s with items := p :: s.items }

private def State.literal (s : State) (code : Nat) : State :=
  s.push (.char (.single s.flags.fold code))

private def State.open (s : State) (index : Option Nat) : State :=
  { s with
    groups := ⟨index, s.flags, s.alternatives, s.items⟩ :: s.groups
    alternatives := []
    items := [] }

private def isGroupName (name : Text) : Bool := !name.isEmpty && name.all isNamePart

/-- Flags up to a colon, which opens a group, or a closing parenthesis. -/
private def readFlags (t : Text) (s : State) :
    Nat → Flags → Bool → Bool → Text → Except Refusal (State × Text)
  | 0, _, _, _, rest => refuse .unsupportedGroup (before t rest)
  | fuel + 1, flags, negative, seen, rest =>
      if rest.isEmpty then refuse .unsupportedGroup (before t rest)
      else do
        let (c, rest) ← nextRune rest
        if c == 105 then readFlags t s fuel { flags with fold := !negative } negative true rest
        else if c == 109 then readFlags t s fuel { flags with multiLine := !negative } negative true rest
        else if c == 115 then readFlags t s fuel { flags with dotAll := !negative } negative true rest
        else if c == 85 then readFlags t s fuel { flags with lazy := !negative } negative true rest
        else if c == 45 && !negative then readFlags t s fuel flags true false rest
        else if (c == 58 || c == 41) && (!negative || seen) then
          let s := if c == 58 then s.open none else s
          return ({ s with flags := flags }, rest)
        else refuse .unsupportedGroup (before t rest)

private def readSpecialGroup (s : State) (t : Text) : Except Refusal (State × Text) :=
  let nameStart : Option Nat :=
    if startsWith "(?P<" t && t.length > 4 then some 4
    else if startsWith "(?<" t && t.length > 3 then some 3
    else none
  match nameStart with
  | some start => do
      match cut (ascii '>') t with
      | none =>
          checkUtf8 t
          refuse .invalidGroupName t
      | some (opening, rest) =>
          let name := opening.drop start
          checkUtf8 name
          if isGroupName name then
            let s := { s with captures := s.captures + 1 }
            return (s.open (some s.captures), rest)
          else refuse .invalidGroupName (before t rest)
  | none => readFlags t s (t.length + 1) s.flags false false (t.drop 2)

private def applyRepeat (s : State) (start after : Text) (least : Nat) (most : Option Nat)
    (counted : Bool) : Except Refusal (State × Text) := do
  let (swapped, after) : Bool × Text :=
    match dropStart? "?" after with
    | some rest => (true, rest)
    | none => (false, after)
  if let some earlier := s.lastRepeat then refuse .nestedRepetition (before earlier after)
  match s.items with
  | [] => refuse .missingOperand (before start after)
  | body :: items =>
      let repeated : Pattern := .repetition body least most (s.flags.lazy == swapped)
      if counted && (least ≥ 2 || (most.getD 0) ≥ 2) && !repeated.repeatsWithin 1000 then
        refuse .invalidCount (before start after)
      return ({ s with items := repeated :: items, lastRepeat := some start }, after)

private def closeGroup (whole : Text) (s : State) : Except Refusal State :=
  match s.groups with
  | [] => refuse .unexpectedParenthesis whole
  | group :: groups =>
      let inner := s.current
      let closed : Pattern :=
        match group.index with
        | some index => .capture index inner
        | none => inner
      .ok { s with
        flags := group.flags
        groups := groups
        alternatives := group.alternatives
        items := closed :: group.items }

private def literals : Nat → State → Text → Except Refusal State
  | 0, s, _ => .ok s
  | fuel + 1, s, t =>
      if t.isEmpty then .ok s
      else do
        let (c, rest) ← nextRune t
        literals fuel (s.literal c) rest

private def readBackslash (s : State) (t : Text) : Except Refusal (State × Text) := do
  let letter := (t.drop 1).head?
  let rest := t.drop 2
  if letter == some (ascii 'A') then return (s.push (.assertion .beginText), rest)
  if letter == some (ascii 'b') then return (s.push (.assertion .wordBoundary), rest)
  if letter == some (ascii 'B') then return (s.push (.assertion .noWordBoundary), rest)
  if letter == some (ascii 'C') then refuse .invalidEscape (t.take 2)
  if letter == some (ascii 'z') then return (s.push (.assertion .endText), rest)
  if letter == some (ascii 'Q') then
    let (quoted, after) := (cutText "\\E" rest).getD (rest, [])
    let s ← literals (quoted.length + 1) s quoted
    return (s, after)
  match ← readPropertyClass t with
  | some (item, rest) => return (s.push (.char ⟨false, s.flags.fold, [item]⟩), rest)
  | none =>
  match letterClass? t with
  | some item => return (s.push (.char ⟨false, s.flags.fold, [item]⟩), rest)
  | none =>
      let (code, rest) ← readEscape t
      return (s.literal code, rest)

private def readItem (whole : Text) (s : State) (b : UInt8) (rest : Text) :
    Except Refusal (State × Text) :=
  let t := b :: rest
  let plain := { s with lastRepeat := none }
  if b == ascii '(' then
    if startsWith "?" rest then readSpecialGroup plain t
    else
      let counted := { plain with captures := plain.captures + 1 }
      .ok (counted.open (some counted.captures), rest)
  else if b == ascii '|' then
    .ok ({ plain with
      alternatives := sequenceOf plain.items.reverse :: plain.alternatives
      items := [] }, rest)
  else if b == ascii ')' then (closeGroup whole plain).map (·, rest)
  else if b == ascii '^' then
    .ok (plain.push (.assertion (if s.flags.multiLine then .beginLine else .beginText)), rest)
  else if b == ascii '$' then
    .ok (plain.push (.assertion (if s.flags.multiLine then .endLine else .endText)), rest)
  else if b == ascii '.' then
    .ok (plain.push (.char (if s.flags.dotAll then .any else .anyButNewline)), rest)
  else if b == ascii '[' then do
    let (c, rest) ← readClass s.flags t
    return (plain.push (.char c), rest)
  else if b == ascii '*' then applyRepeat s t rest 0 none false
  else if b == ascii '+' then applyRepeat s t rest 1 none false
  else if b == ascii '?' then applyRepeat s t rest 0 (some 1) false
  else if b == 123 then
    match readBounds t with
    | none => .ok (plain.literal 123, rest)
    | some (least?, most, after) =>
        match least? with
        | none => refuse .invalidCount (before t after)
        | some least =>
            if least > 1000 || (most.getD 0) > 1000 || (most.any (· < least)) then
              refuse .invalidCount (before t after)
            else applyRepeat s t after least most true
  else if b == ascii '\\' then readBackslash plain t
  else do
    let (code, rest) ← nextRune t
    return (plain.literal code, rest)

private def readItems (whole : Text) : Nat → State → Text → Except Refusal State
  | 0, s, _ => .ok s
  | _, s, [] => .ok s
  | fuel + 1, s, b :: rest => do
      let (s, rest) ← readItem whole s b rest
      readItems whole fuel s rest

def read (t : Text) : Except Refusal (Pattern × Nat) := do
  let start : State := ⟨⟨false, false, false, false⟩, 0, [], [], [], none⟩
  let s ← readItems t (t.length + 1) start t
  if s.groups.isEmpty then return (s.current, s.captures)
  else refuse .missingParenthesis t

end DeviceScript.Pattern

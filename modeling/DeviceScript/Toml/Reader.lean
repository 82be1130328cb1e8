import DeviceScript.Toml.Draft
import DeviceScript.Toml.Scalar

/-! Reading TOML documents. A text that is no document gives nothing. -/

namespace DeviceScript.Toml

open Text

private def skipSpaces (t : Text) : Text := t.dropWhile isSpace

private def skipComment (t : Text) : Text := t.dropWhile fun b => !isLineEnd b

/-- Skips spaces, line ends and comments. -/
private def skipBlanks : Bool → Text → Text
  | _, [] => []
  | inComment, b :: rest =>
      if isLineEnd b then skipBlanks false rest
      else if inComment then skipBlanks true rest
      else if isSpace b then skipBlanks false rest
      else if b == ascii '#' then skipBlanks true rest
      else b :: rest

private def isBareKeyByte (b : UInt8) : Bool := isNamePart b || b == ascii '-'

private def readKeyPart (t : Text) : Option (Text × Text) :=
  if t.head?.any fun b => b == quoteMark || b == apostrophe then readSimpleString t
  else
    let bare := t.takeWhile isBareKeyByte
    if bare.isEmpty then none else some (bare, t.drop bare.length)

private def readKey : Nat → Text → Option (List Text × Text)
  | 0, _ => none
  | fuel + 1, t => do
      let (part, rest) ← readKeyPart (skipSpaces t)
      let rest := skipSpaces rest
      match dropStart? "." rest with
      | none => return ([part], rest)
      | some rest =>
          let (parts, rest) ← readKey fuel rest
          return (part :: parts, rest)

private structure Value where
  node : Node
  isArray : Bool
  draft : Draft
  rest : Text

mutual

/-- The value of `key` in the current table. -/
private def readValue (key : Text) (inArray : Bool) : Nat → Draft → Text → Option Value
  | 0, _, _ => none
  | fuel + 1, d, t =>
      let t := skipSpaces t
      match t with
      | [] => none
      | b :: rest =>
          if b == ascii '[' then
            (readArray key fuel (d.noteArray key true) [] rest)
          else if b == 0x7b then do
            let outer := d.context
            let path := outer ++ [key]
            let d ← (d.markImplicit path).enter path inArray
            let (entries, d, rest) ← readInlineTable path fuel d true [] rest
            return ⟨.table entries, false, { d with context := outer }, rest⟩
          else do
            let (datum, rest) ← readScalar t
            return ⟨.leaf datum, false, d, rest⟩

/-- The items of an array after those that were read. -/
private def readArray (key : Text) : Nat → Draft → List Datum → Text → Option Value
  | 0, _, _, _ => none
  | fuel + 1, d, items, t =>
      let t := skipBlanks false t
      if t.head? == some (ascii ']') then
        some ⟨.leaf (.list items.reverse), true, d, t.drop 1⟩
      else do
        let item ← readValue key true fuel d t
        let items := item.node.toDatum :: items
        let rest := skipBlanks false item.rest
        match rest with
        | [] => none
        | b :: rest =>
            if b == ascii ',' then readArray key fuel item.draft items rest
            else if b == ascii ']' then some ⟨.leaf (.list items.reverse), true, item.draft, rest⟩
            else none

private def readInlineTable (path : List Text) :
    Nat → Draft → Bool → Entries → Text → Option (Entries × Draft × Text)
  | 0, _, _, _, _ => none
  | fuel + 1, d, first, entries, t =>
      let t := skipSpaces t
      if first && t.head? == some 0x7d then some (entries, d, t.drop 1)
      else do
        let (parts, rest) ← readKey (t.length + 1) t
        let rest ← dropStart? "=" rest
        let parents := parts.dropLast
        let key ← parts.getLast?
        let d ← d.descend parents
        let value ← readValue key false fuel d rest
        let d ← value.draft.setValue key value.node
        let d := d.noteArray key value.isArray
        let entries ← Entries.setBelow key value.node parents entries
        let d := { d with context := path }
        match skipSpaces value.rest with
        | [] => none
        | b :: rest =>
            if b == ascii ',' then readInlineTable path fuel d false entries rest
            else if b == 0x7d then some (entries, d, rest)
            else none

end

private def atLineEnd (t : Text) : Option Text :=
  match skipSpaces t with
  | [] => some []
  | b :: rest =>
      if b == ascii '#' then some (skipComment rest)
      else if isLineEnd b then some rest
      else none

private def readHeader (d : Draft) (t : Text) : Option (Draft × Text) := do
  let repeated := t.head? == some (ascii '[')
  let t := if repeated then t.drop 1 else t
  let (path, rest) ← readKey (t.length + 1) t
  let rest ← dropStart? (if repeated then "]]" else "]") rest
  let d ← d.enter path repeated
  return (d.noteArray [] false, rest)

private def readPair (d : Draft) (t : Text) : Option (Draft × Text) := do
  let outer := d.context
  let (parts, rest) ← readKey (t.length + 1) t
  let rest ← dropStart? "=" rest
  let key ← parts.getLast?
  let d ← d.descend parts.dropLast
  let value ← readValue key false (rest.length + 1) d rest
  let d ← value.draft.setValue key value.node
  return ({ d.noteArray key value.isArray with context := outer }, value.rest)

private def readLines : Nat → Draft → Text → Option Draft
  | 0, _, _ => none
  | fuel + 1, d, t =>
      match skipBlanks false t with
      | [] => some d
      | b :: rest => do
          let (d, rest) ← if b == ascii '[' then readHeader d rest else readPair d (b :: rest)
          readLines fuel d (← atLineEnd rest)

/-- Characters that no document holds: controls other than tabs and line ends. -/
private def isClean : Text → Bool
  | [] => true
  | b :: rest =>
      (if b == 13 then rest.head? == some newline
        else b == 9 || b == newline || (32 ≤ b && b != 127)) && isClean rest

def read (t : Text) : Option (List (Text × Datum)) :=
  let t := (dropStart? [0xEF, 0xBB, 0xBF] t).getD t
  if isClean t && isUtf8 t then
    (readLines (t.length + 1) .empty t).map fun d =>
      d.root.map fun (key, node) => (key, node.toDatum)
  else none

end DeviceScript.Toml

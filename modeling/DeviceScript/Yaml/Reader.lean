import DeviceScript.Yaml.Node
import DeviceScript.Text.Quoted

/-!
Reading YAML documents: block and flow collections, plain, quoted and block scalars, comments,
anchors and tags. A text that is no document gives nothing.
-/

namespace DeviceScript.Yaml

open Text

/-- A place in a document. `fresh` says that only blanks stand before it on its line. -/
structure Cursor where
  rest : Text
  column : Nat
  fresh : Bool
  anchors : List (Text × Node)

private def space : UInt8 := ascii ' '

private def isInlineBlank (b : UInt8) : Bool := b == space || b == 9

private def startsBlank : Text → Bool
  | [] => true
  | b :: _ => isInlineBlank b || b == newline

private def isFlowMark (b : UInt8) : Bool :=
  b == ascii ',' || b == ascii '[' || b == ascii ']' || b == 123 || b == 125

private def Cursor.starts (c : Cursor) (mark : Char) : Bool := c.rest.head? == some (ascii mark)

/-- The cursor stands at `mark` followed by a blank or the end of a line. -/
private def Cursor.startsIndicator (c : Cursor) (mark : Char) : Bool :=
  c.starts mark && startsBlank (c.rest.drop 1)

private def Cursor.forward (c : Cursor) (count : Nat) : Cursor :=
  { c with rest := c.rest.drop count, column := c.column + count, fresh := false }

/-- A document marker: three dashes or points at the start of a line. -/
private def Cursor.atMarker (c : Cursor) : Bool :=
  c.column == 0 && (startsWith "---" c.rest || startsWith "..." c.rest) && startsBlank (c.rest.drop 3)

private def Cursor.atEnd (c : Cursor) : Bool := c.rest.isEmpty || c.atMarker

/-- Skips blanks, comments and line ends up to the next token. A tab that would indent a token
is refused outside flow collections. -/
private def nextToken (inFlow : Bool) (anchors : List (Text × Node)) :
    Text → Nat → Bool → Bool → Option Cursor
  | [], column, fresh, _ => some ⟨[], column, fresh, anchors⟩
  | b :: rest, column, fresh, inComment =>
      if b == newline then nextToken inFlow anchors rest 0 true false
      else if inComment then nextToken inFlow anchors rest (column + 1) fresh true
      else if b == space then nextToken inFlow anchors rest (column + 1) fresh false
      else if b == 9 then
        if inFlow || !fresh || isBlankLine rest then nextToken inFlow anchors rest (column + 1) fresh false
        else none
      else if b == ascii '#' then nextToken inFlow anchors rest (column + 1) fresh true
      else some ⟨b :: rest, column, fresh, anchors⟩
where
  isBlankLine (rest : Text) : Bool :=
    match rest.dropWhile isInlineBlank with
    | [] => true
    | b :: _ => b == newline || b == ascii '#'

private def Cursor.next (c : Cursor) (inFlow : Bool) : Option Cursor :=
  nextToken inFlow c.anchors c.rest c.column c.fresh false

private def Cursor.skipInline (c : Cursor) : Cursor :=
  let blanks := c.rest.takeWhile isInlineBlank
  { c with rest := c.rest.drop blanks.length, column := c.column + blanks.length }

/-- The part of a plain scalar that stands on one line, given what precedes each octet. -/
private def plainSpan (inFlow : Bool) : Bool → Text → Nat
  | _, [] => 0
  | afterBlank, b :: rest =>
      if b == newline then 0
      else if b == ascii '#' && afterBlank then 0
      else if b == ascii ':' && startsBlank rest then 0
      else if inFlow && (isFlowMark b || (b == ascii '?' && startsBlank rest)) then 0
      else plainSpan inFlow (isInlineBlank b) rest + 1

/-- Line ends between two lines of a scalar: one is a space, more are one less. -/
private def folded (count : Nat) : Text :=
  if count ≤ 1 then [space] else List.replicate (count - 1) newline

/-- Skips line ends and the blanks after them; gives how many ends there were. -/
private def skipBreaks : Text → Nat → Nat → Text × Nat × Nat
  | [], column, count => ([], column, count)
  | b :: rest, column, count =>
      if b == newline then skipBreaks rest 0 (count + 1)
      else if isInlineBlank b then skipBreaks rest (column + 1) count
      else (b :: rest, column, count)

private def trimRightInline (t : Text) : Text := dropRightWhile isInlineBlank t

/-- A plain scalar with its continuation lines, which are indented by more than `indent`. The
flag tells whether it stands on one line. -/
private def readPlain (inFlow : Bool) (indent : Int) : Nat → Cursor → Text × Bool × Cursor
  | 0, c => ([], true, c)
  | fuel + 1, c =>
      let count := plainSpan inFlow false c.rest
      let line := trimRightInline (c.rest.take count)
      let c := { c.forward count with fresh := false }
      match c.rest with
      | b :: _ =>
          if b != newline then (line, true, c)
          else
            let (rest, column, breaks) := skipBreaks c.rest c.column 0
            let following : Cursor := ⟨rest, column, true, c.anchors⟩
            let stops := rest.isEmpty || rest.head? == some (ascii '#') || following.atMarker
              || (!inFlow && (column : Int) ≤ indent)
              || plainSpan inFlow false rest == 0
            if stops then (line, true, c)
            else
              let (more, _, c) := readPlain inFlow indent fuel following
              (line ++ folded breaks ++ more, false, c)
      | [] => (line, true, c)

private def readSingle : Nat → Text → Nat → Option (Text × Text × Nat × Bool)
  | 0, _, _ => none
  | _, [], _ => none
  | fuel + 1, b :: rest, column =>
      if b == ascii '\'' then
        match rest with
        | c :: more =>
            if c == b then
              (readSingle fuel more (column + 2)).map fun (t, r, k, one) => (b :: t, r, k, one)
            else some ([], rest, column + 1, true)
        | [] => some ([], rest, column + 1, true)
      else if isInlineBlank b || b == newline then
        let blanks := (b :: rest).takeWhile isInlineBlank
        let after := (b :: rest).drop blanks.length
        if after.head? == some newline then
          let (rest, column, breaks) := skipBreaks after column 0
          (readSingle fuel rest column).map fun (t, r, k, _) => (folded breaks ++ t, r, k, false)
        else
          (readSingle fuel after (column + blanks.length)).map fun (t, r, k, one) =>
            (blanks ++ t, r, k, one)
      else (readSingle fuel rest (column + 1)).map fun (t, r, k, one) => (b :: t, r, k, one)

/-- What an escape in a double-quoted scalar stands for, and how many octets it takes after the
backslash. -/
private def doubleEscape (b : UInt8) (rest : Text) : Option (Text × Nat) :=
  let single (octets : Text) : Option (Text × Nat) := some (octets, 1)
  let coded (count : Nat) : Option (Text × Nat) :=
    (takeHex count rest).bind fun n => if isScalar n then some (encode n, count + 1) else none
  if b == ascii '0' then single [0]
  else if b == ascii 'a' then single [7]
  else if b == ascii 'b' then single [8]
  else if b == ascii 't' || b == 9 then single [9]
  else if b == ascii 'n' then single [10]
  else if b == ascii 'v' then single [11]
  else if b == ascii 'f' then single [12]
  else if b == ascii 'r' then single [13]
  else if b == ascii 'e' then single [27]
  else if b == space || b == ascii '"' || b == ascii '\'' || b == ascii '\\' || b == ascii '/' then
    single [b]
  else if b == ascii 'N' then single (encode 0x85)
  else if b == ascii '_' then single (encode 0xA0)
  else if b == ascii 'L' then single (encode 0x2028)
  else if b == ascii 'P' then single (encode 0x2029)
  else if b == ascii 'x' then coded 2
  else if b == ascii 'u' then coded 4
  else if b == ascii 'U' then coded 8
  else none

private def readDouble : Nat → Text → Nat → Option (Text × Text × Nat × Bool)
  | 0, _, _ => none
  | _, [], _ => none
  | fuel + 1, b :: rest, column =>
      if b == ascii '"' then some ([], rest, column + 1, true)
      else if b == ascii '\\' then
        match rest with
        | [] => none
        | e :: more =>
            if e == newline then
              let (after, column, breaks) := skipBreaks rest column 0
              (readDouble fuel after column).map fun (t, r, k, _) =>
                (List.replicate (breaks - 1) newline ++ t, r, k, false)
            else
              (doubleEscape e more).bind fun (octets, count) =>
                (readDouble fuel (rest.drop count) (column + count + 1)).map
                  fun (t, r, k, one) => (octets ++ t, r, k, one)
      else if isInlineBlank b || b == newline then
        let blanks := (b :: rest).takeWhile isInlineBlank
        let after := (b :: rest).drop blanks.length
        if after.head? == some newline then
          let (rest, column, breaks) := skipBreaks after column 0
          (readDouble fuel rest column).map fun (t, r, k, _) => (folded breaks ++ t, r, k, false)
        else
          (readDouble fuel after (column + blanks.length)).map fun (t, r, k, one) =>
            (blanks ++ t, r, k, one)
      else (readDouble fuel rest (column + 1)).map fun (t, r, k, one) => (b :: t, r, k, one)

private def readQuotedScalar (c : Cursor) : Option (Node × Bool × Cursor) :=
  let inside := c.rest.drop 1
  let read := if c.starts '"' then readDouble else readSingle
  (read (inside.length + 1) inside (c.column + 1)).map fun (t, rest, column, oneLine) =>
    (.scalar [] true t, oneLine, ⟨rest, column, false, c.anchors⟩)

/-- Lines of a block scalar, each without its indentation, up to a line indented by less. -/
private def takeBlockLines (indent : Nat) : Nat → Text → List Text × Text
  | 0, t => ([], t)
  | _, [] => ([], [])
  | fuel + 1, t =>
      let line := t.takeWhile (· != newline)
      let after := t.drop (line.length + 1)
      let lead := (line.takeWhile (· == space)).length
      let isMarker := (startsWith "---" line || startsWith "..." line) && startsBlank (line.drop 3)
      if lead == line.length && lead ≤ indent then
        let (lines, rest) := takeBlockLines indent fuel after
        ([] :: lines, rest)
      else if lead < indent || isMarker then ([], t)
      else
        let (lines, rest) := takeBlockLines indent fuel after
        (line.drop indent :: lines, rest)

private def detectIndent : Nat → Text → Nat
  | 0, _ => 0
  | _, [] => 0
  | fuel + 1, t =>
      let line := t.takeWhile (· != newline)
      let lead := (line.takeWhile (· == space)).length
      if lead == line.length then detectIndent fuel (t.drop (line.length + 1)) else lead

/-- Joins the lines of a folded scalar; lines that are indented further keep their ends. -/
private def foldLines : Option Text → Nat → List Text → Text
  | _, _, [] => []
  | previous, breaks, line :: rest =>
      if line.isEmpty then foldLines previous (breaks + 1) rest
      else
        let isDeep (t : Text) : Bool := t.head?.any isInlineBlank
        let glue : Text :=
          match previous with
          | none => List.replicate breaks newline
          | some earlier =>
              if isDeep earlier || isDeep line then List.replicate (breaks + 1) newline
              else if breaks == 0 then [space]
              else List.replicate breaks newline
        glue ++ line ++ foldLines (some line) 0 rest

private def readBlockScalar (indent : Int) (c : Cursor) : Option (Node × Cursor) :=
  let isLiteral := c.starts '|'
  let header := (c.rest.drop 1).takeWhile (· != newline)
  let marks := header.takeWhile fun b => !isInlineBlank b
  let comment := (header.drop marks.length).dropWhile isInlineBlank
  let body := c.rest.drop (header.length + 2)
  let digits := marks.filter isDigit
  let signs := marks.filter fun b => b == ascii '+' || b == ascii '-'
  if digits.length + signs.length != marks.length || digits.length > 1 || signs.length > 1
      || digits == [ascii '0'] || !(comment.isEmpty || comment.head? == some (ascii '#')) then none
  else
    let base := (if indent < 0 then 0 else indent).toNat
    let detected := detectIndent (body.length + 1) body
    let width :=
      match digits with
      | [d] => base + (d.toNat - 48)
      | _ => if (detected : Int) ≤ indent then base + 1 else detected
    let (lines, rest) := takeBlockLines width (body.length + 1) body
    let trailing := (lines.reverse.takeWhile List.isEmpty).length
    let content := lines.take (lines.length - trailing)
    let joined :=
      if isLiteral then joinWith [newline] content else foldLines none 0 content
    let ending : Text :=
      if signs == [ascii '+'] then
        List.replicate (trailing + (if content.isEmpty then 0 else 1)) newline
      else if signs == [ascii '-'] || content.isEmpty then []
      else [newline]
    some (.scalar [] true (joined ++ ending), ⟨rest, 0, true, c.anchors⟩)

private def readName (t : Text) : Text := t.takeWhile fun b =>
  !(isInlineBlank b || b == newline || isFlowMark b)

private structure Properties where
  anchor : Text
  tag : Text

private def shortTag (t : Text) : Text :=
  match dropStart? "!<tag:yaml.org,2002:" t with
  | some name => "!!" ++ dropRightWhile (· == ascii '>') name
  | none => t

private def readProperties (inFlow : Bool) : Nat → Properties → Cursor → Option (Properties × Cursor)
  | 0, _, _ => none
  | fuel + 1, p, c =>
      if c.starts '&' then do
        let name := readName (c.rest.drop 1)
        guard (!name.isEmpty && p.anchor.isEmpty)
        let c ← (c.forward (name.length + 1)).next inFlow
        readProperties inFlow fuel { p with anchor := name } c
      else if c.starts '!' then do
        let name := readName c.rest
        guard p.tag.isEmpty
        let c ← (c.forward name.length).next inFlow
        readProperties inFlow fuel { p with tag := shortTag name } c
      else some (p, c)

private def Properties.apply (p : Properties) (node : Node) (c : Cursor) : Node × Cursor :=
  let node := node.withTag p.tag
  (node, if p.anchor.isEmpty then c else { c with anchors := (p.anchor, node) :: c.anchors })

private def readAlias (c : Cursor) : Option (Node × Cursor) :=
  let name := readName (c.rest.drop 1)
  (c.anchors.find? fun entry => entry.1 == name).map fun (_, node) =>
    (node, c.forward (name.length + 1))

private def isReserved (b : UInt8) : Bool :=
  isFlowMark b || [ascii '#', ascii '&', ascii '*', ascii '!', ascii '|', ascii '>', ascii '\'',
    ascii '"', ascii '%', ascii '@', 96].contains b

private def startsPlain (inFlow : Bool) (c : Cursor) : Bool :=
  match c.rest with
  | [] => false
  | b :: rest =>
      if b == ascii '-' then !startsBlank rest
      else if b == ascii '?' || b == ascii ':' then !inFlow && !startsBlank rest
      else !isReserved b

mutual

/-- A node inside a flow collection; an empty one if a separator stands in its place. -/
private def readFlow : Nat → Cursor → Option (Node × Cursor)
  | 0, _ => none
  | fuel + 1, c => do
      let c ← c.next true
      let (p, c) ← readProperties true (c.rest.length + 1) ⟨[], []⟩ c
      if c.starts '[' then
        let (items, c) ← readFlowItems fuel (c.forward 1)
        return p.apply (.sequence [] items) c
      else if c.rest.head? == some 123 then
        let (entries, c) ← readFlowEntries fuel (c.forward 1)
        return p.apply (.mapping [] entries) c
      else if c.starts '*' then readAlias c
      else if c.starts '"' || c.starts '\'' then
        let (node, _, c) ← readQuotedScalar c
        return p.apply node c
      else if startsPlain true c then
        let (t, _, c) := readPlain true 0 (c.rest.length + 1) c
        return p.apply (.scalar [] false t) c
      else if c.starts ',' || c.starts ']' || c.rest.head? == some 125 || c.starts ':' then
        return p.apply .empty c
      else none

private def readFlowItems : Nat → Cursor → Option (List Node × Cursor)
  | 0, _ => none
  | fuel + 1, c => do
      let c ← c.next true
      if c.starts ']' then return ([], c.forward 1)
      if c.starts ',' then none
      let explicit := c.starts '?'
      let (first, c) ← readFlow fuel (if explicit then c.forward 1 else c)
      let c ← c.next true
      let (item, c) : Node × Cursor ←
        if explicit && !c.starts ':' then pure (Node.mapping [] [(first, .empty)], c)
        else if c.starts ':' then do
          let (value, c) ← readFlow fuel (c.forward 1)
          pure (Node.mapping [] [(first, value)], c)
        else pure (first, c)
      let c ← c.next true
      if c.starts ',' then
        let (items, c) ← readFlowItems fuel (c.forward 1)
        return (item :: items, c)
      else if c.starts ']' then return ([item], c.forward 1)
      else none

private def readFlowEntries : Nat → Cursor → Option (List (Node × Node) × Cursor)
  | 0, _ => none
  | fuel + 1, c => do
      let c ← c.next true
      if c.rest.head? == some 125 then return ([], c.forward 1)
      if c.starts ',' then none
      let (key, c) ← readFlow fuel (if c.starts '?' then c.forward 1 else c)
      let c ← c.next true
      let (value, c) : Node × Cursor ←
        if c.starts ':' then readFlow fuel (c.forward 1) else pure (Node.empty, c)
      let c ← c.next true
      if c.starts ',' then
        let (entries, c) ← readFlowEntries fuel (c.forward 1)
        return ((key, value) :: entries, c)
      else if c.rest.head? == some 125 then return ([(key, value)], c.forward 1)
      else none

end

/-- A scalar as far as it may be a key: a plain one only up to the end of its line. -/
private def readKey (c : Cursor) : Option (Node × Bool × Cursor) :=
  if c.starts '*' then (readAlias c).map fun (node, c) => (node, true, c)
  else if c.starts '"' || c.starts '\'' then readQuotedScalar c
  else if startsPlain false c then
    let count := plainSpan false false c.rest
    some (.scalar [] false (trimRightInline (c.rest.take count)), true, c.forward count)
  else none

/-- The whole of a scalar that is no key: a plain one goes on over the following lines. -/
private def finishScalar (indent : Int) (start : Cursor) (node : Node) (after : Cursor) :
    Option (Node × Cursor) :=
  if startsPlain false start then
    let (t, _, after) := readPlain false indent (start.rest.length + 1) start
    if after.skipInline.startsIndicator ':' then none else some (.scalar [] false t, after)
  else some (node, after)

mutual

/-- A node in block context whose lines are indented by more than `indent`. `inline` allows a
block collection to begin on the current line, and `level` allows a sequence to stand at the
indentation itself, as the value of a mapping may. -/
private def readBlock : Nat → Int → Bool → Bool → Cursor → Option (Node × Cursor)
  | 0, _, _, _, _ => none
  | fuel + 1, indent, inline, level, c => do
      let c ← c.next false
      let outside (c : Cursor) : Bool := c.atEnd || (c.fresh && (c.column : Int) ≤ indent)
      let atLevel (c : Cursor) : Bool :=
        level && c.fresh && (c.column : Int) == indent && c.startsIndicator '-' && !c.atEnd
      if atLevel c then
        let (items, c) ← readBlockItems fuel c.column c
        return (.sequence [] items, c)
      if outside c then return (.empty, c)
      let started := c
      let (p, c) ← readProperties false (c.rest.length + 1) ⟨[], []⟩ c
      -- properties on the line of a key belong to the key
      let onKeyLine := !c.fresh || c.column == started.column
      let inline := inline || c.fresh
      if atLevel c then
        let (items, c) ← readBlockItems fuel c.column c
        return p.apply (.sequence [] items) c
      if outside c then return p.apply .empty c
      if c.startsIndicator '-' then
        if !inline then none
        let (items, c) ← readBlockItems fuel c.column c
        return p.apply (.sequence [] items) c
      else if c.startsIndicator '?' then
        if !inline then none
        let (key, after) ← readBlock fuel c.column true true (c.forward 1)
        let (entries, c) ← readBlockEntries fuel c.column key true after
        return p.apply (.mapping [] entries) c
      else if c.starts '[' || c.rest.head? == some 123 then
        let (node, c) ← readFlow fuel c
        return p.apply node c
      else if c.starts '|' || c.starts '>' then
        let (node, c) ← readBlockScalar indent c
        return p.apply node c
      else
        let column := if onKeyLine then started.column else c.column
        let (node, oneLine, after) ← readKey c
        let colon := after.skipInline
        if oneLine && colon.startsIndicator ':' then
          if !inline then none
          if onKeyLine then
            let (key, colon) := p.apply node colon
            let (entries, c) ← readBlockEntries fuel column key false (colon.forward 1)
            return (.mapping [] entries, c)
          else
            let (entries, c) ← readBlockEntries fuel column node false (colon.forward 1)
            return p.apply (.mapping [] entries) c
        else
          let (node, c) ← finishScalar indent c node after
          return p.apply node c

private def readBlockItems : Nat → Nat → Cursor → Option (List Node × Cursor)
  | 0, _, _ => none
  | fuel + 1, column, c => do
      let (item, c) ← readBlock fuel column true false (c.forward 1)
      let c ← c.next false
      if c.atEnd || (c.fresh && c.column < column) then return ([item], c)
      if !c.fresh || c.column > column then none
      if c.startsIndicator '-' then
        let (items, c) ← readBlockItems fuel column c
        return (item :: items, c)
      else return ([item], c)

/-- The entries of a mapping from the value of the first one on. The value of an explicit key
stands after a colon of its own, or is empty. -/
private def readBlockEntries :
    Nat → Nat → Node → Bool → Cursor → Option (List (Node × Node) × Cursor)
  | 0, _, _, _, _ => none
  | fuel + 1, column, key, explicit, c => do
      let (value, c) ← if !explicit then readBlock fuel column false true c else do
        let c ← c.next false
        if c.fresh && c.column == column && c.startsIndicator ':' then
          readBlock fuel column true true (c.forward 1)
        else pure (Node.empty, c)
      let c ← c.next false
      if c.atEnd || (c.fresh && c.column < column) then return ([(key, value)], c)
      if !c.fresh || c.column > column then none
      if c.startsIndicator '?' then
        let (following, after) ← readBlock fuel column true true (c.forward 1)
        let (entries, c) ← readBlockEntries fuel column following true after
        return ((key, value) :: entries, c)
      let (p, c) ← readProperties false (c.rest.length + 1) ⟨[], []⟩ c
      let (node, oneLine, after) ← readKey c
      let colon := after.skipInline
      if !oneLine || !colon.startsIndicator ':' then none
      let (following, colon) := p.apply node colon
      let (entries, c) ← readBlockEntries fuel column following false (colon.forward 1)
      return ((key, value) :: entries, c)

end

private def normalizeBreaks : Text → Text
  | [] => []
  | [b] => if b == 13 then [newline] else [b]
  | b :: c :: rest =>
      if b == 13 then
        if c == newline then newline :: normalizeBreaks rest else newline :: normalizeBreaks (c :: rest)
      else b :: normalizeBreaks (c :: rest)

private def isAllowed (r : Rune) : Bool :=
  r.isValid && (r.code == 9 || r.code == 10 || (0x20 ≤ r.code && r.code != 0x7F && !(0x80 ≤ r.code
    && r.code < 0xA0 && r.code != 0x85) && r.code != 0xFFFE && r.code != 0xFFFF))

private def skipDirectives : Nat → Cursor → Option Cursor
  | 0, _ => none
  | fuel + 1, c => do
      let c ← c.next false
      if c.fresh && c.column == 0 && c.starts '%' then
        let line := c.rest.takeWhile (· != newline)
        skipDirectives fuel { c with rest := c.rest.drop line.length }
      else return c

def read (source : Text) : Option Node := do
  let unmarked := (dropStart? [0xEF, 0xBB, 0xBF] source).getD source
  let t := normalizeBreaks unmarked
  guard ((runes t).all isAllowed)
  let fuel := 4 * t.length + 16
  let c ← skipDirectives fuel ⟨t, 0, true, []⟩
  if c.rest.isEmpty then none
  let explicit := c.atMarker && startsWith "---" c.rest
  if c.atMarker && !explicit then none
  let start := if explicit then c.forward 3 else c
  let (node, c) ← readBlock fuel (-1) (!explicit) false start
  let c ← c.next false
  let isFlow := start.starts '[' || start.rest.head? == some 123
  if c.atEnd || isFlow then return node else none

end DeviceScript.Yaml

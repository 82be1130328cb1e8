import DeviceScript.Script.Arguments

/-!
From statements to linear code. Statements are taken one by one; open blocks wait on a stack
for one of their terminators, and the instruction of a block learns the line of the keyword
that follows it in its chain when that keyword is met.
-/

namespace DeviceScript

open Text

/-- A block that waits for one of its terminators: the instruction that will jump there, and
the line of the loop that a terminator may go back to. -/
structure OpenBlock where
  terminators : List Text
  instruction : Nat
  loopLine : Option Int
deriving Repr, DecidableEq

/-- What stays the same during an assembly. Lines of the source, if given, are quoted in
reports; a lenient assembly skips statements that are at fault. -/
structure AssemblyContext where
  schema : Schema
  file : Text
  source : Option (List Text)
  lenient : Bool

structure Assembly where
  script : Script
  sectionName : Text
  blocks : List OpenBlock
  skipped : List Fault

inductive Rejection where
  /-- The statement alone is at fault. -/
  | statement (fault : Fault)
  /-- The block it belongs to cannot be built, nor those around it. -/
  | block (fault : Fault)
  /-- Nothing after it can be trusted. -/
  | fatal (fault : Fault)

structure Assembled where
  result : Except Fault Script
  skipped : List Fault

namespace AssemblyContext

private def sourceLine (c : AssemblyContext) (line : Int) : Text :=
  match c.source with
  | none => []
  | some lines =>
      if 0 < line then dropRightWhile (· == 13) ((lines[(line - 1).toNat]?).getD []) else []

def fault (c : AssemblyContext) (located : Located) : Fault :=
  .located { Report.atLine .syntaxError located.problem.message c.file located.line with
    source := c.sourceLine located.line } none

def placed (c : AssemblyContext) (line : Int) (f : Fault) : Fault :=
  match f with
  | .located report cause =>
      .located { report with file := c.file, line := line, source := c.sourceLine line } cause
  | other => other

private def problem (c : AssemblyContext) (line : Int) (p : SyntaxProblem) : Fault := c.fault ⟨p, line⟩

end AssemblyContext

namespace Assembly

def start (file : Text) : Assembly := ⟨Script.empty file, [], [], []⟩

def emit (a : Assembly) (line : Int) (op : Opcode) (params : List Value) : Assembly :=
  { a with script := a.script.emit ⟨line, op, params⟩ }

def simple (c : AssemblyContext) (a : Assembly) (s : Statement) : Except Fault Assembly :=
  let line := s.head.line
  match s.head.kind with
  | .comment => .ok a
  | .sectionName =>
      if s.head.text.isEmpty then .error (c.fault ⟨.emptySection, line⟩)
      else
        let a := { a with sectionName := s.head.text, script := a.script.addSection s.head.text }
        .ok (a.emit line .device [.text s.head.text])
  | .command => .ok (a.emit line .command [.text s.head.text])
  | .inclusion =>
      let path := s.head.text
      if path.isEmpty then .error (c.fault ⟨.inclusionWithoutPath, line⟩)
      else if path.contains (ascii '$') then .error (c.fault ⟨.inclusionOfVariable path, line⟩)
      else
        let a := a.emit line .inclusion [.text path]
        .ok { a with script := a.script.addInclusion ⟨path, [], a.sectionName, line⟩ }
  | .operation =>
      match c.schema.resolve s.head c.file with
      | .error fault => .error (c.placed line fault)
      | .ok (.positional spec) =>
          match s.positional spec with
          | .error located => .error (c.fault located)
          | .ok params => .ok (a.emit line (Opcode.ofName spec.name) params)
      | .ok (.options spec) =>
          match s.options spec with
          | .error located => .error (c.fault located)
          | .ok params => .ok (a.emit line (Opcode.ofName spec.name) params)
      | .ok (.control _) => .error (c.fault ⟨.unknownToken s.head.kind.name, line⟩)
  | kind => .error (c.fault ⟨.unknownToken kind.name, line⟩)

def appendAt (code : List Instruction) (index : Nat) (v : Value) : List Instruction :=
  code.modify index fun i => i.append [v]

/-- Emits the instruction of a keyword, links the instruction before it in its chain, and opens
the block that its flow asks for. -/
def keyword (c : AssemblyContext) (a : Assembly) (kw : KeywordSpec) (s : Statement)
    (previous : Option Nat) (loopLine : Option Int) : Assembly × Option Rejection :=
  let line := s.head.line
  let index := a.script.code.length
  let linked : List Instruction :=
    match previous with
    | some i => appendAt a.script.code i (.int line)
    | none => a.script.code
  let emitted (params : List Value) : Assembly :=
    { a with script := { a.script with code := linked ++ [⟨line, kw.kind.opcode, params⟩] } }
  if kw.backLink && loopLine.isNone then
    (emitted [], some (.block (c.fault ⟨.outsideLoop kw.name, line⟩)))
  else
    let back : List Value := if kw.backLink then (loopLine.map Value.int).toList else []
    let loopLine := if kw.kind = .loop then some line else loopLine
    let opened (a : Assembly) (flow : List FlowElem) : Assembly :=
      let afterBody :=
        match flow with
        | .body :: rest => rest
        | flow => flow
      match afterBody with
      | [] => a
      | element :: _ => { a with blocks := ⟨element.terminatorNames, index, loopLine⟩ :: a.blocks }
    match kw.flow with
    | .expression optional :: flow =>
        match s.condition optional with
        | .error located => (emitted back, some (.fatal (c.fault located)))
        | .ok condition => (opened (emitted (back ++ condition)) flow, none)
    | flow =>
        if s.args.isEmpty then (opened (emitted back) flow, none)
        else (emitted back, some (.fatal (c.fault ⟨.takesNoExpression kw.name, line⟩)))

def take (c : AssemblyContext) (a : Assembly) (s : Statement) : Assembly × Option Rejection :=
  if s.head.kind = .keyword then
    match c.schema.resolve s.head c.file with
    | .error fault => (a, some (.statement (c.placed s.head.line fault)))
    | .ok (.control kw) =>
        match a.blocks with
        | [] =>
            if kw.opener then a.keyword c kw s none none
            else (a, some (.statement (c.fault ⟨.danglingTerminator s.head.text, s.head.line⟩)))
        | block :: outer =>
            if block.terminators.contains kw.name then
              { a with blocks := outer }.keyword c kw s (some block.instruction) block.loopLine
            else if kw.opener then a.keyword c kw s none none
            else
              (a, some (.statement
                (c.fault ⟨.unexpectedKeyword s.head.text block.terminators, s.head.line⟩)))
    | .ok _ => (a, none)
  else
    match a.simple c s with
    | .ok a => (a, none)
    | .error fault => (a, some (.statement fault))

/-- Takes statements to the end. A block that is still open then is an error, told at
`lastLine`. -/
def run (c : AssemblyContext) (lastLine : Int) : Assembly → List Statement → Assembled
  | a, [] =>
      match a.blocks with
      | [] => ⟨.ok a.script, a.skipped⟩
      | block :: _ => ⟨.error (c.fault ⟨.missingTerminator block.terminators, lastLine⟩), a.skipped⟩
  | a, s :: rest =>
      match a.take c s with
      | (a, none) => run c lastLine a rest
      | (a, some (.statement fault)) =>
          if c.lenient then run c lastLine { a with skipped := a.skipped ++ [fault] } rest
          else ⟨.error fault, a.skipped⟩
      | (a, some (.block fault)) =>
          if c.lenient then
            run c lastLine { a with blocks := [], skipped := a.skipped ++ [fault] } rest
          else ⟨.error fault, a.skipped⟩
      | (a, some (.fatal fault)) => ⟨.error fault, a.skipped⟩

end Assembly

def assemble (c : AssemblyContext) (tokens : List Token) : Assembled :=
  Assembly.run c ((tokens.getLast?.map Token.line).getD 0) (Assembly.start c.file) (statements tokens)

end DeviceScript

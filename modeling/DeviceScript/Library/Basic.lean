import DeviceScript.Files.Tree
import DeviceScript.Library.Placeholder
import DeviceScript.Run.Log
import DeviceScript.Script.Assembly

/-!
A library of compiled scripts. A script is compiled from its file once and kept by its path;
compiling a script also compiles everything that it includes, and refuses circles.
-/

namespace DeviceScript

open Text

structure CompileSettings where
  schema : Schema
  lookup : Lookup
  lenient : Bool
  includePaths : List Text

structure Library where
  scripts : List (Text × Script)
deriving Repr, DecidableEq

/-- What compiling came to, the library after it, and what was told on the way. -/
structure Compiled (α : Type) where
  result : Except Breakdown α
  library : Library
  log : List LogEntry

namespace CompileSettings

/-- The tokens of a source whose placeholders are filled in, line by line. A value that breaks a
line in two leaves a line that has no tokens at all. -/
def tokens? (s : CompileSettings) (source : Text) : Option (List Token) :=
  ((lines source).mapIdx fun i line =>
    Token.lineTokens? s.schema.vocabulary (Placeholder.expandLine s.lookup line) (i + 1)).mapM id
    |>.map List.flatten

/-- The places where an included path may be found. -/
def candidates (s : CompileSettings) (file path : Text) : List Text :=
  if Path.isAbsolute path then [path]
  else Path.join [Path.directory file, path] :: s.includePaths.map fun dir => Path.join [dir, path]

def resolve (s : CompileSettings) (t : FileTree) (file : Text) (i : Inclusion) :
    Except Fault Text :=
  match Placeholder.expandPath s.lookup i.raw with
  | .error missing =>
      .error (Fault.syntaxError
        ("unresolved include path '" ++ i.raw ++ "': no configuration entry for "
          ++ joinWith ", " (missing.map Placeholder.written)) file i.line)
  | .ok path =>
      match (s.candidates file path).find? t.isFile with
      | some found => .ok (Path.absolute (FileTree.pathOf t.cwd) found)
      | none =>
          .error (Fault.syntaxError
            ("include '" ++ i.raw ++ "' not found (resolved to '" ++ path ++ "')") file i.line)

/-- Puts resolved paths in the place of written ones. -/
def link (inclusions : List Inclusion) (i : Instruction) : Option Instruction :=
  if i.op = .inclusion then
    match i.params with
    | .text raw :: rest =>
        let found := (inclusions.reverse.find? fun inc => inc.raw == raw).map Inclusion.resolved
        some { i with params := .text (found.getD []) :: rest }
    | _ => none
  else some i

def linked (s : CompileSettings) (t : FileTree) (script : Script) : Except Breakdown Script :=
  let resolved := script.inclusions.mapM fun inc =>
    (s.resolve t script.path inc).map fun path => { inc with resolved := path }
  match resolved with
  | .error fault => .error (.fault fault)
  | .ok inclusions =>
      match script.code.mapM (link inclusions) with
      | none => .error .crash
      | some code => .ok { script with code := code, inclusions := inclusions }

def skippedEntry (path : Text) (f : Fault) : LogEntry :=
  ⟨.warn, "skipping statement", [("file", path), ("error", f.message)]⟩

def compiledEntry (s : Script) : LogEntry :=
  ⟨.debug, "compiled script",
    [("path", s.path), ("instructions", ofNat s.code.length),
     ("sections", ofNat s.sections.length), ("includes", ofNat s.inclusions.length)]⟩

/-- The script of one source, without what it includes. -/
def compileSource (s : CompileSettings) (t : FileTree) (path source : Text) :
    Except Breakdown Script × List LogEntry :=
  match s.tokens? source with
  | none => (.error .crash, [])
  | some tokens =>
      let done := assemble ⟨s.schema, path, some (lines source), s.lenient⟩ tokens
      let skipped := done.skipped.map (skippedEntry path)
      match done.result with
      | .error fault => (.error (.fault fault), skipped)
      | .ok script =>
          match s.linked t script with
          | .error breakdown => (.error breakdown, skipped)
          | .ok script => (.ok script, skipped ++ [compiledEntry script])

end CompileSettings

namespace Library

def empty : Library := ⟨[]⟩

def get? (l : Library) (path : Text) : Option Script :=
  (l.scripts.find? fun entry => entry.1 == path).map Prod.snd

def insert (l : Library) (path : Text) (script : Script) : Library :=
  ⟨l.scripts ++ [(path, script)]⟩

/-- The script of one file, without what it includes. It is kept if it compiles. -/
def fetch (s : CompileSettings) (t : FileTree) (l : Library) (path : Text) : Compiled Script :=
  match l.get? path with
  | some script => ⟨.ok script, l, []⟩
  | none =>
      match t.read path with
      | .error problem =>
          ⟨.error (.fault (.wrapped ("read script " ++ path) (.said (problem.message path)))), l, []⟩
      | .ok source =>
          match s.compileSource t path source with
          | (.error breakdown, log) => ⟨.error breakdown, l, log⟩
          | (.ok script, log) => ⟨.ok script, l.insert path script, log⟩

/-- A fault of an included script as the including one tells it. -/
def framed (script : Script) (i : Inclusion) (f : Fault) : Fault :=
  match f.report? with
  | some r => .located (r.addFrame ⟨script.path, i.line, -1⟩) f.cause?
  | none => .wrapped (script.path ++ ":" ++ ofInt i.line ++ ": include " ++ i.raw) f

def circle (script : Script) (i : Inclusion) (chain : List Text) : Fault :=
  Fault.syntaxError ("circular include: " ++ joinWith " -> " (chain ++ [i.resolved]))
    script.path i.line

/-- Visits inclusions in order, up to the first that breaks down. -/
def visitAll (visit : Library → Inclusion → Compiled Unit) : Library → List Inclusion → Compiled Unit
  | l, [] => ⟨.ok (), l, []⟩
  | l, i :: rest =>
      let one := visit l i
      match one.result with
      | .error breakdown => ⟨.error breakdown, one.library, one.log⟩
      | .ok () =>
          let others := visitAll visit one.library rest
          { others with log := one.log ++ others.log }

/-- One inclusion of a script: a circle, or a file to compile and to go on `below` it. -/
def fetchOne (s : CompileSettings) (t : FileTree)
    (below : Library → Script → List Text → Compiled Unit) (script : Script) (chain : List Text)
    (l : Library) (i : Inclusion) : Compiled Unit :=
  if chain.contains i.resolved then ⟨.error (.fault (circle script i chain)), l, []⟩
  else
    let one := fetch s t l i.resolved
    let all : Compiled Unit :=
      match one.result with
      | .error breakdown => ⟨.error breakdown, one.library, one.log⟩
      | .ok child =>
          let rest := below one.library child (chain ++ [i.resolved])
          { rest with log := one.log ++ rest.log }
    match all.result with
    | .error (.fault f) => { all with result := .error (.fault (framed script i f)) }
    | _ => all

/-- Compiles what a script includes. `chain` holds the paths on the way to it. -/
def fetchInclusions (s : CompileSettings) (t : FileTree) :
    Nat → Library → Script → List Text → Compiled Unit
  | 0, l, _, _ => ⟨.error .outOfFuel, l, []⟩
  | fuel + 1, l, script, chain =>
      visitAll (fetchOne s t (fetchInclusions s t fuel) script chain) l script.inclusions

/-- More scripts than can stand on one chain: each of them is a file or kept already. -/
def chainBound (t : FileTree) (l : Library) : Nat := t.files.length + l.scripts.length + 2

def withInclusions (s : CompileSettings) (t : FileTree) (path : Text) (one : Compiled Script) :
    Compiled Script :=
  match one.result with
  | .error _ => one
  | .ok script =>
      let all := fetchInclusions s t (chainBound t one.library) one.library script [path]
      ⟨all.result.map fun _ => script, all.library, one.log ++ all.log⟩

def compileFile (s : CompileSettings) (t : FileTree) (l : Library) (path : Text) : Compiled Script :=
  let path := Path.absolute (FileTree.pathOf t.cwd) path
  withInclusions s t path (fetch s t l path)

/-- Compiles a text that is not kept, and every script it includes. The name serves reports and
relative inclusions. -/
def compileText (s : CompileSettings) (t : FileTree) (l : Library) (name source : Text) :
    Compiled Script :=
  let path := Path.absolute (FileTree.pathOf t.cwd) name
  let (result, log) := s.compileSource t path source
  withInclusions s t path ⟨result, l, log⟩

def isKept (t : FileTree) (l : Library) (path : Text) : Bool :=
  (l.get? (Path.absolute (FileTree.pathOf t.cwd) path)).isSome

end Library
end DeviceScript

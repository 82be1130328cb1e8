import DeviceScript.Command.Basic
import DeviceScript.Token.Render

/-! Commands that look at scripts and schemas without running anything. -/

namespace DeviceScript.Command

open Text

def dump (s : Surroundings) (args : List Text) : Except CommandProblem Conclusion := do
  let flags ← FlagSet.parseFor ⟨"dump", commonFlags⟩ 1 args
  let (_, setup) : Config × Setup Unit ← s.prepare flags
  let compiled := Library.compileFile setup.settings s.files .empty (flags.rest.headD [])
  let notes := toldOf (flags.switch "verbose") compiled.log
  return match compiled.result with
    | .ok script => { Conclusion.ok s script.dump with notes := notes }
    | .error breakdown =>
        let conclusion := Conclusion.failed s (.broken breakdown)
        { conclusion with notes := notes ++ conclusion.notes }

private structure Checked where
  library : Library
  output : Text
  notes : List Note
  failed : Bool

private def checkOne (s : Surroundings) (settings : CompileSettings) (verbose : Bool)
    (done : Checked) (path : Text) : Except CommandProblem Checked :=
  let compiled := Library.compileFile settings s.files done.library path
  let notes := done.notes ++ toldOf verbose compiled.log
  match compiled.result with
  | .ok script =>
      .ok
        { done with
          library := compiled.library, notes := notes,
          output := done.output ++ path ++ ": ok (" ++ ofNat script.code.length
            ++ " instructions, " ++ ofNat script.inclusions.length ++ " includes)\n" }
  | .error (.fault f) =>
      .ok
        { done with
          library := compiled.library, failed := true,
          notes := notes ++ [.text (f.message ++ "\n\n")] }
  | .error breakdown => .error (.broken breakdown)

def check (s : Surroundings) (args : List Text) : Except CommandProblem Conclusion := do
  let flags ← FlagSet.parseFor ⟨"check", commonFlags⟩ 1 args
  let (_, setup) : Config × Setup Unit ← s.prepare flags
  let done ← flags.rest.foldlM (checkOne s setup.settings (flags.switch "verbose"))
    ⟨.empty, [], [], false⟩
  return ⟨if done.failed then 1 else 0, done.output, done.notes, s.files, 0⟩

/-- Writes the tokens of a script, its placeholders as they stand. -/
def tokens (s : Surroundings) (args : List Text) : Except CommandProblem Conclusion := do
  let flags ← FlagSet.parseFor ⟨"tokens", commonFlags⟩ 1 args
  let (_, setup) : Config × Setup Unit ← s.prepare flags
  let path := flags.rest.headD []
  let source ← (s.files.read path).mapError (CommandProblem.unreadable path)
  match Token.sourceTokens? setup.settings.schema.vocabulary source with
  | none => .error (.broken .crash)
  | some ts => return Conclusion.ok s (ts.flatMap fun t => t.render ++ "\n")

def listing (schema : Schema) : Text :=
  let operation (o : OperationSpec) : Text :=
    "  " ++ padRight 10 o.name ++ " " ++ padRight 10 o.mode.name ++ " " ++ o.describe ++ "\n"
  let keyword (k : KeywordSpec) : Text :=
    "  <" ++ k.name ++ ">  " ++ k.kind.name ++ " -> " ++ k.kind.opcode.name ++ "\n"
  "Operations:\n"
    ++ ((sorted schema.operationNames).filterMap schema.operation?).flatMap operation
    ++ "\nKeywords:\n"
    ++ ((sorted schema.keywordNames).filterMap schema.keyword?).flatMap keyword

def schema (s : Surroundings) (args : List Text) : Except CommandProblem Conclusion := do
  let flags ← FlagSet.parseFor ⟨"schema", commonFlags⟩ 0 args
  let (_, setup) : Config × Setup Unit ← s.prepare flags
  return Conclusion.ok s (listing setup.settings.schema)

end DeviceScript.Command

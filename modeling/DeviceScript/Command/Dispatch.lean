import DeviceScript.Command.Execution
import DeviceScript.Command.Inspection

/-! The command that the first argument names. -/

namespace DeviceScript.Command

open Text

def version : Text := "0.3.0"

def usage : Text :=
  ["dtscript - device test script compiler and runner",
   "",
   "Usage:",
   "  dtscript run [flags] <script>...    Compile and execute scripts",
   "  dtscript dump [flags] <script>      Print the compiled VM code",
   "  dtscript check [flags] <script>...  Compile without running",
   "  dtscript tokens [flags] <script>    Print the token stream",
   "  dtscript schema [flags]             List operations and keywords",
   "  dtscript version                    Show version information",
   "",
   "Run 'dtscript <command> -h' for the flags of a command.",
   "",
   "Examples:",
   "  dtscript run -config lab.toml -simulate smoke.dts",
   "  dtscript run -parallel 4 -format junit suites/*.dts > report.xml",
   "  dtscript dump boot.dts"].flatMap fun line => ofString line ++ "\n"

def work? (name : Text) :
    Option (Surroundings → List Text → Except CommandProblem Conclusion) :=
  let works : List (Text × (Surroundings → List Text → Except CommandProblem Conclusion)) :=
    [("run", run), ("dump", dump), ("check", check), ("tokens", tokens), ("schema", schema)]
  (works.find? fun entry => entry.1 == name).map Prod.snd

def perform (s : Surroundings) : List Text → Conclusion
  | [] => { Conclusion.ok s usage with status := 2 }
  | name :: args =>
      let among (names : List String) : Bool := names.any fun n => ofString n == name
      if among ["help", "--help", "-h"] then .ok s usage
      else if among ["version", "--version", "-v"] then
        .ok s ("dtscript " ++ version ++ " (commit unknown, built " ++ s.buildDate ++ ")\n")
      else
        match work? name with
        | some work => .ofExcept s (work s args)
        | none =>
            { Conclusion.ok s usage with
              status := 2, notes := [.text ("unknown command " ++ quote name ++ "\n\n")] }

end DeviceScript.Command

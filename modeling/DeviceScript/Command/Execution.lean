import DeviceScript.Command.Bench
import DeviceScript.Reporting.Render

/-! The command that runs scripts and reports on them. -/

namespace DeviceScript.Command

open Text

def runFlags : FlagSet :=
  ⟨"run", commonFlags ++
    [⟨"simulate", .switch, "run against a simulated device instead of the configured endpoints"⟩,
     ⟨"trace", .switch, "print every instruction before it runs"⟩,
     ⟨"format", .text "text", "report format: text, json or junit"⟩,
     ⟨"parallel", .int 1, "scripts to run at once"⟩,
     ⟨"missing", .text [], "unset variable policy: ignore, warn or error"⟩,
     ⟨"var", .assignment, "initial runtime variable name=value (repeatable)"⟩]⟩

/-- The policy that a flag names; without the flag it is that of the configuration. -/
def policyFor (config : Config) (named : Text) : Except CommandProblem MissingPolicy :=
  if named.isEmpty then .ok config.missing
  else
    match MissingPolicy.ofName? named with
    | some policy => .ok policy
    | none => .error (.policy named)

def formatFor (named : Text) : Except CommandProblem ReportFormat :=
  match ReportFormat.ofName? named with
  | some format => .ok format
  | none => .error (.format named)

def storeFor (files : FileTree) (config : Config) : Except CommandProblem (Option Store) :=
  if config.dsn.isEmpty then .ok none
  else ((Store.openAt files false config.driver config.dsn).map some).mapError CommandProblem.store

/-- Compiles and runs scripts, then writes the report. The command succeeds if every script did. -/
def run (s : Surroundings) (args : List Text) : Except CommandProblem Conclusion := do
  let flags ← runFlags.parseFor 1 args
  let (config, setup) ← s.prepare flags
  let missing ← policyFor config (flags.text "missing")
  let format ← formatFor (flags.text "format")
  let store ← storeFor s.files config
  let verbose := flags.switch "verbose"
  let plan : BenchPlan :=
    { surroundings := s, setup, urls := config.devices, simulate := flags.switch "simulate"
      trace := flags.switch "trace", verbose, missing
      vars := Vars.ofList (flags.assignments "var") }
  let (runs, bench) ← (plan.runScripts (.new store) flags.rest).mapError CommandProblem.broken
  return { status := if runs.all FinishedRun.passed then 0 else 1
           output := format.render ⟨verbose, false⟩ runs (RunStats.of runs)
           notes := bench.notes
           files := (bench.store.map fun st => st.save s.files).getD s.files
           paused := bench.clock }

end DeviceScript.Command

import DeviceScript.Command.Flags
import DeviceScript.Library.Setup
import DeviceScript.Outcome.Store
import DeviceScript.Schema.Standard
import DeviceScript.Schema.Validation
import DeviceScript.Session.WebSocket

/-!
Commands as functions: from arguments and surroundings to a status, an output, notes on the side,
and the files as they are left.
-/

namespace DeviceScript

open Text

/-- What is found in the variables of the loop over the scripts when one of them is run: the place
of a script, and the slot that its run is put into. -/
structure Reading where
  script : Nat
  slot : Nat
deriving Repr, DecidableEq

namespace Reading

/-- Every pass of the loop has its own variables. -/
def own (pass : Nat) : Reading := ⟨pass, pass⟩

/-- Where all passes share the variables, these may be those of a pass that has come since. -/
structure Since (count pass : Nat) (r : Reading) : Prop where
  script : pass ≤ r.script ∧ r.script < count
  slot : pass ≤ r.slot ∧ r.slot < count

end Reading

structure Surroundings where
  files : FileTree
  network : Network
  buildDate : Text
  /-- The identifiers of the runs of one command, by their numbers. -/
  runId : Nat → Text
  /-- How many instructions of one script are executed at most. -/
  patience : Nat
  /-- What each pass over the scripts reads. A build decides whose the variables are; those of the
  passes are their own unless it is said otherwise. -/
  reading : Nat → Reading := .own

inductive Note where
  | text (t : Text)
  | log (entry : LogEntry)
deriving Repr, DecidableEq

def Note.render : Note → Text
  | text t => t
  | log entry => entry.render ++ "\n"

structure Conclusion where
  status : Nat
  output : Text
  notes : List Note
  files : FileTree
  /-- How long scripts have paused, in nanoseconds. -/
  paused : Int
deriving Repr, DecidableEq

inductive CommandProblem where
  | flags (set : FlagSet) (problem : FlagProblem)
  | fewScripts (set : FlagSet) (least : Nat)
  | config (problem : ConfigProblem)
  | schemaUnopened (path : Text) (problem : PathProblem)
  | schemaUnusable (path : Text) (problem : SchemaFault)
  | registry (problem : RegistryProblem)
  | policy (name : Text)
  | format (name : Text)
  | store (problem : StoreProblem)
  | unreadable (path : Text) (problem : PathProblem)
  | broken (breakdown : Breakdown)

namespace CommandProblem

/-- What is told about a problem. A flag that cannot be read is told before and after the usage. -/
def message : CommandProblem → Text
  | flags set .help => set.usage
  | flags set problem => problem.message ++ "\n" ++ set.usage ++ problem.message ++ "\n"
  | fewScripts set least =>
      set.command ++ ": expected at least " ++ ofNat least ++ " script argument(s)\n" ++ set.usage
  | config problem => problem.message ++ "\n"
  | schemaUnopened path problem => "open schema: " ++ problem.message path ++ "\n"
  | schemaUnusable path problem => "schema " ++ path ++ ": " ++ problem.message ++ "\n"
  | registry problem => problem.message ++ "\n"
  | policy name => "invalid -missing " ++ quote name ++ "\n"
  | format name => "unknown report format " ++ quote name ++ "\n"
  | store problem => problem.message ++ "\n"
  | unreadable path problem => problem.message path ++ "\n"
  | broken (.fault f) => f.message ++ "\n"
  | broken .crash => "crashed\n"
  | broken .outOfFuel => "gave up\n"

def status : CommandProblem → Nat
  | broken .crash => 2
  | broken .outOfFuel => 2
  | _ => 1

end CommandProblem

namespace Conclusion

def ok (s : Surroundings) (output : Text) : Conclusion := ⟨0, output, [], s.files, 0⟩

def failed (s : Surroundings) (problem : CommandProblem) : Conclusion :=
  ⟨problem.status, [], [.text problem.message], s.files, 0⟩

def ofExcept (s : Surroundings) : Except CommandProblem Conclusion → Conclusion
  | .ok c => c
  | .error problem => failed s problem

end Conclusion

def toldOf (verbose : Bool) (log : List LogEntry) : List Note :=
  (log.filter fun entry => verbose || entry.level != .debug).map Note.log

def commonFlags : List FlagSpec :=
  [⟨"config", .text [], "TOML configuration file"⟩,
   ⟨"schema", .text [], "schema file overriding the built-in one"⟩,
   ⟨"lenient", .switch, "skip lines with syntax errors instead of failing"⟩,
   ⟨"verbose", .switch, "debug logging"⟩]

namespace FlagSet

/-- Reads flags that at least some scripts have to follow. -/
def parseFor (set : FlagSet) (least : Nat) (args : List Text) : Except CommandProblem Parsed :=
  match set.parse args with
  | .error problem => .error (.flags set problem)
  | .ok parsed =>
      if parsed.rest.length < least then .error (.fewScripts set least) else .ok parsed

end FlagSet

namespace Surroundings

def schemaAt (s : Surroundings) (path : Text) : Except CommandProblem Schema :=
  if path.isEmpty then .ok Schema.standard
  else
    match s.files.read path with
    | .ok content => (Schema.load content).mapError (.schemaUnusable path)
    | .error .isDirectory => .error (.schemaUnusable path .undecodable)
    | .error problem => .error (.schemaUnopened path problem)

/-- The configuration that the flags name and what scripts are compiled and run with. A schema
named by a flag comes before that of the configuration. -/
def prepare {ω : Type} (s : Surroundings) (flags : Parsed) :
    Except CommandProblem (Config × Setup ω) := do
  let path := flags.text "config"
  let config ←
    if path.isEmpty then .ok Config.standard
    else (Config.load s.files path).mapError CommandProblem.config
  let named := flags.text "schema"
  let schema ← s.schemaAt (if named.isEmpty then config.schema else named)
  let setup ← (Setup.of config schema (flags.switch "lenient")).mapError CommandProblem.registry
  return (config, setup)

end Surroundings
end DeviceScript

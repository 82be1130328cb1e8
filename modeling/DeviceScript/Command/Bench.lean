import DeviceScript.Command.Basic
import DeviceScript.Reporting.Basic
import DeviceScript.Run.Machine
import DeviceScript.Session.Simulated

/-!
The bench that a command runs scripts on, one after the other. Every script has a session of its
own; the compiled scripts and the results are shared.
-/

namespace DeviceScript

open Text

inductive Link where
  | simulated (s : Simulated)
  | webSocket (s : WebSocket)
deriving Repr, DecidableEq

structure Bench where
  library : Library
  link : Link
  results : List Result
  /-- Where results are kept beyond the command. -/
  store : Option Store
  /-- Nanoseconds that have passed; only pauses take time. -/
  clock : Int
  notes : List Note
deriving Repr, DecidableEq

structure BenchPlan where
  surroundings : Surroundings
  setup : Setup Bench
  urls : List (Text × Text)
  simulate : Bool
  trace : Bool
  verbose : Bool
  missing : MissingPolicy
  vars : Vars

namespace Bench

def new (store : Option Store) : Bench := ⟨.empty, .simulated .empty, [], store, 0, []⟩

def tell (w : Bench) (notes : List Note) : Bench := { w with notes := w.notes ++ notes }

def switchDevice (network : Network) (name : Text) (w : Bench) : Reply Bench Unit :=
  match w.link with
  | .simulated s =>
      let (answer, s) := s.switchDevice name
      (answer, { w with link := .simulated s })
  | .webSocket s =>
      let (answer, s) := s.switchDevice network false name
      (answer, { w with link := .webSocket s })

/-- Output that comes with a fault is of no use to a script. -/
def send (command : Text) (w : Bench) : Reply Bench Text :=
  match w.link with
  | .simulated s =>
      let (answer, s) := s.send false command
      (answer, { w with link := .simulated s })
  | .webSocket s =>
      let (output, fault, s) := s.send false command
      ((fault.map Except.error).getD (.ok output), { w with link := .webSocket s })

def await (pattern : Text) (clear : Bool) (w : Bench) : Reply Bench Bool :=
  match w.link with
  | .simulated s =>
      let (answer, s) := s.await false pattern clear
      (answer, { w with link := .simulated s })
  | .webSocket s =>
      let (answer, s) := s.await false pattern clear
      (answer, { w with link := .webSocket s })

/-- Results go to the memory first, then to the store. -/
def record (r : Result) (w : Bench) : Reply Bench Unit :=
  let w := { w with results := w.results ++ [r] }
  match w.store with
  | none => (.ok (), w)
  | some store =>
      let (answer, store) := store.record false r
      (answer.mapError fun problem => .said problem.message, { w with store := some store })

end Bench

namespace BenchPlan

def compile (p : BenchPlan) (path : Text) (w : Bench) : Except Breakdown Script × Bench :=
  let compiled := Library.compileFile p.setup.settings p.surroundings.files w.library path
  (compiled.result,
    { w with library := compiled.library }.tell (toldOf p.verbose compiled.log))

/-- The host of one run. Its records carry the script and the run. -/
def host (p : BenchPlan) (path runId : Text) : Host Bench :=
  { canceled := fun _ => false
    pause := fun time w => { w with clock := w.clock + time }
    log := fun entry w =>
      w.tell (toldOf p.verbose [{ entry with
        fields := ("script", Path.base path) :: ("run", runId) :: entry.fields }])
    session := some
      { switchDevice := Bench.switchDevice p.surroundings.network
        send := Bench.send
        await := fun pattern _ clear w => w.await pattern clear }
    record := some Bench.record
    stopRequested := fun _ => false
    observe := fun boundary w =>
      if p.trace then w.tell [.text (boundary.trace (Path.base path) ++ "\n")] else w
    registry := some p.setup.registry
    load := some p.compile }

def runScript (p : BenchPlan) (w : Bench) (path runId : Text) :
    Except Breakdown (FinishedRun × Bench) :=
  let finished (fault : Option Fault) (after : Bench) : FinishedRun × Bench :=
    (⟨runId, path, after.clock - w.clock, fault, Result.ofRun runId after.results⟩, after)
  match p.compile path w with
  | (.error (.fault f), w) => .ok (finished (some f) w)
  | (.error breakdown, _) => .error breakdown
  | (.ok script, w) =>
      let link := if p.simulate then .simulated .empty else .webSocket (.new p.urls)
      let machine := Machine.start script p.vars p.missing runId
      let done := machine.run (p.host path runId) p.surroundings.patience { w with link := link }
      match done.breakdown with
      | none => .ok (finished none done.world)
      | some (.fault f) => .ok (finished (some f) done.world)
      | some breakdown => .error breakdown

/-- Runs scripts in order, numbering them from `first`. -/
def runInTurn (p : BenchPlan) (first : Nat) (w : Bench) :
    List Text → Except Breakdown (List FinishedRun × Bench)
  | [] => .ok ([], w)
  | path :: rest => do
      let (run, w) ← p.runScript w path (p.surroundings.runId first)
      let (runs, w) ← p.runInTurn (first + 1) w rest
      return (run :: runs, w)

/-- The scripts that the passes over a list come to run. -/
def read (p : BenchPlan) (scripts : List Text) : List Text :=
  scripts.mapIdx fun pass path => scripts.getD (p.surroundings.reading pass).script path

/-- The runs by their slots. Of several runs for one slot the last is left there, and a slot that no
pass has read stays empty. -/
def slots (p : BenchPlan) (runs : List FinishedRun) : List (Option FinishedRun) :=
  (List.range runs.length).map fun slot =>
    (runs.zipIdx.reverse.find? fun entry => (p.surroundings.reading entry.2).slot == slot).map
      Prod.fst

/-- Runs scripts for a report, which crashes at a slot that is empty. -/
def runScripts (p : BenchPlan) (w : Bench) (scripts : List Text) :
    Except Breakdown (List FinishedRun × Bench) := do
  let (runs, w) ← p.runInTurn 0 w (p.read scripts)
  match (p.slots runs).mapM id with
  | some runs => return (runs, w)
  | none => throw .crash

end BenchPlan
end DeviceScript

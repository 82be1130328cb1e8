import DeviceScript.Proofs.Operation.Views
import DeviceScript.Proofs.Parallel.Compiling
import DeviceScript.Proofs.Run.Recording

/-!
Running a script as a program beside others that run. Its machine, its session and its clock are its
own; it asks for the scripts that it includes, and what its instructions record goes to the memory
that all share. Whatever the others do, the program comes to what running the script comes to on a
bench where no result has its id yet. What is told on the way is left out: nothing depends on it.
-/

namespace DeviceScript

open Text

namespace BenchPlan

/-- The host of a run whose notes nobody takes. -/
def quiet (p : BenchPlan) : Host Bench :=
  { p.host [] [] with
    log := fun _ w => w
    observe := fun _ w => w
    load := some fun path w =>
      let compiled := Library.compileFile p.setup.settings p.surroundings.files w.library path
      (compiled.result, { w with library := compiled.library }) }

/-- What of it is the run's own: all but the compiler. -/
def detached (p : BenchPlan) : Host Bench := { p.quiet with load := none }

end BenchPlan

namespace Asking

def recordAll {α : Type} (program : Asking α) : List Result → Asking α
  | [] => program
  | result :: rest => .ask (.record result) fun _ => recordAll program rest

section Programs

variable (p : BenchPlan)

/-- Executes an instruction on a bench of its own and hands its results to the common memory. -/
def instruction (m : Machine) (i : Instruction) (w : Bench) : Asking (Progress Bench) :=
  let q := m.step p.detached (fun m w => ⟨m, w, some .crash⟩) i w
  recordAll (.done { q with world := { q.world with results := [] } }) q.world.results

def inclusion (runChild : Machine → Bench → Asking (Progress Bench)) (m : Machine) (i : Instruction)
    (w : Bench) : Asking (Progress Bench) :=
  match i.params with
  | [] => .done ⟨m, w, some .crash⟩
  | operand :: _ =>
      if maxDepth ≤ m.depth then .done (m.refuse .handler (.nestedTooDeep operand.render maxDepth) w)
      else
        (compileFile p.setup.settings p.surroundings.files operand.render).bind fun found =>
          match found with
          | .error (.fault f) => .done (.failed (m.locate .syntaxError f) m w)
          | .error other => .done ⟨m, w, some other⟩
          | .ok script =>
              (runChild (m.child script) w).bind fun q => .done (m.concluded p.detached i.line q)

/-- Goes on after an instruction, or ends with what it broke down at. -/
def settled (run : Machine → Bench → Asking (Progress Bench)) (m : Machine) (i : Instruction)
    (q : Progress Bench) : Asking (Progress Bench) :=
  match q.breakdown with
  | some (.fault f) => .done (.failed f { q.machine with state := .aborted } q.world)
  | some other => .done ⟨q.machine, q.world, some other⟩
  | none =>
      if q.machine.abortReason.isEmpty then run q.machine q.world
      else
        .done (.failed
          (.located (Report.atInstruction .abort q.machine.abortReason m.script.path i.line m.pc)
            none)
          { q.machine with state := .aborted } q.world)

/-- Runs a machine on a bench of its own. Nothing asks it to stop. -/
def machine : Nat → Machine → Bench → Asking (Progress Bench)
  | 0, m, w => .done ⟨m, w, some .outOfFuel⟩
  | fuel + 1, m, w =>
      if m.state ≠ .running then .done (.ok m w)
      else
        match m.script.code[m.pc]? with
        | none => .done (.ok { m with state := .halted } w)
        | some i =>
            (if i.op = .inclusion then inclusion p (machine fuel) m i w
              else instruction p m i w).bind (settled (machine fuel) m i)

def script (path runId : Text) : Asking (Except Breakdown FinishedRun) :=
  let finished (fault : Option Fault) (time : Int) : Asking (Except Breakdown FinishedRun) :=
    .ask .gather fun rs => .done (.ok ⟨runId, path, time, fault, Result.ofRun runId rs⟩)
  (compileFile p.setup.settings p.surroundings.files path).bind fun found =>
    match found with
    | .error (.fault f) => finished (some f) 0
    | .error breakdown => .done (.error breakdown)
    | .ok script =>
        (machine p p.surroundings.patience (.start script p.vars p.missing runId)
            (.new none)).bind fun q =>
          match q.breakdown with
          | none => finished none q.world.clock
          | some (.fault f) => finished (some f) q.world.clock
          | some breakdown => .done (.error breakdown)

end Programs

end Asking

/-- A bench as a part of a larger one, that has a library, results from before and a time at which
the run was started. -/
def Bench.within (w : Bench) (library : Library) (past : List Result) (since : Int) : Bench :=
  { w with library := library, results := past ++ w.results, clock := since + w.clock }

def Bench.untold (w : Bench) : Bench := { w with notes := [] }

section Views

variable (p : BenchPlan) {schema : Schema} {aliases : Aliases}
variable (built : Registry.withAliases schema aliases = .ok p.setup.registry)

theorem detached_services_within (library : Library) (past : List Result) (since : Int) :
    p.detached.toServices.Mirrors p.detached.toServices (·.within library past since) where
  canceled _ := rfl
  pause nanos w := by
    simp only [BenchPlan.detached, BenchPlan.quiet, BenchPlan.host, Bench.within, Int.add_assoc]
  log _ _ := rfl
  session := by
    refine .some ⟨?_, ?_⟩
    · intro command w
      simp only [Bench.send, Bench.within, Reply.seen]
      cases w.link <;> rfl
    · intro pattern nanos clear w
      simp only [Bench.await, Bench.within, Reply.seen]
      cases w.link <;> rfl
  record := by
    refine .some ?_
    intro result w
    simp only [Bench.record, Bench.within, Reply.seen, List.append_assoc]
    cases w.store <;> rfl

include built in
/-- The larger bench shows what happens on the smaller one. -/
theorem detached_within (library : Library) (past : List Result) (since : Int) :
    p.detached.Mirrors p.detached (·.within library past since) := by
  refine (detached_services_within p library past since).host built rfl rfl (fun _ _ => rfl)
    (fun _ => rfl) ?_ .none
  rintro a b ⟨⟩ ⟨⟩ name w
  simp only [Bench.switchDevice, Bench.within, Reply.seen]
  cases w.link <;> rfl

theorem host_services_untold (path runId : Text) :
    (p.host path runId).toServices.Mirrors p.quiet.toServices Bench.untold where
  canceled _ := rfl
  pause _ _ := rfl
  log _ _ := rfl
  session := by
    refine .some ⟨?_, ?_⟩
    · intro command w
      simp only [Bench.send, Bench.untold, Reply.seen]
      cases w.link <;> rfl
    · intro pattern nanos clear w
      simp only [Bench.await, Bench.untold, Reply.seen]
      cases w.link <;> rfl
  record := by
    refine .some ?_
    intro result w
    simp only [Bench.record, Bench.untold, Reply.seen]
    cases w.store <;> rfl

include built in
theorem host_untold (path runId : Text) : (p.host path runId).Mirrors p.quiet Bench.untold := by
  refine (host_services_untold p path runId).host built rfl rfl ?_ (fun _ => rfl) ?_ ?_
  · intro boundary w
    simp only [BenchPlan.host]
    split <;> rfl
  · rintro a b ⟨⟩ ⟨⟩ name w
    simp only [Bench.switchDevice, Bench.untold, Reply.seen]
    cases w.link <;> rfl
  · exact .some fun _ _ => rfl

end Views

theorem Machine.inclusion_loaded {ω : Type} {h : Host ω}
    {load : Text → ω → Except Breakdown Script × ω} (given : h.load = some load) {m : Machine}
    (shallow : ¬ maxDepth ≤ m.depth) (child : Machine → ω → Progress ω) (line : Int)
    (operand : Value) (rest : List Value) (w : ω) :
    m.inclusion h child line (operand :: rest) w =
      match load operand.render w with
      | (.error (.fault f), v) => .failed (m.locate .syntaxError f) m v
      | (.error other, v) => ⟨m, v, some other⟩
      | (.ok script, v) =>
          m.concluded h line (child (m.child script) (m.announced h operand.render v)) := by
  unfold inclusion
  simp only [given, shallow, ↓reduceIte]
  rfl

section Steps

variable {p : BenchPlan} {schema : Schema} {aliases : Aliases}
variable (built : Registry.withAliases schema aliases = .ok p.setup.registry)

theorem detached_remembers (p : BenchPlan) : p.detached.Remembers Bench.results where
  record := (bench_remembers p [] []).record
  log _ _ := rfl
  observe _ _ := rfl
  pause _ _ := rfl
  switches := (bench_remembers p [] []).switches
  sends := (bench_remembers p [] []).sends
  awaits := (bench_remembers p [] []).awaits
  loads := nofun

include built in
/-- What an instruction records carries the id of its run. -/
theorem instruction_records (m : Machine) {i : Instruction} (plain : i.op ≠ .inclusion)
    (child : Machine → Bench → Progress Bench) (w : Bench) :
    ∃ new, (m.step p.detached child i w).world.results = w.results ++ new ∧
      ∀ r ∈ new, r.runId = m.runId := by
  rcases Machine.step_executes p.detached m i w with ⟨text, -, step⟩ | ⟨told, unchanged, step⟩
  · rw [step child]
    exact ⟨[], (List.append_nil _).symm, nofun⟩
  · have same : told.results = w.results :=
      unchanged (fun v => v.results = w.results) (fun _ _ held => held) (fun _ _ held => held) rfl
    rw [step child]
    refine ⟨(⟨m, i, told⟩ : Execution Bench).results p.detached, ?_, ?_⟩
    · rw [← same]
      exact execute_records (detached_remembers p) built rfl ⟨m, i, told⟩ plain child
    · intro r member
      unfold Execution.results at member
      obtain ⟨verdict, -, rfl⟩ := Option.map_eq_some_iff.mp (Option.mem_toList.mp member)
      rfl

theorem step_detached (m : Machine) {i : Instruction} (plain : i.op ≠ .inclusion)
    (child other : Machine → Bench → Progress Bench) (w : Bench) :
    m.step p.quiet child i w = m.step p.detached other i w := by
  obtain ⟨line, op, params⟩ := i
  unfold Machine.step Machine.execute
  cases op with
  | inclusion => exact absurd rfl plain
  | _ => rfl

include built in
theorem step_within (m : Machine) {i : Instruction} (plain : i.op ≠ .inclusion)
    (child : Machine → Bench → Progress Bench) (library : Library) (past : List Result)
    (since : Int) (w : Bench) :
    m.step p.quiet child i (w.within library past since) =
      (m.step p.detached (fun m w => ⟨m, w, some .crash⟩) i w).seen
        (·.within library past since) := by
  rw [step_detached m plain child fun m w => ⟨m, w, some .crash⟩]
  exact (step_seen (detached_within p built library past since) (fun _ _ => rfl) m i w).symm

theorem concluded_results (m : Machine) (line : Int) (q : Progress Bench) :
    (m.concluded p.detached line q).world.results = q.world.results := by
  unfold Machine.concluded
  split
  · exact Machine.resume_keeps ((detached_remembers p).keeps_uncalled q.world.results) m rfl q.machine
  · rw [Machine.framed_world]
  · rfl

include built in
theorem concluded_within (m : Machine) (line : Int) (library : Library) (past : List Result)
    (since : Int) (q : Progress Bench) :
    m.concluded p.quiet line (q.seen (·.within library past since)) =
      (m.concluded p.detached line q).seen (·.within library past since) := by
  unfold Machine.concluded
  simp only [Progress.seen]
  cases q.breakdown with
  | none => exact (resume_seen (detached_within p built library past since) m _ _).symm
  | some b =>
      cases b with
      | fault f =>
          show m.framed line f (q.world.within library past since) =
            (m.framed line f q.world).seen (·.within library past since)
          rw [framed_seen]
      | _ => rfl

end Steps

section Runs

variable {p : BenchPlan} {schema : Schema} {aliases : Aliases}
variable (built : Registry.withAliases schema aliases = .ok p.setup.registry)

/-- A library of scripts that the files of the plan compile to. -/
abbrev BenchPlan.Keeps (p : BenchPlan) (library : Library) : Prop :=
  Library.Grown p.setup.settings p.surroundings.files .empty library

/-- Progress on a bench of its own, next to the same progress on a larger bench: the results are in
the common memory, where they were added after what the run had recorded before. -/
structure Beside (p : BenchPlan) (id : Text) (past : List Result) (since : Int)
    (before : List Result) (alone : Progress Bench) (now : List Result) (q : Progress Bench) :
    Prop where
  empty : q.world.results = []
  shows : ∃ library new, p.Keeps library ∧
    alone = q.seen (·.within library (past ++ new) since) ∧ now = before ++ new ∧
      ∀ r ∈ new, r.runId = id

abbrev BenchPlan.compiles (p : BenchPlan) : Text → Except Breakdown Script :=
  p.setup.settings.own p.surroundings.files

/-- However much is kept, a path compiles to what it compiles to when nothing is. -/
theorem keeps_compiles {p : BenchPlan} {library : Library} (keeps : p.Keeps library) (path : Text) :
    let compiled := Library.compileFile p.setup.settings p.surroundings.files library path
    compiled.result =
      (Library.compileFile p.setup.settings p.surroundings.files .empty path).result ∧
      p.Keeps compiled.library := by
  constructor
  · have known := keeps.given.symm
    exact (@Library.call_result_same _ _ _ _ (.file path) known Library.empty_resolved).symm
  · exact keeps.trans (Library.call_grown _ _ library (.file path))

theorem quiet_loads (p : BenchPlan) :
    ∃ load, p.quiet.load = some load ∧ ∀ {library : Library}, p.Keeps library →
      ∀ (path : Text) (w : Bench) (past : List Result) (since : Int),
        ∃ library', p.Keeps library' ∧ load path (w.within library past since) =
          ((Library.compileFile p.setup.settings p.surroundings.files .empty path).result,
            w.within library' past since) := by
  refine ⟨_, rfl, ?_⟩
  intro library grown path w past since
  obtain ⟨result, keeps⟩ := keeps_compiles grown path
  exact ⟨_, keeps, Prod.ext result rfl⟩

namespace Asking

theorem record_all_comes {own : Text → Except Breakdown Script} {id : Text} {α : Type} {a : α}
    {rs : List Result} (named : ∀ r ∈ rs, r.runId = id) (paths : List Text) (mine : List Result) :
    (recordAll (.done a) rs).ComesTo own id (fun now b => now = mine ++ rs ∧ b = a) paths mine := by
  induction rs generalizing mine with
  | nil => exact ⟨(List.append_nil mine).symm, rfl⟩
  | cons r rest ih =>
      refine ⟨named r List.mem_cons_self, ?_⟩
      refine comes_mono (ih (fun r member => named r (List.mem_cons_of_mem _ member)) _) ?_
      rintro now b ⟨rfl, rfl⟩
      exact ⟨by simp, rfl⟩

section Machines

variable {id : Text} {past mine : List Result} {since : Int} {library : Library} {m : Machine}
variable {i : Instruction} {w : Bench} {paths : List Text}

include built

theorem instruction_comes (plain : i.op ≠ .inclusion) (grown : p.Keeps library)
    (empty : w.results = []) (named : m.runId = id) (child : Machine → Bench → Progress Bench) :
    (instruction p m i w).ComesTo p.compiles id
      (Beside p id past since mine (m.step p.quiet child i (w.within library past since))) paths
      mine := by
  obtain ⟨new, recorded, each⟩ :=
    instruction_records built m plain (fun m w => ⟨m, w, some .crash⟩) w
  rw [empty, List.nil_append] at recorded
  rw [step_within built m plain child library past since w]
  unfold instruction
  simp only
  generalize m.step p.detached (fun m w => ⟨m, w, some .crash⟩) i w = q at recorded ⊢
  rw [recorded]
  refine comes_mono (record_all_comes (fun r member => (each r member).trans named) paths mine) ?_
  rintro now b ⟨rfl, rfl⟩
  refine ⟨rfl, library, new, grown, ?_, rfl, fun r member => (each r member).trans named⟩
  simp [Progress.seen, Bench.within, recorded]

omit built in
theorem beside_done (grown : p.Keeps library) (empty : w.results = []) (b : Option Breakdown) :
    Beside p id past since mine ⟨m, w.within library past since, b⟩ mine ⟨m, w, b⟩ :=
  ⟨empty, library, [], grown, by simp [Progress.seen], by simp, nofun⟩

omit built in
theorem beside_trans {now later : List Result} {alone : Progress Bench} {q : Progress Bench}
    {new : List Result} (named : ∀ r ∈ new, r.runId = id) (same : now = mine ++ new)
    (further : Beside p id (past ++ new) since now alone later q) :
    Beside p id past since mine alone later q := by
  obtain ⟨empty, library, more, grown, seen, rfl, each⟩ := further
  subst same
  refine ⟨empty, library, new ++ more, grown, ?_, List.append_assoc .., ?_⟩
  · rw [seen, List.append_assoc]
  · intro r member
    rcases List.mem_append.mp member with first | second
    · exact named r first
    · exact each r second

end Machines

/-- Running a machine beside others comes to what running it on the larger bench comes to. -/
def Runs (p : BenchPlan) (id : Text) (since : Int) (fuel : Nat) : Prop :=
  ∀ (m : Machine) (w : Bench) (library : Library) (past : List Result) (paths : List Text)
    (mine : List Result), w.results = [] → m.runId = id → p.Keeps library →
    (machine p fuel m w).ComesTo p.compiles id
      (Beside p id past since mine (m.run p.quiet fuel (w.within library past since))) paths mine

section Machines

variable {id : Text} {past mine : List Result} {since : Int} {library : Library} {m : Machine}
variable {i : Instruction} {w : Bench} {paths : List Text} {fuel : Nat}

include built

theorem inclusion_comes (below : Runs p id since fuel) (op : i.op = .inclusion)
    (grown : p.Keeps library) (empty : w.results = []) (named : m.runId = id) :
    (inclusion p (machine p fuel) m i w).ComesTo p.compiles id
      (Beside p id past since mine
        (m.step p.quiet (Machine.run p.quiet fuel) i (w.within library past since))) paths mine := by
  rw [Machine.step_inclusion p.quiet _ m op]
  unfold inclusion
  cases i.params with
  | nil => exact beside_done grown empty _
  | cons operand rest =>
      obtain ⟨load, given, loads⟩ := quiet_loads p
      by_cases deep : maxDepth ≤ m.depth
      · unfold Machine.inclusion
        simp only [given, deep, ↓reduceIte]
        exact beside_done grown empty _
      · rw [Machine.inclusion_loaded given deep]
        simp only [deep, ↓reduceIte]
        refine comes_bind (compile_file_yields operand.render paths mine) ?_
        rintro paths now found ⟨rfl, rfl⟩
        obtain ⟨library', grown', loaded⟩ := loads grown operand.render w past since
        rw [show load operand.render (p.quiet.observe _ (w.within library past since)) = _ from
          loaded]
        cases (Library.compileFile p.setup.settings p.surroundings.files .empty
            operand.render).result with
        | error b => cases b <;> exact beside_done grown' empty _
        | ok script =>
            refine comes_bind (below (m.child script) w _ past paths now empty named grown') ?_
            rintro paths later q ⟨still, library'', new, grown'', seen, same, each⟩
            refine ⟨(concluded_results m i.line q).trans still, library'', new, grown'', ?_, same,
              each⟩
            rw [← concluded_within built, ← seen]
            rfl

omit built in
theorem settled_comes (onward : Runs p id since fuel) {q alone : Progress Bench}
    (named : q.machine.runId = id) {now : List Result}
    (beside : Beside p id past since mine alone now q) :
    (settled (machine p fuel) m i q).ComesTo p.compiles id
      (Beside p id past since mine (m.settled p.quiet fuel i alone)) paths now := by
  obtain ⟨still, library, new, grown, rfl, same, each⟩ := beside
  have ends (m' : Machine) (b : Option Breakdown) :
      (Asking.done ⟨m', q.world, b⟩).ComesTo p.compiles id
        (Beside p id past since mine ⟨m', q.world.within library (past ++ new) since, b⟩) paths
        now :=
    ⟨still, library, new, grown, rfl, same, each⟩
  unfold settled Machine.settled
  simp only [Progress.seen]
  cases q.breakdown with
  | some b => cases b <;> exact ends _ _
  | none =>
      by_cases quiet : q.machine.abortReason.isEmpty = true
      · simp only [quiet, ↓reduceIte]
        refine comes_mono (onward q.machine q.world library (past ++ new) paths now still named
          grown) ?_
        intro later further beside
        exact beside_trans each same beside
      · simp only [quiet]
        exact ends _ _

/-- Whatever the others do, a machine comes to what it comes to on the larger bench. -/
theorem machine_comes (fuel : Nat) : Runs p id since fuel := by
  -- The bound below serves twice: for the machine of an inclusion, and for what comes after.
  induction fuel with
  | zero =>
      intro m w library past paths mine empty named grown
      exact beside_done grown empty _
  | succ fuel ih =>
      intro m w library past paths mine empty named grown
      unfold machine
      by_cases running : m.state = .running
      · simp only [running, ne_eq, not_true_eq_false, ↓reduceIte]
        cases current : m.script.code[m.pc]? with
        | none =>
            simp only [Machine.run, running, ne_eq, not_true_eq_false, ↓reduceIte, current]
            exact beside_done grown empty _
        | some i =>
            have stepped : (if i.op = .inclusion then inclusion p (machine p fuel) m i w
                else instruction p m i w).ComesTo p.compiles id
                (Beside p id past since mine (m.step p.quiet (Machine.run p.quiet fuel) i
                  (w.within library past since))) paths mine := by
              by_cases op : i.op = .inclusion
              · rw [if_pos op]
                exact inclusion_comes built ih op grown empty named
              · rw [if_neg op]
                exact instruction_comes built op grown empty named _
            rw [Machine.run_settled current running rfl]
            refine comes_bind stepped ?_
            intro paths now q beside
            refine settled_comes ih ?_ beside
            obtain ⟨-, library', new, -, seen, -, -⟩ := beside
            obtain ⟨pc, stack, vars, device, reason, changed⟩ := m.step_changes p.quiet
              (Machine.run p.quiet fuel) i (w.within library past since)
            rw [seen] at changed
            rw [show q.machine = _ from changed]
            exact named
      · simp only [Machine.run, running, ne_eq, not_false_eq_true, ↓reduceIte]
        exact beside_done grown empty _

end Machines

end Asking

/-- A bench that a run may start on: no result has its id yet, and none are kept elsewhere. -/
structure Bench.Ready (p : BenchPlan) (id : Text) (w : Bench) : Prop where
  keeps : p.Keeps w.library
  fresh : Result.ofRun id w.results = []
  unstored : w.store = none

theorem new_ready (p : BenchPlan) (id : Text) : (Bench.new none).Ready p id :=
  ⟨.refl _ _ _, rfl, rfl⟩

/-- Whatever is kept already, a bench compiles a path to what a new one compiles it to. -/
theorem ready_compiles {id : Text} {w : Bench} (ready : w.Ready p id) (path : Text) :
    ∃ v, p.compile path w =
      ((Library.compileFile p.setup.settings p.surroundings.files .empty path).result, v) ∧
      p.Keeps v.library ∧ v.results = w.results ∧ v.store = none ∧ v.clock = w.clock := by
  obtain ⟨result, keeps⟩ := keeps_compiles ready.keeps path
  exact ⟨_, Prod.ext result rfl, keeps, rfl, ready.unstored, rfl⟩

/-- What is told of a run that was started at a time and has come to an end. -/
def Progress.outcome (q : Progress Bench) (id path : Text) (since : Int) :
    Except Breakdown FinishedRun :=
  match q.breakdown with
  | none => .ok ⟨id, path, q.world.clock - since, none, Result.ofRun id q.world.results⟩
  | some (.fault f) =>
      .ok ⟨id, path, q.world.clock - since, some f, Result.ofRun id q.world.results⟩
  | some breakdown => .error breakdown

theorem run_script_ok (simulated : p.simulate = true) {id path : Text} {w v : Bench}
    {script : Script} (compiled : p.compile path w = (.ok script, v)) :
    (p.runScript w path id).map Prod.fst =
      ((Machine.start script p.vars p.missing id).run (p.host path id) p.surroundings.patience
        { v with link := .simulated .empty }).outcome id path w.clock := by
  unfold BenchPlan.runScript
  simp only [compiled, simulated, ↓reduceIte]
  generalize Machine.run (p.host path id) p.surroundings.patience
    (.start script p.vars p.missing id) { v with link := .simulated .empty } = q
  unfold Progress.outcome
  cases q.breakdown with
  | none => rfl
  | some b => cases b <;> rfl

include built

theorem bench_run_within (path id : Text) {v : Bench} (store : v.store = none)
    (link : v.link = .simulated .empty) (m : Machine) (fuel : Nat) :
    (m.run (p.host path id) fuel v).seen Bench.untold =
      m.run p.quiet fuel ((Bench.new none).within v.library v.results v.clock) := by
  rw [run_seen (host_untold p built path id)]
  congr 1
  obtain ⟨library, other, results, another, clock, notes⟩ := v
  subst store link
  simp [Bench.untold, Bench.within, Bench.new]

omit built in
/-- The outcome on the larger bench, by what the run came to beside others. -/
theorem beside_outcome {id path : Text} {past now : List Result} {since : Int}
    {alone q : Progress Bench} (fresh : Result.ofRun id past = [])
    (beside : Beside p id past since [] (alone.seen Bench.untold) now q) :
    alone.outcome id path since =
      match q.breakdown with
      | none => .ok ⟨id, path, q.world.clock, none, now⟩
      | some (.fault f) => .ok ⟨id, path, q.world.clock, some f, now⟩
      | some breakdown => .error breakdown := by
  obtain ⟨empty, library, new, -, seen, same, each⟩ := beside
  rw [List.nil_append] at same
  subst same
  obtain ⟨-, world, breakdown⟩ := Progress.mk.inj seen
  have time : alone.world.clock = since + q.world.clock := congrArg Bench.clock world
  have recorded : alone.world.results = past ++ now ++ q.world.results :=
    congrArg Bench.results world
  have results : Result.ofRun id alone.world.results = now := by
    rw [recorded, empty, List.append_nil, Result.of_run_append, fresh, Result.of_run_own each]
    rfl
  unfold Progress.outcome
  rw [breakdown, results, time, show since + q.world.clock - since = q.world.clock by omega]

/-- Whatever the others do, a script comes to what it comes to on any bench that is ready. -/
theorem script_comes (simulated : p.simulate = true) {id path : Text} {w : Bench}
    (ready : w.Ready p id) (paths : List Text) :
    (Asking.script p path id).ComesTo p.compiles id
      (fun _ out => out = (p.runScript w path id).map Prod.fst) paths [] := by
  obtain ⟨v, compiled, keeps, results, store, clock⟩ := ready_compiles ready path
  have fresh : Result.ofRun id v.results = [] := results ▸ ready.fresh
  unfold Asking.script
  refine Asking.comes_bind (Asking.compile_file_yields path paths []) ?_
  rintro paths now found ⟨rfl, rfl⟩
  cases result : (Library.compileFile p.setup.settings p.surroundings.files .empty path).result with
  | error b =>
      rw [result] at compiled
      unfold BenchPlan.runScript
      simp only [compiled]
      cases b with
      | fault f =>
          intro rs mine
          simp only [Asking.ComesTo, mine, Except.map, fresh, clock, Int.sub_self]
      | _ => exact rfl
  | ok script =>
      rw [result] at compiled
      have ran : Asking.Runs p id v.clock p.surroundings.patience :=
        Asking.machine_comes built p.surroundings.patience
      rw [run_script_ok simulated compiled, ← clock]
      refine Asking.comes_bind (ran (.start script p.vars p.missing id) (.new none) v.library
        v.results paths [] rfl rfl keeps) ?_
      intro paths now q beside
      -- The machine runs on a bench of its own, which is a part of the bench at hand.
      have whole := bench_run_within built path id
        (show ({ v with link := .simulated .empty } : Bench).store = none from store) rfl
        (.start script p.vars p.missing id) p.surroundings.patience
      rw [← whole] at beside
      rw [beside_outcome fresh beside]
      cases q.breakdown with
      | none =>
          intro rs mine
          simp only [Asking.ComesTo, mine]
      | some b =>
          cases b with
          | fault f =>
              intro rs mine
              simp only [Asking.ComesTo, mine]
          | _ => exact rfl

end Runs

end DeviceScript

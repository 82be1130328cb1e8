import DeviceScript.Proofs.Parallel.Running
import DeviceScript.Proofs.Parallel.Slots
import Mathlib.Data.List.Basic
import Mathlib.Logic.Relation

/-!
Scripts that run side by side. A crew is what they share and what each of them has still to do; a
step answers one request of one of them, whichever it is. Each run comes to what it comes to alone,
none waits for ever, and running the scripts one after the other is no different.
-/

namespace DeviceScript

open Text

/-- What a script comes to alone, with nothing compiled and nothing recorded before. -/
def BenchPlan.alone (p : BenchPlan) (i : Nat) (path : Text) : Except Breakdown FinishedRun :=
  (p.runScript (.new none) path (p.surroundings.runId i)).map Prod.fst

structure Crew where
  commons : Commons
  runs : List (Asking (Except Breakdown FinishedRun))

namespace Crew

/-- The passes over a list of scripts, each with the script that it has read, before the first step
of any. -/
def start (p : BenchPlan) (scripts : List Text) : Crew :=
  ⟨⟨.empty, [], []⟩,
    (p.read scripts).mapIdx fun i path => .script p path (p.surroundings.runId i)⟩

def Ended (c : Crew) : Prop := ∀ run ∈ c.runs, ∃ outcome, run = .done outcome

def Crashed (c : Crew) : Prop := .done (.error .crash) ∈ c.runs

/-- One run has its request answered. A crash of one is the end of the process, and so of all. Where
only some runs may be under way at once, the others take their first steps later. -/
inductive Step (c : Crew) : Crew → Prop where
  | answer {i : Nat} {q : Request} {next : q.Answer → Asking (Except Breakdown FinishedRun)}
      {a : q.Answer} {commons : Commons} (alive : ¬ c.Crashed)
      (asks : c.runs[i]? = some (.ask q next)) (answered : c.commons.answer? q = some (a, commons)) :
      Step c ⟨commons, c.runs.set i (next a)⟩

/-- Every run keeps to the rules on its way to its outcome alone, and every compilation under way
has a run that ends it. -/
structure Sound (own : Text → Except Breakdown Script) (ids : Nat → Text)
    (alone : Nat → Except Breakdown FinishedRun → Prop) (c : Crew) : Prop where
  honest : c.commons.Honest own
  comes : ∀ (i : Nat) (run : Asking (Except Breakdown FinishedRun)), c.runs[i]? = some run →
    run.ComesTo own (ids i) (fun _ => alone i) c.commons.paths
      (Result.ofRun (ids i) c.commons.results)
  led : ∀ (ticket : Nat) (f : Flight), c.commons.flights[ticket]? = some f → f.outcome = none →
    ∃ (i : Nat) (run : Asking (Except Breakdown FinishedRun)), c.runs[i]? = some run ∧
      run.Owes ticket

/-- The ids of that many runs are given, and no two are the same. -/
structure Apart (ids : Nat → Text) (count : Nat) : Prop where
  given : ∀ i < count, ids i ≠ []
  distinct : ∀ i < count, ∀ j < count, ids i = ids j → i = j

section Steps

variable {own : Text → Except Breakdown Script} {ids : Nat → Text}
variable {alone : Nat → Except Breakdown FinishedRun → Prop} {c c' : Crew}

theorem step_length (step : c.Step c') : c'.runs.length = c.runs.length := by
  cases step
  exact List.length_set

theorem step_sound (apart : Apart ids c.runs.length) (sound : c.Sound own ids alone)
    (step : c.Step c') : c'.Sound own ids alone := by
  obtain @⟨i, q, next, a, commons, -, asks, answered⟩ := step
  have inside := (List.getElem?_eq_some_iff.mp asks).1
  have allows := sound.comes i _ asks
  have further := Commons.answer_further answered
  constructor
  · exact Commons.answer_honest sound.honest allows answered
  · intro j run found
    rw [List.getElem?_set] at found
    by_cases same : i = j
    · subst same
      simp only [inside, ↓reduceIte, Option.some.injEq] at found
      subst found
      exact Commons.answer_allowed sound.honest allows answered
    · simp only [same, ↓reduceIte] at found
      have among := (List.getElem?_eq_some_iff.mp found).1
      have other : ids j ≠ ids i := fun equal => same (apart.distinct j among i inside equal).symm
      rw [Commons.answer_apart allows answered (apart.given j among) other]
      exact Asking.comes_further (sound.comes j run found) further
  · intro ticket f there under
    rcases Commons.answer_open allows answered there under with ⟨before, still⟩ | owes
    · obtain ⟨j, run, found, owes⟩ := sound.led ticket f before under
      by_cases same : i = j
      · -- The run that took the step had the compilation to end, and has it still.
        subst same
        rw [asks] at found
        cases found
        exact ⟨i, next a, by simp [inside], Request.hands_rest owes still a⟩
      · exact ⟨j, run, by simp [same, found], owes⟩
    · exact ⟨i, next a, by simp [inside], owes⟩

theorem reached_sound (apart : Apart ids c.runs.length) (sound : c.Sound own ids alone)
    (reached : Relation.ReflTransGen Step c c') :
    c'.runs.length = c.runs.length ∧ c'.Sound own ids alone := by
  induction reached with
  | refl => exact ⟨rfl, sound⟩
  | tail _ step ih =>
      obtain ⟨length, before⟩ := ih
      constructor
      · exact (step_length step).trans length
      · exact step_sound (length ▸ apart) before step

/-- Some run can go on, unless all have ended or one has crashed: who waits for a compilation waits
for a run that waits for nobody. -/
theorem sound_progress (sound : c.Sound own ids alone) :
    (∃ c', c.Step c') ∨ c.Ended ∨ c.Crashed := by
  by_cases crashed : c.Crashed
  · exact .inr (.inr crashed)
  by_cases ended : c.Ended
  · exact .inr (.inl ended)
  left
  have going : ∃ run ∈ c.runs, ∀ outcome, run ≠ .done outcome := by
    simpa [Ended] using ended
  obtain ⟨run, among, asking⟩ := going
  obtain ⟨i, found⟩ := List.mem_iff_getElem?.mp among
  cases run with
  | done outcome => exact absurd rfl (asking outcome)
  | ask q next =>
      cases answer : c.commons.answer? q with
      | some answered => exact ⟨_, .answer crashed found answer⟩
      | none =>
          obtain ⟨ticket, f, there, under⟩ :=
            Commons.answer_none (sound.comes i _ found) answer
          obtain ⟨j, leader, at', owes⟩ := sound.led ticket f there under
          cases leader with
          | done outcome => exact owes.elim
          | ask request onward =>
              obtain ⟨a, commons, answered⟩ := Request.hands_answered owes c.commons
              exact ⟨_, .answer crashed at' answered⟩

end Steps

section Ending

variable {α : Type}

def Onward (later earlier : List (Asking α)) : Prop :=
  ∃ (i : Nat) (q : Request) (next : q.Answer → Asking α) (a : q.Answer),
    earlier[i]? = some (.ask q next) ∧ later = earlier.set i (next a)

theorem onward_cons {first : Asking α} {rest : List (Asking α)} (others : Acc Onward rest)
    (onward : ∀ (q : Request) (next : q.Answer → Asking α), first = .ask q next →
      ∀ a rest, Acc Onward rest → Acc Onward (next a :: rest)) : Acc Onward (first :: rest) := by
  induction others with
  | intro rest each ih =>
      constructor
      rintro later ⟨i, q, next, a, asks, rfl⟩
      cases i with
      | zero => exact onward q next (Option.some.inj asks) a rest ⟨_, each⟩
      | succ i => exact ih _ ⟨i, q, next, a, asks, rfl⟩

theorem onward_ends (programs : List (Asking α)) : Acc Onward programs := by
  induction programs with
  | nil =>
      constructor
      rintro later ⟨i, q, next, a, asks, -⟩
      cases asks
  | cons first rest ih =>
      -- What the first has still to ask gets less with each of its steps, whatever the others do.
      induction first generalizing rest with
      | done outcome =>
          apply onward_cons ih
          rintro q next ⟨⟩
      | ask q next deeper =>
          apply onward_cons ih
          rintro _ _ ⟨⟩ a rest others
          exact deeper a rest others

theorem steps_end (c : Crew) : Acc (fun later earlier : Crew => earlier.Step later) c := by
  apply Subrelation.accessible (r := InvImage Onward Crew.runs)
  · rintro later earlier ⟨alive, asks, answered⟩
    exact ⟨_, _, _, _, asks, rfl⟩
  · exact InvImage.accessible Crew.runs (onward_ends c.runs)

end Ending

end Crew

section Turns

variable {p : BenchPlan} {schema : Schema} {aliases : Aliases}
variable (built : Registry.withAliases schema aliases = .ok p.setup.registry)

include built

theorem host_keeps_unstored (path runId : Text) :
    (p.host path runId).Keeps fun w => w.store = none := by
  have services : (p.host path runId).toServices.Keeps fun w => w.store = none := by
    constructor
    · exact fun _ _ unstored => unstored
    · exact fun _ _ unstored => unstored
    · rintro session ⟨⟩ command w unstored
      simp only [Bench.send]
      split <;> exact unstored
    · rintro session ⟨⟩ pattern nanos clear w unstored
      simp only [Bench.await]
      split <;> exact unstored
    · rintro record ⟨⟩ result w unstored
      simp only [Bench.record, unstored]
  constructor
  · exact services.log
  · intro boundary w unstored
    simp only [BenchPlan.host]
    split <;> exact unstored
  · rintro session ⟨⟩ name w unstored
    simp only [Bench.switchDevice]
    split <;> exact unstored
  · exact services.sends
  · rintro registry ⟨⟩ operation member site bound vars w unstored
    exact services.registered unstored site bound vars built member
  · rintro load ⟨⟩ name w unstored
    exact unstored

/-- What ran before a script on a bench makes no difference to it. -/
theorem run_script_alone (simulated : p.simulate = true) {id : Text} {w : Bench}
    (ready : w.Ready p id) (path : Text) :
    (p.runScript w path id).map Prod.fst = (p.runScript (.new none) path id).map Prod.fst := by
  have here : (Asking.script p path id).ComesTo p.compiles id
      (fun _ out => out = (p.runScript w path id).map Prod.fst) [] [] :=
    script_comes built simulated ready []
  obtain ⟨-, outcome, rfl, same⟩ :=
    Asking.comes_both rfl here (script_comes built simulated (new_ready p id) [])
  exact same

omit built in
/-- The bench after a script: it broke down before its run, or its machine ran. -/
theorem run_script_after (simulated : p.simulate = true) {id path : Text} {w v after : Bench}
    {run : FinishedRun} {result : Except Breakdown Script} (compiled : p.compile path w = (result, v))
    (ran : p.runScript w path id = .ok (run, after)) :
    after = v ∨ ∃ script, after = ((Machine.start script p.vars p.missing id).run (p.host path id)
      p.surroundings.patience { v with link := .simulated .empty }).world := by
  unfold BenchPlan.runScript at ran
  rw [compiled] at ran
  cases result with
  | error b =>
      cases b with
      | fault f =>
          cases ran
          exact .inl rfl
      | _ => cases ran
  | ok script =>
      right
      refine ⟨script, ?_⟩
      simp only [simulated, ↓reduceIte] at ran
      split at ran
      · cases ran
        rfl
      · cases ran
        rfl
      · cases ran

theorem run_ready {id other path : Text} {v : Bench} (ready : v.Ready p other)
    (link : v.link = .simulated .empty) (given : other ≠ []) (apart : other ≠ id) {m : Machine}
    (named : m.runId = id) (fuel : Nat) : (m.run (p.host path id) fuel v).world.Ready p other := by
  have still := Machine.run_keeps_world (host_keeps_unstored built path id) m ready.unstored fuel
  have whole := bench_run_within built path id ready.unstored link m fuel
  have comes : (Asking.machine p fuel m (.new none)).ComesTo p.compiles id
      (Beside p id v.results v.clock [] _) [] [] :=
    Asking.machine_comes built fuel m (.new none) v.library v.results [] [] rfl named ready.keeps
  -- The program has some outcome, and that shows what the larger bench has come to.
  obtain ⟨-, q, ⟨empty, library, new, keeps, seen, -, each⟩, -⟩ := Asking.comes_both rfl comes comes
  rw [← whole] at seen
  obtain ⟨-, world, -⟩ := Progress.mk.inj seen
  have kept : (m.run (p.host path id) fuel v).world.library = library := congrArg Bench.library world
  have recorded : (m.run (p.host path id) fuel v).world.results = v.results ++ new ++ q.world.results :=
    congrArg Bench.results world
  constructor
  · exact kept ▸ keeps
  · rw [recorded, empty, List.append_nil, Result.of_run_append, ready.fresh,
      Result.of_run_other each given apart, List.append_nil]
  · exact still

theorem run_script_ready (simulated : p.simulate = true) {id other path : Text} {w after : Bench}
    {run : FinishedRun} (ready : w.Ready p other) (given : other ≠ []) (apart : other ≠ id)
    (ran : p.runScript w path id = .ok (run, after)) : after.Ready p other := by
  obtain ⟨v, compiled, keeps, results, unstored, -⟩ := ready_compiles ready path
  have fresh : Result.ofRun other v.results = [] := results ▸ ready.fresh
  rcases run_script_after simulated compiled ran with rfl | ⟨script, rfl⟩
  · exact ⟨keeps, fresh, unstored⟩
  · have linked : ({ v with link := .simulated .empty } : Bench).Ready p other :=
      ⟨keeps, fresh, unstored⟩
    exact run_ready built linked rfl given apart (m := .start script ..) rfl _

/-- Running scripts one after the other comes to what each comes to alone, up to the first that
breaks down. -/
theorem run_in_turn_alone (simulated : p.simulate = true) (scripts : List Text) {first : Nat}
    {w : Bench} (apart : Crew.Apart p.surroundings.runId (first + scripts.length))
    (ready : ∀ i, first ≤ i → i < first + scripts.length → w.Ready p (p.surroundings.runId i)) :
    (p.runInTurn first w scripts).map Prod.fst =
      (scripts.zipIdx first).mapM fun x => p.alone x.2 x.1 := by
  induction scripts generalizing first w with
  | nil => rfl
  | cons path rest ih =>
      have size : first + (path :: rest).length = first + 1 + rest.length := by
        rw [List.length_cons]
        omega
      rw [size] at apart ready
      have now : p.alone first path = (p.runScript w path (p.surroundings.runId first)).map Prod.fst :=
        (run_script_alone built simulated (ready first (Nat.le_refl first) (by omega)) path).symm
      rw [List.zipIdx_cons, List.mapM_cons, now]
      unfold BenchPlan.runInTurn
      cases ran : p.runScript w path (p.surroundings.runId first) with
      | error b => rfl
      | ok ended =>
          obtain ⟨run, after⟩ := ended
          have others := ih apart fun i later inside => by
            apply run_script_ready built simulated (ready i (by omega) inside)
              (apart.given i inside) ?_ ran
            intro same
            have := apart.distinct i inside first (by omega) same
            omega
          rw [← others]
          show Except.map Prod.fst ((p.runInTurn (first + 1) after rest).bind fun x =>
            .ok (run :: x.1, x.2)) =
              ((p.runInTurn (first + 1) after rest).map Prod.fst).bind fun runs => .ok (run :: runs)
          cases p.runInTurn (first + 1) after rest with
          | error b => rfl
          | ok done => rfl

end Turns

namespace Crew

section Start

variable {p : BenchPlan} {schema : Schema} {aliases : Aliases}
variable (built : Registry.withAliases schema aliases = .ok p.setup.registry)

include built

theorem start_sound (simulated : p.simulate = true) (scripts : List Text) :
    (start p scripts).Sound p.compiles p.surroundings.runId
      (fun i outcome => ∃ path, (p.read scripts)[i]? = some path ∧ outcome = p.alone i path) where
  honest := ⟨nofun, nofun⟩
  led := nofun
  comes i run found := by
    rw [start, List.getElem?_mapIdx] at found
    obtain ⟨path, at', rfl⟩ := Option.map_eq_some_iff.mp found
    apply Asking.comes_mono (script_comes built simulated (new_ready p _) _)
    rintro _ outcome rfl
    exact ⟨path, at', rfl⟩

/-- Runs do not influence each other. However the steps of scripts on simulated devices interleave,
and whichever script a pass has found in the variables of the loop, a run that ends has the outcome,
be it a fault or none, and the results that its script has alone. Some run can go on until all have
ended, which is after finitely many steps, unless a script crashes that crashes alone as well.
Running the scripts one after the other is no different. Where every pass has variables of its own,
these are the runs of all the scripts, and they are reported in the order of the scripts; where
passes share them, a report is made exactly if each pass has found its own slot. -/
theorem parallel_runs_independent (simulated : p.simulate = true) (scripts : List Text)
    (apart : Apart p.surroundings.runId scripts.length)
    (since : ∀ i < scripts.length, (p.surroundings.reading i).Since scripts.length i) :
    (∀ crew, Relation.ReflTransGen Step (start p scripts) crew →
      crew.runs.length = scripts.length ∧
      (∀ (i : Nat) (outcome : Except Breakdown FinishedRun),
        crew.runs[i]? = some (.done outcome) →
          ∃ path, scripts[(p.surroundings.reading i).script]? = some path ∧
            outcome = p.alone i path) ∧
      ((∃ next, crew.Step next) ∨ crew.Ended ∨
        ∃ i path, scripts[(p.surroundings.reading i).script]? = some path ∧
          p.alone i path = .error .crash)) ∧
    Acc (fun later earlier : Crew => earlier.Step later) (start p scripts) ∧
    (p.runInTurn 0 (.new none) (p.read scripts)).map Prod.fst =
      (p.read scripts).zipIdx.mapM (fun x => p.alone x.2 x.1) ∧
    ((∀ i < scripts.length, p.surroundings.reading i = .own i) → p.read scripts = scripts ∧
      (p.runScripts (.new none) scripts).map Prod.fst =
        scripts.zipIdx.mapM fun x => p.alone x.2 x.1) ∧
    ∀ w runs after, p.runScripts w scripts = .ok (runs, after) ↔
      (∀ i < scripts.length, (p.surroundings.reading i).slot = i) ∧
        p.runInTurn 0 w (p.read scripts) = .ok (runs, after) := by
  have length := p.read_length scripts
  have size : (start p scripts).runs.length = scripts.length := List.length_mapIdx.trans length
  have turns : (p.runInTurn 0 (.new none) (p.read scripts)).map Prod.fst =
      (p.read scripts).zipIdx.mapM fun x => p.alone x.2 x.1 := by
    apply run_in_turn_alone built simulated
    · rw [Nat.zero_add, length]
      exact apart
    · intro i _ _
      exact new_ready p _
  refine ⟨?_, steps_end _, turns, ?_, fun _ _ _ => p.run_scripts_ok_iff since⟩
  · intro crew reached
    obtain ⟨same, sound⟩ :=
      reached_sound (size ▸ apart) (start_sound built simulated scripts) reached
    have alone (i : Nat) (outcome : Except Breakdown FinishedRun)
        (ended : crew.runs[i]? = some (.done outcome)) :
        ∃ path, scripts[(p.surroundings.reading i).script]? = some path ∧
          outcome = p.alone i path := by
      have inside : i < scripts.length := by
        rw [← same.trans size]
        exact (List.getElem?_eq_some_iff.mp ended).1
      obtain ⟨path, found, alone⟩ := sound.comes i _ ended
      exact ⟨path, p.read_get (since i inside).script.2 found, alone⟩
    refine ⟨same.trans size, alone, ?_⟩
    rcases sound_progress sound with onward | ended | crashed
    · exact .inl onward
    · exact .inr (.inl ended)
    · obtain ⟨i, at'⟩ := List.mem_iff_getElem?.mp crashed
      obtain ⟨path, among, same⟩ := alone i _ at'
      exact .inr (.inr ⟨i, path, among, same.symm⟩)
  · intro own
    have read := p.read_own own
    rw [read] at turns
    refine ⟨read, ?_⟩
    rw [p.run_scripts_own own, turns]

omit built in
theorem comes_to_end {c : Crew} (ends : Acc (fun later earlier : Crew => earlier.Step later) c)
    (onward : ∀ crew, Relation.ReflTransGen Step c crew → (∃ next, crew.Step next) ∨ crew.Ended) :
    ∃ last, Relation.ReflTransGen Step c last ∧ last.Ended := by
  induction ends with
  | intro crew _ ih =>
      rcases onward crew .refl with ⟨next, step⟩ | ended
      · obtain ⟨last, reached, ended⟩ :=
          ih next step fun later reached => onward later (.head step reached)
        exact ⟨last, .head step reached, ended⟩
      · exact ⟨crew, .refl, ended⟩

end Start

/-- A plan over two files that include a third, and one of them also what is not there. All that
scripts of it can say is a comment. -/
def overlappingPlan : BenchPlan :=
  { surveyPlan with
    surroundings := { surveyPlan.surroundings with
      files := ⟨[], [(["main"], "include part\ncomment last"),
        (["torn"], "include part\ninclude gone"), (["part"], "comment first")], [[]]⟩ }
    setup := ⟨declaredRegistry,
      ⟨⟨Schema.standard.operations.filter (·.name == "comment"), []⟩, fun _ _ => none, false, []⟩⟩ }

def gist (outcome : Except Breakdown FinishedRun) : Option (Bool × List Text) :=
  outcome.toOption.map fun run => (run.fault.isSome, run.results.map Result.detail)

theorem overlapping_runs_end :
    Apart overlappingPlan.surroundings.runId 2 ∧
    (∃ crew, Relation.ReflTransGen Step (start overlappingPlan ["main", "torn"]) crew ∧
      crew.Ended) ∧
    ∀ crew, Relation.ReflTransGen Step (start overlappingPlan ["main", "torn"]) crew →
      crew.Ended → ∃ main torn, crew.runs = [.done main, .done torn] ∧
        gist main = some (false, [ofString "first", ofString "last"]) ∧
        gist torn = some (true, []) := by
  have main : gist (overlappingPlan.alone 0 "main") =
      some (false, [ofString "first", ofString "last"]) := by decide +kernel
  have torn : gist (overlappingPlan.alone 1 "torn") = some (true, []) := by decide +kernel
  have apart : Apart overlappingPlan.surroundings.runId 2 := by
    constructor
    · decide +kernel
    · decide +kernel
  have since i (inside : i < 2) : (overlappingPlan.surroundings.reading i).Since 2 i :=
    ⟨⟨Nat.le_refl i, inside⟩, ⟨Nat.le_refl i, inside⟩⟩
  obtain ⟨reaches, ends, -⟩ :=
    parallel_runs_independent declared_registry_built rfl ["main", "torn"] apart since
  refine ⟨apart, ?_, ?_⟩
  · apply comes_to_end ends
    intro crew reached
    rcases (reaches crew reached).2.2 with onward | ended | ⟨i, path, among, crash⟩
    · exact .inl onward
    · exact .inr ended
    · match i with
      | 0 =>
          cases among
          rw [crash] at main
          cases main
      | 1 =>
          cases among
          rw [crash] at torn
          cases torn
  · intro crew reached ended
    obtain ⟨size, outcomes, -⟩ := reaches crew reached
    obtain ⟨one, two, runs⟩ := List.length_eq_two.mp size
    obtain ⟨first, rfl⟩ := ended one (by simp [runs])
    obtain ⟨second, rfl⟩ := ended two (by simp [runs])
    obtain ⟨_, ⟨⟩, rfl⟩ := outcomes 0 first (by simp [runs])
    obtain ⟨_, ⟨⟩, rfl⟩ := outcomes 1 second (by simp [runs])
    exact ⟨_, _, runs, main, torn⟩

end Crew
end DeviceScript

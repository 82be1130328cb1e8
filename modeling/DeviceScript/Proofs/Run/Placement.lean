import DeviceScript.Proofs.Library.Trails
import DeviceScript.Proofs.Run.Plain
import DeviceScript.Proofs.Run.Stacks

/-!
Where a run that fails is told. Whichever instruction fails and for whatever reason, the report has
its script, its line and its index; and every machine that waits around it, at the inclusion of the
next script, is a frame.
-/

namespace DeviceScript

open Text

variable {ω : Type}

namespace Machine

/-- The fault is placed at the instruction that the machine stands at, without a frame. -/
def Tells (m : Machine) (f : Fault) : Prop :=
  ∃ r, f.report? = some r ∧ r.file = m.script.path ∧ r.line = m.line ∧ r.pc = m.pc ∧ r.frames = []

def TellsOf (m : Machine) (p : Progress ω) : Prop :=
  ∀ f, p.breakdown = some (.fault f) → m.Tells f

/-- A script that the machine asks for here is given to it. -/
def Granted (h : Host ω) (m : Machine) (w : ω) : Prop :=
  ∀ path v, m.Requests h w path v → ∀ load, h.load = some load →
    ∃ script, (load path v).1 = .ok script

/-- A script that the machine includes here does not fail. -/
def HoldsBelow (h : Host ω) (child : Machine → ω → Progress ω) (m : Machine) (w : ω) : Prop :=
  ∀ c u, m.Enters h w c u → ∀ f, (child c u).breakdown ≠ some (.fault f)

section Tells

variable (m : Machine)

theorem ok_tells (n : Machine) (w : ω) : m.TellsOf (.ok n w) := nofun

theorem failed_tells {f : Fault} (tells : m.Tells f) (n : Machine) (w : ω) :
    m.TellsOf (.failed f n w) := by
  rintro _ ⟨⟩
  exact tells

theorem locate_tells (kind : FaultKind) {f : Fault} (plain : f.report? = none) :
    m.Tells (m.locate kind f) := by
  unfold locate
  rw [plain]
  exact ⟨_, rfl, rfl, rfl, rfl, rfl⟩

theorem refuse_tells (kind : FaultKind) (reason : Reason) (w : ω) :
    m.TellsOf (m.refuse kind reason w) :=
  m.failed_tells (m.locate_tells kind rfl) m w

theorem session_fault_tells (canceled : Bool) {f : Fault} (plain : f.report? = none) (w : ω) :
    m.TellsOf (m.sessionFault canceled f w) := by
  unfold sessionFault
  rw [plain]
  simp only [Option.isSome_none, Bool.false_eq_true, ↓reduceIte]
  split
  · exact m.failed_tells (m.locate_tells .abort plain) _ w
  · exact m.failed_tells (m.locate_tells .handler plain) _ w

theorem follow_tells (flow : Flow) (w : ω) : m.TellsOf (m.follow flow w) := by
  unfold follow
  split
  · exact m.ok_tells _ w
  · exact m.refuse_tells _ _ w

theorem control_tells (h : Host ω) (child : Machine → ω → Progress ω) {i : Instruction}
    (control : i.op.isControl = true) (params : List Value) (w : ω) :
    m.TellsOf (m.execute h child i params w) := by
  unfold execute
  cases op : i.op with
  | ifNotGoto =>
      simp only [ifNotGoto]
      split
      · exact m.refuse_tells _ _ w
      · next holds _ _ => exact follow_tells { m with stack := m.stack.push holds } _ w
  | device | command | inclusion | call => simp [op, Opcode.isControl] at control
  | _ => exact m.follow_tells _ w

variable {h : Host ω} (plain : h.Plain)

include plain

theorem switch_device_tells (params : List Value) (w : ω) :
    m.TellsOf (m.switchDevice h params w) := by
  cases params with
  | nil => exact nofun
  | cons operand rest =>
      unfold switchDevice
      cases given : h.session with
      | none => exact m.ok_tells _ _
      | some session =>
          simp only
          split
          · next fault refused =>
              exact m.session_fault_tells _ (plain.switches session given _ w fault refused) _
          · exact m.ok_tells _ _

theorem command_tells (params : List Value) (w : ω) : m.TellsOf (m.command h params w) := by
  unfold command
  cases given : h.session with
  | none => exact m.refuse_tells _ _ w
  | some session =>
      cases params with
      | nil => exact nofun
      | cons operand rest =>
          simp only
          split
          · next fault v answered =>
              exact m.session_fault_tells _
                (plain.sends session given _ w fault (by rw [answered])) v
          · exact m.ok_tells _ _

theorem resume_tells (included : Machine) (w : ω) : m.TellsOf (m.resume h included w) := by
  unfold resume
  cases given : h.session with
  | none => exact m.ok_tells _ w
  | some session =>
      simp only
      split
      · exact m.ok_tells _ w
      · split
        · next fault v answered =>
            exact m.session_fault_tells _
              (plain.switches session given _ w fault (by rw [answered])) v
        · exact m.ok_tells _ _

/-- An inclusion that fails before or after the included script runs tells of itself. -/
theorem inclusion_tells {child : Machine → ω → Progress ω} {i : Instruction} {w : ω}
    (current : m.script.code[m.pc]? = some i) (running : m.state = .running)
    (free : stopReason? h w = none) (op : i.op = .inclusion)
    (granted : m.Granted h w) (below : m.HoldsBelow h child w) :
    m.TellsOf (m.step h child i w) := by
  by_cases entering : ∃ c u, m.Enters h w c u
  · obtain ⟨c, u, enters⟩ := entering
    rw [enters_step_own enters current]
    unfold concluded
    split
    · exact m.resume_tells plain _ _
    · next broke => exact absurd broke (below c u enters _)
    · next other _ =>
        rintro f ⟨⟩
        exact absurd rfl (other f)
  · rw [step_inclusion h child m op w]
    unfold inclusion
    cases params : i.params with
    | nil => exact nofun
    | cons operand rest =>
        cases given : h.load with
        | none => exact m.refuse_tells _ _ _
        | some load =>
            simp only
            by_cases deep : maxDepth ≤ m.depth
            · rw [if_pos deep]
              exact m.refuse_tells _ _ _
            · -- What is asked for is given, so the script is entered after all.
              have requests : m.Requests h w operand.render
                  (h.observe ⟨m.depth, m.pc, i, m.stack, m.vars⟩ w) :=
                ⟨i, operand, rest, current, running, free, op, params, rfl, by omega, rfl⟩
              obtain ⟨script, loaded⟩ := granted _ _ requests load given
              exact absurd ⟨_, _, _, _, load, script, _, requests, given, Prod.ext loaded rfl, rfl,
                rfl⟩ entering

variable {schema : Schema} {aliases : Aliases} {registry : Registry ω}
variable (built : Registry.withAliases schema aliases = .ok registry)
variable (own : h.registry = some registry)

include built own

theorem call_tells {i : Instruction} (current : m.script.code[m.pc]? = some i)
    (params : List Value) (w : ω) : m.TellsOf (m.call h i params w) := by
  unfold call
  rw [own, Option.bind_some]
  cases found : registry.lookup? i.op.name with
  | none => exact m.failed_tells ⟨_, rfl, rfl, (line_current current).symm, rfl, rfl⟩ m w
  | some operation =>
      simp only
      cases operation.spec.bind params with
      | error reason => exact m.refuse_tells _ _ w
      | ok bound =>
          simp only
          have reacts := plain.registered
            ⟨m.runId, m.script.path, i.line, i.op.name, m.device⟩ bound m.vars w built
            (List.mem_of_find?_eq_some found)
          generalize operation.handler h.toServices _ bound m.vars w = r at reacts ⊢
          split
          · next fault faulted =>
              exact session_fault_tells
                { m with vars := r.vars, abortReason := r.abort.getD m.abortReason } _
                (reacts fault faulted) _
          · exact m.ok_tells _ _

theorem step_tells {child : Machine → ω → Progress ω} {i : Instruction} {w : ω}
    (current : m.script.code[m.pc]? = some i) (running : m.state = .running)
    (free : stopReason? h w = none) (granted : m.Granted h w) (below : m.HoldsBelow h child w) :
    m.TellsOf (m.step h child i w) := by
  by_cases op : i.op = .inclusion
  · exact m.inclusion_tells plain current running free op granted below
  · rcases step_cases h m i w with ⟨text, -, step⟩ | ⟨told, step⟩
    · rw [step child]
      exact m.failed_tells ⟨_, rfl, rfl, rfl, rfl, rfl⟩ m w
    · rw [step child]
      by_cases control : i.op.isControl = true
      · exact m.control_tells h child control _ told
      · unfold execute
        cases which : i.op with
        | device => exact m.switch_device_tells plain _ told
        | command => exact m.command_tells plain _ told
        | inclusion => exact absurd which op
        | call name => exact m.call_tells plain built own current _ told
        | _ => simp [which, Opcode.isControl] at control

/-- A run that ends at a boundary with a fault tells of the instruction there. -/
theorem last_tells {fuel : Nat} {w : ω} (running : m.state = .running)
    (last : m.next? h (run h fuel) w = none) (granted : m.Granted h w)
    (below : m.HoldsBelow h (run h fuel) w) :
    m.TellsOf (m.run h (fuel + 1) w) := by
  have ends := run_stays running last
  generalize m.run h (fuel + 1) w = p at ends ⊢
  cases ends with
  | past => exact nofun
  | stopped current stop => exact m.failed_tells ⟨_, rfl, rfl, rfl, rfl, rfl⟩ _ w
  | broken current free step breaks =>
      rintro f ⟨⟩
      exact m.step_tells plain built own current running free granted below f (step ▸ breaks)
  | aborted current free step asked =>
      exact m.failed_tells ⟨_, rfl, rfl, (line_current current).symm, rfl, rfl⟩ _ _

end Tells

def Includes (m c : Machine) : Prop :=
  ∃ i, m.script.code[m.pc]? = some i ∧ i.op = .inclusion ∧ i.params = [.text c.script.path]

/-- All that the script of the machine leads to is kept in a library, and still in the world. -/
structure RunsOver (l : Library) (library : ω → Library) (m : Machine) (w : ω) : Prop where
  resolved : m.script.Resolved
  closed : ∀ e ∈ m.script.inclusions, l.Closed e.resolved
  held : l.Extends (library w)

section RunsOver

variable {h : Host ω} {s : CompileSettings} {files : ω → FileTree} {library : ω → Library}
variable (loads : h.LoadsFrom s files library) {l : Library}

include loads

theorem visits_runs_over {fuel left : Nat} {m n : Machine} {w v : ω}
    (visits : Visits h fuel m w left n v) (runs : m.RunsOver l library w) :
    n.RunsOver l library v := by
  obtain ⟨script, held⟩ := visits_keeps (loads.keeps l) visits runs.held
  refine ⟨?_, ?_, held⟩
  · rw [script]
    exact runs.resolved
  · rw [script]
    exact runs.closed

theorem request_granted {m : Machine} {w v : ω} {path : Text} (runs : m.RunsOver l library w)
    (requests : m.Requests h w path v) :
    l.Extends (library v) ∧ l.Closed path ∧
      (∃ i, m.script.code[m.pc]? = some i ∧ i.op = .inclusion ∧ i.params = [.text path]) ∧
      ∃ load found, h.load = some load ∧ l.get? path = some found ∧
        (load path v).1 = .ok found := by
  have held := requests_keeps (loads.keeps l) requests runs.held
  obtain ⟨i, operand, rest, current, -, -, op, params, rfl, -, -⟩ := requests
  obtain ⟨e, member, named⟩ := runs.resolved.operands i (List.mem_of_getElem? current) op
  have closed := runs.closed e member
  obtain ⟨found, kept⟩ := closed.kept e.resolved (.inl rfl)
  obtain ⟨load, given, does⟩ := loads.load
  rw [params] at named
  cases named
  refine ⟨held, closed, ⟨i, current, op, params⟩, load, found, given, kept, ?_⟩
  rw [(does _ _).1]
  exact closed.compiles held (.inl rfl) kept (runs.resolved.paths e member) s _

theorem runs_over_granted {m : Machine} {w : ω} (runs : m.RunsOver l library w) :
    m.Granted h w := by
  intro path v requests load given
  obtain ⟨-, -, -, other, found, again, -, gave⟩ := request_granted loads runs requests
  cases given.symm.trans again
  exact ⟨found, gave⟩

variable (named : ∀ p x, l.get? p = some x → x.path = p)

include named

theorem enters_runs_over {m c : Machine} {w u : ω} (enters : m.Enters h w c u)
    (runs : m.RunsOver l library w) : c.RunsOver l library u ∧ m.Includes c := by
  obtain ⟨path, v, load, script, v', requests, given, loaded, rfl, rfl⟩ := enters
  obtain ⟨told, closed, stands, other, found, again, kept, gave⟩ :=
    request_granted loads runs requests
  cases given.symm.trans again
  have after := (loads.keeps l).loads load given path v told
  rw [loaded] at gave after
  cases gave
  constructor
  · refine ⟨closed.resolved path script (.inl rfl) kept, ?_, (loads.keeps l).log _ _ after⟩
    intro e member
    exact closed.below (Library.leads_on (.inl rfl) kept (.direct member))
  · unfold Includes
    rw [show (m.child script).script.path = path from named path script kept]
    exact stands

/-- Of the machines under way each stands at the inclusion of the next. -/
theorem stacked_runs_over {fuel left : Nat} {m n : Machine} {w v : ω} {stack : List Machine}
    (stacked : Stacked h fuel m w stack left n v) (runs : m.RunsOver l library w) :
    n.RunsOver l library v ∧ (stack ++ [n]).IsChain Includes ∧
      ∃ first rest, stack ++ [n] = first :: rest ∧ first.script = m.script := by
  induction stacked with
  | @own fuel left m n w v visits =>
      have script := (visits_keeps (loads.keeps l) visits runs.held).1
      exact ⟨visits_runs_over loads visits runs, .singleton n, n, [], rfl, script⟩
  | @within fuel left less m n c o w v u x stack visits enters _ ih =>
      have script := (visits_keeps (loads.keeps l) visits runs.held).1
      obtain ⟨below, includes⟩ :=
        enters_runs_over loads named enters (visits_runs_over loads visits runs)
      obtain ⟨last, chain, first, rest, whole, same⟩ := ih below
      refine ⟨last, ?_, n, stack ++ [o], rfl, script⟩
      rw [whole] at chain
      show List.IsChain Includes (n :: (stack ++ [o]))
      rw [whole]
      refine .cons_cons ?_ chain
      unfold Includes
      rw [same]
      exact includes

end RunsOver

/-- The run fails at this boundary, and not for a script that is included here. -/
def FailsHere (h : Host ω) (left : Nat) (m : Machine) (w : ω) : Prop :=
  (∃ f, (m.run h (left + 1) w).breakdown = some (.fault f)) ∧ m.next? h (run h left) w = none ∧
    m.HoldsBelow h (run h left) w

theorem fault_current {h : Host ω} {left : Nat} {m : Machine} {w : ω} {f : Fault}
    (running : m.state = .running) (broke : (m.run h (left + 1) w).breakdown = some (.fault f)) :
    ∃ i, m.script.code[m.pc]? = some i := by
  cases current : m.script.code[m.pc]? with
  | none => simp [run, running, current, finish, Progress.ok] at broke
  | some i => exact ⟨i, rfl⟩

theorem fails_somewhere {h : Host ω} (fuel : Nat) (m : Machine) (w : ω) {f : Fault}
    (broke : (m.run h fuel w).breakdown = some (.fault f)) :
    ∃ stack left n v, Stacked h fuel m w stack (left + 1) n v ∧ n.FailsHere h left v := by
  -- An included script has less fuel than what is left at its inclusion.
  induction fuel using Nat.strongRecOn generalizing m w f with
  | ind fuel ih =>
      obtain ⟨left, n, v, visits, last⟩ := run_ends h fuel m w
      rw [run_visits visits] at broke
      cases left with
      | zero => cases broke
      | succ less =>
          by_cases holds : n.HoldsBelow h (run h less) v
          · exact ⟨[], less, n, v, .own visits, ⟨f, broke⟩, last less rfl, holds⟩
          · simp only [HoldsBelow, not_forall, not_not] at holds
            obtain ⟨c, u, enters, g, below⟩ := holds
            obtain ⟨stack, left, o, x, rest, fails⟩ := ih less (visits_fuel visits) c u below
            exact ⟨n :: stack, left, o, x, .within visits enters rest, fails⟩

end Machine

def Progress.report? (p : Progress ω) : Option Report :=
  match p.breakdown with
  | some (.fault f) => f.report?
  | _ => none

/-- A script that compiles has its inclusions resolved, and what they lead to is kept. -/
theorem call_closed {s : CompileSettings} {t : FileTree} {l : Library} (resolved : l.Resolved)
    {call : Call} {script : Script} (compiled : (call.run s t l).result = .ok script) :
    script.Resolved ∧ ∀ e ∈ script.inclusions, (call.run s t l).library.Closed e.resolved := by
  have whole {path : Text} {one : Compiled Script} (all : one.library.Resolved)
      (own : ∀ x, one.result = .ok x → x.Resolved)
      (ended : (Library.withInclusions s t path one).result = .ok script) :
      script.Resolved ∧ ∀ e ∈ script.inclusions,
        (Library.withInclusions s t path one).library.Closed e.resolved := by
    cases first : one.result with
    | error b =>
        rw [Library.with_inclusions_error path first, first] at ended
        cases ended
    | ok x =>
        obtain rfl := ((Library.with_inclusions_ok path first).2.2.2 script ended).1
        exact ⟨own script first, fun e => Library.with_inclusions_closed first all ended⟩
  cases call with
  | file path =>
      refine whole ((Library.fetch_grown l _).resolved resolved) ?_ compiled
      intro x found
      exact Library.given_resolved resolved (Library.fetch_result l _ ▸ found)
  | text name source =>
      rw [Call.run, Library.compile_text_eq] at compiled ⊢
      refine whole resolved ?_ compiled
      intro x found
      exact CompileSettings.compile_source_resolved found

/-- A run of a compiled script over the library that it left behind, with standard operations and
aliases, where sessions and recorders only say what is wrong. If it fails, it fails at an
instruction of its own or of a script that it includes; the report has the script, the line and the
index of that instruction, and for each machine that waits, the innermost first, the place of an
inclusion of the next script. -/
theorem failed_run_placed (s : CompileSettings) (past later : List (FileTree × Call))
    (t : FileTree) (call : Call) {script : Script}
    (compiled : (call.run s t (Library.empty.after s past)).result = .ok script)
    {h : Host ω} {files : ω → FileTree} {library : ω → Library}
    (loads : h.LoadsFrom s files library) (plain : h.Plain) {schema : Schema} {aliases : Aliases}
    {registry : Registry ω} (built : Registry.withAliases schema aliases = .ok registry)
    (own : h.registry = some registry) {w : ω}
    (kept : library w = (call.run s t (Library.empty.after s past)).library.after s later)
    (vars : Vars) (missing : MissingPolicy) (runId : Text) (fuel : Nat) :
    let m := Machine.start script vars missing runId
    (∀ f, (m.run h fuel w).breakdown = some (.fault f) → ∃ stack left n v,
      Machine.Stacked h fuel m w stack (left + 1) n v ∧ n.FailsHere h left v) ∧
    ∀ stack left n v, Machine.Stacked h fuel m w stack (left + 1) n v → n.FailsHere h left v →
      ∃ r i, (m.run h fuel w).report? = some r ∧ n.script.code[n.pc]? = some i ∧
        r.file = n.script.path ∧ r.line = i.line ∧ r.pc = n.pc ∧
        r.frames = (stack.map Machine.frame).reverse ∧ (stack ++ [n]).IsChain Machine.Includes := by
  intro m
  constructor
  · intro f broke
    exact Machine.fails_somewhere fuel m w broke
  · intro stack left n v stacked fails
    obtain ⟨⟨f, broke⟩, last, below⟩ := fails
    obtain ⟨resolved, closed⟩ :=
      call_closed (Library.after_resolved past Library.empty_resolved) compiled
    have named p x (there : (call.run s t (Library.empty.after s past)).library.get? p = some x) :
        x.path = p := by
      have since : (Library.empty.after s (past ++ [(t, call)])).get? p = some x := by
        simpa [Library.after, List.foldl_append] using there
      exact Library.after_named since
    have runs : m.RunsOver (call.run s t (Library.empty.after s past)).library library w := by
      refine ⟨resolved, closed, ?_⟩
      intro p x there
      rw [kept]
      exact Library.after_kept later there
    have running := Machine.stacked_running stacked rfl
    obtain ⟨here, chain, -⟩ := Machine.stacked_runs_over loads named stacked runs
    -- The innermost machine places the fault, and each machine around it adds its frame.
    obtain ⟨r, reported, file, line, pc, frames⟩ := n.last_tells plain built own running last
      (Machine.runs_over_granted loads here) below f broke
    obtain ⟨g, failed, told⟩ := (Machine.stacked_fault stacked broke).2 r reported
    obtain ⟨i, current⟩ := Machine.fault_current running broke
    have placed : (m.run h fuel w).report? =
        some { r with frames := r.frames ++ (stack.map Machine.frame).reverse } := by
      unfold Progress.report?
      rw [failed]
      exact told
    refine ⟨_, i, placed, current, file, line.trans (Machine.line_current current), pc, ?_, chain⟩
    rw [frames, List.nil_append]

section Bench

variable (p : BenchPlan) (path runId : Text)

theorem bench_operations_keep_library (l : Library) :
    (p.host path runId).toServices.Keeps fun w => w.library = l where
  log _ _ same := same
  pause _ _ same := same
  sends session given command w same := by
    cases given
    simp only [Bench.send]
    split <;> exact same
  awaits session given pattern nanos clear w same := by
    cases given
    simp only [Bench.await]
    split <;> exact same
  records record given result w same := by
    cases given
    simp only [Bench.record]
    split <;> exact same

theorem bench_loads_from {schema : Schema} {aliases : Aliases}
    (built : Registry.withAliases schema aliases = .ok p.setup.registry) :
    (p.host path runId).LoadsFrom p.setup.settings (fun _ => p.surroundings.files)
      Bench.library where
  load := ⟨_, rfl, fun _ _ => ⟨rfl, rfl⟩⟩
  log _ _ _ _ kept := kept
  observe boundary w q x kept := by
    simp only [BenchPlan.host]
    split <;> exact kept
  switches session given name w q x kept := by
    cases given
    simp only [Bench.switchDevice]
    split <;> exact kept
  sends session given command w q x kept := by
    have same := (bench_operations_keep_library p path runId w.library).sends session given command
      w rfl
    rw [same]
    exact kept
  handles registry given operation member site bound vars w q x kept := by
    cases given
    have same := (bench_operations_keep_library p path runId w.library).registered rfl site bound
      vars built member
    rw [same]
    exact kept

end Bench

def strayPlan : BenchPlan :=
  { sectionsPlan with
    surroundings :=
      { sectionsPlan.surroundings with
        files := ⟨[], [(["main"], "[core]\ninclude part"), (["part"], "show\n[far]")], [[]]⟩ } }

def strayMain : Script :=
  ⟨"/main", [⟨1, .device, [.text "core"]⟩, ⟨2, .inclusion, [.text "/part"]⟩], ["core"],
    [⟨"part", "/part", "core", 2⟩]⟩

theorem stray_device_placed :
    let compiled := (Call.file "main").run bareSettings strayPlan.surroundings.files .empty
    let w : Bench :=
      { Bench.new none with
        library := compiled.library, link := .simulated (Simulated.empty.restrict ["core"]) }
    let h := strayPlan.host "main" "run"
    let done := (Machine.start strayMain .empty .ignore "run").run h 9 w
    compiled.result.toOption = some strayMain ∧
      done.report?.map (fun r => (r.file, r.line, r.pc, r.frames)) =
        some (ofString "/part", 2, 1, [⟨"/main", 2, 1⟩]) ∧
      ∃ r stack n, done.report? = some r ∧ r.file = n.script.path ∧ r.pc = n.pc ∧
        r.frames = (stack.map Machine.frame).reverse ∧
        (stack ++ [n]).IsChain Machine.Includes := by
  intro compiled w h done
  have ended : scriptAt (fun _ => compiled.result) [] = some strayMain := by decide +kernel
  have report : done.report?.map (fun r => (r.file, r.line, r.pc, r.frames)) =
      some (ofString "/part", 2, 1, [⟨"/main", 2, 1⟩]) := by decide +kernel
  refine ⟨ended, report, ?_⟩
  obtain ⟨fails, places⟩ := failed_run_placed bareSettings [] [] strayPlan.surroundings.files
    (.file "main") (script_at_iff.mp ended)
    (bench_loads_from strayPlan "main" "run" standard_registry_built)
    (bench_plain strayPlan "main" "run") standard_registry_built rfl (w := w) rfl .empty .ignore
    "run" 9
  cases broke : done.breakdown with
  | none => simp [Progress.report?, broke] at report
  | some b =>
      cases b with
      | fault f =>
          obtain ⟨stack, left, n, v, stacked, here⟩ := fails f broke
          obtain ⟨r, i, told, -, file, -, pc, frames, chain⟩ := places stack left n v stacked here
          exact ⟨r, stack, n, told, file, pc, frames, chain⟩
      | crash | outOfFuel => simp [Progress.report?, broke] at report

end DeviceScript

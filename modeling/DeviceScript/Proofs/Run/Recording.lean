import DeviceScript.Proofs.Operation.Keeping
import DeviceScript.Proofs.Run.Devices
import DeviceScript.Proofs.Run.Trace

/-!
The results that a run records. A memory that only the recorder adds to holds, after any run, one
result for each comment, each expectation that the session has answered and each failure among the
instructions that were executed, in their order and with their places.
-/

namespace DeviceScript

open Text

variable {ω : Type}

theorem Vars.get_set (v : Vars) (name value : Text) :
    (v.set name value).get? name = some value := by
  unfold Vars.set
  split
  · next known =>
      obtain ⟨entries⟩ := v
      simp only [get?] at known ⊢
      induction entries with
      | nil => cases known
      | cons first rest ih =>
          rw [List.map_cons]
          cases same : first.1 == name with
          | true => simp
          | false =>
              rw [List.any_cons, same, Bool.false_or] at known
              simp only [same, Bool.false_eq_true, ↓reduceIte, List.find?_cons]
              exact ih known
  · next unknown =>
      have absent : v.entries.find? (fun entry => entry.1 == name) = none := by
        rw [List.find?_eq_none]
        intro entry among same
        exact unknown (List.any_eq_true.mpr ⟨entry, among, same⟩)
      simp [get?, List.find?_append, absent]

def CallSite.result (site : CallSite) (outcome : Outcome) (detail : Text) : Result :=
  ⟨site.runId, site.script, site.line, site.op, site.device, outcome, detail, none⟩

/-- Whether the session has met the pattern of a call, if it answers. -/
def Host.awaited? (h : Host ω) (bound : Bound) (w : ω) : Option Bool :=
  h.session.bind fun session =>
    (session.await (bound.text "pattern") (Standard.secondsToNanos (bound.int "timeout"))
      (bound.flag "clear") w).1.toOption

namespace Execution

def site (e : Execution ω) : CallSite :=
  ⟨e.machine.runId, e.machine.script.path, e.instruction.line, e.instruction.op.name,
    e.machine.device⟩

def bound? (h : Host ω) (e : Execution ω) : Option Bound :=
  match e.instruction.op with
  | .call name =>
      (h.registry.bind fun r => r.lookup? name).bind fun operation =>
        (operation.spec.bind e.params).toOption
  | _ => none

/-- The outcome of a call and its detail, for the operations that have outcomes. -/
def verdict? (h : Host ω) (e : Execution ω) (bound : Bound) : Option (Outcome × Text) :=
  if e.instruction.op.name = ofString "comment" then some (.info, bound.text "text")
  else if e.instruction.op.name = ofString "expect" then
    (h.awaited? bound e.world).map fun matched =>
      (if matched then .pass else .fail, bound.text "pattern")
  else if e.instruction.op.name = ofString "fail" then some (.fail, bound.text "message")
  else none

def results (h : Host ω) (e : Execution ω) : List Result :=
  (((e.bound? h).bind (e.verdict? h)).map fun verdict => e.site.result verdict.1 verdict.2).toList

end Execution

/-- A memory of results that the recorder adds to, and nothing else touches. -/
structure Host.Remembers (h : Host ω) (memory : ω → List Result) : Prop where
  record : ∃ record, h.record = some record ∧
    ∀ result w, memory (record result w).2 = memory w ++ [result]
  log : ∀ entry w, memory (h.log entry w) = memory w
  observe : ∀ boundary w, memory (h.observe boundary w) = memory w
  pause : ∀ nanos w, memory (h.pause nanos w) = memory w
  switches : ∀ session, h.session = some session → ∀ name w,
    memory (session.switchDevice name w).2 = memory w
  sends : ∀ session, h.session = some session → ∀ command w,
    memory (session.send command w).2 = memory w
  awaits : ∀ session, h.session = some session → ∀ pattern nanos clear w,
    memory (session.await pattern nanos clear w).2 = memory w
  loads : ∀ load, h.load = some load → ∀ path w, memory (load path w).2 = memory w

namespace Host.Remembers

variable {h : Host ω} {memory : ω → List Result} (remembers : h.Remembers memory)

include remembers

theorem report (site : CallSite) (outcome : Outcome) (detail : Text) (w : ω) :
    memory (h.report site outcome detail w).2 = memory w ++ [site.result outcome detail] := by
  obtain ⟨record, given, adds⟩ := remembers.record
  unfold Services.report
  rw [given]
  exact adds _ w

/-- Without the recorder nothing touches the memory. -/
theorem keeps_unrecorded (rs : List Result) :
    Services.Keeps { h.toServices with record := none } fun w => memory w = rs where
  log entry w same := (remembers.log entry w).trans same
  pause nanos w same := (remembers.pause nanos w).trans same
  sends session given command w same := (remembers.sends session given command w).trans same
  awaits session given pattern nanos clear w same :=
    (remembers.awaits session given pattern nanos clear w).trans same
  records := nofun

variable (site : CallSite) (bound : Bound) (vars : Vars) (w : ω)

theorem comment : memory (Standard.comment h.toServices site bound vars w).world =
    memory w ++ [site.result .info (bound.text "text")] := by
  unfold Standard.comment
  simp only
  rw [remembers.report, remembers.log]

theorem expect : memory (Standard.expect h.toServices site bound vars w).world =
    memory w ++ ((h.awaited? bound w).map fun matched =>
      site.result (if matched then .pass else .fail) (bound.text "pattern")).toList := by
  unfold Standard.expect Host.awaited?
  cases given : h.session with
  | none => simp [Reaction.fail]
  | some session =>
      have after := remembers.awaits session given (bound.text "pattern")
        (Standard.secondsToNanos (bound.int "timeout")) (bound.flag "clear") w
      simp only [Option.bind_some]
      split
      · next answered =>
          rw [answered] at after ⊢
          simpa [Reaction.fail, Except.toOption] using after
      · next answered =>
          rw [answered] at after ⊢
          simp only [remembers.report, remembers.log, after]
          rfl

theorem fail : memory (Standard.fail h.toServices site bound vars w).world =
    memory w ++ [site.result .fail (bound.text "message")] := by
  have after := remembers.report site .fail (bound.text "message") w
  unfold Standard.fail
  simp only
  split
  · next answered =>
      rw [answered] at after
      exact after
  · next answered =>
      rw [answered] at after
      exact after

end Host.Remembers

/-- The other operations have no use for a recorder. -/
theorem unrecorded_handler {schema : Schema} {aliases : Aliases} {registry : Registry ω}
    (built : Registry.withAliases schema aliases = .ok registry) {op : Operation ω}
    (member : op ∈ registry.operations) (notComment : op.name ≠ ofString "comment")
    (notExpect : op.name ≠ ofString "expect") (notFail : op.name ≠ ofString "fail")
    (s : Services ω) : op.handler { s with record := none } = op.handler s := by
  rcases Registry.with_aliases_handler built member with ⟨d, standard, named, given⟩ | ⟨_, sends⟩
  · rw [named] at notComment notExpect notFail
    generalize op.handler = handler at given ⊢
    simp only [standardOperations, List.map_cons, List.map_nil, List.mem_cons, List.not_mem_nil,
      or_false] at standard
    rcases standard with rfl | rfl | rfl | rfl | rfl | rfl | rfl | rfl | rfl | rfl | rfl
    · exact absurd rfl notComment
    · cases given
      rfl
    · cases given
      rfl
    · cases given
      rfl
    · cases given
      rfl
    · cases given
      rfl
    · cases given
      rfl
    · exact absurd rfl notExpect
    · cases given
      rfl
    · exact absurd rfl notFail
    · cases given
      rfl
  · rw [sends]
    rfl

theorem expect_vars {h : Host ω} {bound : Bound} {w : ω} {matched : Bool}
    (answered : h.awaited? bound w = some matched) (named : bound.has "var" = true)
    (site : CallSite) (vars : Vars) :
    (Standard.expect h.toServices site bound vars w).vars.get? (bound.text "var") =
      some (ofString (if matched then "1" else "0")) := by
  unfold Host.awaited? at answered
  unfold Standard.expect
  cases given : h.session with
  | none => simp [given] at answered
  | some session =>
      simp only [given, Option.bind_some] at answered
      simp only
      split
      · next refused =>
          rw [refused] at answered
          cases answered
      · next replied =>
          rw [replied] at answered
          cases answered
          simp only [named, ↓reduceIte, Vars.get_set]
          split <;> rfl

namespace Execution

variable {h : Host ω} {e : Execution ω} {name : Text} (op : e.instruction.op = .call name)

include op

theorem call_unbound (unbound : e.bound? h = none) :
    (e.machine.call h e.instruction e.params e.world).world = e.world := by
  simp only [bound?, op] at unbound
  unfold Machine.call
  simp only [op, Opcode.name]
  cases found : h.registry.bind fun r => r.lookup? name with
  | none => rfl
  | some operation =>
      cases binds : operation.spec.bind e.params with
      | error reason => simp [binds, Machine.refuse, Progress.failed]
      | ok bound => simp [found, binds, Except.toOption] at unbound

theorem call_bound {bound : Bound} (bound? : e.bound? h = some bound) :
    ∃ registry operation, h.registry = some registry ∧ registry.lookup? name = some operation ∧
      let reaction := operation.handler h.toServices e.site bound e.machine.vars e.world
      let after := e.machine.call h e.instruction e.params e.world
      after.world = reaction.world ∧ after.machine.vars = reaction.vars := by
  simp only [Execution.bound?, op] at bound?
  obtain ⟨operation, found, taken⟩ := Option.bind_eq_some_iff.mp bound?
  obtain ⟨registry, given, looked⟩ := Option.bind_eq_some_iff.mp found
  refine ⟨registry, operation, given, looked, ?_⟩
  cases binds : operation.spec.bind e.params with
  | error reason => simp [binds, Except.toOption] at taken
  | ok other =>
      simp only [binds, Except.toOption, Option.some.injEq] at taken
      subst taken
      simp only [Machine.call, site, op, Opcode.name, found, binds]
      split
      · rw [Machine.session_fault_world, Machine.session_fault_vars]
        exact ⟨rfl, rfl⟩
      · exact ⟨rfl, rfl⟩

end Execution

/-- What a host does for a machine, calls apart, does not touch the memory. -/
theorem Host.Remembers.keeps_uncalled {h : Host ω} {memory : ω → List Result}
    (remembers : h.Remembers memory) (rs : List Result) :
    ({ h with registry := none } : Host ω).Keeps fun w => memory w = rs where
  log entry w same := (remembers.log entry w).trans same
  observe boundary w same := (remembers.observe boundary w).trans same
  switches session given name w same := (remembers.switches session given name w).trans same
  sends session given command w same := (remembers.sends session given command w).trans same
  handles := nofun
  loads load given path w same := (remembers.loads load given path w).trans same

section Recording

variable {h : Host ω} {memory : ω → List Result} (remembers : h.Remembers memory)
variable {schema : Schema} {aliases : Aliases} {registry : Registry ω}
variable (built : Registry.withAliases schema aliases = .ok registry)
variable (given : h.registry = some registry)

include built in
theorem standard_handler {name : Text} {operation : Operation ω}
    (found : registry.lookup? name = some operation) {label : String} (handler : Handler ω)
    (called : name = ofString label)
    (standard : ⟨ofString label, none, some handler⟩ ∈ standardOperations (ω := ω)) :
    operation.handler = handler := by
  subst called
  exact (Option.some.inj (Registry.with_aliases_standard built standard found)).symm

include built given

/-- An expectation that is answered leaves the answer in the variable it names. -/
theorem expectation_noted {e : Execution ω} (expects : e.instruction.op.name = ofString "expect")
    {bound : Bound} (bound? : e.bound? h = some bound) {matched : Bool}
    (answered : h.awaited? bound e.world = some matched) (named : bound.has "var" = true)
    (child : Machine → ω → Progress ω) :
    (e.machine.execute h child e.instruction e.params e.world).machine.vars.get?
        (bound.text "var") = some (ofString (if matched then "1" else "0")) := by
  cases op : e.instruction.op with
  | call name =>
      obtain ⟨other, operation, again, found, -, vars⟩ := e.call_bound op bound?
      cases given.symm.trans again
      rw [op] at expects
      simp only [Machine.execute, op, vars]
      rw [standard_handler built found Standard.expect expects (by simp [standardOperations])]
      exact expect_vars answered named _ _
  | _ => simp [Execution.bound?, op] at bound?

include remembers

/-- A call of an operation that has outcomes records the one that it comes to. -/
theorem call_records (e : Execution ω) {name : Text} (op : e.instruction.op = .call name) :
    memory (e.machine.call h e.instruction e.params e.world).world =
      memory e.world ++ e.results h := by
  unfold Execution.results
  cases bound? : e.bound? h with
  | none => simp [e.call_unbound op bound?]
  | some bound =>
      obtain ⟨other, operation, again, found, after, -⟩ := e.call_bound op bound?
      cases given.symm.trans again
      simp only [after, Option.bind_some, Execution.verdict?, op, Opcode.name]
      -- No alias has the name of a standard operation, so the name tells which handler it is.
      split
      · next comment =>
          rw [standard_handler built found Standard.comment comment (by simp [standardOperations]),
            remembers.comment]
          rfl
      · next notComment =>
          split
          · next expect =>
              rw [standard_handler built found Standard.expect expect
                (by simp [standardOperations]), remembers.expect, Option.map_map]
              rfl
          · next notExpect =>
              split
              · next fail =>
                  rw [standard_handler built found Standard.fail fail
                    (by simp [standardOperations]), remembers.fail]
                  rfl
              · next notFail =>
                  have named : operation.name = name := by simpa using List.find?_some found
                  have member := List.mem_of_find?_eq_some found
                  rw [← named] at notComment notExpect notFail
                  rw [← unrecorded_handler built member notComment notExpect notFail]
                  simp only [Option.map_none, Option.toList_none, List.append_nil]
                  exact (remembers.keeps_unrecorded (memory e.world)).registered rfl _ bound _ built
                    member

/-- Whatever an instruction is, the memory receives its results. -/
theorem execute_records (e : Execution ω) (alone : e.instruction.op ≠ .inclusion)
    (child : Machine → ω → Progress ω) :
    memory (e.machine.execute h child e.instruction e.params e.world).world =
      memory e.world ++ e.results h := by
  have keeps := remembers.keeps_uncalled (memory e.world)
  by_cases call : ∃ name, e.instruction.op = .call name
  · obtain ⟨name, op⟩ := call
    simp only [Machine.execute, op]
    exact call_records remembers built given e op
  · -- Only calls have results.
    have none : e.results h = [] := by
      unfold Execution.results Execution.bound?
      split
      · next name op => exact absurd ⟨name, op⟩ call
      · rfl
    rw [none, List.append_nil]
    by_cases control : e.instruction.op.isControl = true
    · rw [(e.machine.control_stays h child control e.params e.world).2]
    · unfold Machine.execute
      cases op : e.instruction.op with
      | device => exact Machine.switch_device_keeps keeps e.machine rfl e.params
      | command => exact Machine.command_keeps keeps e.machine rfl e.params
      | inclusion => exact absurd op alone
      | call name => exact absurd ⟨name, op⟩ call
      | _ => simp [op, Opcode.isControl] at control

theorem results_collected : h.Collects memory (Execution.results h) := by
  have unchanged {m : Machine} {w : ω} {e : Execution ω} (due : m.execution? h w = some e) :
      memory e.world = memory w := by
    obtain ⟨rfl, -, -, -, world, -⟩ := Machine.execution_some due
    have same := Machine.warned_keeps (h := h) (P := fun v => memory v = memory w)
      (fun entry v held => (remembers.log entry v).trans held) e.machine e.instruction rfl
    rw [world, remembers.observe, same]
  constructor
  · exact remembers.log
  · exact remembers.switches
  · exact remembers.loads
  · intro m w e due alone child
    obtain ⟨rfl, -⟩ := Machine.execution_some due
    rw [execute_records remembers built given e alone child, unchanged due]
  · intro m w e due op
    simp [unchanged due, Execution.results, Execution.bound?, op]

/-- The results that a run records are those of the instructions that it executes, however it ends:
nothing is lost, nothing recorded twice. An expectation also leaves its answer in the variable that
it names. -/
theorem recorded_results_trace (fuel : Nat) (m : Machine) (w : ω) :
    memory (m.run h fuel w).world =
        memory w ++ (m.executed h fuel w).flatMap (Execution.results h) ∧
      ∀ e ∈ m.executed h fuel w, e.instruction.op.name = ofString "expect" →
        ∀ bound, e.bound? h = some bound → ∀ matched, h.awaited? bound e.world = some matched →
          bound.has "var" = true → ∀ child,
            (e.machine.execute h child e.instruction e.params e.world).machine.vars.get?
                (bound.text "var") = some (ofString (if matched then "1" else "0")) := by
  refine ⟨Machine.run_collects (results_collected remembers built given) fuel m w, ?_⟩
  intro e _ expects bound bound? matched answered named child
  exact expectation_noted built given expects bound? answered named child

end Recording

/-- The results of a bench are such a memory, wherever else they are kept. -/
theorem bench_remembers (p : BenchPlan) (path runId : Text) :
    (p.host path runId).Remembers Bench.results where
  record := by
    refine ⟨_, rfl, ?_⟩
    intro result w
    unfold Bench.record
    simp only
    split <;> rfl
  log _ _ := rfl
  observe boundary w := by
    simp only [BenchPlan.host]
    split <;> rfl
  pause _ _ := rfl
  switches session given name w := by
    cases given
    simp only [Bench.switchDevice]
    split <;> rfl
  sends session given command w := by
    cases given
    simp only [Bench.send]
    split <;> rfl
  awaits session given pattern nanos clear w := by
    cases given
    simp only [Bench.await]
    split <;> rfl
  loads load given path w := by
    cases given
    rfl

def declaredRegistry : Registry Bench :=
  (Registry.ofDescriptors Schema.standard standardOperations).toOption.getD .empty

theorem declared_registry_built :
    Registry.withAliases Schema.standard ⟨[]⟩ = .ok declaredRegistry := by
  unfold Registry.withAliases Aliases.operations
  rw [List.mergeSort_nil]
  rfl

def surveyPlan : BenchPlan :=
  { sectionsPlan with
    setup := ⟨declaredRegistry, ⟨Schema.standard, fun _ _ => none, false, []⟩⟩ }

def surveyScript : Script :=
  ⟨"/main",
    [⟨1, .device, [.text "core"]⟩, ⟨2, .call "comment", [.text "first"]⟩,
      ⟨3, .inclusion, [.text "/part"]⟩, ⟨4, .call "comment", [.text "last"]⟩], ["core"],
    [⟨"part", "/part", "core", 3⟩]⟩

def surveyPart : Script :=
  ⟨"/part",
    [⟨1, .device, [.text "edge"]⟩, ⟨2, .loop, [.int 5]⟩, ⟨3, .call "incr", [.text "n"]⟩,
      ⟨4, .call "expect", [.text "up", .absent, .absent, .text "seen"]⟩,
      ⟨5, .untilMet, [.int 2, .text "$n", .text "ge", .text "2"]⟩,
      ⟨6, .call "fail", [.text "$seen"]⟩], ["edge"], []⟩

def surveyBench : Bench :=
  { Bench.new none with
    library := ⟨[("/part", surveyPart)]⟩, link := .simulated (Simulated.empty.emit "edge" "up") }

theorem survey_results_trace :
    let h := surveyPlan.host "main" "run"
    let m := Machine.start surveyScript .empty .ignore "run"
    (m.run h 20 surveyBench).breakdown.isSome = true ∧
    (m.executed h 20 surveyBench).flatMap (Execution.results h) =
      [⟨"run", "/main", 2, "comment", "core", .info, "first", none⟩,
        ⟨"run", "/part", 4, "expect", "edge", .pass, "up", none⟩,
        ⟨"run", "/part", 4, "expect", "edge", .fail, "up", none⟩,
        ⟨"run", "/part", 6, "fail", "edge", .fail, "0", none⟩] ∧
    ∃ e ∈ m.executed h 20 surveyBench, e.instruction.op = .call "expect" ∧ ∀ child,
      (e.machine.execute h child e.instruction e.params e.world).machine.vars.get? "seen" =
        some "1" := by
  intro h m
  have recorded : (m.run h 20 surveyBench).world.results =
      [⟨"run", "/main", 2, "comment", "core", .info, "first", none⟩,
        ⟨"run", "/part", 4, "expect", "edge", .pass, "up", none⟩,
        ⟨"run", "/part", 4, "expect", "edge", .fail, "up", none⟩,
        ⟨"run", "/part", 6, "fail", "edge", .fail, "0", none⟩] := by decide +kernel
  have first : ((m.executed h 20 surveyBench).find? fun e =>
      e.instruction.op == .call "expect").map (fun e => (e.bound? h).map fun bound =>
        (h.awaited? bound e.world, bound.has "var", bound.text "var")) =
      some (some (some true, true, ofString "seen")) := by decide +kernel
  obtain ⟨trace, noted⟩ := recorded_results_trace (bench_remembers surveyPlan "main" "run")
    declared_registry_built rfl 20 m surveyBench
  refine ⟨by decide +kernel, ?_, ?_⟩
  · rw [← recorded, trace]
    exact (List.nil_append _).symm
  · obtain ⟨e, found, met⟩ := Option.map_eq_some_iff.mp first
    obtain ⟨bound, bound?, facts⟩ := Option.map_eq_some_iff.mp met
    obtain ⟨answered, named, text⟩ : h.awaited? bound e.world = some true ∧
        bound.has "var" = true ∧ bound.text "var" = "seen" := by simpa using facts
    have among := List.mem_of_find?_eq_some found
    have op : e.instruction.op = .call "expect" := by simpa using List.find?_some found
    refine ⟨e, among, op, fun child => ?_⟩
    rw [← text]
    exact noted e among (by rw [op]; rfl) bound bound? true answered named child

end DeviceScript

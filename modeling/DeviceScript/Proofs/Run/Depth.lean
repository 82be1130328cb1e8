import DeviceScript.Proofs.Library.Trails
import DeviceScript.Proofs.Run.Stacks

/-!
How deep inclusions go. The depth of a machine is the number of machines that wait around it, and
these stand on a trail of inclusions that compiling has accepted. Compiling puts no bound on the
length of a trail, but running does: an inclusion is refused exactly if as many machines wait as the
bound says, although the script that it asks for is kept.
-/

namespace DeviceScript

open Text

variable {ω : Type}

namespace Machine

variable {h : Host ω} {fuel left : Nat} {m n : Machine} {w v : ω} {stack : List Machine}

theorem step_depth (h : Host ω) (child : Machine → ω → Progress ω) (m : Machine) (i : Instruction)
    (w : ω) : (m.step h child i w).machine.depth = m.depth := by
  obtain ⟨pc, stack, vars, device, abortReason, same⟩ := m.step_changes h child i w
  rw [same]

theorem visits_depth (visits : Visits h fuel m w left n v) : n.depth = m.depth := by
  induction visits with
  | here => rfl
  | @onward fuel left m m' n w w' v next _ ih =>
      obtain ⟨i, -, -, -, stepped, -⟩ := (next_iff ..).mp next
      have same := step_depth h (run h fuel) m i w
      rw [stepped] at same
      exact ih.trans same

/-- The depth of a machine tells how many machines wait around it. -/
theorem stacked_depth (stacked : Stacked h fuel m w stack left n v) :
    n.depth = m.depth + stack.length := by
  induction stacked with
  | own visits => exact visits_depth visits
  | within visits enters _ ih =>
      obtain ⟨path, v', load, script, v'', -, -, -, rfl, -⟩ := enters
      have inner := visits_depth visits
      rw [ih]
      simp only [child, List.length_cons]
      omega

/-- An inclusion at the bound is refused before its script is asked for. -/
theorem inclusion_refused {load : Text → ω → Except Breakdown Script × ω}
    (given : h.load = some load) (deep : maxDepth ≤ m.depth) {i : Instruction}
    (op : i.op = .inclusion) {path : Text} (params : i.params = [.text path])
    (child : Machine → ω → Progress ω) :
    m.step h child i w =
      m.refuse .handler (.nestedTooDeep path maxDepth)
        (h.observe ⟨m.depth, m.pc, i, m.stack, m.vars⟩ w) := by
  rw [step_inclusion h child m op w]
  unfold inclusion
  simp only [params, given, deep, ↓reduceIte]
  rfl

theorem stacked_refused (stacked : Stacked h fuel m w stack (left + 1) n v)
    {i : Instruction} (current : n.script.code[n.pc]? = some i) (running : n.state = .running)
    (free : stopReason? h v = none) {reason : Reason} {told : ω}
    (refused : n.step h (run h left) i v = n.refuse .handler reason told) :
    ∃ f, (m.run h fuel w).breakdown = some (.fault f) ∧
      f.report? = some { Report.atInstruction .handler reason.message n.script.path i.line n.pc with
        frames := (stack.map frame).reverse } := by
  have broke : (n.run h (left + 1) v).breakdown =
      some (.fault (n.locate .handler (.plain reason))) := by
    rw [run_settled current running free, refused, settled_fault rfl]
    rfl
  have report : (n.locate .handler (.plain reason)).report? =
      some (Report.atInstruction .handler reason.message n.script.path i.line n.pc) := by
    rw [← line_current current]
    rfl
  obtain ⟨f, outer, told⟩ := (stacked_fault stacked broke).2 _ report
  exact ⟨f, outer, told⟩

end Machine

namespace Host.LoadsFrom

variable {h : Host ω} {s : CompileSettings} {files : ω → FileTree} {library : ω → Library}
variable (loads : h.LoadsFrom s files library) {l : Library} {root : Text} (closed : l.Closed root)
variable {fuel left : Nat} {m n : Machine} {w v : ω} {stack : List Machine} {q : Text}

include loads closed

omit loads in
/-- An inclusion of a kept script names the path of one of its recorded inclusions, and the script
there is kept. -/
theorem inclusion_kept (leads : l.Leads root q) (script : l.get? q = some m.script)
    {i : Instruction} (current : m.script.code[m.pc]? = some i) (op : i.op = .inclusion) :
    ∃ e ∈ m.script.inclusions, i.params = [.text e.resolved] ∧ l.Leads root e.resolved ∧
      ∃ found, l.get? e.resolved = some found := by
  have resolved := closed.resolved q _ leads script
  obtain ⟨e, member, named⟩ := resolved.operands i (List.mem_of_getElem? current) op
  have onward : l.Leads root e.resolved := Library.leads_on leads script (.direct member)
  exact ⟨e, member, named, onward, closed.kept _ onward⟩

theorem inclusion_enters (leads : l.Leads root q) (script : l.get? q = some m.script)
    (held : l.Extends (library w)) {i : Instruction} (current : m.script.code[m.pc]? = some i)
    (running : m.state = .running) (free : Machine.stopReason? h w = none) (op : i.op = .inclusion)
    {path : Text} (params : i.params = [.text path]) {found : Script}
    (kept : l.get? path = some found) (shallow : m.depth < maxDepth) :
    ∃ u, m.Enters h w (m.child found) u := by
  have requests : m.Requests h w path (h.observe ⟨m.depth, m.pc, i, m.stack, m.vars⟩ w) :=
    ⟨i, .text path, [], current, running, free, op, params, rfl, shallow, rfl⟩
  have told := Machine.requests_keeps (loads.keeps l) requests held
  obtain ⟨-, load, there, given, again, gave⟩ :=
    loads.request_kept closed requests leads script told
  cases kept.symm.trans again
  exact ⟨_, path, _, load, found, _, requests, given, Prod.ext gave rfl, rfl, rfl⟩

/-- The machines that wait stand on a trail of recorded inclusions, one for each of them. -/
theorem stacked_trail (stacked : Machine.Stacked h fuel m w stack left n v)
    (leads : l.Leads root q) (script : l.get? q = some m.script) (held : l.Extends (library w)) :
    ∃ frames r, Trail l.get? q frames r ∧ frames.length = stack.length ∧ l.Leads root r ∧
      l.get? r = some n.script ∧ l.Extends (library v) := by
  have kept := loads.keeps l
  induction stacked generalizing q with
  | own visits =>
      obtain ⟨same, still⟩ := Machine.visits_keeps kept visits held
      exact ⟨[], q, .here q, rfl, leads, same ▸ script, still⟩
  | @within fuel left less m n c o w v u x stack visits enters _ ih =>
      obtain ⟨same, still⟩ := Machine.visits_keeps kept visits held
      rw [← same] at script
      obtain ⟨path, v', load, found, v'', requests, given, loaded, rfl, rfl⟩ := enters
      have told := Machine.requests_keeps kept requests still
      obtain ⟨onward, other, there, again, here, gave⟩ :=
        loads.request_kept closed requests leads script told
      -- The script that is run next is the one that the library keeps.
      cases given.symm.trans again
      have after := kept.loads load given path v' told
      rw [loaded] at gave after
      cases gave
      obtain ⟨i, operand, rest, current, -, -, op, params, rfl, -, -⟩ := requests
      obtain ⟨e, member, named, -, -⟩ := inclusion_kept closed leads script current op
      cases params.symm.trans named
      obtain ⟨frames, r, trail, long, further⟩ := ih onward here (kept.log _ _ after)
      refine ⟨_, r, .through script member trail, ?_, further⟩
      rw [List.length_cons, List.length_cons, long]

end Host.LoadsFrom

theorem trail_append {find : Text → Option Script} {p q r : Text} {frames more : List Frame}
    (first : Trail find p frames q) (second : Trail find q more r) :
    Trail find p (frames ++ more) r := by
  induction first with
  | here => exact second
  | through found member _ ih => exact .through found member (ih second)

/-- A file compiles, and later a run of its script comes to an inclusion, in the script or in one
that it includes. The inclusion is one more on a trail from the script, after one for every machine
that waits; the script it asks for is kept. Below the bound that script is run next. At the bound
the inclusion is refused, and the run fails with that. So a run is refused nothing if no trail from
its script is longer than the bound, and may be refused a script that has compiled if one is. -/
theorem kept_inclusion_entered_iff (s : CompileSettings) (past : List (FileTree × Call))
    (t : FileTree) (path : Text) {script : Script}
    (compiled : (Library.compileFile s t (Library.empty.after s past) path).result = .ok script)
    (later : List (FileTree × Call)) {h : Host ω} {files : ω → FileTree}
    {library : ω → Library} (loads : h.LoadsFrom s files library) {w : ω}
    (holds : library w =
      (Library.compileFile s t (Library.empty.after s past) path).library.after s later)
    (vars : Vars) (missing : MissingPolicy) (runId : Text) {fuel left : Nat}
    {stack : List Machine} {n : Machine} {v : ω}
    (stacked : Machine.Stacked h fuel (.start script vars missing runId) w stack (left + 1) n v)
    {i : Instruction} (current : n.script.code[n.pc]? = some i) (op : i.op = .inclusion)
    (free : Machine.stopReason? h v = none) :
    let l := (Library.compileFile s t (Library.empty.after s past) path).library
    ∃ target found, i.params = [.text target] ∧ l.get? target = some found ∧
      (∃ frames, Trail l.get? (t.absolute path) frames target ∧
        frames.length = stack.length + 1) ∧
      ((∃ u, n.Enters h v (n.child found) u) ↔ stack.length < maxDepth) ∧
      (maxDepth ≤ stack.length →
        ∃ f, ((Machine.start script vars missing runId).run h fuel w).breakdown =
            some (.fault f) ∧
          f.report? = some { Report.atInstruction .handler
            (Reason.nestedTooDeep target maxDepth).message n.script.path i.line n.pc with
            frames := (stack.map Machine.frame).reverse }) ∧
      ((∀ frames r, Trail l.get? (t.absolute path) frames r → frames.length ≤ maxDepth) →
        ∃ u, n.Enters h v (n.child found) u) := by
  intro l
  have resolved := Library.after_resolved (s := s) past Library.empty_resolved
  obtain ⟨root, closed⟩ := Library.compile_file_closed resolved compiled
  have held : l.Extends (library w) := by
    intro p x kept
    rw [holds]
    exact Library.after_kept later kept
  have running := Machine.stacked_running stacked rfl
  have depth : n.depth = stack.length := by
    rw [Machine.stacked_depth stacked]
    exact Nat.zero_add _
  obtain ⟨frames, r, trail, long, leads, there, still⟩ :=
    loads.stacked_trail closed stacked (.inl rfl) root held
  obtain ⟨e, member, params, -, found, kept⟩ :=
    Host.LoadsFrom.inclusion_kept closed leads there current op
  -- The inclusion prolongs the trail of the machines that wait by one.
  have onward : Trail l.get? (t.absolute path) (frames ++ [⟨r, e.line, -1⟩]) e.resolved :=
    trail_append trail (.through there member (.here _))
  have longer : (frames ++ [(⟨r, e.line, -1⟩ : Frame)]).length = stack.length + 1 := by
    rw [List.length_append, long, List.length_singleton]
  have enters (shallow : stack.length < maxDepth) : ∃ u, n.Enters h v (n.child found) u :=
    loads.inclusion_enters closed leads there still current running free op params kept
      (depth ▸ shallow)
  refine ⟨e.resolved, found, params, kept, ⟨_, onward, longer⟩, ⟨?_, enters⟩, ?_, ?_⟩
  -- A script is asked for only where the depth has been tested.
  · rintro ⟨u, path', v', load, script', v'', requests, -⟩
    obtain ⟨_, _, _, -, -, -, -, -, -, within, -⟩ := requests
    exact depth ▸ within
  · intro deep
    obtain ⟨load, given, -⟩ := loads.load
    exact Machine.stacked_refused stacked current running free
      (Machine.inclusion_refused given (depth ▸ deep) op params _)
  · intro bounded
    have short := bounded _ _ onward
    exact enters (by omega)

def chainOfFiles (count : Nat) : FileTree :=
  ⟨[], (List.range count).map fun k => (["f" ++ ofNat k],
    if k + 1 = count then "show" else "include f" ++ ofNat (k + 1)), [[]]⟩

def chainScript (k : Nat) : Script :=
  let next : Text := "f" ++ ofNat (k + 1)
  ⟨"/f" ++ ofNat k, [⟨1, .inclusion, [.text ("/" ++ next)]⟩], [], [⟨next, "/" ++ next, [], 1⟩]⟩

theorem chain_second_entered :
    let done := Library.compileFile bareSettings (chainOfFiles 3) .empty "f0"
    let first := Machine.start (chainScript 0) .empty .ignore "run"
    done.result = .ok (chainScript 0) ∧ ∃ n v found u,
      Machine.Stacked (Host.overVanishing bareSettings) 3 first (chainOfFiles 3, done.library)
        [first] 2 n v ∧
      n.script = chainScript 1 ∧ found.path = ofString "/f2" ∧
      n.Enters (Host.overVanishing bareSettings) v (n.child found) u := by
  intro done first
  have compiled : done.result = .ok (chainScript 0) := by
    have same : scriptAt (fun _ => done.result) "f0" = some (chainScript 0) := by decide +kernel
    exact script_at_iff.mp same
  have second : done.library.get? "/f1" = some (chainScript 1) := by decide +kernel
  have third : (done.library.get? "/f2").map Script.path = some (ofString "/f2") := by decide +kernel
  have loads := over_vanishing_loads bareSettings
  have start : Machine.Stacked (Host.overVanishing bareSettings) 3 first
      (chainOfFiles 3, done.library) [] 3 first (chainOfFiles 3, done.library) :=
    .own (.here ..)
  obtain ⟨path, found, params, kept, -, entered, -, -⟩ :=
    kept_inclusion_entered_iff bareSettings [] (chainOfFiles 3) "f0" compiled [] loads rfl .empty
      .ignore "run" start rfl rfl rfl
  cases params
  cases second.symm.trans kept
  obtain ⟨u, enters⟩ := entered.mpr (by decide)
  have inner : Machine.Stacked (Host.overVanishing bareSettings) 3 first
      (chainOfFiles 3, done.library) [first] 2 (first.child (chainScript 1)) u :=
    .within (.here ..) enters (.own (.here ..))
  obtain ⟨path, found, params, kept, -, entered, -, -⟩ :=
    kept_inclusion_entered_iff bareSettings [] (chainOfFiles 3) "f0" compiled [] loads rfl .empty
      .ignore "run" inner rfl rfl rfl
  cases params
  rw [show done.library.get? "/f2" = some found from kept] at third
  obtain ⟨u', enters⟩ := entered.mpr (by decide)
  exact ⟨compiled, _, u, found, u', inner, rfl, Option.some.inj third, enters⟩

def chainFailure? (count : Nat) : Option (Script × Text) :=
  let done := Library.compileFile bareSettings (chainOfFiles count) .empty "f0"
  match done.result with
  | .error _ => none
  | .ok script =>
      match ((Machine.start script .empty .ignore "run").run
          (Host.overVanishing bareSettings).unobserved count
          (chainOfFiles count, done.library)).breakdown with
      | some (.fault f) => f.report?.map fun r => (script, r.text)
      | _ => none

theorem chain_failure {count : Nat} {script : Script} {text : Text}
    (failed : chainFailure? count = some (script, text)) :
    let done := Library.compileFile bareSettings (chainOfFiles count) .empty "f0"
    done.result = .ok script ∧
      ∃ f r, ((Machine.start script .empty .ignore "run").run
          (Host.overVanishing bareSettings).unobserved count
          (chainOfFiles count, done.library)).breakdown = some (.fault f) ∧
        f.report? = some r ∧ r.text = text := by
  intro done
  unfold chainFailure? at failed
  simp only at failed
  split at failed
  · cases failed
  · next compiled =>
      split at failed
      · next f broke =>
          obtain ⟨r, report, same⟩ := Option.map_eq_some_iff.mp failed
          cases same
          exact ⟨compiled, f, r, broke, report, rfl⟩
      · cases failed

/-- A chain of scripts that is longer than the bound compiles, and is refused when it is run. -/
theorem long_chain_refused :
    let done := Library.compileFile bareSettings (chainOfFiles 66) .empty "f0"
    done.result = .ok (chainScript 0) ∧
      ∃ f r, ((Machine.start (chainScript 0) .empty .ignore "run").run
          (Host.overVanishing bareSettings).unobserved 66
          (chainOfFiles 66, done.library)).breakdown = some (.fault f) ∧
        f.report? = some r ∧ r.text = "include /f65: nesting deeper than 64" := by
  apply chain_failure
  decide +kernel

end DeviceScript

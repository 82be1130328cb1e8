import DeviceScript.Proofs.Library.Closure
import DeviceScript.Proofs.Run.Boundary

/-!
The scripts that a run loads. A run stays in its script, and what all services of a host keep is
kept by whole runs; so a run on a script of a closed library, its inclusions with it, asks for
scripts that the library keeps, and is given them whatever has become of the files.
-/

namespace DeviceScript

open Text

variable {ω : Type}

/-- All that surrounds a machine keeps what holds of the world. -/
structure Host.Keeps (h : Host ω) (P : ω → Prop) : Prop where
  log : ∀ entry w, P w → P (h.log entry w)
  observe : ∀ boundary w, P w → P (h.observe boundary w)
  switches : ∀ session, h.session = some session → ∀ name w, P w → P (session.switchDevice name w).2
  sends : ∀ session, h.session = some session → ∀ command w, P w → P (session.send command w).2
  handles : ∀ registry, h.registry = some registry → ∀ operation ∈ registry.operations,
    ∀ site bound vars w, P w → P (operation.handler h.toServices site bound vars w).world
  loads : ∀ load, h.load = some load → ∀ path w, P w → P (load path w).2

def Host.unobserved (h : Host ω) : Host ω := { h with observe := fun _ w => w }

namespace Machine

/-- Wherever control goes, the machine changes in its position and its stack only. -/
def Stays (m : Machine) (flow : Flow) : Prop :=
  ∀ m', flow = .ok m' → ∃ pc stack, m' = { m with pc := pc, stack := stack }

section Stays

variable (m : Machine)

theorem stays_ok (pc : Nat) (stack : ControlStack) :
    m.Stays (.ok { m with pc := pc, stack := stack }) := by
  rintro _ ⟨⟩
  exact ⟨pc, stack, rfl⟩

theorem stays_bind {α : Type} (x : Except (FaultKind × Reason) α) {f : α → Flow}
    (each : ∀ a, m.Stays (f a)) : m.Stays (x >>= f) := by
  cases x with
  | error e => exact nofun
  | ok a => exact each a

theorem stays_forward (line : Int) : m.Stays ((m.jumpForward line).mapError flowFault) := by
  unfold jumpForward
  split
  · exact m.stays_ok _ _
  · exact nofun

theorem stays_backward (line : Int) : m.Stays ((m.jumpBackward line).mapError flowFault) := by
  unfold jumpBackward
  split
  · exact m.stays_ok _ _
  · exact nofun

theorem else_if_stays (params : List Value) : m.Stays (m.elseIf params) := by
  refine m.stays_bind _ fun _ => m.stays_bind _ fun taken => ?_
  split
  · exact m.stays_forward _
  · refine m.stays_bind _ fun holds => ?_
    split
    · exact m.stays_bind _ fun stack => m.stays_ok _ _
    · exact m.stays_forward _

theorem else_branch_stays (params : List Value) : m.Stays (m.elseBranch params) := by
  refine m.stays_bind _ fun _ => m.stays_bind _ fun taken => ?_
  split
  · exact m.stays_forward _
  · exact m.stays_ok _ _

theorem fi_stays : m.Stays m.fi := m.stays_bind _ fun _ => m.stays_ok _ _

theorem loop_stays (params : List Value) : m.Stays (m.loop params) := by
  refine m.stays_bind _ fun ⟨guard, target⟩ => ?_
  simp only
  split
  · exact m.stays_ok _ _
  · refine m.stays_bind _ fun holds => ?_
    split
    · exact m.stays_ok _ _
    · cases went : (m.jumpForward target).mapError flowFault with
      | error e => exact nofun
      | ok m' =>
          obtain ⟨pc, stack, rfl⟩ := m.stays_forward _ m' went
          exact m.stays_ok (pc + 1) stack

theorem loop_end_stays (op : Opcode) (params : List Value) : m.Stays (m.loopEnd op params) := by
  unfold loopEnd
  split
  · exact nofun
  · exact m.stays_backward _
  · refine m.stays_bind _ fun finished => ?_
    split
    · exact m.stays_ok _ _
    · exact m.stays_backward _
  · exact nofun

theorem follow_stays {flow : Flow} (stays : m.Stays flow) (w : ω) :
    (∃ pc stack, (m.follow flow w).machine = { m with pc := pc, stack := stack }) ∧
      (m.follow flow w).world = w := by
  unfold follow
  split
  · next m' => exact ⟨stays m' rfl, rfl⟩
  · exact ⟨⟨_, _, rfl⟩, rfl⟩

theorem if_not_goto_stays (params : List Value) (w : ω) :
    (∃ pc stack, (m.ifNotGoto params w).machine = { m with pc := pc, stack := stack }) ∧
      (m.ifNotGoto params w).world = w := by
  unfold ifNotGoto
  split
  · exact ⟨⟨_, _, rfl⟩, rfl⟩
  · next holds target _ =>
      refine follow_stays { m with stack := m.stack.push holds } ?_ w
      split
      · exact stays_ok _ _ _
      · exact stays_forward _ _

theorem control_stays (h : Host ω) (child : Machine → ω → Progress ω) {i : Instruction}
    (control : i.op.isControl = true) (params : List Value) (w : ω) :
    (∃ pc stack, (m.execute h child i params w).machine = { m with pc := pc, stack := stack }) ∧
      (m.execute h child i params w).world = w := by
  unfold execute
  cases op : i.op with
  | ifNotGoto => exact m.if_not_goto_stays params w
  | elseIf => exact m.follow_stays (m.else_if_stays params) w
  | elseBranch => exact m.follow_stays (m.else_branch_stays params) w
  | fi => exact m.follow_stays m.fi_stays w
  | loop => exact m.follow_stays (m.loop_stays params) w
  | endWhile => exact m.follow_stays (m.loop_end_stays .endWhile params) w
  | untilMet => exact m.follow_stays (m.loop_end_stays .untilMet params) w
  | _ => simp [op, Opcode.isControl] at control

/-- What a step may change of a machine. -/
theorem step_changes (h : Host ω) (child : Machine → ω → Progress ω) (i : Instruction) (w : ω) :
    ∃ pc stack vars device abortReason, (m.step h child i w).machine =
      { m with
        pc := pc, stack := stack, vars := vars, device := device, abortReason := abortReason } := by
  rcases step_cases h m i w with ⟨text, -, step⟩ | ⟨told, step⟩
  · rw [step child]
    exact ⟨_, _, _, _, _, rfl⟩
  · rw [step child]
    by_cases control : i.op.isControl = true
    · obtain ⟨⟨pc, stack, same⟩, -⟩ :=
        m.control_stays h child control (i.interpolated m.vars) told
      rw [same]
      exact ⟨_, _, _, _, _, rfl⟩
    · have alike := execute_alike h child m rfl rfl i (by simpa using control)
        (i.interpolated m.vars) told
      rw [alike.1]
      exact ⟨_, _, _, _, _, rfl⟩

theorem step_stays (h : Host ω) (child : Machine → ω → Progress ω) (i : Instruction) (w : ω) :
    (m.step h child i w).machine.script = m.script ∧
      (m.step h child i w).machine.state = m.state := by
  obtain ⟨pc, stack, vars, device, abortReason, same⟩ := m.step_changes h child i w
  rw [same]
  exact ⟨rfl, rfl⟩

end Stays

theorem session_fault_world (m : Machine) (canceled : Bool) (f : Fault) (w : ω) :
    (m.sessionFault canceled f w).world = w := by
  unfold sessionFault
  repeat' split
  all_goals rfl

theorem session_fault_vars (m : Machine) (canceled : Bool) (f : Fault) (w : ω) :
    (m.sessionFault canceled f w).machine.vars = m.vars := by
  unfold sessionFault
  repeat' split
  all_goals rfl

theorem session_fault_fails (m : Machine) (canceled : Bool) (f : Fault) (w : ω) :
    ∃ g, (m.sessionFault canceled f w).breakdown = some (.fault g) := by
  unfold sessionFault
  repeat' split
  all_goals exact ⟨_, rfl⟩

theorem framed_world (m : Machine) (line : Int) (f : Fault) (w : ω) :
    (m.framed line f w).world = w := by
  unfold framed
  split <;> rfl

section Keeps

variable {h : Host ω} {P : ω → Prop} (keeps : h.Keeps P) (m : Machine) {w : ω} (holds : P w)

include keeps holds

theorem switch_device_keeps (params : List Value) : P (m.switchDevice h params w).world := by
  cases params with
  | nil => exact holds
  | cons operand rest =>
      unfold switchDevice
      cases given : h.session with
      | none => exact keeps.log _ _ holds
      | some session =>
          have after := keeps.switches session given operand.render w holds
          rcases answered : session.switchDevice operand.render w with ⟨f | _, w'⟩
          · simp only [answered, session_fault_world] at after ⊢
            exact after
          · simp only [answered] at after ⊢
            exact keeps.log _ _ after

theorem command_keeps (params : List Value) : P (m.command h params w).world := by
  unfold command
  cases given : h.session with
  | none => exact holds
  | some session =>
      cases params with
      | nil => exact holds
      | cons operand rest =>
          have after := keeps.sends session given operand.render w holds
          rcases answered : session.send operand.render w with ⟨f | output, w'⟩
          · simp only [answered, session_fault_world] at after ⊢
            exact after
          · simp only [answered] at after ⊢
            exact after

theorem resume_keeps (included : Machine) : P (m.resume h included w).world := by
  unfold resume
  cases given : h.session with
  | none => exact holds
  | some session =>
      simp only
      split
      · exact holds
      · have after := keeps.switches session given m.device w holds
        rcases answered : session.switchDevice m.device w with ⟨f | _, w'⟩
        · simp only [answered, session_fault_world] at after ⊢
          exact after
        · simp only [answered] at after ⊢
          exact after

theorem call_keeps (i : Instruction) (params : List Value) : P (m.call h i params w).world := by
  unfold call
  cases found : h.registry.bind fun r => r.lookup? i.op.name with
  | none => exact holds
  | some operation =>
      simp only
      cases operation.spec.bind params with
      | error reason => exact holds
      | ok bound =>
          obtain ⟨registry, given, looked⟩ := Option.bind_eq_some_iff.mp found
          have after := keeps.handles registry given operation (List.mem_of_find?_eq_some looked)
            ⟨m.runId, m.script.path, i.line, i.op.name, m.device⟩ bound m.vars w holds
          simp only
          split
          · rw [session_fault_world]
            exact after
          · exact after

variable {child : Machine → ω → Progress ω} (below : ∀ n v, P v → P (child n v).world)

include below

theorem inclusion_keeps (line : Int) (params : List Value) :
    P (m.inclusion h child line params w).world := by
  cases params with
  | nil => exact holds
  | cons operand rest =>
      unfold inclusion
      cases given : h.load with
      | none => exact holds
      | some load =>
          simp only
          split
          · exact holds
          · have after := keeps.loads load given operand.render w holds
            rcases loaded : load operand.render w with ⟨b | script, w'⟩
            · rw [loaded] at after
              cases b <;> exact after
            · simp only [loaded] at after ⊢
              have ran entry := below (m.child script) _ (keeps.log entry w' after)
              split
              · exact resume_keeps keeps m (ran _) _
              · rw [framed_world]
                exact ran _
              · exact ran _

theorem execute_keeps (i : Instruction) (params : List Value) :
    P (m.execute h child i params w).world := by
  by_cases control : i.op.isControl = true
  · rw [(m.control_stays h child control params w).2]
    exact holds
  · unfold execute
    cases op : i.op with
    | device => exact switch_device_keeps keeps m holds params
    | command => exact command_keeps keeps m holds params
    | inclusion => exact inclusion_keeps keeps m holds below i.line params
    | call name => exact call_keeps keeps m holds i params
    | _ => simp [op, Opcode.isControl] at control

theorem step_keeps (i : Instruction) : P (m.step h child i w).world := by
  have told (entries : List LogEntry) : P (entries.foldl (fun w entry => h.log entry w) w) := by
    induction entries generalizing w with
    | nil => exact holds
    | cons entry rest ih => exact ih (keeps.log entry w holds)
  unfold step
  simp only
  split
  · exact holds
  · exact execute_keeps keeps m (keeps.observe _ _ (told _)) below i _
  · exact execute_keeps keeps m (keeps.observe _ _ holds) below i _

omit below in
theorem run_keeps_world (fuel : Nat) : P (m.run h fuel w).world := by
  induction fuel generalizing m w with
  | zero => exact holds
  | succ fuel ih =>
      unfold run
      split
      · exact keeps.log _ _ holds
      · split
        · exact keeps.log _ _ holds
        · next i current =>
            have after := step_keeps keeps m holds (fun n v held => ih n held) i
            split
            · exact holds
            · simp only
              split
              · exact after
              · exact after
              · split
                · exact ih _ after
                · exact after

end Keeps

/-- The boundaries of a run are all in its script, and in worlds that keep what its services do. -/
theorem visits_keeps {h : Host ω} {P : ω → Prop} (keeps : h.Keeps P) {fuel left : Nat}
    {m n : Machine} {w v : ω} (visits : Visits h fuel m w left n v) (holds : P w) :
    n.script = m.script ∧ P v := by
  induction visits with
  | here => exact ⟨rfl, holds⟩
  | @onward fuel left m m' n w w' v next _ ih =>
      obtain ⟨i, -, -, -, stepped, -⟩ := (next_iff ..).mp next
      have after := step_keeps keeps m holds
        (fun n v held => run_keeps_world keeps n held fuel) i
      have same := (m.step_stays h (run h fuel) i w).1
      rw [stepped] at after same
      obtain ⟨script, held⟩ := ih after
      exact ⟨script.trans same, held⟩

/-- The machine is about to load a path: it stands at an inclusion, nothing keeps it from going on,
and the world has been told of the instruction. -/
def Requests (h : Host ω) (m : Machine) (w : ω) (path : Text) (v : ω) : Prop :=
  ∃ i operand rest, m.script.code[m.pc]? = some i ∧ m.state = .running ∧ stopReason? h w = none ∧
    i.op = .inclusion ∧ i.params = operand :: rest ∧ path = operand.render ∧ m.depth < maxDepth ∧
    v = h.observe ⟨m.depth, m.pc, i, m.stack, m.vars⟩ w

theorem requests_keeps {h : Host ω} {P : ω → Prop} (keeps : h.Keeps P) {m : Machine} {w v : ω}
    {path : Text} (requests : m.Requests h w path v) (holds : P w) : P v := by
  obtain ⟨i, operand, rest, -, -, -, -, -, -, -, rfl⟩ := requests
  exact keeps.observe _ _ holds

/-- The loads of a run and of the scripts that it includes, each with the world at that moment. -/
inductive Loads (h : Host ω) : Nat → Machine → ω → Text → ω → Prop
  | here {fuel left : Nat} {m n : Machine} {w v u : ω} {path : Text}
      (visits : Visits h fuel m w (left + 1) n v) (requests : n.Requests h v path u) :
      Loads h fuel m w path u
  | within {fuel left : Nat} {m n : Machine} {w v u u' x : ω} {path q : Text} {script : Script}
      {load : Text → ω → Except Breakdown Script × ω}
      (visits : Visits h fuel m w (left + 1) n v) (requests : n.Requests h v path u)
      (given : h.load = some load) (loaded : load path u = (.ok script, u'))
      (below : Loads h left (n.child script)
        (h.log ⟨.debug, "include", [("path", path), ("depth", ofNat (n.depth + 1))]⟩ u') q x) :
      Loads h fuel m w q x

end Machine

/-- The loader compiles files of the world with the library in it, and nothing else takes scripts
out of that library. The files may change at any time. -/
structure Host.LoadsFrom (h : Host ω) (s : CompileSettings) (files : ω → FileTree)
    (library : ω → Library) : Prop where
  load : ∃ load, h.load = some load ∧ ∀ path w,
    (load path w).1 = (Library.compileFile s (files w) (library w) path).result ∧
      library (load path w).2 = (Library.compileFile s (files w) (library w) path).library
  log : ∀ entry w, (library w).Extends (library (h.log entry w))
  observe : ∀ boundary w, (library w).Extends (library (h.observe boundary w))
  switches : ∀ session, h.session = some session → ∀ name w,
    (library w).Extends (library (session.switchDevice name w).2)
  sends : ∀ session, h.session = some session → ∀ command w,
    (library w).Extends (library (session.send command w).2)
  handles : ∀ registry, h.registry = some registry → ∀ operation ∈ registry.operations,
    ∀ site bound vars w,
      (library w).Extends (library (operation.handler h.toServices site bound vars w).world)

namespace Host.LoadsFrom

variable {h : Host ω} {s : CompileSettings} {files : ω → FileTree} {library : ω → Library}
variable (loads : h.LoadsFrom s files library)

include loads

theorem keeps (l : Library) : h.Keeps fun w => l.Extends (library w) where
  log entry w held p x kept := loads.log entry w p x (held p x kept)
  observe boundary w held p x kept := loads.observe boundary w p x (held p x kept)
  switches session given name w held p x kept :=
    loads.switches session given name w p x (held p x kept)
  sends session given command w held p x kept :=
    loads.sends session given command w p x (held p x kept)
  handles registry given operation member site bound vars w held p x kept :=
    loads.handles registry given operation member site bound vars w p x (held p x kept)
  loads load given path w held p x kept := by
    obtain ⟨other, same, does⟩ := loads.load
    rw [given] at same
    cases same
    rw [(does path w).2]
    exact (Library.call_grown s (files w) (library w) (.file path)).kept p x (held p x kept)

variable {l : Library} {root : Text} (closed : l.Closed root)

include closed

/-- A machine on a script of a closed library asks for a script of that library, and is given it. -/
theorem request_kept {m : Machine} {w v : ω} {path q : Text}
    (requests : m.Requests h w path v) (leads : l.Leads root q)
    (script : l.get? q = some m.script) (held : l.Extends (library v)) :
    l.Leads root path ∧ ∃ load found, h.load = some load ∧ l.get? path = some found ∧
      (load path v).1 = .ok found := by
  obtain ⟨i, operand, rest, current, -, -, op, params, rfl, -, rfl⟩ := requests
  have resolved := closed.resolved q _ leads script
  obtain ⟨e, member, named⟩ := resolved.operands i (List.mem_of_getElem? current) op
  rw [params] at named
  cases named
  have onward : l.Leads root e.resolved := Library.leads_on leads script (.direct member)
  obtain ⟨found, kept⟩ := closed.kept _ onward
  obtain ⟨load, given, does⟩ := loads.load
  refine ⟨onward, load, found, given, kept, ?_⟩
  rw [(does _ _).1]
  exact closed.compiles held onward kept (resolved.paths e member) s _

/-- Every load of a run on a script of a closed library gives the script that the library keeps. -/
theorem run_loads_kept {fuel : Nat} {m : Machine} {w v : ω} {path q : Text}
    (issued : Machine.Loads h fuel m w path v) (leads : l.Leads root q)
    (script : l.get? q = some m.script) (held : l.Extends (library w)) :
    ∃ load found, h.load = some load ∧ l.get? path = some found ∧ (load path v).1 = .ok found := by
  have kept := loads.keeps l
  induction issued generalizing q with
  | here visits requests =>
      obtain ⟨same, still⟩ := Machine.visits_keeps kept visits held
      have told := Machine.requests_keeps kept requests still
      exact (loads.request_kept closed requests leads (same ▸ script) told).2
  | @within fuel left m n w v u u' x path r child load visits requests given loaded _ ih =>
      obtain ⟨same, still⟩ := Machine.visits_keeps kept visits held
      have told := Machine.requests_keeps kept requests still
      obtain ⟨onward, other, found, again, there, gave⟩ :=
        loads.request_kept closed requests leads (same ▸ script) told
      -- The script that is run next is the one that the library keeps.
      rw [given] at again
      cases again
      have after := kept.loads load given path u told
      rw [loaded] at gave after
      cases gave
      exact ih onward there (kept.log _ _ after)

end Host.LoadsFrom

/-- Compiling a file over any files, with a library that any calls have left behind. It comes to an
end. If it succeeds, every script that the file leads to is kept with the paths of its inclusions
for operands, and so are the scripts at these paths, without a circle; a later run on any of these
scripts is given the scripts that are kept, whatever has become of the files. If everything compiles
alone, it fails with a circle if there is one, and succeeds if there is none. -/
theorem compiled_file_closure (s : CompileSettings) (past : List (FileTree × Call)) (t : FileTree)
    (path : Text) :
    let l := Library.empty.after s past
    let done := Library.compileFile s t l path
    let root := t.absolute path
    done.result ≠ .error .outOfFuel ∧
    (∀ script, done.result = .ok script →
      done.library.get? root = some script ∧
      (∀ q, done.library.Leads root q → ∃ x, done.library.get? q = some x ∧
        (∀ i ∈ x.code, i.op = .inclusion →
          ∃ e ∈ x.inclusions, i.params = [.text e.resolved]) ∧
        (∀ e ∈ x.inclusions, ∃ y, done.library.get? e.resolved = some y) ∧
        ¬ Circles done.library.get? q) ∧
      ∀ (later : List (FileTree × Call)) (ω : Type) (h : Host ω) (files : ω → FileTree)
        (library : ω → Library), h.LoadsFrom s files library →
        ∀ (w : ω) (q : Text) (m : Machine), library w = done.library.after s later →
          done.library.Leads root q → done.library.get? q = some m.script →
          ∀ (fuel : Nat) (p : Text) (v : ω), Machine.Loads h fuel m w p v →
            ∃ load found, h.load = some load ∧ done.library.get? p = some found ∧
              (load p v).1 = .ok found) ∧
    (∀ script, l.given s t root = .ok script →
      (∀ q, Reaches (scriptAt (l.given s t)) script q → ∃ x, l.given s t q = .ok x) →
      ((∃ q, (q = root ∨ Reaches (scriptAt (l.given s t)) script q) ∧
          Circles (scriptAt (l.given s t)) q) →
        ∃ f, done.result = .error (.fault f) ∧ f.TellsCircle) ∧
      ((∀ q, q = root ∨ Reaches (scriptAt (l.given s t)) script q →
          ¬ Circles (scriptAt (l.given s t)) q) → done.result = .ok script)) := by
  intro l done root
  have resolved : l.Resolved := Library.after_resolved past Library.empty_resolved
  refine ⟨Library.compile_file_ends resolved path, ?_, ?_⟩
  · intro script ended
    obtain ⟨kept, closed⟩ := Library.compile_file_closed resolved ended
    refine ⟨kept, ?_, ?_⟩
    · intro q leads
      obtain ⟨x, there⟩ := closed.kept q leads
      refine ⟨x, there, (closed.resolved q x leads there).operands, ?_, closed.acyclic q leads⟩
      intro e member
      exact closed.kept _ (Library.leads_on leads there (.direct member))
    · intro later ω h files library loads w q m same leads script fuel p v issued
      refine loads.run_loads_kept closed issued leads script ?_
      intro p x kept
      rw [same]
      exact Library.after_kept later kept
  · intro script found whole
    exact Library.compile_file_circles resolved found whole

/-- A host that removes all files before every instruction. -/
def Host.overVanishing (s : CompileSettings) : Host (FileTree × Library) where
  canceled _ := false
  pause _ w := w
  log _ w := w
  session := none
  record := none
  stopRequested _ := false
  observe _ w := (FileTree.empty [], w.2)
  registry := none
  load := some fun path w =>
    ((Library.compileFile s w.1 w.2 path).result,
      (w.1, (Library.compileFile s w.1 w.2 path).library))

theorem over_vanishing_loads (s : CompileSettings) :
    (Host.overVanishing s).LoadsFrom s Prod.fst Prod.snd where
  load := ⟨_, rfl, fun _ _ => ⟨rfl, rfl⟩⟩
  log _ _ _ _ kept := kept
  observe _ _ _ _ kept := kept
  switches := nofun
  sends := nofun
  handles := nofun

def bareSettings : CompileSettings := ⟨Schema.empty, fun _ _ => none, false, []⟩

def pairOfFiles : FileTree := ⟨[], [(["main"], "include part"), (["part"], "show")], [[]]⟩

def mainScript : Script :=
  ⟨"/main", [⟨1, .inclusion, [.text "/part"]⟩], [], [⟨"part", "/part", [], 1⟩]⟩

def partScript : Script := ⟨"/part", [⟨1, .command, [.text "show"]⟩], [], []⟩

theorem pair_of_files_closure :
    let done := Library.compileFile bareSettings pairOfFiles .empty "main"
    done.result = .ok mainScript ∧
      ∃ v, Machine.Loads (Host.overVanishing bareSettings) 1
          (Machine.start mainScript .empty .ignore "run") (pairOfFiles, done.library) "/part" v ∧
        v.1.files = [] ∧
        ∃ load, (Host.overVanishing bareSettings).load = some load ∧
          (load "/part" v).1 = .ok partScript := by
  intro done
  have compiled : done.result = .ok mainScript := by
    have same : scriptAt (fun _ => done.result) "main" = some mainScript := by decide +kernel
    exact script_at_iff.mp same
  have kept : done.library.get? "/part" = some partScript := by decide +kernel
  have requests : (Machine.start mainScript .empty .ignore "run").Requests
      (Host.overVanishing bareSettings) (pairOfFiles, done.library) "/part"
      (FileTree.empty [], done.library) :=
    ⟨_, _, _, rfl, rfl, rfl, rfl, rfl, rfl, by decide, rfl⟩
  have issued := Machine.Loads.here (.here 1 _ _) requests
  refine ⟨compiled, _, issued, rfl, ?_⟩
  obtain ⟨whole, -, later⟩ :=
    (compiled_file_closure bareSettings [] pairOfFiles "main").2.1 mainScript compiled
  obtain ⟨load, found, given, there, gave⟩ := later [] _ _ _ _ (over_vanishing_loads bareSettings)
    _ _ _ rfl (.inl rfl) whole _ _ _ issued
  cases kept.symm.trans there
  exact ⟨load, given, gave⟩

end DeviceScript

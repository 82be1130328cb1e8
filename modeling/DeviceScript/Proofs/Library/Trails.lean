import DeviceScript.Proofs.Library.History
import DeviceScript.Proofs.Source.Places

/-!
Where a compilation that fails is told. Whatever calls were made before, the report stands on the
line of a statement, and its frames are the inclusions on a way from what was to be compiled to the
script that it stands in.
-/

namespace DeviceScript

open Text

namespace CompileSettings

variable {s : CompileSettings} {t : FileTree}

def HasStatement (s : CompileSettings) (source : Text) (line : Int) : Prop :=
  ∃ tokens, s.tokens? source = some tokens ∧ ∃ st ∈ statements tokens, st.line = line

theorem tokens_line {source : Text} {tokens : List Token} (read : s.tokens? source = some tokens) :
    ∀ st ∈ statements tokens, ∀ u ∈ st.args, u.line = st.line := by
  unfold tokens? at read
  obtain ⟨parts, all, rfl⟩ := Option.map_eq_some_iff.mp read
  refine (lines_cut ?_).2
  intro part among
  obtain ⟨read, here, rfl⟩ := mem_of_forall₂ (mapM_some all) part among
  obtain ⟨i, within, same⟩ := List.mem_mapIdx.mp here
  rcases Token.line_tokens_on_line same with none | ⟨st, onLine, whole⟩
  · exact .inl none
  · exact .inr ⟨_, st, onLine, whole⟩

theorem resolve_tells {file : Text} {i : Inclusion} {f : Fault}
    (refused : s.resolve t file i = .error f) : f.TellsAt file i.line := by
  unfold resolve at refused
  split at refused
  · cases refused
    exact ⟨_, rfl, rfl, rfl, rfl, rfl, .inl rfl⟩
  · split at refused
    · cases refused
    · cases refused
      exact ⟨_, rfl, rfl, rfl, rfl, rfl, .inl rfl⟩

theorem linked_tells {script : Script} {f : Fault}
    (broke : s.linked t script = .error (.fault f)) :
    ∃ e ∈ script.inclusions, f.TellsAt script.path e.line := by
  unfold linked at broke
  simp only at broke
  split at broke
  · next fault refused =>
      cases broke
      obtain ⟨e, member, failed⟩ := mapM_error refused
      refine ⟨e, member, resolve_tells (s := s) (t := t) (i := e) ?_⟩
      cases found : s.resolve t script.path e with
      | ok path => simp [found, Except.map] at failed
      | error other => simpa [found, Except.map] using failed
  · split at broke
    · cases broke
    · cases broke

theorem linked_places {script out : Script} (linked : s.linked t script = .ok out) :
    out.path = script.path ∧
      ∀ e ∈ out.inclusions, ∃ written ∈ script.inclusions, e.line = written.line := by
  unfold CompileSettings.linked at linked
  simp only at linked
  split at linked
  · cases linked
  · next inclusions resolved =>
      split at linked
      · cases linked
      · cases linked
        refine ⟨rfl, fun e member => ?_⟩
        obtain ⟨written, among, same⟩ := mem_of_forall₂ (mapM_ok resolved) e member
        obtain ⟨path, -, rfl⟩ := map_ok_exists same
        exact ⟨written, among, rfl⟩

/-- A source that does not compile is told on the line of one of its statements. -/
theorem compile_source_tells {path source : Text} {f : Fault}
    (broke : (s.compileSource t path source).1 = .error (.fault f)) :
    ∃ line, f.TellsAt path line ∧ s.HasStatement source line := by
  unfold compileSource at broke
  cases read : s.tokens? source with
  | none => simp [read] at broke
  | some tokens =>
      simp only [read] at broke
      obtain ⟨fails, ends⟩ := assemble_places
        (c := ⟨s.schema, path, some (lines source), s.lenient⟩) (tokens_line read)
      split at broke
      · next failed =>
          cases broke
          obtain ⟨st, member, tells⟩ := fails f failed
          exact ⟨st.line, tells, tokens, read, st, member, rfl⟩
      · next script ended =>
          obtain ⟨named, lined⟩ := ends script ended
          split at broke
          · next unlinked =>
              cases broke
              obtain ⟨e, among, tells⟩ := linked_tells unlinked
              obtain ⟨st, member, same⟩ := lined e among
              rw [named] at tells
              exact ⟨e.line, tells, tokens, read, st, member, same.symm⟩
          · cases broke

theorem compile_source_places {path source : Text} {x : Script}
    (compiled : (s.compileSource t path source).1 = .ok x) :
    x.path = path ∧ ∀ e ∈ x.inclusions, s.HasStatement source e.line := by
  unfold compileSource at compiled
  cases read : s.tokens? source with
  | none => simp [read] at compiled
  | some tokens =>
      simp only [read] at compiled
      split at compiled
      · cases compiled
      · next script ended =>
          obtain ⟨named, lined⟩ := (assemble_places (tokens_line read)).2 script ended
          split at compiled
          · cases compiled
          · next linked =>
              cases compiled
              obtain ⟨path, written⟩ := linked_places linked
              refine ⟨path.trans named, fun e member => ?_⟩
              obtain ⟨w, among, line⟩ := written e member
              obtain ⟨st, member, same⟩ := lined w among
              exact ⟨tokens, read, st, member, (line.trans same).symm⟩

end CompileSettings

/-- Frames that lead from a path to another, the outermost first: each is a recorded inclusion of
the script that stands there. -/
inductive Trail (find : Text → Option Script) : Text → List Frame → Text → Prop
  | here (path : Text) : Trail find path [] path
  | through {path target : Text} {script : Script} {i : Inclusion} {frames : List Frame}
      (found : find path = some script) (member : i ∈ script.inclusions)
      (further : Trail find i.resolved frames target) :
      Trail find path (⟨path, i.line, -1⟩ :: frames) target

/-- A report of compiling: its frames, read from the last, lead from `root` to where it stands. -/
structure Report.Traced (r : Report) (find : Text → Option Script) (Lines : Text → Int → Prop)
    (root : Text) : Prop where
  pc : r.pc = -1
  trail : Trail find root r.frames.reverse r.file
  line : Lines r.file r.line

section Walk

variable {at' other : Text → Except Breakdown Script} {script : Script} {chain : List Text}

/-- Nothing on the chain is looked up. -/
theorem walk_agrees {fuel : Nat} (agree : ∀ q, q ∉ chain → at' q = other q) :
    walk at' fuel script chain = walk other fuel script chain := by
  induction fuel generalizing script chain with
  | zero => rfl
  | succ fuel ih =>
      have each : visit at' (walk at' fuel) script chain =
          visit other (walk other fuel) script chain := by
        funext i
        unfold visit
        split
        · rfl
        · next fresh =>
            have below (child : Script) : walk at' fuel child (chain ++ [i.resolved]) =
                walk other fuel child (chain ++ [i.resolved]) :=
              ih fun q apart => agree q fun among => apart (List.mem_append_left _ among)
            rw [agree i.resolved (by simpa using fresh)]
            simp only [below]
      unfold walk
      rw [each]

theorem framed_traced {find : Text → Option Script} {Lines : Text → Int → Prop} {i : Inclusion}
    {f : Fault} {path : Text} (found : find path = some script) (named : script.path = path)
    (member : i ∈ script.inclusions)
    (traced : ∀ r, f.report? = some r → r.Traced find Lines i.resolved) {r : Report}
    (reported : (Library.framed script i f).report? = some r) : r.Traced find Lines path := by
  unfold Library.framed at reported
  cases own : f.report? with
  | none =>
      rw [own] at reported
      simp [Fault.report?, own] at reported
  | some inner =>
      rw [own] at reported
      cases reported
      have below := traced inner own
      refine ⟨below.pc, ?_, below.line⟩
      rw [named]
      simpa [Report.addFrame] using Trail.through found member below.trail

/-- A walk that meets a fault tells the way to it. -/
theorem walk_traced {Lines : Text → Int → Prop} {fuel : Nat} {path : Text} {f : Fault}
    (tells : ∀ q g, at' q = .error (.fault g) → ∀ r, g.report? = some r →
      r.Traced (scriptAt at') Lines q)
    (places : ∀ q x, at' q = .ok x → x.path = q ∧ ∀ e ∈ x.inclusions, Lines q e.line)
    (start : at' path = .ok script) (broke : walk at' fuel script chain = .error (.fault f)) :
    ∀ r, f.report? = some r → r.Traced (scriptAt at') Lines path := by
  induction fuel generalizing script chain path f with
  | zero => cases broke
  | succ fuel ih =>
      have found := script_at_iff.mpr start
      obtain ⟨named, lined⟩ := places path script start
      obtain ⟨i, member, failed⟩ := forM_error broke
      intro r reported
      rcases visit_error failed with
        ⟨-, told⟩ | ⟨-, ⟨b, missing, told⟩ | ⟨child, b, opened, below, told⟩⟩
      · -- A circle is told where it is closed, on the line of the inclusion.
        cases told
        cases reported
        refine ⟨rfl, ?_, ?_⟩
        · show Trail (scriptAt at') path [] script.path
          rw [named]
          exact .here path
        · show Lines script.path i.line
          rw [named]
          exact lined i member
      · obtain ⟨g, rfl, rfl⟩ := framed_fault told
        exact framed_traced found named member (tells i.resolved g missing) reported
      · obtain ⟨g, rfl, rfl⟩ := framed_fault told
        exact framed_traced found named member (ih opened below) reported

end Walk

namespace Library

variable {s : CompileSettings} {t : FileTree} {past : List (FileTree × Call)}

/-- The text that the script at a path is made of. What is kept has been compiled in an earlier
call, from the file as it was then. -/
def HasSource (s : CompileSettings) (past : List (FileTree × Call)) (t : FileTree)
    (path source : Text) : Prop :=
  match (Library.empty.after s past).get? path with
  | some x => ∃ made ∈ past, made.1.read path = .ok source ∧
      (s.compileSource made.1 path source).1 = .ok x
  | none => t.read path = .ok source

/-- What calls have left behind was there before, or is of a file that one of them has met. -/
theorem after_new {l : Library} {p : Text} {x : Script} (calls : List (FileTree × Call))
    (kept : (l.after s calls).get? p = some x) :
    l.get? p = some x ∨ ∃ made ∈ calls, s.own made.1 p = .ok x := by
  induction calls generalizing l with
  | nil => exact .inl kept
  | cons made rest ih =>
      rcases ih kept with before | ⟨later, member, own⟩
      · rcases (call_grown s made.1 l made.2).new p x before with old | own
        · exact .inl old
        · exact .inr ⟨made, List.mem_cons_self, own⟩
      · exact .inr ⟨later, List.mem_cons_of_mem made member, own⟩

theorem after_sourced {p : Text} {x : Script}
    (kept : (Library.empty.after s past).get? p = some x) :
    ∃ made ∈ past, ∃ source, made.1.read p = .ok source ∧
      (s.compileSource made.1 p source).1 = .ok x := by
  rcases after_new past kept with old | ⟨made, member, own⟩
  · cases old
  · exact ⟨made, member, (own_ok own).1⟩

theorem after_named {p : Text} {x : Script} (kept : (Library.empty.after s past).get? p = some x) :
    x.path = p := by
  obtain ⟨made, -, source, -, compiled⟩ := after_sourced kept
  exact (CompileSettings.compile_source_places compiled).1

theorem given_places {p : Text} {x : Script}
    (found : (Library.empty.after s past).given s t p = .ok x) :
    x.path = p ∧ ∀ e ∈ x.inclusions,
      ∃ source, HasSource s past t p source ∧ s.HasStatement source e.line := by
  unfold HasSource
  cases kept : (Library.empty.after s past).get? p with
  | some y =>
      rw [given_kept kept] at found
      cases found
      obtain ⟨made, member, source, read, compiled⟩ := after_sourced kept
      obtain ⟨named, lined⟩ := CompileSettings.compile_source_places compiled
      exact ⟨named, fun e among => ⟨source, ⟨made, member, read, compiled⟩, lined e among⟩⟩
  | none =>
      rw [given_own kept] at found
      obtain ⟨⟨source, read, compiled⟩, -⟩ := own_ok found
      obtain ⟨named, lined⟩ := CompileSettings.compile_source_places compiled
      exact ⟨named, fun e among => ⟨source, read, lined e among⟩⟩

theorem given_tells {p : Text} {f : Fault} {r : Report}
    (broke : (Library.empty.after s past).given s t p = .error (.fault f))
    (reported : f.report? = some r) :
    r.file = p ∧ r.pc = -1 ∧ r.frames = [] ∧
      ∃ source, HasSource s past t p source ∧ s.HasStatement source r.line := by
  unfold HasSource
  cases kept : (Library.empty.after s past).get? p with
  | some y =>
      rw [given_kept kept] at broke
      cases broke
  | none =>
      rw [given_own kept] at broke
      unfold CompileSettings.own at broke
      split at broke
      · -- A file that cannot be read is told without a report.
        cases broke
        cases reported
      · next source read =>
          obtain ⟨line, ⟨own, told, file, rfl, pc, frames, -⟩, has⟩ :=
            CompileSettings.compile_source_tells broke
          rw [reported] at told
          cases told
          exact ⟨file, pc, frames, source, read, has⟩

end Library

/-- The report that a call fails with, if it is a report that it fails with. -/
def Compiled.report? {α : Type} (c : Compiled α) : Option Report :=
  match c.result with
  | .error (.fault f) => f.report?
  | _ => none

namespace Call

variable {s : CompileSettings} {t : FileTree} {l : Library} {call : Call}

def root (t : FileTree) : Call → Text
  | file path => t.absolute path
  | text name _ => t.absolute name

def brought (t : FileTree) : Call → Text → Option Text
  | file _, _ => none
  | text name source, path => if path = t.absolute name then some source else none

def given (s : CompileSettings) (t : FileTree) (l : Library) (call : Call) (path : Text) :
    Except Breakdown Script :=
  match call.brought t path with
  | some source => (s.compileSource t path source).1
  | none => l.given s t path

/-- The text that the script at a path is made of as a call sees it. -/
def HasSource (s : CompileSettings) (past : List (FileTree × Call)) (t : FileTree) (call : Call)
    (path source : Text) : Prop :=
  match call.brought t path with
  | some own => source = own
  | none => Library.HasSource s past t path source

def HasStatement (s : CompileSettings) (past : List (FileTree × Call)) (t : FileTree) (call : Call)
    (path : Text) (line : Int) : Prop :=
  ∃ source, call.HasSource s past t path source ∧ s.HasStatement source line

theorem run_error {b : Breakdown} (broke : call.given s t l (call.root t) = .error b) :
    (call.run s t l).result = .error b := by
  cases call with
  | file path => exact Library.compile_file_error l path broke
  | text name source =>
      simp only [given, brought, root, if_true] at broke
      rw [Call.run, Library.compile_text_eq, Library.with_inclusions_error _ broke]
      exact broke

/-- A call whose own script compiles is a walk over the scripts as it sees them. -/
theorem run_walk {x : Script} (found : call.given s t l (call.root t) = .ok x) :
    ∃ fuel, (call.run s t l).result =
      (walk (call.given s t l) fuel x [call.root t]).map fun _ => x := by
  cases call with
  | file path =>
      have compiled : (Library.fetch s t l (t.absolute path)).result = .ok x := by
        rw [Library.fetch_result]
        exact found
      have walked := (Library.with_inclusions_ok (s := s) (t := t) (t.absolute path) compiled).1
      rw [(Library.fetch_grown l (t.absolute path)).given] at walked
      exact ⟨_, walked⟩
  | text name source =>
      have compiled : (⟨(s.compileSource t (t.absolute name) source).1, l,
          (s.compileSource t (t.absolute name) source).2⟩ : Compiled Script).result = .ok x := by
        simpa [given, brought, root] using found
      have walked := (Library.with_inclusions_ok (s := s) (t := t) (t.absolute name) compiled).1
      have same : walk (l.given s t) (Library.chainBound t l) x [t.absolute name] =
          walk ((text name source).given s t l) (Library.chainBound t l) x [t.absolute name] := by
        refine walk_agrees fun q apart => ?_
        have other : q ≠ t.absolute name := by simpa using apart
        simp [given, brought, other]
      exact ⟨_, same ▸ walked⟩

section Past

variable {past : List (FileTree × Call)}

theorem given_places {p : Text} {x : Script}
    (found : call.given s t (Library.empty.after s past) p = .ok x) :
    x.path = p ∧ ∀ e ∈ x.inclusions, call.HasStatement s past t p e.line := by
  unfold HasStatement HasSource
  unfold given at found
  cases own : call.brought t p with
  | none =>
      rw [own] at found
      exact Library.given_places found
  | some source =>
      rw [own] at found
      obtain ⟨named, lined⟩ := CompileSettings.compile_source_places found
      exact ⟨named, fun e member => ⟨source, rfl, lined e member⟩⟩

theorem given_traced {find : Text → Option Script} {p : Text} {f : Fault}
    (broke : call.given s t (Library.empty.after s past) p = .error (.fault f)) {r : Report}
    (reported : f.report? = some r) : r.Traced find (call.HasStatement s past t) p := by
  have told : r.file = p ∧ r.pc = -1 ∧ r.frames = [] ∧ call.HasStatement s past t p r.line := by
    unfold HasStatement HasSource
    unfold given at broke
    cases own : call.brought t p with
    | none =>
        rw [own] at broke
        exact Library.given_tells broke reported
    | some source =>
        rw [own] at broke
        obtain ⟨line, ⟨own, told, file, rfl, pc, frames, -⟩, has⟩ :=
          CompileSettings.compile_source_tells broke
        rw [reported] at told
        cases told
        exact ⟨file, pc, frames, source, rfl, has⟩
  obtain ⟨rfl, pc, frames, has⟩ := told
  refine ⟨pc, ?_, has⟩
  rw [frames]
  exact .here r.file

end Past
end Call

/-- The report of a call that fails, after any calls and any changes to files. It is told for no
instruction, on the line of a statement, and its frames are inclusions that lead there from what the
call is for. What was called before over the same files has no part in it. -/
theorem failed_call_traced (s : CompileSettings) (past : List (FileTree × Call)) (t : FileTree)
    (call : Call) :
    let l := Library.empty.after s past
    (∀ r, (call.run s t l).report? = some r →
      r.Traced (scriptAt (call.given s t l)) (call.HasStatement s past t) (call.root t)) ∧
    (∀ path script, scriptAt (call.given s t l) path = some script → script.path = path) ∧
    ∀ earlier : List Call,
      (call.run s t (l.after s (earlier.map fun one => (t, one)))).result =
        (call.run s t l).result := by
  intro l
  refine ⟨?_, ?_, ?_⟩
  · intro r reported
    unfold Compiled.report? at reported
    split at reported
    · next f failed =>
        -- The fault is that of the root itself, or one that the walk below it meets.
        cases found : call.given s t l (call.root t) with
        | error b =>
            rw [Call.run_error found] at failed
            cases failed
            exact Call.given_traced found reported
        | ok x =>
            obtain ⟨fuel, walked⟩ := Call.run_walk found
            rw [walked] at failed
            cases below : walk (call.given s t l) fuel x [call.root t] with
            | ok u =>
                rw [below] at failed
                cases failed
            | error b =>
                rw [below] at failed
                cases failed
                exact walk_traced (fun q g broke r told => Call.given_traced broke told)
                  (fun q y there => Call.given_places there) found below r reported
    · cases reported
  · intro path script found
    exact (Call.given_places (script_at_iff.mp found)).1
  · intro earlier
    have grown : Library.Grown s t l (l.after s (earlier.map fun one => (t, one))) := by
      refine Library.after_grown fun made member => ?_
      obtain ⟨one, -, rfl⟩ := List.mem_map.mp member
      rfl
    exact (Library.call_result_same grown.given.symm
      (Library.after_resolved past Library.empty_resolved)).symm

def brokenLeaf : FileTree :=
  ⟨[], [(["main"], "show\ninclude part"), (["part"], "include leaf"),
    (["leaf"], "show\n\ninclude nowhere")], [[]]⟩

theorem broken_leaf_traced :
    let s : CompileSettings := ⟨Schema.empty, fun _ _ => none, false, []⟩
    let failed := (Library.compileFile s brokenLeaf .empty "main").report?
    failed.map (fun r => (r.file, r.line, r.frames)) =
        some (ofString "/leaf", 3, [⟨"/part", 1, -1⟩, ⟨"/main", 2, -1⟩]) ∧
      ∀ r, failed = some r →
        Trail (scriptAt (Library.empty.given s brokenLeaf)) "/main" r.frames.reverse r.file := by
  intro s failed
  refine ⟨by decide +kernel, fun r reported => ?_⟩
  have traced := (failed_call_traced s [] brokenLeaf (.file "main")).1 r reported
  have root : (Call.file "main").root brokenLeaf = ofString "/main" := by decide +kernel
  exact root ▸ traced.trail

end DeviceScript

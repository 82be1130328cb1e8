import DeviceScript.Proofs.Library.Trails
import DeviceScript.Proofs.Run.Missing
import DeviceScript.Proofs.Run.Plain

/-!
Hosts that leave it to the machine to report missing variables. Sessions, recorders and operations
do not place what they tell, and what keeps a script from being compiled is of the kinds that a
source can have.
-/

namespace DeviceScript

open Text

variable {ω : Type}

/-- Where the fault is placed, it is of a kind that a source can have. -/
def Fault.OfSource (f : Fault) : Prop := ∀ r, f.report? = some r → r.kind.OfSource

theorem Fault.OfSource.knows {f : Fault} (ofSource : f.OfSource) :
    f.isKind .missingVariable = false := by
  unfold Fault.isKind
  cases reported : f.report? with
  | none => rfl
  | some r =>
      rw [Option.any_some, beq_eq_false_iff_ne]
      rcases ofSource r reported with kind | kind
      · simp [kind]
      · simp [kind]

theorem Fault.plain_knows {f : Fault} (plain : f.report? = none) :
    f.isKind .missingVariable = false :=
  OfSource.knows fun r reported => by simp [plain] at reported

section Compiling

variable {s : CompileSettings} {t : FileTree} {at' : Text → Except Breakdown Script}

theorem own_of_source {path : Text} {f : Fault} (broke : s.own t path = .error (.fault f)) :
    f.OfSource := by
  unfold CompileSettings.own at broke
  split at broke
  · cases broke
    exact nofun
  · obtain ⟨line, ⟨own, told, -, -, -, -, kind⟩, -⟩ := CompileSettings.compile_source_tells broke
    intro r reported
    rw [told] at reported
    exact Option.some.inj reported ▸ kind

theorem framed_of_source (script : Script) (i : Inclusion) {f : Fault} (ofSource : f.OfSource) :
    (Library.framed script i f).OfSource := by
  intro r reported
  unfold Library.framed at reported
  cases own : f.report? with
  | none => simp [own, Fault.report?] at reported
  | some inner =>
      simp only [own, Fault.report?, Option.some.injEq] at reported
      exact reported ▸ ofSource inner own

theorem walk_of_source {fuel : Nat} {script : Script} {chain : List Text} {f : Fault}
    (each : ∀ q g, at' q = .error (.fault g) → g.OfSource)
    (broke : walk at' fuel script chain = .error (.fault f)) : f.OfSource := by
  induction fuel generalizing script chain f with
  | zero => cases broke
  | succ fuel ih =>
      obtain ⟨i, -, failed⟩ := forM_error broke
      rcases visit_error failed with ⟨-, told⟩ | ⟨-, ⟨b, missing, told⟩ | ⟨child, b, -, below, told⟩⟩
      · cases told
        rintro r ⟨⟩
        exact .inl rfl
      · obtain ⟨g, rfl, rfl⟩ := framed_fault told
        exact framed_of_source script i (each i.resolved g missing)
      · obtain ⟨g, rfl, rfl⟩ := framed_fault told
        exact framed_of_source script i (ih below)

theorem given_of_source {l : Library} {path : Text} {f : Fault}
    (broke : l.given s t path = .error (.fault f)) : f.OfSource := by
  cases kept : l.get? path with
  | some x =>
      rw [Library.given_kept kept] at broke
      cases broke
  | none =>
      rw [Library.given_own kept] at broke
      exact own_of_source broke

/-- Whatever the library holds, a file that does not compile is told by a report that a source can
have, or without one. -/
theorem compile_file_of_source {l : Library} {path : Text} {f : Fault}
    (broke : (Library.compileFile s t l path).result = .error (.fault f)) : f.OfSource := by
  cases found : l.given s t (t.absolute path) with
  | error b =>
      rw [Library.compile_file_error l path found] at broke
      cases broke
      exact given_of_source found
  | ok script =>
      have compiled : (Library.fetch s t l (t.absolute path)).result = .ok script := by
        rw [Library.fetch_result, found]
      generalize more : Library.chainBound t (Library.fetch s t l (t.absolute path)).library = fuel
      -- The file itself compiles, so the fault is one that the walk below it meets.
      have walked : (Library.compileFile s t l path).result =
          (walk (l.given s t) fuel script [t.absolute path]).map fun _ => script := by
        rw [← more, ← (Library.fetch_grown l (t.absolute path)).given]
        exact (Library.with_inclusions_ok _ compiled).1
      rw [broke] at walked
      cases ended : walk (l.given s t) fuel script [t.absolute path] with
      | ok u => simp [ended, Except.map] at walked
      | error b =>
          simp only [ended, Except.map, Except.error.injEq] at walked
          subst walked
          exact walk_of_source (fun _ _ => given_of_source) ended

end Compiling

/-- Where no session and no recorder places what it tells, the operations of a registry that is
built as for a run leave missing variables to the machine. -/
theorem Host.Plain.candid {h : Host ω} (plain : h.Plain) {schema : Schema} {aliases : Aliases}
    {registry : Registry ω} (built : Registry.withAliases schema aliases = .ok registry)
    (given : h.registry = some registry)
    (loads : ∀ load, h.load = some load → ∀ path w f w',
      load path w = (.error (.fault f), w') → f.isKind .missingVariable = false) : h.Candid where
  switches session known name w f w' answered :=
    Fault.plain_knows (plain.switches session known name w f (by rw [answered]))
  sends session known command w f w' answered :=
    Fault.plain_knows (plain.sends session known command w f (by rw [answered]))
  handles other known operation member site bound vars w f faulted := by
    cases given.symm.trans known
    exact Fault.plain_knows (plain.registered site bound vars w built member f faulted)
  loads := loads

/-- The host of a run is of this kind: the standard operations and the aliases, a session of either
kind, and the library that compiles what is included. -/
theorem bench_candid (p : BenchPlan) (path runId : Text) {schema : Schema} {aliases : Aliases}
    (built : Registry.withAliases schema aliases = .ok p.setup.registry) :
    (p.host path runId).Candid := by
  refine (bench_plain p path runId).candid built rfl ?_
  rintro _ ⟨⟩ included w f w' loaded
  exact Fault.OfSource.knows (compile_file_of_source (congrArg Prod.fst loaded))

end DeviceScript

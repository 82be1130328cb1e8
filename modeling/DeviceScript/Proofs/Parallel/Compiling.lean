import DeviceScript.Proofs.Library.Closure
import DeviceScript.Proofs.Parallel.Asking

/-!
Compiling as a program beside others that compile. A path is compiled by the first program that asks
for it and handed to all that wait; whoever it is, and whatever has come to be kept meanwhile, a
program comes to what it comes to with an empty library of its own.
-/

namespace DeviceScript

open Text

namespace Asking

section Programs

def handed (ticket : Nat) (outcome : Except Breakdown Script) : Asking (Except Breakdown Script) :=
  .ask (.leave ticket outcome) fun _ => .done outcome

variable (s : CompileSettings) (t : FileTree)

/-- What the first program at a path does: it compiles the file, unless the script has come to be
kept between its first look and its seat. -/
def lead (path : Text) (ticket : Nat) : Asking (Except Breakdown Script) :=
  .ask (.lookup path) fun kept =>
    match kept with
    | some script => handed ticket (.ok script)
    | none =>
        match s.own t path with
        | .ok script => .ask (.keep path script) fun _ => handed ticket (.ok script)
        | .error breakdown => handed ticket (.error breakdown)

/-- The script at a path: one that is kept, or what the first program there makes of the file. -/
def fetch (path : Text) : Asking (Except Breakdown Script) :=
  .ask (.lookup path) fun kept =>
    match kept with
    | some script => .done (.ok script)
    | none =>
        .ask (.join path) fun seat =>
          if seat.leads then lead s t path seat.ticket else .ask (.await seat.ticket) .done

def visitAll (visit : Inclusion → Asking (Except Breakdown Unit)) :
    List Inclusion → Asking (Except Breakdown Unit)
  | [] => .done (.ok ())
  | i :: rest =>
      (visit i).bind fun one =>
        match one with
        | .error breakdown => .done (.error breakdown)
        | .ok () => visitAll visit rest

/-- Compiles what a script includes. `chain` holds the paths on the way to it. -/
def fetchInclusions : Nat → Script → List Text → Asking (Except Breakdown Unit)
  | 0, _, _ => .done (.error .outOfFuel)
  | fuel + 1, script, chain =>
      visitAll (fun i =>
        if chain.contains i.resolved then .done (.error (.fault (Library.circle script i chain)))
        else
          (fetch s t i.resolved).bind fun one =>
            match one with
            | .error breakdown => .done (.error (breakdown.framed script i))
            | .ok child =>
                (fetchInclusions fuel child (chain ++ [i.resolved])).bind fun below =>
                  .done (below.mapError (.framed script i))) script.inclusions

def compileFile (path : Text) : Asking (Except Breakdown Script) :=
  (fetch s t (t.absolute path)).bind fun one =>
    match one with
    | .error breakdown => .done (.error breakdown)
    | .ok script =>
        (fetchInclusions s t (Library.chainBound t .empty) script [t.absolute path]).bind fun all =>
          .done (all.map fun _ => script)

end Programs

/-- A program that records nothing and has one outcome. -/
def Yields {α : Type} (own : Text → Except Breakdown Script) (id : Text) (a : α)
    (program : Asking α) : Prop :=
  ∀ paths mine, program.ComesTo own id (fun rs b => rs = mine ∧ b = a) paths mine

section Yields

variable {own : Text → Except Breakdown Script} {id : Text} {α β : Type}

theorem done_yields (a : α) : (done a).Yields own id a := by
  intro paths mine
  exact ⟨rfl, rfl⟩

theorem bind_yields {program : Asking α} {a : α} (first : program.Yields own id a)
    {f : α → Asking β} {b : β} (then' : (f a).Yields own id b) : (program.bind f).Yields own id b := by
  intro paths mine
  refine comes_bind (first paths mine) ?_
  rintro paths rs x ⟨rfl, rfl⟩
  exact then' paths rs

end Yields

section Outcomes

variable {s : CompileSettings} {t : FileTree} {id : Text}

theorem lead_owes (path : Text) (ticket : Nat) : (lead s t path ticket).Owes ticket := by
  intro kept
  cases kept with
  | some script => exact rfl
  | none =>
      simp only
      cases s.own t path with
      | ok script => exact fun _ => rfl
      | error breakdown => exact rfl

theorem lead_comes {path : Text} {ticket : Nat} {paths : List Text}
    (known : paths[ticket]? = some path) (mine : List Result) :
    (lead s t path ticket).ComesTo (s.own t) id (fun rs b => rs = mine ∧ b = s.own t path) paths
      mine := by
  have hands {outcome : Except Breakdown Script} (honest : outcome = s.own t path) :
      (handed ticket outcome).ComesTo (s.own t) id (fun rs b => rs = mine ∧ b = s.own t path) paths
        mine :=
    ⟨⟨path, known, honest⟩, rfl, honest⟩
  constructor
  · simp only
    cases own : s.own t path with
    | ok script =>
        rw [own] at hands
        exact ⟨own, hands rfl⟩
    | error breakdown =>
        rw [own] at hands
        exact hands rfl
  · intro script own
    exact hands own.symm

theorem fetch_yields (path : Text) : (fetch s t path).Yields (s.own t) id (s.own t path) := by
  intro paths mine
  constructor
  · intro more ticket leads further known
    cases leads with
    | false => exact ⟨nofun, path, known, rfl, rfl⟩
    | true => exact ⟨fun _ => lead_owes path ticket, lead_comes known mine⟩
  · intro script own
    exact ⟨rfl, own.symm⟩

theorem visit_all_yields {own : Text → Except Breakdown Script}
    {visit : Inclusion → Asking (Except Breakdown Unit)} {step : Inclusion → Except Breakdown Unit}
    {is : List Inclusion} (each : ∀ i ∈ is, (visit i).Yields own id (step i)) :
    (visitAll visit is).Yields own id (forM is step) := by
  induction is with
  | nil => exact done_yields _
  | cons i rest ih =>
      have others := ih fun j member => each j (List.mem_cons_of_mem i member)
      rw [List.forM_cons]
      apply bind_yields (each i List.mem_cons_self)
      cases step i with
      | error breakdown => exact done_yields _
      | ok u => exact others

theorem fetch_inclusions_yields (fuel : Nat) (script : Script) (chain : List Text) :
    (fetchInclusions s t fuel script chain).Yields (s.own t) id
      (walk (s.own t) fuel script chain) := by
  induction fuel generalizing script chain with
  | zero => exact done_yields _
  | succ fuel ih =>
      apply visit_all_yields
      intro i _
      unfold visit
      by_cases circle : chain.contains i.resolved = true
      · rw [if_pos circle, if_pos circle]
        exact done_yields _
      · rw [if_neg circle, if_neg circle]
        apply bind_yields (fetch_yields i.resolved)
        cases s.own t i.resolved with
        | error breakdown => exact done_yields _
        | ok child => exact bind_yields (ih child _) (done_yields _)

/-- Compiling beside others comes to what compiling alone comes to. -/
theorem compile_file_yields (path : Text) :
    (compileFile s t path).Yields (s.own t) id (Library.compileFile s t .empty path).result := by
  apply bind_yields (fetch_yields (t.absolute path))
  have given : Library.empty.given s t = s.own t := rfl
  cases own : s.own t (t.absolute path) with
  | error breakdown =>
      rw [Library.compile_file_error _ _ (given ▸ own)]
      exact done_yields _
  | ok script =>
      have found : Library.empty.given s t (t.absolute path) = .ok script := own
      have clean q (reaches : Reaches (scriptAt (Library.empty.given s t)) script q) :=
        Library.given_reaches_clean Library.empty_resolved
          (Library.given_resolved Library.empty_resolved found) reaches
      obtain ⟨fuel, result, ends⟩ := Library.compile_file_walk found clean
      have bounded : walk (Library.empty.given s t) (Library.chainBound t .empty) script
          [t.absolute path] ≠ .error .outOfFuel := Library.given_walk_ends clean (Nat.le_refl _)
      rw [given] at ends bounded
      -- Two walks that had enough fuel are one.
      have same : walk (s.own t) fuel script [t.absolute path] =
          walk (s.own t) (Library.chainBound t .empty) script [t.absolute path] := by
        rw [← walk_enough ends (Nat.le_max_left fuel (Library.chainBound t .empty)),
          ← walk_enough bounded (Nat.le_max_right fuel (Library.chainBound t .empty))]
      rw [result, given, same]
      exact bind_yields (fetch_inclusions_yields _ _ _) (done_yields _)

end Outcomes

end Asking
end DeviceScript

import DeviceScript.Proofs.Grammar.Derivation
import DeviceScript.Proofs.Source.Lines

/-!
Statements that are not taken. What has been skipped before has no influence on what is taken; a
statement that is at fault alone leaves everything as it was, and its fault tells its line.
-/

namespace DeviceScript

open Text

def Fault.line? (f : Fault) : Option Int := f.report?.map Report.line

/-- The kinds of the reports that are made before anything runs. -/
def FaultKind.OfSource (k : FaultKind) : Prop := k = .syntaxError ∨ k = .unknownOperation

/-- The fault is a report on a line of a file, made before anything runs. -/
def Fault.TellsAt (f : Fault) (file : Text) (line : Int) : Prop :=
  ∃ r, f.report? = some r ∧ r.file = file ∧ r.line = line ∧ r.pc = -1 ∧ r.frames = [] ∧
    r.kind.OfSource

theorem Fault.TellsAt.line {f : Fault} {file : Text} {line : Int} (tells : f.TellsAt file line) :
    f.line? = some line := by
  obtain ⟨r, told, -, rfl, -, -, -⟩ := tells
  simp [Fault.line?, told]

namespace Assembly

variable {c : AssemblyContext}

def after (a : Assembly) (skipped : List Fault) : Assembly := { a with skipped := skipped }

theorem simple_after (a : Assembly) (s : Statement) (skipped : List Fault) :
    (a.after skipped).simple c s = (a.simple c s).map fun b => b.after skipped := by
  unfold Assembly.simple
  cases s.head.kind with
  | operation =>
      simp only
      cases c.schema.resolve s.head c.file with
      | error fault => rfl
      | ok rule =>
          cases rule with
          | positional spec =>
              simp only
              cases s.positional spec <;> rfl
          | options spec =>
              simp only
              cases s.options spec <;> rfl
          | control kw => rfl
  | sectionName =>
      simp only
      split <;> rfl
  | inclusion =>
      simp only
      repeat' split
      all_goals rfl
  | _ => rfl

theorem keyword_after (a : Assembly) (kw : KeywordSpec) (s : Statement) (previous : Option Nat)
    (loopLine : Option Int) (skipped : List Fault) :
    (a.after skipped).keyword c kw s previous loopLine =
      ((a.keyword c kw s previous loopLine).1.after skipped,
        (a.keyword c kw s previous loopLine).2) := by
  unfold keyword
  simp only [after]
  repeat' split
  all_goals rfl

theorem take_after (a : Assembly) (s : Statement) (skipped : List Fault) :
    (a.after skipped).take c s = ((a.take c s).1.after skipped, (a.take c s).2) := by
  unfold take
  rw [simple_after]
  -- The branches of `take` look at the open blocks only, which are the same on both sides.
  split
  · split
    · rfl
    · simp only [show (a.after skipped).blocks = a.blocks from rfl]
      split
      · split
        · exact keyword_after ..
        · rfl
      · split
        · exact keyword_after { a with blocks := _ } ..
        · split
          · exact keyword_after ..
          · rfl
    · rfl
  · cases a.simple c s <;> rfl

theorem take_skipped {a b : Assembly} {s : Statement} {r : Option Rejection}
    (taken : a.take c s = (b, r)) : b.skipped = a.skipped := by
  have same := take_after (c := c) a s a.skipped
  rw [show a.after a.skipped = a from rfl, taken] at same
  exact congrArg (fun p => Assembly.skipped p.1) same

theorem Taken.after {a b : Assembly} {ss : List Statement} (taken : Taken c a ss b)
    (skipped : List Fault) : Taken c (a.after skipped) ss (b.after skipped) := by
  induction taken with
  | done a => exact .done _
  | next step _ ih =>
      refine .next ?_ ih
      rw [take_after, step]

end Assembly

namespace Statement

theorem argument_value_line {op : Text} {spec : ParamSpec} {t : Token} {located : Located}
    (refused : argumentValue op spec t = .error located) : located.line = t.line := by
  unfold argumentValue at refused
  repeat' split at refused
  all_goals cases refused
  rfl

variable {s : Statement} {op : OperationSpec} {located : Located}

theorem positional_from_line (specs : List ParamSpec) (args : List Token)
    (oneLine : ∀ t ∈ args, t.line = s.line)
    (refused : s.positionalFrom op specs args = .error located) : located.line = s.line := by
  induction specs generalizing args with
  | nil =>
      cases args with
      | nil => cases refused
      | cons arg rest =>
          cases refused
          rfl
  | cons spec specs ih =>
      cases args with
      | nil =>
          unfold positionalFrom at refused
          split at refused
          all_goals cases refused
          rfl
      | cons arg rest =>
          unfold positionalFrom at refused
          split at refused
          · cases refused
          · split at refused
            · rename_i fault value
              cases refused
              rw [argument_value_line value]
              exact oneLine arg (by simp)
            · split at refused
              · rename_i fault tail
                cases refused
                exact ih rest (fun t member => oneLine t (by simp [member])) tail
              · cases refused

theorem options_from_line (args : List Token) (given : Given)
    (oneLine : ∀ t ∈ args, t.line = s.line)
    (refused : s.optionsFrom op given args = .error located) : located.line = s.line := by
  fun_induction s.optionsFrom op given args with
  | case1 => cases refused
  | case7 given flag mark label text isFlag spec known fresh arg args fault value =>
      cases refused
      rw [argument_value_line value]
      exact oneLine arg (by simp)
  | case8 given flag mark label text isFlag spec known fresh arg args value read ih =>
      exact ih (fun t member => oneLine t (by simp [member])) refused
  | _ =>
      cases refused
      rfl

theorem options_line (oneLine : ∀ t ∈ s.args, t.line = s.line)
    (refused : s.options op = .error located) : located.line = s.line := by
  unfold options at refused
  split at refused
  · rename_i fault read
    cases refused
    exact options_from_line s.args [] oneLine read
  · split at refused
    · cases refused
      rfl
    · cases refused

end Statement

namespace Assembly

variable {c : AssemblyContext}

theorem fault_tells (located : Located) : (c.fault located).TellsAt c.file located.line :=
  ⟨_, rfl, rfl, rfl, rfl, rfl, .inl rfl⟩

/-- A statement that is no keyword tells its faults at its own line. -/
theorem simple_tells {a : Assembly} {s : Statement} {fault : Fault}
    (oneLine : ∀ t ∈ s.args, t.line = s.line) (refused : a.simple c s = .error fault) :
    fault.TellsAt c.file s.line := by
  unfold Assembly.simple at refused
  cases kind : s.head.kind with
  | operation =>
      simp only [kind, Schema.resolve] at refused
      cases known : c.schema.operation? s.head.text with
      | none =>
          simp only [known, Except.error.injEq] at refused
          subst refused
          exact ⟨_, rfl, rfl, rfl, rfl, rfl, .inr rfl⟩
      | some spec =>
          simp only [known] at refused
          by_cases mode : spec.mode = .options
          · simp only [mode, ↓reduceIte] at refused
            cases read : s.options spec with
            | error located =>
                simp only [read, Except.error.injEq] at refused
                subst refused
                rw [← Statement.options_line oneLine read]
                exact fault_tells located
            | ok params => simp [read] at refused
          · simp only [mode, ↓reduceIte] at refused
            cases read : s.positional spec with
            | error located =>
                simp only [read, Except.error.injEq] at refused
                subst refused
                rw [← Statement.positional_from_line _ _ oneLine read]
                exact fault_tells located
            | ok params => simp [read] at refused
  | _ =>
      simp only [kind] at refused
      repeat' split at refused
      all_goals cases refused
      all_goals exact fault_tells _

/-- A keyword that knows the loop it goes back to is taken or ends the assembly. -/
theorem keyword_rejects {a b : Assembly} {kw : KeywordSpec} {s : Statement}
    {previous : Option Nat} {loopLine : Option Int} {r : Rejection}
    (begun : kw.backLink = true → loopLine.isSome = true)
    (rejected : a.keyword c kw s previous loopLine = (b, some r)) : ∃ fault, r = .fatal fault := by
  have known : (kw.backLink && loopLine.isNone) = false := by
    cases link : kw.backLink with
    | false => rfl
    | true =>
        have some := begun link
        cases loopLine with
        | none => cases some
        | some line => rfl
  -- Only an end without a loop to go back to gives up the open blocks and lets the assembly go on.
  unfold keyword at rejected
  simp only [known, Bool.false_eq_true, ↓reduceIte] at rejected
  repeat' split at rejected
  all_goals cases rejected
  all_goals exact ⟨_, rfl⟩

theorem standard_opener_forward :
    ∀ kw ∈ Schema.standard.keywords, kw.opener = true → kw.backLink = false := by decide

theorem standard_back_link_awaited (p : Pending) :
    ∀ kw ∈ Schema.standard.keywords, kw.backLink = true → kw.name ∈ p.ends →
      p = .whileLoop ∨ p = .untilLoop := by
  cases p <;> decide

/-- With the standard keywords, a statement that is not taken either ends the assembly or is
skipped: then nothing has changed, and the fault tells the line of the statement. -/
theorem take_rejects (standard : c.schema = Schema.standard) {a b : Assembly} {s : Statement}
    {ps : List Pending} {r : Rejection} (awaits : List.Forall₂ OpenBlock.Awaits a.blocks ps)
    (oneLine : ∀ t ∈ s.args, t.line = s.line) (rejected : a.take c s = (b, some r)) :
    (∃ fault, r = .fatal fault) ∨
      ∃ fault, r = .statement fault ∧ b = a ∧ fault.line? = some s.line := by
  by_cases isKeyword : s.head.kind = .keyword
  · cases known : Schema.standard.keyword? s.head.text with
    | none =>
        simp only [take, isKeyword, Schema.resolve, standard, known, ↓reduceIte, Prod.mk.injEq,
          Option.some.injEq] at rejected
        obtain ⟨rfl, rfl⟩ := rejected
        exact Or.inr ⟨_, rfl, rfl, rfl⟩
    | some kw =>
        have member := (keyword_found known).1
        have unlinked (opener : kw.opener = true) :
            kw.backLink = true → (none : Option Int).isSome = true := by
          simp [standard_opener_forward kw member opener]
        simp only [take, isKeyword, Schema.resolve, standard, known, ↓reduceIte] at rejected
        -- The rejection of an opener, or of a terminator that is met, is fatal: the instruction is
        -- in the code by then. Any other keyword is rejected before anything has changed.
        split at rejected
        · split at rejected
          · rename_i opener
            exact Or.inl (keyword_rejects (unlinked opener) rejected)
          · cases rejected
            exact Or.inr ⟨_, rfl, rfl, rfl⟩
        · rename_i block outer blocks
          split at rejected
          · rename_i met
            rw [blocks] at awaits
            cases awaits with
            | @cons _ p _ _ first _ =>
                have met : kw.name ∈ p.ends := by
                  rw [first.1] at met
                  simpa using met
                refine Or.inl (keyword_rejects ?_ rejected)
                intro link
                have loops := standard_back_link_awaited p kw member link met
                exact Option.isSome_iff_exists.mpr (first.2 loops)
          · split at rejected
            · rename_i opener
              exact Or.inl (keyword_rejects (unlinked opener) rejected)
            · cases rejected
              exact Or.inr ⟨_, rfl, rfl, rfl⟩
  · simp only [take, isKeyword, ↓reduceIte] at rejected
    cases read : a.simple c s with
    | ok after => simp [read] at rejected
    | error fault =>
        simp only [read, Prod.mk.injEq, Option.some.injEq] at rejected
        obtain ⟨rfl, rfl⟩ := rejected
        exact Or.inr ⟨fault, rfl, rfl, (simple_tells oneLine read).line⟩

end Assembly
end DeviceScript

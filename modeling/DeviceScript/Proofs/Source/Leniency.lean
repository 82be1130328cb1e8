import DeviceScript.Proofs.Source.Acceptance
import DeviceScript.Proofs.Source.Rejection

/-!
Lenient assembly against strict assembly. A lenient assembly that succeeds is a strict one of the
source without the lines it skipped; the two agree on sources without faults, and the fault that
ends a strict assembly is the first one that a lenient one meets.
-/

namespace DeviceScript

open Text

namespace Assembly

variable {c : AssemblyContext}

theorem takes_awaits (standard : c.schema = Schema.standard) {a b : Assembly} {s : Statement}
    {ps : List Pending} (awaits : List.Forall₂ OpenBlock.Awaits a.blocks ps)
    (takes : Takes c a s b) : ∃ qs, List.Forall₂ OpenBlock.Awaits b.blocks qs := by
  cases takes with
  | simple read =>
      obtain ⟨d, again, -, blocks, -⟩ := simple_complete a s (simple_sound c standard a b s read)
      rw [again c standard] at read
      cases read
      exact ⟨ps, blocks ▸ awaits⟩
  | openIf => exact ⟨.chain :: ps, .cons ⟨rfl, by simp⟩ awaits⟩
  | openWhile => exact ⟨.whileLoop :: ps, .cons ⟨rfl, by simp⟩ awaits⟩
  | openLoop => exact ⟨.untilLoop :: ps, .cons ⟨rfl, by simp⟩ awaits⟩
  | elseIf blocks =>
      obtain ⟨qs, -, outer⟩ := awaited_innermost (blocks ▸ awaits)
      exact ⟨.chain :: qs, .cons ⟨rfl, by simp⟩ outer⟩
  | otherwise blocks =>
      obtain ⟨qs, -, outer⟩ := awaited_innermost (blocks ▸ awaits)
      exact ⟨.otherwise :: qs, .cons ⟨rfl, by simp⟩ outer⟩
  | fi _ blocks =>
      obtain ⟨qs, -, outer⟩ := awaited_innermost (blocks ▸ awaits)
      exact ⟨qs, outer⟩
  | endWhile blocks =>
      obtain ⟨qs, -, outer⟩ := awaited_innermost (blocks ▸ awaits)
      exact ⟨qs, outer⟩
  | untilMet blocks =>
      obtain ⟨qs, -, outer⟩ := awaited_innermost (blocks ▸ awaits)
      exact ⟨qs, outer⟩

theorem Taken.anywhere {d : AssemblyContext} (standard : c.schema = Schema.standard)
    (also : d.schema = Schema.standard) {a b : Assembly} {ss : List Statement}
    {ps : List Pending} (awaits : List.Forall₂ OpenBlock.Awaits a.blocks ps)
    (taken : Taken c a ss b) : Taken d a ss b := by
  induction taken generalizing ps with
  | done a => exact .done a
  | @next a b _ s _ step _ ih =>
      have takes := take_sound standard awaits step
      obtain ⟨qs, after⟩ := takes_awaits standard awaits takes
      refine .next ?_ (ih after)
      apply take_complete also awaits
      cases takes with
      | simple read =>
          obtain ⟨e, again, -⟩ := simple_complete a s (simple_sound c standard a b s read)
          rw [again c standard] at read
          cases read
          exact .simple (again d also)
      | openIf form => exact .openIf form
      | openWhile form => exact .openWhile form
      | openLoop form => exact .openLoop form
      | elseIf blocks form => exact .elseIf blocks form
      | otherwise blocks form => exact .otherwise blocks form
      | fi which blocks form => exact .fi which blocks form
      | endWhile blocks form => exact .endWhile blocks form
      | untilMet blocks form => exact .untilMet blocks form

theorem run_taken {a b : Assembly} {ss : List Statement} (lastLine : Int)
    (taken : Taken c a ss b) (closed : b.blocks = []) :
    run c lastLine a ss = ⟨.ok b.script, b.skipped⟩ := by
  induction taken with
  | done a => simp [run, closed]
  | next step _ ih =>
      rw [run, step]
      exact ih closed

theorem taken_skipped {a b : Assembly} {ss : List Statement} (taken : Taken c a ss b) :
    b.skipped = a.skipped := by
  induction taken with
  | done => rfl
  | next step _ ih => rw [ih, take_skipped step]

/-- A lenient assembly that succeeds has taken all statements but those on the lines of the
faults it skipped, and nothing of these is left. -/
theorem run_lenient_ok (standard : c.schema = Schema.standard) (lenient : c.lenient = true)
    (lastLine : Int) (ss : List Statement) (ascend : LinesAscend ss)
    (onLine : ∀ s ∈ ss, Token.OnLine s.line s) (a : Assembly) (ps : List Pending)
    (awaits : List.Forall₂ OpenBlock.Awaits a.blocks ps) (script : Script)
    (ended : (run c lastLine a ss).result = .ok script) :
    ∃ (gone : List Int) (faults : List Fault),
      (run c lastLine a ss).skipped = a.skipped ++ faults ∧
      faults.map Fault.line? = gone.map some ∧ gone.Sublist (ss.map Statement.line) ∧
      ∃ b, Taken c a (ss.filter fun s => s.line ∉ gone) b ∧ b.blocks = [] ∧ b.script = script := by
  induction ss generalizing a ps with
  | nil =>
      unfold run at ended ⊢
      cases blocks : a.blocks with
      | nil =>
          simp only [blocks, Except.ok.injEq] at ended
          exact ⟨[], [], by simp, rfl, .slnil, a, .done a, blocks, ended⟩
      | cons block outer => simp [blocks] at ended
  | cons s rest ih =>
      obtain ⟨later, ascendRest⟩ := List.pairwise_cons.mp ascend
      have onLineRest := fun t member => onLine t (List.mem_cons_of_mem s member)
      have oneLine := fun t member => ((onLine s (by simp)).2.2 t member).2
      rcases step : a.take c s with ⟨b, _ | r⟩
      · have takes := take_sound standard awaits step
        obtain ⟨qs, after⟩ := takes_awaits standard awaits takes
        simp only [run, step] at ended ⊢
        obtain ⟨gone, faults, skipped, lines, among, d, taken, closed, same⟩ :=
          ih ascendRest onLineRest b qs after ended
        have kept : s.line ∉ gone := by
          intro member
          obtain ⟨t, member, same⟩ := List.mem_map.mp (among.subset member)
          have above := later t member
          omega
        refine ⟨gone, faults, ?_, lines, among.cons _, d, ?_, closed, same⟩
        · rw [skipped, take_skipped step]
        · simpa [kept] using Taken.next step taken
      · rcases take_rejects standard awaits oneLine step with ⟨fault, rfl⟩ | ⟨fault, rfl, rfl, line⟩
        · simp [run, step] at ended
        · simp only [run, step, lenient, ↓reduceIte] at ended ⊢
          -- The rest runs after one more fault; `Taken.after` takes that fault away again.
          obtain ⟨gone, faults, skipped, lines, among, d, taken, closed, same⟩ :=
            ih ascendRest onLineRest (b.after (b.skipped ++ [fault])) ps awaits ended
          refine ⟨s.line :: gone, fault :: faults, ?_, ?_, among.cons_cons _, d.after b.skipped, ?_,
            closed, same⟩
          · rw [after] at skipped
            simp [skipped]
          · simp [lines, line]
          · -- The lines of the rest come later, so only `s` is on the new line of `gone`.
            have others : (s :: rest).filter (fun t => t.line ∉ s.line :: gone) =
                rest.filter fun t => t.line ∉ gone := by
              rw [List.filter_cons_of_neg (by simp)]
              apply List.filter_congr
              intro t member
              have above := later t member
              have other : t.line ≠ s.line := by omega
              simp [other]
            rw [others]
            exact taken.after b.skipped

theorem run_skipped (lastLine : Int) (ss : List Statement) (a : Assembly) :
    ∃ more, (run c lastLine a ss).skipped = a.skipped ++ more := by
  induction ss generalizing a with
  | nil =>
      unfold run
      split <;> exact ⟨[], by simp⟩
  | cons s rest ih =>
      unfold run
      rcases step : a.take c s with ⟨b, _ | r⟩
      · obtain ⟨more, skipped⟩ := ih b
        exact ⟨more, by rw [← take_skipped step]; exact skipped⟩
      · have kept := take_skipped step
        have onward (fault : Fault) (blocks : List OpenBlock) : ∃ more, (run c lastLine
            { b with blocks := blocks, skipped := b.skipped ++ [fault] } rest).skipped =
              a.skipped ++ more := by
          obtain ⟨more, skipped⟩ :=
            ih { b with blocks := blocks, skipped := b.skipped ++ [fault] }
          exact ⟨fault :: more, by rw [skipped, kept]; simp⟩
        cases r with
        | statement fault =>
            simp only
            split
            · exact onward fault b.blocks
            · exact ⟨[], by simp [kept]⟩
        | block fault =>
            simp only
            split
            · exact onward fault []
            · exact ⟨[], by simp [kept]⟩
        | fatal fault => exact ⟨[], by simp [kept]⟩

/-- The fault that ends a strict assembly is the first that a lenient one skips or, if it is past
skipping, the one that ends the lenient assembly too. -/
theorem run_strict_error (schema : Schema) (file : Text) (quoted : Option (List Text))
    (lastLine : Int) (ss : List Statement) (a : Assembly) (fault : Fault)
    (ended : (run ⟨schema, file, quoted, false⟩ lastLine a ss).result = .error fault) :
    (∃ more, (run ⟨schema, file, quoted, true⟩ lastLine a ss).skipped =
        a.skipped ++ fault :: more) ∨
      (run ⟨schema, file, quoted, true⟩ lastLine a ss).skipped = a.skipped ∧
        (run ⟨schema, file, quoted, true⟩ lastLine a ss).result = .error fault := by
  induction ss generalizing a with
  | nil =>
      unfold run at ended ⊢
      cases blocks : a.blocks with
      | nil => simp [blocks] at ended
      | cons block outer =>
          simp only [blocks, Except.error.injEq] at ended
          subst ended
          exact Or.inr ⟨rfl, rfl⟩
  | cons s rest ih =>
      -- Leniency is not looked at before a statement has been rejected.
      have same : a.take ⟨schema, file, quoted, true⟩ s = a.take ⟨schema, file, quoted, false⟩ s :=
        rfl
      unfold run at ended ⊢
      rw [same]
      rcases step : a.take ⟨schema, file, quoted, false⟩ s with ⟨b, _ | r⟩
      · rw [step] at ended
        have kept := take_skipped step
        simpa only [kept] using ih b ended
      · have kept := take_skipped step
        have onward (blocks : List OpenBlock) : ∃ more, (run ⟨schema, file, quoted, true⟩ lastLine
            { b with blocks := blocks, skipped := b.skipped ++ [fault] } rest).skipped =
              a.skipped ++ fault :: more := by
          obtain ⟨more, skipped⟩ := run_skipped (c := ⟨schema, file, quoted, true⟩) lastLine rest
            { b with blocks := blocks, skipped := b.skipped ++ [fault] }
          exact ⟨more, by rw [skipped, kept]; simp⟩
        rw [step] at ended
        cases r with
        | statement first =>
            simp only [Bool.false_eq_true, ↓reduceIte, Except.error.injEq] at ended
            subst ended
            exact Or.inl (onward b.blocks)
        | block first =>
            simp only [Bool.false_eq_true, ↓reduceIte, Except.error.injEq] at ended
            subst ended
            exact Or.inl (onward [])
        | fatal first =>
            simp only [Except.error.injEq] at ended
            subst ended
            exact Or.inr ⟨kept, rfl⟩

end Assembly

/-- Lenient assembly of a source, set against strict assembly. First, a lenient assembly that
succeeds tells its faults at lines that ascend, and strict assembly of the source with these lines
blanked gives the same script. Second, a source that strict assembly accepts has the same script
leniently and no faults. Third, the fault that ends a strict assembly is the first one skipped, or
else the one that ends the lenient assembly. -/
theorem lenient_assembly_skips_lines (file source : Text) (quoted : Option (List Text)) :
    ∃ tokens, Token.sourceTokens? Schema.standard.vocabulary source = some tokens ∧
      (∀ script, (assemble ⟨Schema.standard, file, quoted, true⟩ tokens).result = .ok script →
        ∃ gone : List Int,
          (assemble ⟨Schema.standard, file, quoted, true⟩ tokens).skipped.map Fault.line? =
            gone.map some ∧
          gone.Pairwise (· < ·) ∧
          ∃ kept, Token.sourceTokens? Schema.standard.vocabulary (blanked gone source) =
              some kept ∧
            ∀ other, (assemble ⟨Schema.standard, file, other, false⟩ kept).result = .ok script) ∧
      (∀ script, (assemble ⟨Schema.standard, file, quoted, false⟩ tokens).result = .ok script →
        assemble ⟨Schema.standard, file, quoted, true⟩ tokens = ⟨.ok script, []⟩) ∧
      ∀ fault, (assemble ⟨Schema.standard, file, quoted, false⟩ tokens).result = .error fault →
        (assemble ⟨Schema.standard, file, quoted, true⟩ tokens).skipped.head? = some fault ∨
          (assemble ⟨Schema.standard, file, quoted, true⟩ tokens).skipped = [] ∧
            (assemble ⟨Schema.standard, file, quoted, true⟩ tokens).result = .error fault := by
  obtain ⟨tokens, read, same⟩ := source_tokens_statements Schema.standard.vocabulary source
  refine ⟨tokens, read, ?_, ?_, ?_⟩
  · intro script ended
    have ascend := source_statements_ascend Schema.standard.vocabulary source
    have onLine := source_statement_on_line Schema.standard.vocabulary source
    rw [← same] at ascend onLine
    obtain ⟨gone, faults, skipped, lines, among, a, taken, closed, rfl⟩ :=
      Assembly.run_lenient_ok rfl rfl _ _ ascend onLine _ [] (Assembly.start_awaits file) _ ended
    obtain ⟨kept, again, rest⟩ :=
      source_tokens_statements Schema.standard.vocabulary (blanked gone source)
    rw [blanked_statements, ← same] at rest
    refine ⟨gone, ?_, ?_, kept, again, ?_⟩
    · unfold assemble
      rw [skipped]
      exact lines
    · exact (List.pairwise_map.mpr ascend).sublist among
    · intro other
      apply (Assembly.run_strict_ok_iff rfl _ _ _ _).mpr
      -- The statements that are left are those that the lenient assembly has taken.
      refine ⟨a, ?_, closed, rfl⟩
      rw [rest]
      exact taken.anywhere rfl rfl (Assembly.start_awaits file)
  · intro script ended
    obtain ⟨a, taken, closed, rfl⟩ := (Assembly.run_strict_ok_iff rfl _ _ _ _).mp ended
    have leniently : Assembly.Taken ⟨Schema.standard, file, quoted, true⟩ (Assembly.start file)
        (statements tokens) a := taken.anywhere rfl rfl (Assembly.start_awaits file)
    unfold assemble
    rw [Assembly.run_taken _ leniently closed, Assembly.taken_skipped taken]
    rfl
  · intro fault ended
    rcases Assembly.run_strict_error _ _ _ _ _ _ _ ended with ⟨more, skipped⟩ | none
    · left
      unfold assemble
      rw [skipped]
      rfl
    · exact Or.inr none

end DeviceScript

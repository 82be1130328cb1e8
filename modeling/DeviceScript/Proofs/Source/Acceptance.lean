import DeviceScript.Proofs.Grammar.Derivation
import DeviceScript.Proofs.Source.Lines

/-!
Strict assembly of a source succeeds exactly for the sources that the block grammar derives, and
gives the code of the derivation.
-/

namespace DeviceScript

open Text

namespace Assembly

variable {c : AssemblyContext}

theorem start_awaits (file : Text) :
    List.Forall₂ OpenBlock.Awaits (start file).blocks [] := .nil

/-- What has been taken from the start, with no block left open, is a derivation. -/
theorem taken_derivation (standard : c.schema = Schema.standard) {file : Text}
    {ss : List Statement} {a : Assembly} (taken : Taken c (start file) ss a)
    (closed : a.blocks = []) : ∃ b : Block, b.Fits ∧ b.statements = ss :=
  taken_completes standard taken closed (start_awaits file)

theorem derivation_taken (c : AssemblyContext) (standard : c.schema = Schema.standard)
    (file : Text) (b : Block) (fits : b.Fits) :
    ∃ a, Taken c (start file) b.statements a ∧ a.blocks = [] ∧ a.script.code = b.code := by
  obtain ⟨a, taken, code, blocks, -⟩ :=
    block_taken standard b fits (start file) [] (start_awaits file)
  exact ⟨a, taken, blocks, code⟩

theorem taken_code (standard : c.schema = Schema.standard) {file : Text} {b : Block}
    {a : Assembly} (fits : b.Fits) (taken : Taken c (start file) b.statements a) :
    a.script.code = b.code := by
  obtain ⟨d, again, -, code⟩ := derivation_taken c standard file b fits
  rw [taken.unique again]
  exact code

end Assembly

/-- A strict assembly accepts the sources that the block grammar derives and no others. The code
it makes is that of the derivation, so every jump leads to the line of a keyword of its own block;
and as no two statements share a line, that line is no other keyword's. -/
theorem strict_assembly_iff_derivation (file : Text) (quoted : Option (List Text)) (source : Text) :
    ∃ tokens, Token.sourceTokens? Schema.standard.vocabulary source = some tokens ∧
      LinesAscend (statements tokens) ∧
      ((∃ script, (assemble ⟨Schema.standard, file, quoted, false⟩ tokens).result = .ok script) ↔
        ∃ b : Block, b.Fits ∧ b.statements = statements tokens) ∧
      ∀ (script : Script) (b : Block),
        (assemble ⟨Schema.standard, file, quoted, false⟩ tokens).result = .ok script →
        b.Fits → b.statements = statements tokens → script.code = b.code := by
  obtain ⟨tokens, read, same⟩ := source_tokens_statements Schema.standard.vocabulary source
  refine ⟨tokens, read, same ▸ source_statements_ascend _ source, ⟨?_, ?_⟩, ?_⟩
  · rintro ⟨script, accepted⟩
    obtain ⟨a, taken, closed, -⟩ := (Assembly.run_strict_ok_iff rfl _ _ _ _).mp accepted
    exact Assembly.taken_derivation rfl taken closed
  · rintro ⟨b, fits, written⟩
    obtain ⟨a, taken, closed, -⟩ := Assembly.derivation_taken
      ⟨Schema.standard, file, quoted, false⟩ rfl file b fits
    exact ⟨a.script, (Assembly.run_strict_ok_iff rfl _ _ _ _).mpr
      ⟨a, written ▸ taken, closed, rfl⟩⟩
  · intro script b accepted fits written
    obtain ⟨a, taken, -, rfl⟩ := (Assembly.run_strict_ok_iff rfl _ _ _ _).mp accepted
    exact Assembly.taken_code rfl fits (written ▸ taken)

end DeviceScript

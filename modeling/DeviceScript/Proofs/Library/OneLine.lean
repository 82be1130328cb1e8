import DeviceScript.Proofs.Library.History
import DeviceScript.Proofs.Token.Forms
import DeviceScript.Run.Interpolation

/-!
Scripts of one line. Where there is nothing to fill in, a line is compiled and executed as it is
written.
-/

namespace DeviceScript

open Text

namespace Text.Segment

variable {α : Type} {find : Text → Option (α × Nat)}

/-- A text without marks is one stretch to copy. -/
theorem cut_unmarked (t : Text) (unmarked : ∀ u, u <:+ t → find u = none) :
    cut find t = if t = [] then [] else [.literal t] := by
  induction t with
  | nil => rfl
  | cons b rest ih =>
      have later := ih fun u part => unmarked u (part.trans (List.suffix_cons b rest))
      have here := unmarked (b :: rest) List.suffix_rfl
      unfold cut at later ⊢
      unfold cutAfter
      simp only [here, later]
      split <;> simp_all [consByte]

theorem expand_unmarked (t : Text) (unmarked : ∀ u, u <:+ t → find u = none)
    (value? : α → Option Text) : (cut find t).flatMap (expand value?) = t := by
  rw [cut_unmarked t unmarked]
  split
  · next none => exact none.symm
  · simp [expand]

end Text.Segment

namespace Placeholder

theorem lead_colon {t : Text} (found : lead? t ≠ none) : ascii ':' ∈ t := by
  obtain ⟨read, led⟩ := Option.ne_none_iff_exists'.mp found
  simp only [lead?, Option.bind_eq_bind, Option.bind_eq_some_iff] at led
  obtain ⟨⟨sectionName, rest⟩, worded, after, colon, -⟩ := led
  have part : rest <:+ t := by
    unfold word? at worded
    split at worded
    · cases worded
      exact List.dropWhile_suffix _
    · cases worded
  have begins : rest = ofString ":" ++ after := Token.drop_start_iff.mp colon
  exact part.mem (begins ▸ List.mem_append_left _ (by decide))

theorem braced_colon {u : Text} (found : braced? u ≠ none) :
    ∃ inside, u = 0x7b :: inside ∧ ascii ':' ∈ inside := by
  obtain ⟨read, braced⟩ := Option.ne_none_iff_exists'.mp found
  simp only [braced?, Option.bind_eq_bind, Option.bind_eq_some_iff] at braced
  obtain ⟨inside, opened, led, some, -⟩ := braced
  exact ⟨inside, Token.drop_start_iff.mp opened, lead_colon (some ▸ nofun)⟩

theorem expand_line_unmarked (lookup : Lookup) {name args : Text} (noBrace : (0x7b : UInt8) ∉ name)
    (noColon : ascii ':' ∉ args) :
    expandLine lookup (name ++ Token.spaced args) = name ++ Token.spaced args := by
  refine Segment.expand_unmarked _ ?_ _
  intro u part
  by_contra found
  obtain ⟨inside, rfl, colon⟩ := braced_colon found
  obtain ⟨front, same⟩ := part
  rcases List.append_eq_append_iff.mp same with ⟨more, rfl, rest⟩ | ⟨more, rfl, rest⟩
  · -- In the name there is no brace, and the arguments do not begin with one.
    cases more with
    | nil =>
        unfold Token.spaced at rest
        split at rest
        · cases rest
        · exact absurd (List.cons.inj rest).1 (by decide)
    | cons b more =>
        obtain ⟨rfl, -⟩ := List.cons.inj rest
        exact noBrace (by simp)
  · have among : ascii ':' ∈ Token.spaced args := by
      rw [rest]
      exact List.mem_append_right _ (List.mem_cons_of_mem _ colon)
    unfold Token.spaced at among
    split at among
    · cases among
    · rcases List.mem_cons.mp among with space | inArgs
      · exact absurd space (by decide)
      · exact noColon inArgs

end Placeholder

/-! Variables are filled in only where there is a dollar sign. -/

theorem braced_reference_dollar {u : Text} (found : bracedReference? u ≠ none) : ascii '$' ∈ u := by
  obtain ⟨read, braced⟩ := Option.ne_none_iff_exists'.mp found
  obtain ⟨inside, opened, -⟩ := Option.bind_eq_some_iff.mp braced
  rw [Token.drop_start_iff.mp opened]
  simp

theorem bare_reference_dollar {u : Text} (found : bareReference? u ≠ none) : ascii '$' ∈ u := by
  obtain ⟨read, bare⟩ := Option.ne_none_iff_exists'.mp found
  obtain ⟨inside, opened, -⟩ := Option.bind_eq_some_iff.mp bare
  rw [Token.drop_start_iff.mp opened]
  simp

theorem references_plain {t : Text} (plain : ascii '$' ∉ t) :
    references t = if t = [] then [] else [.literal t] := by
  have braced := Segment.cut_unmarked t fun u part =>
    by_contra fun found => plain (part.mem (braced_reference_dollar found))
  have bare := Segment.cut_unmarked t fun u part =>
    by_contra fun found => plain (part.mem (bare_reference_dollar found))
  unfold references
  rw [braced]
  split
  · rfl
  · next some => simpa [some] using bare

namespace Value

theorem interpolate_plain {t : Text} (plain : ascii '$' ∉ t) (vars : Vars) :
    (Value.text t).interpolate vars = .text t := by
  have same : DeviceScript.interpolate vars t = t := by
    unfold DeviceScript.interpolate
    rw [references_plain plain]
    split
    · next none => exact none.symm
    · simp [Segment.expand]
  exact congrArg Value.text same

theorem missing_plain {t : Text} (plain : ascii '$' ∉ t) (vars : Vars) :
    (Value.text t).missingVars vars = [] := by
  show DeviceScript.missingVars vars t = []
  unfold DeviceScript.missingVars
  rw [references_plain plain]
  split
  · rfl
  · simp [Segment.what?]

end Value

namespace Library

section OneLine

variable {s : CompileSettings} {line : Text} {tokens : List Token} (oneLine : newline ∉ line)
variable (unmarked : Placeholder.expandLine s.lookup line = line)
variable (read : Token.lineTokens? s.schema.vocabulary line 1 = some tokens)

include oneLine unmarked read

theorem tokens_one_line : s.tokens? line = some tokens := by
  have whole : lines line = [line] := split_on_clean newline line oneLine
  unfold CompileSettings.tokens?
  rw [whole]
  simp [unmarked, read]

variable (t : FileTree) (l : Library) (name : Text)

theorem compile_one_line_error {fault : Fault}
    (refused : (assemble ⟨s.schema, t.absolute name, some [line], s.lenient⟩ tokens).result =
      .error fault) : (compileText s t l name line).result = .error (.fault fault) := by
  have whole : lines line = [line] := split_on_clean newline line oneLine
  rw [compile_text_eq]
  unfold CompileSettings.compileSource withInclusions
  simp only [tokens_one_line oneLine unmarked read, whole, refused]

/-- The script of a line that includes nothing is what its tokens come to. -/
theorem compile_one_line {script : Script}
    (assembled : (assemble ⟨s.schema, t.absolute name, some [line], s.lenient⟩ tokens).result =
      .ok script) (alone : script.inclusions = []) (plain : ∀ i ∈ script.code, i.op ≠ .inclusion) :
    (compileText s t l name line).result = .ok script := by
  have whole : lines line = [line] := split_on_clean newline line oneLine
  have code : ∀ is : List Instruction, (∀ i ∈ is, i.op ≠ .inclusion) →
      is.mapM (CompileSettings.link []) = some is := by
    intro is each
    induction is with
    | nil => rfl
    | cons i rest ih =>
        have here : CompileSettings.link [] i = some i := if_neg (each i List.mem_cons_self)
        rw [List.mapM_cons, here, ih fun j later => each j (List.mem_cons_of_mem i later)]
        rfl
  have linked : s.linked t script = .ok script := by
    obtain ⟨path, is, sections, inclusions⟩ := script
    obtain rfl : inclusions = [] := alone
    unfold CompileSettings.linked
    simp only [List.mapM_nil, pure, Except.pure, code is plain]
  rw [compile_text_eq]
  unfold CompileSettings.compileSource withInclusions
  simp only [tokens_one_line oneLine unmarked read, whole, assembled, linked]
  unfold chainBound fetchInclusions
  simp only [alone]
  rfl

end OneLine
end Library

end DeviceScript

import DeviceScript.Library.Basic
import DeviceScript.Proofs.Files.Clean
import DeviceScript.Proofs.Source.Linkage
import DeviceScript.Proofs.Token.Forms

/-!
The inclusions of a compiled script. Whatever the schema, an instruction that includes is one that
a line of the source asks for; the script records it, and compiling puts the clean path of a
recorded inclusion in the place of what was written.
-/

namespace DeviceScript

open Text

/-- Every instruction that includes has the path of a recorded inclusion for its operand, and such
paths are clean. -/
structure Script.Resolved (script : Script) : Prop where
  paths : ∀ e ∈ script.inclusions, Path.IsClean e.resolved
  operands : ∀ i ∈ script.code, i.op = .inclusion →
    ∃ e ∈ script.inclusions, i.params = [.text e.resolved]

theorem statement_head_mem {tokens : List Token} {s : Statement} (member : s ∈ statements tokens) :
    s.head ∈ tokens := by
  induction tokens generalizing s with
  | nil => cases member
  | cons head rest ih =>
      unfold statements at member
      split at member
      · rw [List.mem_singleton.mp member]
        simp
      · next following others cutting =>
          rw [cutting] at ih
          split at member
          · rcases List.mem_cons.mp member with rfl | later
            · simp
            · exact List.mem_cons_of_mem head (ih later)
          · rcases List.mem_cons.mp member with rfl | later
            · simp
            · exact List.mem_cons_of_mem head (ih (List.mem_cons_of_mem following later))

theorem of_word_kind (w : Text) (n : Int) : (Token.ofWord w n).kind ≠ .operation := by
  unfold Token.ofWord
  repeat' split
  all_goals exact nofun

/-- A line that begins with the name of an inclusion is one, whatever operations there are. -/
theorem line_tokens_plain {v : Vocabulary} {line : Text} {n : Int} {tokens : List Token}
    (read : Token.lineTokens? v line n = some tokens) :
    ∀ t ∈ tokens, t.kind = .operation → t.text ≠ ofString "include" := by
  have argument {rest : Text} : ∀ t ∈ Token.arguments rest n, t.kind ≠ .operation := by
    intro t member
    obtain ⟨w, -, rfl⟩ := List.mem_map.mp member
    exact of_word_kind w n
  unfold Token.lineTokens? at read
  generalize dropRightWhile (· == 13) line = line at read
  simp only at read
  split at read
  · cases read
    exact nofun
  · repeat' split at read
    all_goals cases read
    all_goals intro t member kind
    all_goals rcases List.mem_cons.mp member with rfl | later
    all_goals first
      | exact absurd kind (argument t later)
      | cases kind
      | cases later
    · rename_i none _ _ _ _ _ _ _ found
      exact Token.operation_line_name found (Option.eq_none_iff_forall_ne_some.mpr none)

namespace Assembly

variable {c : AssemblyContext} {a b : Assembly} {s : Statement}

/-- Instructions that include are recorded, and none of them waits for a terminator. -/
structure Recorded (a : Assembly) : Prop where
  code : ∀ (index : Nat) (i : Instruction), a.script.code[index]? = some i → i.op = .inclusion →
    ∃ e ∈ a.script.inclusions, i.params = [.text e.raw]
  blocks : ∀ b ∈ a.blocks, ∃ i, a.script.code[b.instruction]? = some i ∧ i.op ≠ .inclusion

theorem start_recorded (file : Text) : Recorded (start file) := ⟨nofun, nofun⟩

theorem adds_recorded (plain : ¬ s.Shadows) (adds : Adds a b s) (recorded : Recorded a) :
    Recorded b := by
  have kept {i : Instruction} : (∃ e ∈ a.script.inclusions, i.params = [.text e.raw]) →
      ∃ e ∈ b.script.inclusions, i.params = [.text e.raw] := by
    rintro ⟨e, member, params⟩
    exact ⟨e, adds.inclusions e member, params⟩
  rcases adds.code with same | ⟨new, more, -, named⟩
  · constructor
    · intro index i found op
      exact kept (recorded.code index i (same ▸ found) op)
    · rw [adds.blocks, same]
      exact recorded.blocks
  · constructor
    · intro index i found op
      rw [more] at found
      by_cases old : index < a.script.code.length
      · rw [List.getElem?_append_left old] at found
        exact kept (recorded.code index i found op)
      · rw [List.getElem?_append_right (Nat.le_of_not_lt old)] at found
        obtain rfl := List.mem_singleton.mp (List.mem_of_getElem? found)
        exact named plain op
    · intro block waiting
      rw [adds.blocks] at waiting
      obtain ⟨i, found, op⟩ := recorded.blocks block waiting
      refine ⟨i, ?_, op⟩
      rw [more, List.getElem?_append_left (List.getElem?_eq_some_iff.mp found).1]
      exact found

/-- A keyword adds no inclusion, and the instruction that it completes is none either. -/
theorem extended_recorded {previous : Option Nat} (kind : KeywordKind) (line : Int)
    (params : List Value) (recorded : Recorded a)
    (completes : ∀ index, previous = some index →
      ∃ i, a.script.code[index]? = some i ∧ i.op ≠ .inclusion) :
    ∀ (index : Nat) (j : Instruction),
      (a.extended previous line kind.opcode params)[index]? = some j → j.op = .inclusion →
      ∃ e ∈ a.script.inclusions, j.params = [.text e.raw] := by
  intro index j found op
  by_cases old : index < a.script.code.length
  · obtain ⟨i, stood⟩ : ∃ i, a.script.code[index]? = some i := ⟨_, List.getElem?_eq_getElem old⟩
    by_cases chosen : previous = some index
    · subst chosen
      obtain ⟨other, again, never⟩ := completes index rfl
      rw [extended_previous a line kind.opcode params again] at found
      cases found
      exact absurd op never
    · rw [extended_other a previous line kind.opcode params stood chosen] at found
      cases found
      exact recorded.code index _ stood op
  · have last : index = a.script.code.length := by
      have within := (List.getElem?_eq_some_iff.mp found).1
      rw [extended_length] at within
      omega
    subst last
    rw [extended_new] at found
    cases found
    exact absurd op (keyword_opcode_ne_inclusion kind)

theorem meets_recorded {kw : KeywordSpec} {previous : Option Nat} {loopLine : Option Int}
    {r : Option Rejection} (recorded : Recorded a)
    (completes : ∀ index, previous = some index →
      ∃ i, a.script.code[index]? = some i ∧ i.op ≠ .inclusion)
    (meets : Meets c a kw s previous loopLine b r) (goesOn : ∀ fault, r ≠ some (.fatal fault)) :
    Recorded b := by
  have waiting params : ∀ block ∈ a.blocks, ∃ i,
      (a.extended previous s.line kw.kind.opcode params)[block.instruction]? = some i ∧
        i.op ≠ .inclusion := by
    intro block among
    obtain ⟨i, found, op⟩ := recorded.blocks block among
    obtain ⟨j, still, -, same, -⟩ :=
      extended_longer a previous s.line kw.kind.opcode params block.instruction i found
    exact ⟨j, still, same ▸ op⟩
  cases meets with
  | fatal _ fault => exact absurd rfl (goesOn fault)
  | outside => exact ⟨extended_recorded _ _ _ recorded completes, waiting []⟩
  | taken params opens _ waits =>
      refine ⟨extended_recorded _ _ _ recorded completes, ?_⟩
      intro block among
      rcases List.mem_append.mp among with own | outer
      · rcases waits with ⟨none, -⟩ | ⟨ends, opened⟩
        · simp [none] at own
        · obtain rfl := List.mem_singleton.mp (opened ▸ own)
          exact ⟨_, extended_new a previous s.line kw.kind.opcode params,
            keyword_opcode_ne_inclusion kw.kind⟩
      · exact waiting params block outer

theorem take_recorded (plain : ¬ s.Shadows) {r : Option Rejection} (recorded : Recorded a)
    (taken : a.take c s = (b, r)) (goesOn : ∀ fault, r ≠ some (.fatal fault)) : Recorded b := by
  cases take_moves taken with
  | skipped => exact recorded
  | simple _ _ adds => exact adds_recorded plain adds recorded
  | begins _ _ _ _ _ meets => exact meets_recorded recorded (by simp) meets goesOn
  | continues _ block outer _ _ _ _ blocks meets =>
      have left : Recorded { a with blocks := outer } :=
        ⟨recorded.code, fun b member => recorded.blocks b (by simp [blocks, member])⟩
      refine meets_recorded left ?_ meets goesOn
      rintro _ ⟨⟩
      exact recorded.blocks block (by simp [blocks])

theorem run_recorded {ss : List Statement} (plain : ∀ s ∈ ss, ¬ s.Shadows) {lastLine : Int}
    {script : Script} (start : Recorded a) (ended : (run c lastLine a ss).result = .ok script) :
    ∀ i ∈ script.code, i.op = .inclusion → ∃ e ∈ script.inclusions, i.params = [.text e.raw] := by
  obtain ⟨b, recorded, -, rfl, -⟩ := run_keeps (P := Recorded)
    (fun _ s _ member recorded taken => take_recorded (plain s member) recorded taken nofun)
    (fun _ s _ _ member recorded rejected =>
      have kept := take_recorded (plain s member) recorded rejected nofun
      ⟨kept.code, kept.blocks⟩)
    (fun _ s _ _ member recorded rejected =>
      ⟨(take_recorded (plain s member) recorded rejected nofun).code, nofun⟩)
    start ended
  intro i member op
  obtain ⟨index, found⟩ := List.mem_iff_getElem?.mp member
  exact recorded.code index i found op

end Assembly

namespace CompileSettings

variable {s : CompileSettings} {t : FileTree}

theorem tokens_plain {source : Text} {tokens : List Token} (read : s.tokens? source = some tokens) :
    ∀ u ∈ tokens, u.kind = .operation → u.text ≠ ofString "include" := by
  unfold tokens? at read
  obtain ⟨parts, all, rfl⟩ := Option.map_eq_some_iff.mp read
  intro u member
  obtain ⟨part, among, within⟩ := List.mem_flatten.mp member
  obtain ⟨read, here, rfl⟩ := mem_of_forall₂ (mapM_some all) part among
  obtain ⟨i, within', same⟩ := List.mem_mapIdx.mp here
  exact line_tokens_plain same u within

theorem resolve_is_clean {file path : Text} {i : Inclusion}
    (found : s.resolve t file i = .ok path) : Path.IsClean path := by
  unfold resolve at found
  split at found
  · cases found
  · split at found
    · cases found
      exact Path.absolute_is_clean t.cwd _
    · cases found

theorem link_recorded {inclusions : List Inclusion} {i : Instruction}
    (recorded : i.op = .inclusion → ∃ e ∈ inclusions, i.params = [.text e.raw]) :
    ∃ j, link inclusions i = some j ∧
      (j.op = .inclusion → ∃ e ∈ inclusions, j.params = [.text e.resolved]) := by
  unfold link
  split
  · next op =>
      obtain ⟨e, member, params⟩ := recorded op
      obtain ⟨found, first⟩ : ∃ found,
          inclusions.reverse.find? (fun inc => inc.raw == e.raw) = some found :=
        Option.isSome_iff_exists.mp (List.find?_isSome.mpr ⟨e, by simpa using member, by simp⟩)
      rw [params]
      refine ⟨_, rfl, fun _ => ⟨found, ?_, by simp [first]⟩⟩
      simpa using List.mem_of_find?_eq_some first
  · next other => exact ⟨i, rfl, fun op => absurd op other⟩

section Linked

variable {script : Script} (recorded : ∀ i ∈ script.code, i.op = .inclusion →
  ∃ e ∈ script.inclusions, i.params = [.text e.raw])

include recorded

theorem linked_cases :
    (∃ out, s.linked t script = .ok out ∧ out.Resolved) ∨
      ∃ fault, s.linked t script = .error (.fault fault) := by
  unfold linked
  simp only
  cases resolved : script.inclusions.mapM fun inc =>
      (s.resolve t script.path inc).map fun path => { inc with resolved := path } with
  | error fault => exact .inr ⟨fault, rfl⟩
  | ok inclusions =>
      have pairs := mapM_ok resolved
      -- Resolving changes no written path, so that every instruction still finds its record.
      have known : ∀ i ∈ script.code, i.op = .inclusion →
          ∃ e ∈ inclusions, i.params = [.text e.raw] := by
        intro i member op
        obtain ⟨e, among, params⟩ := recorded i member op
        obtain ⟨found, kept, same⟩ := mem_of_forall₂ pairs.flip e among
        obtain ⟨path, -, rfl⟩ := map_ok_exists same
        exact ⟨_, kept, params⟩
      simp only
      cases all : script.code.mapM (link inclusions) with
      | none =>
          obtain ⟨i, member, none⟩ := mapM_none all
          obtain ⟨j, linked, -⟩ := link_recorded (known i member)
          rw [none] at linked
          cases linked
      | some code =>
          refine .inl ⟨_, rfl, ?_, ?_⟩
          · intro e member
            obtain ⟨written, -, same⟩ := mem_of_forall₂ pairs e member
            obtain ⟨path, found, rfl⟩ := map_ok_exists same
            exact resolve_is_clean found
          · intro j member
            obtain ⟨i, among, same⟩ := mem_of_forall₂ (mapM_some all) j member
            obtain ⟨k, again, operand⟩ := link_recorded (known i among)
            rw [same] at again
            cases again
            exact operand

end Linked

/-- The ways to compile a source: it breaks off at a line without tokens, has a fault, or becomes a
script whose inclusions are resolved. -/
theorem compile_source_cases (s : CompileSettings) (t : FileTree) (path source : Text) :
    s.tokens? source = none ∧ (s.compileSource t path source).1 = .error .crash ∨
      s.tokens? source ≠ none ∧
        ((∃ fault, (s.compileSource t path source).1 = .error (.fault fault)) ∨
          ∃ script, (s.compileSource t path source).1 = .ok script ∧ script.Resolved) := by
  unfold compileSource
  cases read : s.tokens? source with
  | none => exact .inl ⟨rfl, rfl⟩
  | some tokens =>
      refine .inr ⟨nofun, ?_⟩
      simp only
      generalize (⟨s.schema, path, some (lines source), s.lenient⟩ : AssemblyContext) = c
      cases assembled : (assemble c tokens).result with
      | error fault => exact .inl ⟨fault, rfl⟩
      | ok script =>
          have plain : ∀ st ∈ statements tokens, ¬ st.Shadows := by
            rintro st member ⟨kind, name⟩
            exact tokens_plain read st.head (statement_head_mem member) kind name
          have recorded := Assembly.run_recorded plain (Assembly.start_recorded c.file) assembled
          rcases linked_cases (s := s) (t := t) recorded with
            ⟨out, linked, resolved⟩ | ⟨fault, broken⟩
          · simp only [linked]
            exact .inr ⟨out, rfl, resolved⟩
          · simp only [broken]
            exact .inl ⟨fault, rfl⟩

theorem compile_source_ends (s : CompileSettings) (t : FileTree) (path source : Text) :
    (s.compileSource t path source).1 ≠ .error .outOfFuel := by
  rcases s.compile_source_cases t path source with ⟨-, same⟩ | ⟨-, ⟨_, same⟩ | ⟨_, same, -⟩⟩
  all_goals simp [same]

theorem compile_source_resolved {path source : Text} {script : Script}
    (compiled : (s.compileSource t path source).1 = .ok script) : script.Resolved := by
  rcases s.compile_source_cases t path source with
    ⟨-, broke⟩ | ⟨-, ⟨_, broke⟩ | ⟨out, done, resolved⟩⟩
  · rw [broke] at compiled
    cases compiled
  · rw [broke] at compiled
    cases compiled
  · rw [done] at compiled
    cases compiled
    exact resolved

end CompileSettings
end DeviceScript

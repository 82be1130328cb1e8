import DeviceScript.Config.Basic
import DeviceScript.Proofs.Library.History
import DeviceScript.Proofs.Schema.Accepted
import DeviceScript.Proofs.Source.Lines

/-!
Texts that break the compilation. Lines are told apart before their placeholders are filled in, so
a value with a newline in it can leave a line that no form fits. Nothing else breaks a compilation:
without such values it comes to a script or to a fault.
-/

namespace DeviceScript

open Text

theorem segment_written {α : Type} (find : Text → Option (α × Nat)) (skip : Nat) (t : Text) :
    ∀ part ∈ Segment.cutAfter find skip t, part.written ⊆ t := by
  induction t generalizing skip with
  | nil => simp [Segment.cutAfter]
  | cons b rest ih =>
      have later (skip : Nat) (part : Segment α) (member : part ∈ Segment.cutAfter find skip rest) :
          part.written ⊆ b :: rest :=
        List.subset_cons_of_subset b (ih skip part member)
      cases skip with
      | succ skip => exact later skip
      | zero =>
          unfold Segment.cutAfter
          split
          · next a width _ =>
              intro part member
              rcases List.mem_cons.mp member with rfl | member
              · exact List.take_subset width _
              · exact later _ part member
          · -- The octet joins the literal behind it, or becomes one.
            unfold Segment.consByte
            split
            · next literal others cutting =>
                have found := later 0
                rw [cutting] at found
                intro part member
                rcases List.mem_cons.mp member with rfl | member
                · exact List.cons_subset.mpr ⟨by simp, found (.literal literal) (by simp)⟩
                · exact found part (by simp [member])
            · intro part member
              rcases List.mem_cons.mp member with rfl | member
              · simp [Segment.written]
              · exact later 0 part member

namespace Placeholder

/-- A placeholder of the line, in braces, has a value with a newline in it. -/
def BreaksLine (lookup : Lookup) (line : Text) : Prop :=
  ∃ p written v, .mark p written ∈ Segment.cut braced? line ∧ p.value? lookup = some v ∧ newline ∈ v

theorem expand_line_newline {lookup : Lookup} {line : Text} (oneLine : newline ∉ line)
    (broken : newline ∈ expandLine lookup line) : BreaksLine lookup line := by
  obtain ⟨part, member, found⟩ := List.mem_flatMap.mp broken
  have clean : newline ∉ part.written := fun inside =>
    oneLine (segment_written braced? 0 line part member inside)
  cases part with
  | literal t => exact absurd found clean
  | mark p written =>
      cases value : p.value? lookup with
      | none =>
          rw [Segment.expand, value] at found
          exact absurd found clean
      | some v =>
          rw [Segment.expand, value] at found
          exact ⟨p, written, v, member, value, found⟩

end Placeholder

theorem line_tokens_none {v : Vocabulary} {line : Text} {n : Int}
    (none : Token.lineTokens? v line n = .none) : newline ∈ line := by
  by_contra oneLine
  rcases Token.line_tokens_cases v line n oneLine with blank | ⟨s, -, read⟩
  · rw [none] at blank
    cases blank
  · rw [none] at read
    cases read

namespace CompileSettings

variable {s : CompileSettings} {t : FileTree}

/-- A line of the source has no tokens once its placeholders are filled in. -/
def Breaks (s : CompileSettings) (source : Text) : Prop :=
  ∃ (i : Nat) (line : Text), (lines source)[i]? = some line ∧
    Token.lineTokens? s.schema.vocabulary (Placeholder.expandLine s.lookup line) (i + 1) = none

theorem breaks_line {source : Text} (breaks : s.Breaks source) :
    ∃ line ∈ lines source, Placeholder.BreaksLine s.lookup line := by
  obtain ⟨i, line, here, unread⟩ := breaks
  have member := List.mem_of_getElem? here
  exact ⟨line, member, Placeholder.expand_line_newline (lines_clean source line member)
    (line_tokens_none unread)⟩

theorem tokens_none_iff {source : Text} : s.tokens? source = none ↔ s.Breaks source := by
  unfold tokens?
  rw [Option.map_eq_none_iff]
  constructor
  · intro none
    obtain ⟨_, member, rfl⟩ := mapM_none none
    obtain ⟨i, within, unread⟩ := List.mem_mapIdx.mp member
    exact ⟨i, _, List.getElem?_eq_getElem within, unread⟩
  · rintro ⟨i, line, here, unread⟩
    refine Option.eq_none_iff_forall_ne_some.mpr fun parts all => ?_
    obtain ⟨within, rfl⟩ := List.getElem?_eq_some_iff.mp here
    have member : none ∈ (lines source).mapIdx fun i line => Token.lineTokens? s.schema.vocabulary
        (Placeholder.expandLine s.lookup line) (i + 1) :=
      List.mem_mapIdx.mpr ⟨i, within, unread⟩
    obtain ⟨part, -, read⟩ := mem_of_forall₂ (mapM_some all).flip _ member
    cases read

theorem compile_source_crash_iff {path source : Text} :
    (s.compileSource t path source).1 = .error .crash ↔ s.Breaks source := by
  rw [← tokens_none_iff]
  rcases s.compile_source_cases t path source with
    ⟨none, broke⟩ | ⟨some, ⟨fault, failed⟩ | ⟨script, done, -⟩⟩
  · simp [none, broke]
  · simp [some, failed]
  · simp [some, done]

theorem own_crash_iff {path : Text} :
    s.own t path = .error .crash ↔ ∃ source, t.read path = .ok source ∧ s.Breaks source := by
  unfold own
  cases t.read path with
  | error problem => simp
  | ok source => simp [compile_source_crash_iff]

end CompileSettings

theorem walk_crash {at' : Text → Except Breakdown Script} {fuel : Nat} {script : Script}
    {chain : List Text} (broke : walk at' fuel script chain = .error .crash) :
    ∃ q, Reaches (scriptAt at') script q ∧ at' q = .error .crash := by
  induction fuel generalizing script chain with
  | zero => cases broke
  | succ fuel ih =>
      obtain ⟨i, member, failed⟩ := forM_error broke
      rcases visit_error failed with
        ⟨-, told⟩ | ⟨-, ⟨e, missing, framed⟩ | ⟨child, e, found, below, framed⟩⟩
      · cases told
      · exact ⟨i.resolved, .direct member, framed_eq framed nofun ▸ missing⟩
      · obtain ⟨q, further, crash⟩ := ih (framed_eq framed nofun ▸ below)
        exact ⟨q, .through member (script_at_iff.mpr found) further, crash⟩

namespace Library

variable {s : CompileSettings} {t : FileTree} {l : Library}

theorem given_crash_iff {q : Text} :
    l.given s t q = .error .crash ↔
      l.get? q = none ∧ ∃ text, t.read q = .ok text ∧ s.Breaks text := by
  cases kept : l.get? q with
  | some x => simp [given_kept kept]
  | none => simp [given_own kept, CompileSettings.own_crash_iff]

/-- The source, or a file that it leads to and that is not kept, breaks. -/
def MeetsBreak (s : CompileSettings) (t : FileTree) (l : Library) (path source : Text) : Prop :=
  s.Breaks source ∨ ∃ script q text, (s.compileSource t path source).1 = .ok script ∧
    Reaches (scriptAt (l.given s t)) script q ∧
    l.get? q = none ∧ t.read q = .ok text ∧ s.Breaks text

theorem compile_text_error {name source : Text} {b : Breakdown}
    (broke : (s.compileSource t (t.absolute name) source).1 = .error b) :
    (compileText s t l name source).result = .error b := by
  rw [compile_text_eq, with_inclusions_error _ broke]
  exact broke

theorem compile_text_walk {name source : Text} {script : Script}
    (compiled : (s.compileSource t (t.absolute name) source).1 = .ok script) :
    (compileText s t l name source).result =
      (walk (l.given s t) (chainBound t l) script [t.absolute name]).map (fun _ => script) := by
  rw [compile_text_eq]
  exact (with_inclusions_ok _ compiled).1

theorem compile_text_ends (resolved : l.Resolved) (name source : Text) :
    (compileText s t l name source).result ≠ .error .outOfFuel := by
  rw [compile_text_eq]
  refine with_inclusions_ends _ resolved ?_ (s.compile_source_ends t _ source)
  intro x compiled
  exact CompileSettings.compile_source_resolved compiled

theorem compile_text_crash {name source : Text}
    (broke : (compileText s t l name source).result = .error .crash) :
    MeetsBreak s t l (t.absolute name) source := by
  cases compiled : (s.compileSource t (t.absolute name) source).1 with
  | error b =>
      rw [compile_text_error compiled] at broke
      cases broke
      exact .inl (CompileSettings.compile_source_crash_iff.mp compiled)
  | ok script =>
      rw [compile_text_walk compiled] at broke
      cases walked : walk (l.given s t) (chainBound t l) script [t.absolute name] with
      | ok u => simp [walked, Except.map] at broke
      | error b =>
          rw [walked] at broke
          cases broke
          obtain ⟨q, reaches, crash⟩ := walk_crash walked
          obtain ⟨absent, text, read, breaks⟩ := given_crash_iff.mp crash
          exact .inr ⟨script, q, text, compiled, reaches, absent, read, breaks⟩

/-- No script comes of a text that meets a break, whether or not a fault is met before. -/
theorem compile_text_meets {name source : Text}
    (meets : MeetsBreak s t l (t.absolute name) source) (script : Script) :
    (compileText s t l name source).result ≠ .ok script := by
  rcases meets with breaks | ⟨start, q, text, compiled, reaches, absent, read, breaks⟩
  · simp [compile_text_error (CompileSettings.compile_source_crash_iff.mpr breaks)]
  · intro done
    rw [compile_text_walk compiled] at done
    obtain ⟨⟨⟩, walked, -⟩ := map_ok_exists done
    obtain ⟨x, found⟩ := (walk_ok walked reaches).2.1
    rw [given_crash_iff.mpr ⟨absent, text, read, breaks⟩] at found
    cases found

end Library

theorem OperationSpec.InSlots.flag {op : OperationSpec} (slots : op.InSlots) {label : Text}
    {p : ParamSpec} (named : op.param? label = some p) :
    ∃ slot : Nat, slot < op.params.length ∧ p.position = slot := by
  obtain ⟨slot, within, here⟩ := List.mem_iff_getElem.mp (List.mem_of_find?_eq_some named)
  exact ⟨slot, within, slots slot p (List.getElem?_eq_some_iff.mpr ⟨within, here⟩)⟩

/-- What compiling a text comes to, with any files and a library that any calls have left behind:
a script, a fault, or a crash. It crashes if a line of the text has no tokens once its placeholders
are filled in, and only if such a line is met there or in a file that the text leads to. A value
with a newline in it has been filled in on such a line, so where no value has one nothing crashes.
The flags of an accepted schema all name slots that there are. -/
theorem compile_text_outcome (s : CompileSettings) (past : List (FileTree × Call)) (t : FileTree)
    (name source : Text) :
    let l := Library.empty.after s past
    let done := Library.compileText s t l name source
    ((∃ script, done.result = .ok script) ∨ (∃ f, done.result = .error (.fault f)) ∨
      done.result = .error .crash) ∧
    (s.Breaks source → done.result = .error .crash) ∧
    (done.result = .error .crash → Library.MeetsBreak s t l (t.absolute name) source) ∧
    (Library.MeetsBreak s t l (t.absolute name) source → ∀ script, done.result ≠ .ok script) ∧
    (∀ text, s.Breaks text → ∃ line ∈ lines text, Placeholder.BreaksLine s.lookup line) ∧
    ((∀ sectionName name value, s.lookup sectionName name = some value → newline ∉ value) →
      done.result ≠ .error .crash) ∧
    (∀ written, Schema.load written = .ok s.schema → ∀ op ∈ s.schema.operations, ∀ label p,
      op.param? label = some p → ∃ slot : Nat, slot < op.params.length ∧ p.position = slot) := by
  intro l done
  have resolved : l.Resolved := Library.after_resolved past Library.empty_resolved
  have crash : done.result = .error .crash → Library.MeetsBreak s t l (t.absolute name) source :=
    Library.compile_text_crash
  refine ⟨?_, ?_, crash, Library.compile_text_meets, ?_, ?_, ?_⟩
  · cases ended : done.result with
    | ok script => exact .inl ⟨script, rfl⟩
    | error b =>
        cases b with
        | fault f => exact .inr (.inl ⟨f, rfl⟩)
        | crash => exact .inr (.inr rfl)
        | outOfFuel => exact absurd ended (Library.compile_text_ends resolved name source)
  · intro breaks
    exact Library.compile_text_error (CompileSettings.compile_source_crash_iff.mpr breaks)
  · intro text breaks
    exact CompileSettings.breaks_line breaks
  · intro oneLine broke
    -- Whatever text it was that broke, a placeholder on one of its lines stands for two lines.
    have broken : ∃ text, s.Breaks text := by
      rcases crash broke with breaks | ⟨_, _, text, -, -, -, -, breaks⟩
      · exact ⟨source, breaks⟩
      · exact ⟨text, breaks⟩
    obtain ⟨text, breaks⟩ := broken
    obtain ⟨line, -, p, _, v, -, value, inside⟩ := CompileSettings.breaks_line breaks
    exact oneLine p.sectionName p.name v value inside
  · intro written accepted op member label p named
    exact (Schema.accepted_operation accepted op member).2.flag named

def brokenValue : Config :=
  { Config.standard with sections := [("A", [("x", "a\nb")])] }

def noteSchema : Schema := ⟨[⟨"note", .positional, []⟩], []⟩

/-- The value stands where a line is read: no form fits it, not even that of a command. -/
theorem broken_value_crashes :
    Config.read "[A]\nx = \"a\\nb\"" = .ok brokenValue ∧
      Schema.load "operations:\n  note:\n" = .ok noteSchema ∧
      (Library.compileText ⟨noteSchema, brokenValue.lookup, false, []⟩ (FileTree.empty []) .empty
        "m.dts" "\x7bA:x\x7d").result = .error .crash := by
  refine ⟨by decide +kernel, by decide +kernel, Library.compile_text_error ?_⟩
  rw [CompileSettings.compile_source_crash_iff]
  have names : noteSchema.vocabulary = ⟨["note"], []⟩ := by
    simp +decide [Schema.vocabulary, Schema.operationNames, Schema.keywordNames, noteSchema]
  refine ⟨0, "\x7bA:x\x7d", by decide +kernel, ?_⟩
  simp only [names]
  decide +kernel

end DeviceScript

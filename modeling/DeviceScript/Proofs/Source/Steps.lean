import DeviceScript.Proofs.Grammar.Taking

/-!
One statement at a time, whatever keywords and operations a schema has. A statement is skipped as
it stands, adds an instruction of its own, or is a keyword that begins or goes on with a block.
-/

namespace DeviceScript

open Text

/-- The shape of a keyword ends with the terminators of a block. -/
def KeywordSpec.Waits (kw : KeywordSpec) : Prop :=
  kw.flow.getLast?.any FlowElem.isTerminatorSet = true

/-- The name of the operation that would be taken for an inclusion. -/
def Statement.Shadows (s : Statement) : Prop :=
  s.head.kind = .operation ∧ s.head.text = ofString "include"

theorem opcode_of_inclusion {name : Text} (same : Opcode.ofName name = .inclusion) :
    name = ofString "include" := by
  unfold Opcode.ofName at same
  cases found : Opcode.reserved.find? fun op => op.name == name with
  | none => simp [found] at same
  | some op =>
      simp only [found, Option.getD_some] at same
      have named := List.find?_some found
      rw [same] at named
      exact (beq_iff_eq.mp named).symm

theorem keyword_opcode_ne_inclusion (kind : KeywordKind) : kind.opcode ≠ .inclusion := by
  cases kind <;> simp [KeywordKind.opcode]

theorem add_inclusion_mem (s : Script) (i : Inclusion) :
    (∀ e ∈ s.inclusions, e ∈ (s.addInclusion i).inclusions) ∧
      ∃ e ∈ (s.addInclusion i).inclusions, e.raw = i.raw := by
  unfold Script.addInclusion
  by_cases known :
      (s.inclusions.any fun e => e.raw == i.raw && e.sectionName == i.sectionName) = true
  · rw [if_pos known]
    obtain ⟨e, member, same⟩ := List.any_eq_true.mp known
    simp only [Bool.and_eq_true, beq_iff_eq] at same
    exact ⟨fun _ member => member, e, member, same.1⟩
  · rw [if_neg known]
    constructor
    · intro e member
      exact List.mem_append_left _ member
    · exact ⟨i, by simp, rfl⟩

theorem flow_ends_open {flow : List FlowElem}
    (nothing : (match flow with | .body :: rest => rest | rest => rest) = []) :
    flow.getLast?.any FlowElem.isTerminatorSet = false := by
  split at nothing
  · simp [nothing, FlowElem.isTerminatorSet]
  · simp [nothing]

namespace Assembly

variable {c : AssemblyContext}

/-- What a statement that is no keyword adds: nothing, or an instruction on its own line. An
inclusion is recorded with the script. -/
structure Adds (a b : Assembly) (s : Statement) : Prop where
  blocks : b.blocks = a.blocks
  skipped : b.skipped = a.skipped
  inclusions : ∀ e ∈ a.script.inclusions, e ∈ b.script.inclusions
  code : b.script.code = a.script.code ∨
    ∃ i : Instruction, b.script.code = a.script.code ++ [i] ∧ i.line = s.line ∧
      (¬ s.Shadows → i.op = .inclusion → ∃ e ∈ b.script.inclusions, i.params = [.text e.raw])

theorem call_adds (a : Assembly) {s : Statement} {spec : OperationSpec} (params : List Value)
    (kind : s.head.kind = .operation) (known : c.schema.operation? s.head.text = some spec) :
    Adds a (a.emit s.head.line (Opcode.ofName spec.name) params) s where
  blocks := rfl
  skipped := rfl
  inclusions _ member := member
  code := by
    refine .inr ⟨_, rfl, rfl, ?_⟩
    intro plain shadowed
    have name : spec.name = s.head.text := by simpa using List.find?_some known
    exact absurd ⟨kind, name ▸ opcode_of_inclusion shadowed⟩ plain

theorem simple_adds {a b : Assembly} {s : Statement} (taken : a.simple c s = .ok b) :
    Adds a b s := by
  unfold Assembly.simple at taken
  cases kind : s.head.kind with
  | comment =>
      simp only [kind, Except.ok.injEq] at taken
      subst taken
      exact ⟨rfl, rfl, fun _ member => member, .inl rfl⟩
  | command =>
      simp only [kind, Except.ok.injEq] at taken
      subst taken
      exact ⟨rfl, rfl, fun _ member => member, .inr ⟨_, rfl, rfl, nofun⟩⟩
  | sectionName =>
      simp only [kind] at taken
      split at taken
      · cases taken
      · simp only [Except.ok.injEq] at taken
        subst taken
        have inclusions : (a.script.addSection s.head.text).inclusions = a.script.inclusions := by
          unfold Script.addSection
          split <;> rfl
        refine ⟨rfl, rfl, ?_, .inr ⟨_, congrArg (· ++ _) (add_section_code _ _), rfl, nofun⟩⟩
        intro e member
        exact inclusions ▸ member
  | inclusion =>
      simp only [kind] at taken
      split at taken
      · cases taken
      · split at taken
        · cases taken
        · simp only [Except.ok.injEq] at taken
          subst taken
          obtain ⟨kept, e, member, raw⟩ := add_inclusion_mem
            (a.emit s.head.line .inclusion [.text s.head.text]).script
            ⟨s.head.text, [], a.sectionName, s.head.line⟩
          refine ⟨rfl, rfl, kept, .inr ⟨_, add_inclusion_code _ _, rfl, ?_⟩⟩
          intro _ _
          exact ⟨e, member, by simp [raw]⟩
  | operation =>
      simp only [kind, Schema.resolve] at taken
      cases known : c.schema.operation? s.head.text with
      | none => simp [known] at taken
      | some spec =>
          simp only [known] at taken
          by_cases mode : spec.mode = .options
          · simp only [mode, ↓reduceIte] at taken
            cases read : s.options spec with
            | error located => simp [read] at taken
            | ok params =>
                simp only [read, Except.ok.injEq] at taken
                exact taken ▸ call_adds a params kind known
          · simp only [mode, ↓reduceIte] at taken
            cases read : s.positional spec with
            | error located => simp [read] at taken
            | ok params =>
                simp only [read, Except.ok.injEq] at taken
                exact taken ▸ call_adds a params kind known
  | _ => simp [kind] at taken

/-- What comes of a keyword that has been met. Its instruction is in the code in any case: one
that has no loop to go back to gives up the open blocks, and one that is taken may open a block of
its own. -/
inductive Meets (c : AssemblyContext) (a : Assembly) (kw : KeywordSpec) (s : Statement)
    (previous : Option Nat) (loopLine : Option Int) : Assembly → Option Rejection → Prop
  | fatal (b : Assembly) (fault : Fault) : Meets c a kw s previous loopLine b (some (.fatal fault))
  | outside (back : kw.backLink = true) (unknown : loopLine = none) :
      Meets c a kw s previous loopLine
        ((a.linked previous s.line).emit s.line kw.kind.opcode [])
        (some (.block (c.fault ⟨.outsideLoop kw.name, s.line⟩)))
  | taken (params : List Value) (opens : List OpenBlock)
      (back : kw.backLink = true → ∃ line, loopLine = some line ∧ params.head? = some (.int line))
      (waits : opens = [] ∧ ¬ kw.Waits ∨ ∃ ends, opens =
        [⟨ends, a.script.code.length, if kw.kind = .loop then some s.line else loopLine⟩]) :
      Meets c a kw s previous loopLine
        { (a.linked previous s.line).emit s.line kw.kind.opcode params with
          blocks := opens ++ a.blocks } none

theorem keyword_meets {a b : Assembly} {kw : KeywordSpec} {s : Statement} {previous : Option Nat}
    {loopLine : Option Int} {r : Option Rejection}
    (met : a.keyword c kw s previous loopLine = (b, r)) :
    Meets c a kw s previous loopLine b r := by
  unfold keyword at met
  by_cases outside : (kw.backLink && loopLine.isNone) = true
  · simp only [outside, ↓reduceIte, Prod.mk.injEq] at met
    obtain ⟨rfl, rfl⟩ := met
    simp only [Bool.and_eq_true, Option.isNone_iff_eq_none] at outside
    exact .outside outside.1 outside.2
  · simp only [outside, Bool.false_eq_true, ↓reduceIte] at met
    have back (words : List Value) : kw.backLink = true → ∃ line, loopLine = some line ∧
        ((if kw.backLink = true then (loopLine.map Value.int).toList else []) ++ words).head? =
          some (.int line) := by
      intro link
      cases loopLine with
      | none => simp [link] at outside
      | some line => exact ⟨line, rfl, by simp [link]⟩
    -- Of the words that come first it only matters that they name the loop where one is to be
    -- named.
    generalize (if kw.backLink = true then (loopLine.map Value.int).toList else []) = start
      at met back
    split at met
    · next optional flow shape =>
        split at met
        · obtain ⟨rfl, rfl⟩ := Prod.mk.inj met
          exact .fatal _ _
        · next condition _ =>
            obtain ⟨taken, rfl⟩ := Prod.mk.inj met
            split at taken
            · next nothing =>
                subst taken
                refine .taken _ [] (back condition) (.inl ⟨rfl, ?_⟩)
                have last := flow_ends_open nothing
                rw [KeywordSpec.Waits, shape]
                cases flow with
                | nil => simp [FlowElem.isTerminatorSet]
                | cons first rest => simpa using last
            · subst taken
              exact .taken _ [_] (back condition) (.inr ⟨_, rfl⟩)
    · have alone := back []
      rw [List.append_nil] at alone
      split at met
      · obtain ⟨taken, rfl⟩ := Prod.mk.inj met
        split at taken
        · next nothing =>
            subst taken
            refine .taken _ [] alone (.inl ⟨rfl, ?_⟩)
            simpa [KeywordSpec.Waits] using flow_ends_open nothing
        · subst taken
          exact .taken _ [_] alone (.inr ⟨_, rfl⟩)
      · obtain ⟨rfl, rfl⟩ := Prod.mk.inj met
        exact .fatal _ _

/-- The ways to take a statement. -/
inductive Moves (c : AssemblyContext) (a : Assembly) (s : Statement) :
    Assembly → Option Rejection → Prop
  | skipped (fault : Fault) : Moves c a s a (some (.statement fault))
  | simple (b : Assembly) (other : s.head.kind ≠ .keyword) (adds : Adds a b s) : Moves c a s b none
  | begins (kw : KeywordSpec) (b : Assembly) (r : Option Rejection)
      (isKeyword : s.head.kind = .keyword) (known : c.schema.keyword? s.head.text = some kw)
      (meets : Meets c a kw s none none b r) : Moves c a s b r
  | continues (kw : KeywordSpec) (block : OpenBlock) (outer : List OpenBlock) (b : Assembly)
      (r : Option Rejection) (isKeyword : s.head.kind = .keyword)
      (known : c.schema.keyword? s.head.text = some kw) (blocks : a.blocks = block :: outer)
      (meets : Meets c { a with blocks := outer } kw s (some block.instruction) block.loopLine
        b r) :
      Moves c a s b r

theorem take_moves {a b : Assembly} {s : Statement} {r : Option Rejection}
    (taken : a.take c s = (b, r)) : Moves c a s b r := by
  unfold take at taken
  by_cases isKeyword : s.head.kind = .keyword
  · simp only [isKeyword, ↓reduceIte, Schema.resolve] at taken
    cases known : c.schema.keyword? s.head.text with
    | none =>
        simp only [known, Prod.mk.injEq] at taken
        obtain ⟨rfl, rfl⟩ := taken
        exact .skipped _
    | some kw =>
        simp only [known] at taken
        cases blocks : a.blocks with
        | nil =>
            simp only [blocks] at taken
            split at taken
            · exact .begins kw b r isKeyword known (keyword_meets taken)
            · obtain ⟨rfl, rfl⟩ := Prod.mk.inj taken
              exact .skipped _
        | cons block outer =>
            simp only [blocks] at taken
            split at taken
            · exact .continues kw block outer b r isKeyword known blocks (keyword_meets taken)
            · split at taken
              · exact .begins kw b r isKeyword known (keyword_meets taken)
              · obtain ⟨rfl, rfl⟩ := Prod.mk.inj taken
                exact .skipped _
  · simp only [isKeyword, ↓reduceIte] at taken
    cases read : a.simple c s with
    | error fault =>
        simp only [read, Prod.mk.injEq] at taken
        obtain ⟨rfl, rfl⟩ := taken
        exact .skipped fault
    | ok after =>
        simp only [read, Prod.mk.injEq] at taken
        obtain ⟨rfl, rfl⟩ := taken
        exact .simple after isKeyword (simple_adds read)

/-- What holds of an assembly at its start, and is kept by all that a statement can do to it, holds
of the one that a successful run ends with. -/
theorem run_keeps {P : Assembly → Prop} {ss : List Statement}
    (taken : ∀ a s b, s ∈ ss → P a → a.take c s = (b, none) → P b)
    (skipped : ∀ a s b fault, s ∈ ss → P a → a.take c s = (b, some (.statement fault)) →
      P { b with skipped := b.skipped ++ [fault] })
    (dropped : ∀ a s b fault, s ∈ ss → P a → a.take c s = (b, some (.block fault)) →
      P { b with blocks := [], skipped := b.skipped ++ [fault] })
    {lastLine : Int} {a : Assembly} {script : Script} (start : P a)
    (ended : (run c lastLine a ss).result = .ok script) :
    ∃ b, P b ∧ b.blocks = [] ∧ b.script = script ∧ b.skipped = (run c lastLine a ss).skipped := by
  induction ss generalizing a with
  | nil =>
      unfold run at ended ⊢
      cases blocks : a.blocks with
      | nil =>
          simp only [blocks, Except.ok.injEq] at ended
          exact ⟨a, start, blocks, ended, rfl⟩
      | cons block outer => simp [blocks] at ended
  | cons s rest ih =>
      have later := @ih (fun a t b member => taken a t b (List.mem_cons_of_mem s member))
        (fun a t b fault member => skipped a t b fault (List.mem_cons_of_mem s member))
        (fun a t b fault member => dropped a t b fault (List.mem_cons_of_mem s member))
      -- By what comes of the first statement; a fatal rejection hands out no script.
      rcases step : a.take c s with ⟨b, _ | fault | fault | fault⟩
      · simp only [run, step] at ended ⊢
        exact later (taken a s b (by simp) start step) ended
      · simp only [run, step] at ended ⊢
        split at ended
        · next lenient =>
            simp only [lenient, ↓reduceIte]
            exact later (skipped a s b fault (by simp) start step) ended
        · cases ended
      · simp only [run, step] at ended ⊢
        split at ended
        · next lenient =>
            simp only [lenient, ↓reduceIte]
            exact later (dropped a s b fault (by simp) start step) ended
        · cases ended
      · simp [run, step] at ended

end Assembly
end DeviceScript

import DeviceScript.Proofs.Source.Leniency
import DeviceScript.Proofs.Source.Linkage

/-!
Scripts of any accepted schema, strict or lenient. A script that is handed out is fully linked
exactly if no end of a loop outside of a loop was skipped on the way to it: such an end stays in
the code without the line of a loop. The fault of it is told apart from all others by how it begins.
-/

namespace DeviceScript

open Text

/-- The fault of the end of a loop that no loop is open for. -/
def AssemblyContext.TellsOutside (c : AssemblyContext) (f : Fault) : Prop :=
  ∃ name line, f = c.fault ⟨.outsideLoop name, line⟩

def Fault.initial? (f : Fault) : Option UInt8 := f.report?.bind fun r => r.text.head?

theorem name_initial {name text : Text} (named : isName name = true) (begins : name <+: text) :
    text.head? ≠ some (ascii '<') := by
  obtain ⟨rest, rfl⟩ := begins
  cases name with
  | nil => cases named
  | cons first others =>
      simp only [isName, Bool.and_eq_true] at named
      intro same
      simp only [List.cons_append, List.head?_cons, Option.some.injEq] at same
      rw [same] at named
      exact absurd named.1 (by decide)

namespace Statement

variable {s : Statement} {op : OperationSpec} {located : Located}

theorem argument_value_names {name : Text} {spec : ParamSpec} {t : Token}
    (refused : argumentValue name spec t = .error located) :
    name <+: located.problem.message := by
  unfold argumentValue at refused
  repeat' split at refused
  all_goals cases refused
  simp only [SyntaxProblem.message, List.append_assoc, List.prefix_append]

theorem positional_from_names (specs : List ParamSpec) (args : List Token)
    (refused : s.positionalFrom op specs args = .error located) :
    op.name <+: located.problem.message := by
  fun_induction s.positionalFrom op specs args with
  | case6 _ _ _ _ _ fault value =>
      cases refused
      exact argument_value_names value
  | case7 _ _ _ _ _ _ _ fault tail ih =>
      cases refused
      exact ih tail
  | case2 | case3 =>
      cases refused
      simp only [SyntaxProblem.message, List.append_assoc, List.prefix_append]
  | _ => cases refused

theorem options_from_names (args : List Token) (given : Given)
    (refused : s.optionsFrom op given args = .error located) :
    op.name <+: located.problem.message := by
  fun_induction s.optionsFrom op given args with
  | case1 => cases refused
  | case7 given flag mark label text isFlag spec known fresh arg args fault value =>
      cases refused
      exact argument_value_names value
  | case8 given flag mark label text isFlag spec known fresh arg args value read ih =>
      exact ih refused
  | _ =>
      cases refused
      simp only [SyntaxProblem.message, List.append_assoc, List.prefix_append]

theorem options_names (refused : s.options op = .error located) :
    op.name <+: located.problem.message := by
  unfold options at refused
  split at refused
  · rename_i fault read
    cases refused
    exact options_from_names s.args [] read
  · split at refused
    · cases refused
      simp only [SyntaxProblem.message, List.append_assoc, List.prefix_append]
    · cases refused

end Statement

namespace Assembly

variable {c : AssemblyContext} {ss : List Statement} {a b : Assembly} {s : Statement}
variable {fault : Fault}

/-- The instruction of a keyword that is met is in the code, so that its statement is not skipped
alone. -/
theorem keyword_never_skipped {kw : KeywordSpec} {previous : Option Nat} {loopLine : Option Int} :
    a.keyword c kw s previous loopLine ≠ (b, some (.statement fault)) := by
  intro met
  cases keyword_meets met

section Telling

variable (named : ∀ op ∈ c.schema.operations, isName op.name = true)

include named

theorem simple_initial (refused : a.simple c s = .error fault) :
    fault.initial? ≠ some (ascii '<') := by
  unfold Assembly.simple at refused
  cases kind : s.head.kind with
  | operation =>
      simp only [kind, Schema.resolve] at refused
      cases known : c.schema.operation? s.head.text with
      | none =>
          simp only [known, Except.error.injEq] at refused
          subst refused
          rintro ⟨⟩
      | some spec =>
          have isNamed := named spec (List.mem_of_find?_eq_some known)
          simp only [known] at refused
          by_cases mode : spec.mode = .options
          · simp only [mode, ↓reduceIte] at refused
            cases read : s.options spec with
            | error located =>
                simp only [read, Except.error.injEq] at refused
                subst refused
                exact name_initial isNamed (Statement.options_names read)
            | ok params => simp [read] at refused
          · simp only [mode, ↓reduceIte] at refused
            cases read : s.positional spec with
            | error located =>
                simp only [read, Except.error.injEq] at refused
                subst refused
                exact name_initial isNamed (Statement.positional_from_names _ _ read)
            | ok params => simp [read] at refused
  | _ =>
      simp only [kind] at refused
      repeat' split at refused
      all_goals cases refused
      all_goals rintro ⟨⟩

/-- A statement that is at fault alone is no end of a loop outside of a loop. -/
theorem skipped_tells_other (rejected : a.take c s = (b, some (.statement fault))) :
    ¬ c.TellsOutside fault := by
  have initial : fault.initial? ≠ some (ascii '<') := by
    unfold take at rejected
    split at rejected
    · next isKeyword =>
        simp only [Schema.resolve, isKeyword] at rejected
        cases known : c.schema.keyword? s.head.text with
        | none =>
            simp only [known, Prod.mk.injEq, Option.some.injEq,
              Rejection.statement.injEq] at rejected
            rw [← rejected.2]
            rintro ⟨⟩
        | some kw =>
            simp only [known] at rejected
            repeat' split at rejected
            all_goals first
              | exact absurd rejected keyword_never_skipped
              | cases rejected; rintro ⟨⟩
    · split at rejected
      · cases rejected
      · next read =>
          cases rejected
          exact simple_initial named read
  rintro ⟨name, line, rfl⟩
  exact initial rfl

end Telling

/-- What an assembly keeps: it is torn if it has skipped the end of a loop outside of a loop, and
wired otherwise. -/
def Accounted (c : AssemblyContext) (ss : List Statement) (a : Assembly) : Prop :=
  (∃ f ∈ a.skipped, c.TellsOutside f) ∧ (∃ index, TornAt c.schema ss a index) ∨
    (∀ f ∈ a.skipped, ¬ c.TellsOutside f) ∧ Wired c.schema ss a

theorem start_accounted (file : Text) : Accounted c ss (start file) := by
  refine .inr ⟨?_, ?_, ?_⟩
  all_goals simp [start, Script.empty]

theorem take_torn {r : Option Rejection} {index : Nat} (torn : TornAt c.schema ss a index)
    (taken : a.take c s = (b, r)) (goesOn : ∀ fault, r ≠ some (.fatal fault)) :
    TornAt c.schema ss b index := by
  cases take_moves taken with
  | skipped => exact torn
  | simple _ other adds => exact adds_torn adds torn
  | begins kw _ _ isKeyword known meets => exact meets_torn torn (by simp) meets goesOn
  | continues kw block outer _ _ isKeyword known blocks meets =>
      obtain ⟨i, back, found, written, link, empty, free⟩ := torn
      have left : TornAt c.schema ss { a with blocks := outer } index := by
        refine ⟨i, back, found, written, link, empty, ?_⟩
        intro other among
        exact free other (by simp [blocks, among])
      refine meets_torn left ?_ meets goesOn
      intro same
      exact free block (by simp [blocks]) (Option.some.inj same)

theorem take_wired (ascend : LinesAscend ss) (member : s ∈ ss) (wired : Wired c.schema ss a)
    (taken : a.take c s = (b, none)) : Wired c.schema ss b := by
  cases take_moves taken with
  | simple _ other adds => exact adds_wired ascend member other adds wired
  | begins kw _ _ isKeyword known meets =>
      exact ready_wired ascend member isKeyword known (wired_begins wired) meets
  | continues kw block outer _ _ isKeyword known blocks meets =>
      exact ready_wired ascend member isKeyword known (wired_continues wired blocks) meets

theorem dropped_torn (member : s ∈ ss) (rejected : a.take c s = (b, some (.block fault))) :
    c.TellsOutside fault ∧
      ∃ index,
        TornAt c.schema ss { b with blocks := [], skipped := b.skipped ++ [fault] } index := by
  cases take_moves rejected with
  | begins kw _ _ isKeyword known meets =>
      obtain ⟨told, torn⟩ := outside_torn ⟨s, member, isKeyword, known, rfl⟩ meets
      exact ⟨⟨_, _, told⟩, _, torn⟩
  | continues kw block outer _ _ isKeyword known blocks meets =>
      obtain ⟨told, torn⟩ := outside_torn ⟨s, member, isKeyword, known, rfl⟩ meets
      exact ⟨⟨_, _, told⟩, _, torn⟩

theorem run_accounted (named : ∀ op ∈ c.schema.operations, isName op.name = true)
    (ascend : LinesAscend ss) {lastLine : Int} {script : Script} (start : Accounted c ss a)
    (ended : (run c lastLine a ss).result = .ok script) :
    ∃ b, Accounted c ss b ∧ b.blocks = [] ∧ b.script = script ∧
      b.skipped = (run c lastLine a ss).skipped := by
  refine run_keeps ?_ ?_ ?_ start ended
  · intro a s b member accounted taken
    rw [Accounted, take_skipped taken]
    rcases accounted with ⟨told, index, torn⟩ | ⟨silent, wired⟩
    · exact .inl ⟨told, index, take_torn torn taken nofun⟩
    · exact .inr ⟨silent, take_wired ascend member wired taken⟩
  · intro a s b fault member accounted rejected
    cases take_moves rejected with
    | skipped =>
        rcases accounted with ⟨⟨f, among, told⟩, torn⟩ | ⟨silent, wired⟩
        · exact .inl ⟨⟨f, List.mem_append_left _ among, told⟩, torn⟩
        · refine .inr ⟨?_, wired.links, wired.blocks⟩
          intro f among
          rcases List.mem_append.mp among with before | new
          · exact silent f before
          · rw [List.mem_singleton.mp new]
            exact skipped_tells_other named rejected
    | begins _ _ _ _ _ meets => cases meets
    | continues _ _ _ _ _ _ _ _ meets => cases meets
  · intro a s b fault member accounted rejected
    obtain ⟨told, torn⟩ := dropped_torn member rejected
    exact .inl ⟨⟨fault, by simp, told⟩, torn⟩

theorem torn_not_linked {index : Nat} (torn : TornAt c.schema ss a index) :
    ¬ c.schema.FullyLinked ss a.script.code := by
  obtain ⟨i, kw, found, written, back, empty, -⟩ := torn
  intro linked
  obtain ⟨_, _, _, again, -, -, first⟩ := (linked index i kw found written).1 back
  rw [found] at again
  cases again
  rw [empty] at first
  cases first

theorem wired_linked (wired : Wired c.schema ss a) (closed : a.blocks = []) :
    c.schema.FullyLinked ss a.script.code := by
  intro index i kw found written
  obtain ⟨back, waits⟩ := wired.links index i kw found written
  refine ⟨back, ?_⟩
  intro ends
  rcases waits ends with on | ⟨block, among, -⟩
  · exact on
  · rw [closed] at among
    cases among

end Assembly

/-- Whatever the schema, a script that is handed out is fully linked exactly if no end of a loop
outside of a loop was skipped for it. Strict assembly skips nothing. -/
theorem handed_out_linked_iff {text : Text} {schema : Schema}
    (accepted : Schema.load text = .ok schema) (file source : Text) (quoted : Option (List Text))
    (lenient : Bool) :
    ∃ tokens, Token.sourceTokens? schema.vocabulary source = some tokens ∧
      ∀ script, (assemble ⟨schema, file, quoted, lenient⟩ tokens).result = .ok script →
        (schema.FullyLinked (statements tokens) script.code ↔
          ∀ f ∈ (assemble ⟨schema, file, quoted, lenient⟩ tokens).skipped,
            ¬ AssemblyContext.TellsOutside ⟨schema, file, quoted, lenient⟩ f) ∧
        (lenient = false → (assemble ⟨schema, file, quoted, lenient⟩ tokens).skipped = []) := by
  obtain ⟨tokens, read, same⟩ := source_tokens_statements schema.vocabulary source
  refine ⟨tokens, read, ?_⟩
  intro script ended
  have ascend : LinesAscend (statements tokens) := same ▸ source_statements_ascend _ source
  have named op (member : op ∈ schema.operations) :=
    (Schema.accepted_operation accepted op member).1
  obtain ⟨b, accounted, closed, rfl, skipped⟩ :=
    Assembly.run_accounted named ascend (Assembly.start_accounted file) ended
  have told : b.skipped = (assemble ⟨schema, file, quoted, lenient⟩ tokens).skipped := skipped
  constructor
  · rw [← told]
    -- Either such an end was skipped and has left a torn instruction, or all jumps are wired.
    rcases accounted with ⟨⟨f, among, tells⟩, index, torn⟩ | ⟨silent, wired⟩
    · constructor
      · intro linked
        exact absurd linked (Assembly.torn_not_linked torn)
      · intro silent
        exact absurd tells (silent f among)
    · constructor
      · intro _
        exact silent
      · intro _
        exact Assembly.wired_linked wired closed
  · rintro rfl
    obtain ⟨a, taken, done, -⟩ := (Assembly.run_strict_ok_iff rfl _ _ _ _).mp ended
    unfold assemble
    rw [Assembly.run_taken _ taken done, Assembly.taken_skipped taken]
    rfl

/-- A schema whose only block is ended by the end of a loop. -/
def strayEnds : Text :=
  "keywords:
  when:
    kind: if
    flow:
      - body
      - - until
  until:
    kind: until
    backlink: true
"

def strayEndsSchema : Schema :=
  ⟨[], [⟨"when", .ifBlock, [.body, .terminators ["until"]], false, true⟩,
    ⟨"until", .untilMet, [], true, false⟩]⟩

theorem stray_ends_accepted : Schema.load strayEnds = .ok strayEndsSchema := by decide +kernel

theorem stray_end_linked_iff :
    Schema.load strayEnds = .ok strayEndsSchema ∧
      ∃ tokens, Token.sourceTokens? strayEndsSchema.vocabulary "<when>\n<until>" = some tokens ∧
        ∀ script, (assemble ⟨strayEndsSchema, "c.dts", none, true⟩ tokens).result = .ok script →
          (strayEndsSchema.FullyLinked (statements tokens) script.code ↔
            ∀ f ∈ (assemble ⟨strayEndsSchema, "c.dts", none, true⟩ tokens).skipped,
              ¬ AssemblyContext.TellsOutside ⟨strayEndsSchema, "c.dts", none, true⟩ f) ∧
          (true = false → (assemble ⟨strayEndsSchema, "c.dts", none, true⟩ tokens).skipped = []) :=
  ⟨stray_ends_accepted,
    handed_out_linked_iff stray_ends_accepted "c.dts" "<when>\n<until>" none true⟩

/-- A lenient assembly hands out the end of a loop that goes back nowhere. -/
theorem stray_end_left_unlinked :
    Schema.load strayEnds = .ok strayEndsSchema ∧
      ∃ tokens, Token.sourceTokens? strayEndsSchema.vocabulary "<when>\n<until>" = some tokens ∧
        ∃ script, (assemble ⟨strayEndsSchema, "c.dts", none, true⟩ tokens).result = .ok script ∧
          ¬ strayEndsSchema.FullyLinked (statements tokens) script.code := by
  have names : strayEndsSchema.vocabulary = ⟨[], ["until", "when"]⟩ := by
    simp +decide [Schema.vocabulary, Schema.operationNames, Schema.keywordNames, strayEndsSchema,
      List.mergeSort, List.MergeSort.Internal.splitInTwo]
  refine ⟨stray_ends_accepted, [⟨.keyword, "when", 1⟩, ⟨.keyword, "until", 2⟩], ?_,
    ⟨"c.dts", [⟨1, .ifNotGoto, [.int 2]⟩, ⟨2, .untilMet, []⟩], [], []⟩, rfl, ?_⟩
  · rw [names]
    decide +kernel
  · intro linked
    have written : strayEndsSchema.WrittenAt
        (statements [⟨.keyword, "when", 1⟩, ⟨.keyword, "until", 2⟩])
        ⟨"until", .untilMet, [], true, false⟩ 2 := ⟨⟨⟨.keyword, "until", 2⟩, []⟩, by decide⟩
    obtain ⟨_, _, _, found, -, -, back⟩ := (linked 1 _ _ rfl written).1 rfl
    cases found
    cases back

end DeviceScript

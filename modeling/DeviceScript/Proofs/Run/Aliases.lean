import DeviceScript.Proofs.Library.OneLine
import DeviceScript.Proofs.Operation.Aliases
import DeviceScript.Proofs.Run.Devices
import DeviceScript.Proofs.Run.Policy
import DeviceScript.Proofs.Token.Arguments

/-!
Aliases from end to end: a line that begins with one is compiled to a call of it, and the call sends
the command of the alias with the words of the line. Not every name that is accepted gets through:
the machine keeps some for itself, and some are read as something else.
-/

namespace DeviceScript

open Text

variable {ω : Type}

/-! Words that mean themselves. -/

/-- A word without white space, quotes, backslashes, dollar signs and colons. -/
def PlainWord (w : Text) : Prop :=
  w ≠ [] ∧ ∀ b ∈ w, isBlankByte b = false ∧ ¬ Token.IsQuote b ∧ b ≠ backslash ∧ b ≠ ascii '$' ∧
    b ≠ ascii ':'

instance : DecidablePred PlainWord := fun w => @instDecidableAnd _ _ _ (List.decidableBAll _ w)

namespace PlainWord

theorem solid {w : Text} (plain : PlainWord w) : Token.Solid w where
  some := plain.1
  solid b member := (plain.2 b member).1
  bare b first := (plain.2 b (List.mem_of_mem_head? first)).2.1

theorem trimmed {w : Text} (plain : PlainWord w) : Trimmed w :=
  ⟨fun b first => (plain.2 b (List.mem_of_mem_head? first)).1,
    fun b last => (plain.2 b (List.mem_of_mem_getLast? last)).1⟩

theorem token_text {w : Text} (plain : PlainWord w) (n : Int) : (Token.ofWord w n).text = w :=
  (Token.of_word_unclosed (fun _ quote => Token.bare_unclosed plain.solid.bare quote) n).2

end PlainWord

section Words

variable {ws : List Text} (plain : ∀ w ∈ ws, PlainWord w)

include plain

theorem plain_words_trimmed : Trimmed (joinWith " " ws) :=
  Token.join_trimmed fun w member => ⟨(plain w member).1, (plain w member).trimmed⟩

theorem plain_words_free {b : UInt8} (space : b ≠ 32) (free : ∀ w, PlainWord w → b ∉ w) :
    b ∉ joinWith " " ws := by
  intro member
  rcases Token.join_mem member with same | ⟨w, among, inside⟩
  · exact space same
  · exact free w (plain w among) inside

theorem plain_words_read (n : Int) : (Token.arguments (joinWith " " ws) n).map Token.text = ws := by
  unfold Token.arguments
  rw [Token.words_join fun w member => .inl (plain w member).solid, List.map_map]
  exact (List.map_congr_left fun w member => (plain w member).token_text n).trans (List.map_id ws)

end Words

/-! The script of a line that begins with an alias. -/

theorem Opcode.of_name_inclusion {name : Text} (same : Opcode.ofName name = .inclusion) :
    name = "include" := by
  unfold Opcode.ofName at same
  cases found : Opcode.reserved.find? fun op => op.name == name with
  | none =>
      rw [found] at same
      cases same
  | some op =>
      rw [found] at same
      obtain rfl : op = .inclusion := same
      have own : Opcode.inclusion.name = name := by simpa using List.find?_some found
      exact own.symm

theorem Opcode.of_name_reserved {name : Text} (kept : Opcode.ofName name ≠ .call name) :
    Opcode.ofName name ∈ Opcode.reserved := by
  unfold Opcode.ofName at kept ⊢
  cases found : Opcode.reserved.find? fun op => op.name == name with
  | none =>
      rw [found] at kept
      exact absurd rfl kept
  | some op => exact List.mem_of_find?_eq_some found

def wordParams (ws : List Text) : List Value :=
  if ws = [] then [] else [.text (joinWith " " ws)]

def oneCall (path name : Text) (params : List Value) : Script :=
  ⟨path, [⟨1, Opcode.ofName name, params⟩], [], []⟩

theorem alias_assembled {c : AssemblyContext} {name : Text}
    (learnt : c.schema.operation? name = some (OperationSpec.anyWords name)) (args : List Token)
    (arguments : ∀ t ∈ args, t.isPrimary = false) :
    (assemble c (⟨.operation, name, 1⟩ :: args)).result =
      .ok (oneCall c.file name (wordParams (args.map Token.text))) := by
  have alone : statements (⟨.operation, name, 1⟩ :: args) = [⟨⟨.operation, name, 1⟩, args⟩] := by
    have split := Token.statements_append ⟨.operation, name, 1⟩ args [] arguments nofun
    rwa [List.append_nil] at split
  have rule : c.schema.resolve ⟨.operation, name, 1⟩ c.file =
      .ok (.positional (OperationSpec.anyWords name)) := by
    simp [Schema.resolve, learnt, OperationSpec.anyWords]
  have params : (Statement.mk ⟨.operation, name, 1⟩ args).positional (OperationSpec.anyWords name) =
      .ok (wordParams (args.map Token.text)) := by
    cases args <;> rfl
  unfold assemble
  rw [alone]
  simp only [Assembly.run, Assembly.take, Assembly.simple, rule, params]
  rfl

/-- A line that leads with an alias compiles to one call of it. -/
theorem alias_line_compiled {s : CompileSettings} {name : Text} (leads : Token.Leads name)
    (noBrace : (0x7b : UInt8) ∉ name)
    (learnt : s.schema.operation? name = some (OperationSpec.anyWords name))
    (spaceless : ∀ m ∈ s.schema.vocabulary.operations, (32 : UInt8) ∉ m) {ws : List Text}
    (plain : ∀ w ∈ ws, PlainWord w) (t : FileTree) (l : Library) (file : Text) :
    (Library.compileText s t l file (joinWith " " (name :: ws))).result =
      .ok (oneCall (t.absolute file) name (wordParams ws)) := by
  have listed : name ∈ s.schema.vocabulary.operations := by
    refine Schema.mem_operation_names.mpr ⟨_, List.mem_of_find?_eq_some learnt, rfl⟩
  have noNewline : newline ∉ joinWith " " ws := by
    refine plain_words_free plain (by decide) fun w ok inside => ?_
    cases (ok.2 _ inside).1
  have noColon : ascii ':' ∉ joinWith " " ws :=
    plain_words_free plain (by decide) fun w ok inside => (ok.2 _ inside).2.2.2.2 rfl
  rw [Token.join_cons name fun w member => (plain w member).1]
  have read := Token.operation_line_tokens leads listed spaceless (plain_words_trimmed plain)
    noNewline 1
  have assembled := alias_assembled (c := ⟨s.schema, t.absolute file,
    some [name ++ Token.spaced (joinWith " " ws)], s.lenient⟩) learnt
    (Token.arguments (joinWith " " ws) 1) fun t member => by
      obtain ⟨w, -, rfl⟩ := List.mem_map.mp member
      exact (Token.of_word_argument w 1).1
  rw [plain_words_read plain] at assembled
  refine Library.compile_one_line ?_ (Placeholder.expand_line_unmarked _ noBrace noColon) read t l
    file assembled rfl ?_
  · intro member
    rcases List.mem_append.mp member with inName | inArgs
    · cases leads.solid _ inName
    · exact Token.spaced_one_line noNewline inArgs
  · intro i member
    obtain rfl := List.mem_singleton.mp member
    exact fun same => leads.other (Opcode.of_name_inclusion same)

/-! The run of that script. -/

theorem any_words_bound (name : Text) (ws : List Text) :
    ∃ bound, (OperationSpec.anyWords name).bind (wordParams ws) = .ok bound ∧
      bound.text "args" = joinWith " " ws := by
  cases ws with
  | nil => exact ⟨_, rfl, rfl⟩
  | cons w ws => exact ⟨_, rfl, rfl⟩

theorem alias_sends {h : Host ω} {view : ω → Option Simulated} (simulates : h.Simulates view)
    {w : ω} {s : Simulated} (shown : view w = some s) (calm : h.canceled w = false)
    (site : CallSite) (command : Text) (vars : Vars) :
    ∃ output w' s', h.sendText site command vars w =
        .ok (.text output) (vars.set outputVar output) w' ∧ view w' = some s' ∧
      s'.transcript = s.transcript ++ [⟨s.current, command, output⟩] := by
  obtain ⟨session, given, shows⟩ := simulates.session
  obtain ⟨reply, after⟩ := (shows w s shown).2.1 command
  rw [calm] at reply after
  rcases answered : session.send command w with ⟨answer, w'⟩
  rw [answered] at reply after
  simp only [Simulated.send, Bool.false_eq_true, ↓reduceIte] at reply after
  refine ⟨_, w', _, ?_, after, rfl⟩
  unfold Services.sendText
  simp only [given, answered, reply]

theorem word_params_plain (ws : List Text) (plain : ∀ w ∈ ws, PlainWord w) (line : Int)
    (op : Opcode) (vars : Vars) : (Instruction.mk line op (wordParams ws)).missingVars vars = [] ∧
      (Instruction.mk line op (wordParams ws)).interpolated vars = wordParams ws := by
  have noDollar : ascii '$' ∉ joinWith " " ws :=
    plain_words_free plain (by decide) fun w ok inside => (ok.2 _ inside).2.2.2.1 rfl
  have each : ∀ v ∈ wordParams ws, v.missingVars vars = [] ∧ v.interpolate vars = v := by
    unfold wordParams
    intro v member
    split at member
    · cases member
    · obtain rfl := List.mem_singleton.mp member
      exact ⟨Value.missing_plain noDollar vars, Value.interpolate_plain noDollar vars⟩
  unfold Instruction.missingVars Instruction.interpolated
  constructor
  · split
    · rfl
    · exact List.flatMap_eq_nil_iff.mpr fun v member => (each v member).1
  · split
    · rfl
    · exact (List.map_congr_left fun v member => (each v member).2).trans (List.map_id _)

/-- Nothing outside asks the run to end. -/
def Host.Calm (h : Host ω) : Prop := ∀ w, h.stopRequested w = false ∧ h.canceled w = false

theorem Host.Calm.free {h : Host ω} (calm : h.Calm) (w : ω) : Machine.stopReason? h w = none := by
  simp [Machine.stopReason?, calm w]

theorem Machine.call_done {h : Host ω} {m : Machine} {i : Instruction} {params : List Value}
    {w w' : ω} {r : Registry ω} (own : h.registry = some r) {operation : Operation ω}
    (found : r.lookup? i.op.name = some operation) {bound : Bound}
    (fits : operation.spec.bind params = .ok bound) {result : Value} {vars : Vars}
    (handled : operation.handler h.toServices ⟨m.runId, m.script.path, i.line, i.op.name, m.device⟩
      bound m.vars w = .ok result vars w') :
    m.call h i params w = .ok { m.advance with vars := vars } w' := by
  unfold Machine.call
  simp only [own, Option.bind_some, found, fits, handled]
  rfl

/-- The opcodes that the machine executes itself all need an operand, or a block that is open. -/
theorem reserved_breaks (h : Host ω) (child : Machine → ω → Progress ω) {m : Machine}
    (empty : m.stack = .empty) {op : Opcode} (reserved : op ∈ Opcode.reserved)
    (line : Int) (w : ω) : (m.execute h child ⟨line, op, []⟩ [] w).breakdown ≠ none := by
  have fi : m.fi = .error (Machine.flowFault .stackUnderflow) := by
    unfold Machine.fi
    rw [empty]
    rfl
  simp only [Opcode.reserved, List.mem_cons, List.not_mem_nil, or_false] at reserved
  rcases reserved with rfl | rfl | rfl | rfl | rfl | rfl | rfl | rfl | rfl | rfl
  · exact nofun
  · show (m.command h [] w).breakdown ≠ none
    unfold Machine.command
    cases h.session <;> exact nofun
  · exact nofun
  · exact nofun
  · exact nofun
  · exact nofun
  · show (m.follow m.fi w).breakdown ≠ none
    rw [fi]
    exact nofun
  · exact nofun
  · exact nofun
  · exact nofun

section OneCall

variable {h : Host ω} {path name : Text} {params : List Value} {vars : Vars}
variable {missing : MissingPolicy} {runId : Text} {w : ω} {fuel : Nat}

/-- Called without words, what the machine executes itself has nothing to work on. -/
theorem reserved_run (kept : Opcode.ofName name ≠ .call name) :
    ((Machine.start (oneCall path name (wordParams [])) vars missing runId).run h
      (fuel + 1) w).breakdown ≠ none := by
  let m := Machine.start (oneCall path name (wordParams [])) vars missing runId
  have broken : (m.step h (Machine.run h fuel) ⟨1, Opcode.ofName name, wordParams []⟩ w).breakdown ≠
      none := by
    obtain ⟨supplied, same⟩ := word_params_plain [] nofun 1 (Opcode.ofName name) vars
    rw [Machine.step_supplied h m _ supplied]
    show (m.execute h _ _ (Instruction.interpolated _ vars) _).breakdown ≠ none
    rw [same]
    exact reserved_breaks h _ rfl (Opcode.of_name_reserved kept) 1 _
  have last : m.next? h (Machine.run h fuel) w = none := by
    by_contra further
    obtain ⟨⟨n, v⟩, next⟩ := Option.ne_none_iff_exists'.mp further
    obtain ⟨i, current, -, -, step, -⟩ := (Machine.next_iff ..).mp next
    cases current
    rw [step] at broken
    exact broken rfl
  have ended := Machine.run_stays (m := m) rfl last
  generalize m.run h (fuel + 1) w = p at ended ⊢
  cases ended with
  | past past => cases past
  | stopped | broken | aborted => exact nofun

variable (calm : h.Calm)

include calm

theorem run_one_call {after : Vars} {w' : ω}
    (step : (Machine.start (oneCall path name params) vars missing runId).step h
      (Machine.run h (fuel + 1)) ⟨1, Opcode.ofName name, params⟩ w =
        .ok { (Machine.start (oneCall path name params) vars missing runId).advance with
          vars := after } w') :
    ∃ m, (Machine.start (oneCall path name params) vars missing runId).run h (fuel + 2) w =
      Machine.finish h m w' := by
  have next := (Machine.next_iff h (Machine.run h (fuel + 1)) _ _ w w').mpr
    ⟨_, rfl, rfl, calm.free w, step, rfl⟩
  exact ⟨_, Machine.run_next next⟩

theorem alias_run {view : ω → Option Simulated} (simulates : h.Simulates view) {r : Registry ω}
    (own : h.registry = some r) {command : Text} (serves : r.Serves name command)
    (called : Opcode.ofName name = .call name) {ws : List Text} (plain : ∀ w ∈ ws, PlainWord w)
    {s : Simulated} (shown : view w = some s) :
    let p :=
      (Machine.start (oneCall path name (wordParams ws)) vars missing runId).run h (fuel + 2) w
    p.breakdown = none ∧ ∃ s' output, view p.world = some s' ∧
      s'.transcript =
        s.transcript ++ [⟨s.current, joinWith " " (trim command :: ws), output⟩] := by
  intro p
  obtain ⟨bound, fits, given⟩ := any_words_bound name ws
  have words : (if (joinWith " " ws).isEmpty then trim command
      else trim command ++ " " ++ joinWith " " ws) = joinWith " " (trim command :: ws) := by
    rw [Token.join_cons _ fun w member => (plain w member).1]
    unfold Token.spaced
    split
    · next none => rw [List.isEmpty_iff.mp none, if_pos rfl, List.append_nil]
    · next some =>
        rw [if_neg (by simpa using some)]
        simp [ofString, String.utf8EncodeChar]
  obtain ⟨supplied, same⟩ := word_params_plain ws plain 1 (Opcode.ofName name) vars
  let seen := h.observe ⟨0, 0, ⟨1, Opcode.ofName name, wordParams ws⟩, .empty, vars⟩ w
  obtain ⟨output, w', s', sent, after, more⟩ :=
    alias_sends simulates (w := seen) ((simulates.observe _ w).trans shown) (calm seen).2
      ⟨runId, path, 1, name, []⟩ (joinWith " " (trim command :: ws)) vars
  -- The words hold no variables, so the call is executed as it is written.
  have step : (Machine.start (oneCall path name (wordParams ws)) vars missing runId).step h
      (Machine.run h (fuel + 1)) ⟨1, Opcode.ofName name, wordParams ws⟩ w =
        .ok { (Machine.start (oneCall path name (wordParams ws)) vars missing runId).advance with
          vars := vars.set outputVar output } w' := by
    rw [Machine.step_supplied h _ _ supplied]
    show Machine.execute h _ _ _ (Instruction.interpolated _ vars) (h.observe ⟨0, 0,
      ⟨1, Opcode.ofName name, Instruction.interpolated _ vars⟩, .empty, vars⟩ w) = _
    rw [same]
    unfold Machine.execute
    simp only [called]
    have handled := sent
    rw [← words, ← given] at handled
    simp only [seen, called] at handled
    exact Machine.call_done (i := ⟨1, .call name, wordParams ws⟩) own serves.operation fits handled
  obtain ⟨m, ended⟩ := run_one_call calm step
  have last : p = Machine.finish h m w' := ended
  rw [last]
  exact ⟨rfl, s', output, (simulates.log _ w').trans after, more⟩

end OneCall

/-! Names that are read as something else. -/

/-- Nothing that a line with one of these tokens says is executed. -/
theorem silent_assembled (c : AssemblyContext) {tokens : List Token}
    (silent : tokens = [] ∨ (∃ content, tokens = [⟨.comment, content, 1⟩]) ∨
      tokens = [⟨.inclusion, [], 1⟩]) :
    (assemble c tokens).result = .ok (Script.empty c.file) ∨
      ∃ fault, (assemble c tokens).result = .error fault := by
  rcases silent with rfl | ⟨content, rfl⟩ | rfl
  · exact .inl rfl
  · exact .inl rfl
  · obtain ⟨schema, file, source, lenient⟩ := c
    cases lenient
    · exact .inr ⟨_, rfl⟩
    · exact .inl rfl

/-- A name without white space that is no name of a call: it is not seen, it begins a comment, or it
is that of an inclusion. -/
theorem silent_tokens (v : Vocabulary) {name : Text} (solid : ∀ b ∈ name, isBlankByte b = false)
    (unread : isBlank name = true ∨ name.head? = some (ascii '#') ∨ name = ofString "include") :
    ∃ tokens, Token.lineTokens? v name 1 = some tokens ∧
      (tokens = [] ∨ (∃ content, tokens = [⟨.comment, content, 1⟩]) ∨
        tokens = [⟨.inclusion, [], 1⟩]) := by
  have kept : dropRightWhile (· == 13) name = name :=
    Token.no_return_at_end fun b ends => solid b (List.mem_of_mem_getLast? ends)
  by_cases blank : isBlank name = true
  · refine ⟨[], ?_, .inl rfl⟩
    unfold Token.lineTokens?
    simp only [kept, blank, ↓reduceIte]
  · rcases unread.resolve_left blank with hash | rfl
    · obtain ⟨content, rfl⟩ : ∃ content, name = ascii '#' :: content := by
        cases name with
        | nil => cases hash
        | cons b rest =>
            cases hash
            exact ⟨rest, rfl⟩
      have inside b (member : b ∈ content) := solid b (List.mem_cons_of_mem _ member)
      have noNewline : newline ∉ content := fun member => by cases inside _ member
      have noReturn : ∀ b ∈ content.getLast?, b ≠ 13 := by
        rintro _ last rfl
        cases inside 13 (List.mem_of_mem_getLast? last)
      exact ⟨_, Token.comment_line_tokens v noNewline noReturn 1, .inr (.inl ⟨content, rfl⟩)⟩
    · exact ⟨_, rfl, .inr (.inr rfl)⟩

theorem alias_leads {name : Text} (valid : Aliases.isOperationName name = true)
    (solid : ∀ b ∈ name, isBlankByte b = false)
    (read : ¬ (isBlank name = true ∨ name.head? = some (ascii '#') ∨ name = ofString "include")) :
    Token.Leads name where
  solid := solid
  shown := by
    by_contra blank
    exact read (.inl (by simpa using blank))
  start b first := by
    have member := List.mem_of_mem_head? first
    refine ⟨?_, ?_, ?_⟩
    · rintro rfl
      exact operation_name_spaceless valid _ (by decide) member
    · rintro rfl
      exact read (.inr (.inl first))
    · rintro rfl
      exact operation_name_spaceless valid _ (by decide) member
  other same := read (.inr (.inr same))

def Callable (name : Text) : Prop :=
  isBlank name = false ∧ name.head? ≠ some (ascii '#') ∧ Opcode.ofName name = .call name

instance : DecidablePred Callable := fun _ => inferInstanceAs (Decidable (_ ∧ _ ∧ _))

theorem callable_iff {name : Text} : Callable name ↔
    ¬ (isBlank name = true ∨ name.head? = some (ascii '#') ∨ name = ofString "include") ∧
      Opcode.ofName name = .call name := by
  unfold Callable
  constructor
  · rintro ⟨seen, noComment, called⟩
    refine ⟨?_, called⟩
    rintro (blank | hash | rfl)
    · rw [seen] at blank
      cases blank
    · exact noComment hash
    · cases called
  · rintro ⟨read, called⟩
    refine ⟨?_, fun hash => read (.inr (.inl hash)), called⟩
    by_contra blank
    exact read (.inl (by simpa using blank))

theorem alias_compiled {config : Config} {lenient : Bool} {setup : Setup ω}
    (ready : Setup.of config Schema.standard lenient = .ok setup) {name command : Text}
    (listed : (name, command) ∈ config.operations) (leads : Token.Leads name) (ws : List Text)
    (plain : ∀ v ∈ ws, PlainWord v) (t : FileTree) (l : Library) (file : Text) :
    (Library.compileText setup.settings t l file (joinWith " " (name :: ws))).result =
      .ok (oneCall (t.absolute file) name (wordParams ws)) := by
  obtain ⟨built, schema⟩ := setup_ready ready
  have serves := alias_served built listed
  refine alias_line_compiled leads (operation_name_spaceless serves.valid 0x7b (by decide)) ?_ ?_
    plain t l file
  · rw [schema]
    exact alias_learnt built serves
  · rw [schema]
    exact names_spaceless built

theorem silent_compiled {s : CompileSettings} {name : Text}
    (valid : Aliases.isOperationName name = true) (solid : ∀ b ∈ name, isBlankByte b = false)
    (unread : isBlank name = true ∨ name.head? = some (ascii '#') ∨ name = ofString "include")
    {t : FileTree} {l : Library} {file : Text} {script : Script}
    (compiled : (Library.compileText s t l file name).result = .ok script) :
    script = Script.empty (t.absolute file) := by
  obtain ⟨tokens, read, silent⟩ := silent_tokens s.schema.vocabulary solid unread
  have oneLine : newline ∉ name := by
    intro member
    cases solid _ member
  have unmarked : Placeholder.expandLine s.lookup name = name := by
    have noColon : ascii ':' ∉ ([] : Text) := nofun
    have expanded := Placeholder.expand_line_unmarked s.lookup
      (operation_name_spaceless valid 0x7b (by decide)) noColon
    rwa [Token.spaced_nil, List.append_nil] at expanded
  rcases silent_assembled ⟨s.schema, t.absolute file, some [name], s.lenient⟩ silent with
    empty | ⟨fault, refused⟩
  · rw [Library.compile_one_line oneLine unmarked read t l file empty rfl nofun] at compiled
    exact (Except.ok.inj compiled).symm
  · rw [Library.compile_one_line_error oneLine unmarked read t l file refused] at compiled
    cases compiled

/-- Which aliases do what they are there for. Called with any words, the alias sends its command
with those words, and nothing else, exactly if the machine has not reserved the name and no line
that begins with it is blank or a comment; an alias of any other name is accepted all the same. -/
theorem alias_sends_command_iff {config : Config} {lenient : Bool} {setup : Setup ω}
    (ready : Setup.of config Schema.standard lenient = .ok setup) {name command : Text}
    (listed : (name, command) ∈ config.operations) (solid : ∀ b ∈ name, isBlankByte b = false)
    {h : Host ω} {view : ω → Option Simulated} (simulates : h.Simulates view)
    (own : h.registry = some setup.registry) (calm : h.Calm) {w : ω} {s : Simulated}
    (shown : view w = some s) (t : FileTree) (l : Library) (file : Text) (vars : Vars)
    (missing : MissingPolicy) (runId : Text) (fuel : Nat) :
    (∀ words, (∀ v ∈ words, PlainWord v) →
      ∃ script, (Library.compileText setup.settings t l file
          (joinWith " " (name :: words))).result = .ok script ∧
        let p := (Machine.start script vars missing runId).run h (fuel + 2) w
        p.breakdown = none ∧ ∃ s' output, view p.world = some s' ∧
          s'.transcript =
            s.transcript ++ [⟨s.current, joinWith " " (trim command :: words), output⟩]) ↔
      Callable name := by
  have serves := alias_served (setup_ready ready).1 listed
  rw [callable_iff]
  by_cases unread : isBlank name = true ∨ name.head? = some (ascii '#') ∨ name = ofString "include"
  · refine iff_of_false ?_ fun callable => callable.1 unread
    -- The name alone on a line compiles to nothing, so nothing is sent.
    intro every
    obtain ⟨script, compiled, -, s', output, after, more⟩ := every [] nofun
    obtain rfl := silent_compiled serves.valid solid unread compiled
    have unchanged : view ((Machine.start (Script.empty (t.absolute file)) vars missing runId).run
        h (fuel + 2) w).world = some s := (simulates.log _ w).trans shown
    rw [unchanged] at after
    cases after
    simp at more
  · have leads := alias_leads serves.valid solid unread
    by_cases called : Opcode.ofName name = .call name
    · refine iff_of_true ?_ ⟨unread, called⟩
      intro words plain
      exact ⟨_, alias_compiled ready listed leads words plain t l file,
        alias_run calm simulates own serves called plain shown⟩
    · refine iff_of_false ?_ fun callable => called callable.2
      -- Here it compiles to an instruction of the machine that lacks its operands.
      intro every
      obtain ⟨script, same, done, -⟩ := every [] nofun
      rw [alias_compiled ready listed leads [] nofun] at same
      cases same
      exact reserved_run called done

def aliasConfig (name command : Text) : Config :=
  { Config.standard with operations := [(name, command)] }

def aliasPlan (setup : Setup Bench) : BenchPlan := { sectionsPlan with setup := setup }

theorem solid_of_all {name : Text} (all : name.all (fun b => !isBlankByte b) = true) :
    ∀ b ∈ name, isBlankByte b = false := by
  simpa using all

theorem bench_calm (p : BenchPlan) (path runId : Text) : (p.host path runId).Calm :=
  fun _ => ⟨rfl, rfl⟩

theorem one_alias_ready {name command : Text} {d : Descriptor Bench} {r : Registry Bench}
    (described : Aliases.descriptor name command = .ok d)
    (built : Registry.ofDescriptors Schema.standard (standardOperations ++ [d]) = .ok r) :
    ∃ setup : Setup Bench,
      Setup.of (aliasConfig name command) Schema.standard false = .ok setup := by
  unfold Setup.of Registry.withAliases Aliases.operations aliasConfig
  rw [List.mergeSort_singleton, List.mapM_cons, described]
  unfold Registry.discovered
  simp only [List.mapM_nil, pure, Except.pure, bind, Except.bind, Except.mapError, built]
  exact ⟨_, rfl⟩

theorem status_alias_sends :
    ∃ setup : Setup Bench,
      Setup.of (aliasConfig "status" " show status ") Schema.standard false = .ok setup ∧
      let h := (aliasPlan setup).host "main" "run"
      ∃ script, (Library.compileText setup.settings sectionsPlan.surroundings.files .empty "main"
          "status all").result = .ok script ∧
        let p := (Machine.start script .empty .warn "run").run h 2 (.new none)
        p.breakdown = none ∧ ∃ s output, p.world.simulated? = some s ∧
          s.transcript = [⟨[], "show status all", output⟩] := by
  obtain ⟨setup, ready⟩ : ∃ setup : Setup Bench,
      Setup.of (aliasConfig "status" " show status ") Schema.standard false = .ok setup :=
    one_alias_ready rfl rfl
  refine ⟨setup, ready, ?_⟩
  have every := (alias_sends_command_iff ready (List.mem_singleton.mpr rfl)
    (solid_of_all (by decide)) (bench_simulates (aliasPlan setup) "main" "run") rfl
    (bench_calm _ _ _) (w := .new none) rfl sectionsPlan.surroundings.files .empty "main" .empty .warn "run" 0).mpr (by decide)
  exact every ["all"] (by decide)

/-- The machine takes the word for the command. -/
theorem command_alias_sends_word :
    ∃ setup : Setup Bench,
      Setup.of (aliasConfig "command" "show") Schema.standard false = .ok setup ∧
      let h := (aliasPlan setup).host "main" "run"
      ∃ script, (Library.compileText setup.settings sectionsPlan.surroundings.files .empty "main"
          "command x").result = .ok script ∧
        let p := (Machine.start script .empty .warn "run").run h 2 (.new none)
        p.breakdown = none ∧ ∃ s, p.world.simulated? = some s ∧ s.transcript = [⟨[], "x", []⟩] := by
  obtain ⟨setup, ready⟩ : ∃ setup : Setup Bench,
      Setup.of (aliasConfig "command" "show") Schema.standard false = .ok setup :=
    one_alias_ready rfl rfl
  have leads : Token.Leads "command" :=
    alias_leads (by decide) (solid_of_all (by decide)) (by decide)
  have compiled := alias_compiled ready List.mem_cons_self leads ["x"] (by decide)
    sectionsPlan.surroundings.files .empty "main"
  exact ⟨setup, ready, _, compiled, rfl, _, rfl, rfl⟩

end DeviceScript

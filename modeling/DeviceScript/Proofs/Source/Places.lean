import DeviceScript.Proofs.Source.Rejection
import DeviceScript.Proofs.Source.Steps

/-!
Where an assembly places what it tells and what it records. Whatever keywords and operations a
schema has, a fault is told on the line of a statement, and a recorded inclusion has the line of one
too.
-/

namespace DeviceScript

open Text

theorem Token.line_tokens_on_line {v : Vocabulary} {line : Text} {n : Int} {tokens : List Token}
    (read : Token.lineTokens? v line n = some tokens) :
    tokens = [] ∨ ∃ s, Token.OnLine n s ∧ tokens = s.head :: s.args := by
  unfold Token.lineTokens? at read
  generalize dropRightWhile (· == 13) line = line at read
  simp only at read
  split at read
  · cases read
    exact .inl rfl
  · right
    repeat' split at read
    all_goals cases read
    · exact ⟨_, Token.alone_on_line _ _ n rfl, rfl⟩
    · exact ⟨_, Token.alone_on_line _ _ n rfl, rfl⟩
    · exact ⟨_, Token.alone_on_line _ _ n rfl, rfl⟩
    · exact ⟨_, Token.arguments_on_line _ _ _ n rfl, rfl⟩
    · exact ⟨_, Token.arguments_on_line _ _ _ n rfl, rfl⟩
    · exact ⟨_, Token.arguments_on_line _ _ _ n rfl, rfl⟩
    · exact ⟨_, Token.alone_on_line _ _ n rfl, rfl⟩

theorem token_in_statement {tokens : List Token} {t : Token} (member : t ∈ tokens) :
    ∃ s ∈ statements tokens, t = s.head ∨ t ∈ s.args := by
  induction tokens with
  | nil => cases member
  | cons head rest ih =>
      unfold statements
      rcases List.mem_cons.mp member with rfl | later
      · split
        · exact ⟨_, List.mem_cons_self, .inl rfl⟩
        · split
          · exact ⟨_, List.mem_cons_self, .inl rfl⟩
          · exact ⟨_, List.mem_cons_self, .inl rfl⟩
      · obtain ⟨s, among, within⟩ := ih later
        cases cutting : statements rest with
        | nil =>
            rw [cutting] at among
            cases among
        | cons following others =>
            rw [cutting] at among
            simp only
            split
            · exact ⟨s, List.mem_cons_of_mem _ among, within⟩
            · -- What began the first statement of the rest has become an argument.
              rcases List.mem_cons.mp among with rfl | further
              · refine ⟨_, List.mem_cons_self, .inr ?_⟩
                simpa using within
              · exact ⟨s, List.mem_cons_of_mem _ further, within⟩

/-- Lines read one by one, each into a statement or into nothing. -/
theorem lines_cut {parts : List (List Token)}
    (each : ∀ part ∈ parts, part = [] ∨ ∃ n s, Token.OnLine n s ∧ part = s.head :: s.args) :
    (∀ t ∈ parts.flatten.head?, t.isPrimary = true) ∧
      ∀ s ∈ statements parts.flatten, ∀ t ∈ s.args, t.line = s.line := by
  induction parts with
  | nil => simp [statements]
  | cons part rest ih =>
      obtain ⟨starts, oneLine⟩ := ih fun part member => each part (List.mem_cons_of_mem _ member)
      rcases each part List.mem_cons_self with rfl | ⟨n, s, onLine, rfl⟩
      · exact ⟨starts, oneLine⟩
      · constructor
        · simpa using onLine.1
        · rw [List.flatten_cons, List.cons_append, Token.statements_append s.head s.args _
            (fun t member => (onLine.2.2 t member).1) starts]
          intro u member
          rcases List.mem_cons.mp member with rfl | later
          · intro t among
            exact (onLine.2.2 t among).2.trans onLine.2.1.symm
          · exact oneLine u later

namespace Statement

variable {s : Statement} {located : Located}

theorem condition_from_line (args : List Token)
    (refused : s.conditionFrom args = .error located) : located.line = s.line := by
  fun_induction s.conditionFrom args with
  | case1 | case2 | case4 | case7 =>
      cases refused
      rfl
  | case3 | case6 => cases refused
  | case5 left op right operands comparison joint rest joins fault read ih =>
      cases refused
      exact ih read

theorem condition_line {optional : Bool} (refused : s.condition optional = .error located) :
    located.line = s.line := by
  unfold condition at refused
  split at refused
  · split at refused
    · cases refused
    · cases refused
      rfl
  · exact condition_from_line _ refused

end Statement

def Rejection.fault : Rejection → Fault
  | .statement f => f
  | .block f => f
  | .fatal f => f

namespace Assembly

variable {c : AssemblyContext} {a b : Assembly} {s : Statement}

theorem keyword_tells {kw : KeywordSpec} {previous : Option Nat} {loopLine : Option Int}
    {r : Rejection} (rejected : a.keyword c kw s previous loopLine = (b, some r)) :
    r.fault.TellsAt c.file s.line := by
  unfold keyword at rejected
  simp only at rejected
  split at rejected
  · cases rejected
    exact fault_tells _
  · split at rejected
    · split at rejected
      · next located refused =>
          cases rejected
          rw [← Statement.condition_line refused]
          exact fault_tells located
      · cases rejected
    · split at rejected
      · cases rejected
      · cases rejected
        exact fault_tells _

/-- A statement that is not taken is told on its own line, whatever becomes of the assembly. -/
theorem take_tells (oneLine : ∀ t ∈ s.args, t.line = s.line) {r : Rejection}
    (rejected : a.take c s = (b, some r)) : r.fault.TellsAt c.file s.line := by
  unfold take at rejected
  by_cases isKeyword : s.head.kind = .keyword
  · simp only [isKeyword, ↓reduceIte, Schema.resolve] at rejected
    cases known : c.schema.keyword? s.head.text with
    | none =>
        simp only [known] at rejected
        cases rejected
        exact ⟨_, rfl, rfl, rfl, rfl, rfl, .inr rfl⟩
    | some kw =>
        simp only [known] at rejected
        split at rejected
        · split at rejected
          · exact keyword_tells rejected
          · cases rejected
            exact fault_tells _
        · split at rejected
          · exact keyword_tells rejected
          · split at rejected
            · exact keyword_tells rejected
            · cases rejected
              exact fault_tells _
  · simp only [isKeyword, ↓reduceIte] at rejected
    cases read : a.simple c s with
    | ok after => simp [read] at rejected
    | error fault =>
        simp only [read] at rejected
        cases rejected
        exact simple_tells oneLine read

/-- An assembly fails on the line of a statement, or on the last line for a block that is open. -/
theorem run_tells {ss : List Statement} (oneLine : ∀ s ∈ ss, ∀ t ∈ s.args, t.line = s.line)
    {lastLine : Int} {fault : Fault} (failed : (run c lastLine a ss).result = .error fault) :
    (∃ s ∈ ss, fault.TellsAt c.file s.line) ∨
      fault.TellsAt c.file lastLine ∧ (a.blocks ≠ [] ∨ ss ≠ []) := by
  induction ss generalizing a with
  | nil =>
      unfold run at failed
      split at failed
      · cases failed
      · next block outer blocks =>
          cases failed
          exact .inr ⟨fault_tells _, .inl (by simp [blocks])⟩
  | cons s rest ih =>
      have later {b : Assembly} (failed : (run c lastLine b rest).result = .error fault) :
          (∃ u ∈ s :: rest, fault.TellsAt c.file u.line) ∨
            fault.TellsAt c.file lastLine ∧ (a.blocks ≠ [] ∨ s :: rest ≠ []) := by
        rcases ih (fun u member => oneLine u (List.mem_cons_of_mem s member)) failed with
          ⟨u, member, tells⟩ | ⟨tells, -⟩
        · exact .inl ⟨u, List.mem_cons_of_mem s member, tells⟩
        · exact .inr ⟨tells, .inr (List.cons_ne_nil s rest)⟩
      have here {b : Assembly} {r : Rejection} (rejected : a.take c s = (b, some r))
          (same : r.fault = fault) : ∃ u ∈ s :: rest, fault.TellsAt c.file u.line :=
        ⟨s, List.mem_cons_self, same ▸ take_tells (oneLine s List.mem_cons_self) rejected⟩
      rcases step : a.take c s with ⟨b, _ | f | f | f⟩
      · simp only [run, step] at failed
        exact later failed
      · simp only [run, step] at failed
        split at failed
        · exact later failed
        · cases failed
          exact .inl (here step rfl)
      · simp only [run, step] at failed
        split at failed
        · exact later failed
        · cases failed
          exact .inl (here step rfl)
      · simp only [run, step] at failed
        cases failed
        exact .inl (here step rfl)

/-- The script has its path, and its inclusions have lines of statements. -/
structure Lined (c : AssemblyContext) (ss : List Statement) (a : Assembly) : Prop where
  path : a.script.path = c.file
  inclusions : ∀ e ∈ a.script.inclusions, ∃ s ∈ ss, e.line = s.line

theorem keyword_script (a : Assembly) (kw : KeywordSpec) (s : Statement) (previous : Option Nat)
    (loopLine : Option Int) :
    (a.keyword c kw s previous loopLine).1.script.path = a.script.path ∧
      (a.keyword c kw s previous loopLine).1.script.inclusions = a.script.inclusions := by
  unfold keyword
  simp only
  repeat' split
  all_goals exact ⟨rfl, rfl⟩

theorem simple_script (read : a.simple c s = .ok b) :
    b.script.path = a.script.path ∧
      ∀ e ∈ b.script.inclusions, e ∈ a.script.inclusions ∨ e.line = s.line := by
  unfold Assembly.simple at read
  cases kind : s.head.kind with
  | sectionName =>
      simp only [kind] at read
      split at read
      · cases read
      · cases read
        have same : (a.script.addSection s.head.text).path = a.script.path ∧
            (a.script.addSection s.head.text).inclusions = a.script.inclusions := by
          unfold Script.addSection
          split <;> exact ⟨rfl, rfl⟩
        exact ⟨same.1, fun e member => .inl (same.2 ▸ member)⟩
  | inclusion =>
      simp only [kind] at read
      repeat' split at read
      all_goals cases read
      unfold Script.addInclusion
      split
      · exact ⟨rfl, fun e member => .inl member⟩
      · refine ⟨rfl, fun e member => ?_⟩
        rcases List.mem_append.mp member with before | new
        · exact .inl before
        · rw [List.mem_singleton.mp new]
          exact .inr rfl
  | _ =>
      simp only [kind] at read
      repeat' split at read
      all_goals cases read
      all_goals exact ⟨rfl, fun e member => .inl member⟩

theorem take_script {r : Option Rejection} (taken : a.take c s = (b, r)) :
    b.script.path = a.script.path ∧
      ∀ e ∈ b.script.inclusions, e ∈ a.script.inclusions ∨ e.line = s.line := by
  have unchanged : a.script.path = a.script.path ∧
      ∀ e ∈ a.script.inclusions, e ∈ a.script.inclusions ∨ e.line = s.line :=
    ⟨rfl, fun e member => .inl member⟩
  have keyword (a' : Assembly) (same : a'.script = a.script) (kw : KeywordSpec)
      (previous : Option Nat) (loopLine : Option Int)
      (met : a'.keyword c kw s previous loopLine = (b, r)) :
      b.script.path = a.script.path ∧
        ∀ e ∈ b.script.inclusions, e ∈ a.script.inclusions ∨ e.line = s.line := by
    obtain ⟨path, inclusions⟩ := keyword_script (c := c) a' kw s previous loopLine
    rw [met, same] at path inclusions
    exact ⟨path, fun e member => .inl (inclusions ▸ member)⟩
  unfold take at taken
  split at taken
  · split at taken
    · cases taken
      exact unchanged
    · split at taken
      · split at taken
        · exact keyword a rfl _ _ _ taken
        · cases taken
          exact unchanged
      · next outer _ =>
        split at taken
        · exact keyword { a with blocks := outer } rfl _ _ _ taken
        · split at taken
          · exact keyword a rfl _ _ _ taken
          · cases taken
            exact unchanged
    · cases taken
      exact unchanged
  · cases read : a.simple c s with
    | ok after =>
        simp only [read] at taken
        cases taken
        exact simple_script read
    | error fault =>
        simp only [read] at taken
        cases taken
        exact unchanged

theorem take_lined {ss : List Statement} {r : Option Rejection} (member : s ∈ ss)
    (lined : Lined c ss a) (taken : a.take c s = (b, r)) : Lined c ss b := by
  obtain ⟨path, inclusions⟩ := take_script taken
  constructor
  · exact path.trans lined.path
  · intro e among
    rcases inclusions e among with before | own
    · exact lined.inclusions e before
    · exact ⟨s, member, own⟩

theorem run_lined {ss : List Statement} {lastLine : Int} {script : Script}
    (ended : (run c lastLine (start c.file) ss).result = .ok script) :
    script.path = c.file ∧ ∀ e ∈ script.inclusions, ∃ s ∈ ss, e.line = s.line := by
  obtain ⟨b, lined, -, rfl, -⟩ := run_keeps (P := Lined c ss)
    (fun _ s _ member lined taken => take_lined member lined taken)
    (fun _ s _ _ member lined rejected =>
      have kept := take_lined member lined rejected
      ⟨kept.path, kept.inclusions⟩)
    (fun _ s _ _ member lined rejected =>
      have kept := take_lined member lined rejected
      ⟨kept.path, kept.inclusions⟩)
    ⟨rfl, fun _ member => by cases member⟩ ended
  exact ⟨lined.path, lined.inclusions⟩

end Assembly

/-- Where the tokens of a statement share a line, an assembly fails on the line of a statement, and
its script has the lines of statements for its inclusions. -/
theorem assemble_places {c : AssemblyContext} {tokens : List Token}
    (oneLine : ∀ s ∈ statements tokens, ∀ t ∈ s.args, t.line = s.line) :
    (∀ fault, (assemble c tokens).result = .error fault →
      ∃ s ∈ statements tokens, fault.TellsAt c.file s.line) ∧
    ∀ script, (assemble c tokens).result = .ok script →
      script.path = c.file ∧ ∀ e ∈ script.inclusions, ∃ s ∈ statements tokens, e.line = s.line := by
  constructor
  · intro fault failed
    rcases Assembly.run_tells oneLine failed with found | ⟨tells, begun⟩
    · exact found
    · -- Something has opened the block, so there is a last token, and a statement that it is in.
      have some : tokens ≠ [] := by
        rintro rfl
        rcases begun with waiting | none
        · exact waiting rfl
        · exact none rfl
      have last := List.getLast?_eq_some_getLast some
      obtain ⟨s, member, within⟩ := token_in_statement (List.getLast_mem some)
      refine ⟨s, member, ?_⟩
      have same : s.line = (tokens.getLast some).line := by
        rcases within with head | among
        · exact (congrArg Token.line head).symm
        · exact (oneLine s member _ among).symm
      rw [last] at tells
      rw [same]
      exact tells
  · intro script ended
    exact Assembly.run_lined ended

end DeviceScript

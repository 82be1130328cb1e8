import DeviceScript.Operation.Binding
import DeviceScript.Proofs.Schema.Accepted
import DeviceScript.Script.Arguments
import Mathlib.Data.List.Nodup

/-!
What a call reads of the arguments that were written for it. Arguments are put into slots when a
script is assembled and bound to parameters when the call is made; what is in a slot is what the
parameter reads, and what is in none is told apart from what is missing.
-/

namespace DeviceScript

open Text

theorem Bound.value_set (b : Bound) (label : Text) (v : Value) (q : Text) :
    (b.set label v).value? q = if label = q then some v else b.value? q := by
  unfold Bound.set Bound.value?
  by_cases same : label = q
  · simp [same]
  · have kept : (b.values.filter fun entry => entry.1 != label).find? (fun entry => entry.1 == q) =
        b.values.find? fun entry => entry.1 == q := by
      rw [List.find?_filter]
      congr 1
      funext entry
      by_cases here : entry.1 = q
      · simp [here, Ne.symm same]
      · simp [here]
    simp [same, kept]

namespace OperationSpec

variable {op : Text} {ps : List ParamSpec} {slots : List Value} {bound b : Bound}

theorem bind_params_other (ok : bindParams op ps slots bound = .ok b) {label : Text}
    (other : label ∉ ps.map ParamSpec.label) : b.value? label = bound.value? label := by
  induction ps generalizing slots bound with
  | nil =>
      cases ok
      rfl
  | cons p rest ih =>
      rw [List.map_cons, List.mem_cons, not_or] at other
      unfold bindParams at ok
      split at ok
      · cases ok
      · exact ih ok other.2
      · rw [ih ok other.2, Bound.value_set, if_neg (Ne.symm other.1)]

theorem bind_params_ok (distinct : (ps.map ParamSpec.label).Nodup)
    (ok : bindParams op ps slots bound = .ok b) (i : Nat) (p : ParamSpec) (here : ps[i]? = some p) :
    ∃ v, p.bindSlot op (slots[i]?.getD .absent) = .ok v ∧
      b.value? p.label = v.or (bound.value? p.label) := by
  induction ps generalizing slots bound i with
  | nil => cases here
  | cons first rest ih =>
      obtain ⟨apart, distinct⟩ := List.nodup_cons.mp distinct
      unfold bindParams at ok
      rw [List.head?_eq_getElem?] at ok
      cases i with
      | zero =>
          cases here
          split at ok
          · cases ok
          · next absent => exact ⟨none, absent, bind_params_other ok apart⟩
          · next v given =>
              refine ⟨some v, given, ?_⟩
              rw [bind_params_other ok apart, Bound.value_set, if_pos rfl]
              rfl
      | succ i =>
          have later : p.label ∈ rest.map ParamSpec.label :=
            List.mem_map_of_mem (List.mem_of_getElem? here)
          split at ok
          · cases ok
          · obtain ⟨v, given, reads⟩ := ih distinct ok i here
            rw [List.getElem?_tail] at given
            exact ⟨v, given, reads⟩
          · obtain ⟨v, given, reads⟩ := ih distinct ok i here
            rw [List.getElem?_tail] at given
            refine ⟨v, given, ?_⟩
            have other : first.label ≠ p.label := fun same => apart (same ▸ later)
            rw [reads, Bound.value_set, if_neg other]

theorem bind_params_error {reason : Reason} (broke : bindParams op ps slots bound = .error reason) :
    ∃ (i : Nat) (p : ParamSpec), ps[i]? = some p ∧
      p.bindSlot op (slots[i]?.getD .absent) = .error reason := by
  induction ps generalizing slots bound with
  | nil => cases broke
  | cons first rest ih =>
      unfold bindParams at broke
      rw [List.head?_eq_getElem?] at broke
      split at broke
      · next refused =>
          cases broke
          exact ⟨0, first, rfl, refused⟩
      · obtain ⟨i, p, here, refused⟩ := ih broke
        rw [List.getElem?_tail] at refused
        exact ⟨i + 1, p, here, refused⟩
      · obtain ⟨i, p, here, refused⟩ := ih broke
        rw [List.getElem?_tail] at refused
        exact ⟨i + 1, p, here, refused⟩

end OperationSpec

namespace ParamSpec

/-- The text that a parameter is given of the arguments from its slot on: the first of them, or all
of them if it takes the rest. -/
def share (p : ParamSpec) : List Token → Option Text
  | [] => none
  | arg :: args => some (if p.rest then joinWith " " ((arg :: args).map Token.text) else arg.text)

/-- What a parameter reads for the text that it is given, and without one. -/
def reads (p : ParamSpec) : Option Text → Option Value
  | some t => if p.type = .int then (readInt t).map .int else some (.text t)
  | none => if p.fallback = .absent then none else some p.fallback

variable {p : ParamSpec} (op : Text)

theorem bind_slot_text (p : ParamSpec) (t : Text) :
    p.bindSlot op (.text t) =
      if p.type = .int ∧ readInt t = none then .error (.textNotInt op p.label t)
      else .ok (p.reads (some t)) := by
  by_cases int : p.type = .int
  · cases read : readInt t <;> simp [bindSlot, convert, reads, int, read, Except.map]
  · simp [bindSlot, convert, reads, int, Except.map, Value.render]

theorem bind_slot_int (typed : p.type = .int) (n : Int) :
    p.bindSlot op (.int n) = .ok (some (.int n)) := by
  simp [bindSlot, convert, typed, Except.map]

/-- A slot without a value is missing only where one is required. -/
theorem bind_slot_absent (declared : p.Declared) :
    p.bindSlot op .absent =
      if p.required then .error (.missingParam op p.label) else .ok (p.reads none) := by
  by_cases required : p.required = true
  · simp [bindSlot, required, declared.required required]
  · rcases declared.fallback with absent | ⟨typed, n, given⟩ | ⟨typed, t, given⟩
    · simp [bindSlot, reads, required, absent]
    · simp [bindSlot, convert, reads, required, typed, given, Except.map]
    · simp [bindSlot, convert, reads, required, typed, given, Except.map, Value.render]

end ParamSpec

namespace Statement

theorem argument_value_eq (op : Text) (p : ParamSpec) (arg : Token) :
    argumentValue op p arg =
      if (p.type != .int || arg.text.contains (ascii '$')) = true then .ok (.text arg.text)
      else
        match readInt arg.text with
        | some n => .ok (.int n)
        | none => .error ⟨.notInt op p.label arg.text, arg.line⟩ := rfl

/-- Only an int parameter refuses an argument: one without a dollar sign that reads as no int. -/
theorem argument_value_ok_iff {op : Text} {p : ParamSpec} {arg : Token} :
    (∃ v, argumentValue op p arg = .ok v) ↔
      (p.type = .int → ascii '$' ∈ arg.text ∨ readInt arg.text ≠ none) := by
  by_cases int : p.type = .int
  · by_cases waits : ascii '$' ∈ arg.text
    · simp [argument_value_eq, waits]
    · cases read : readInt arg.text <;> simp [argument_value_eq, int, waits, read]
  · simp [argument_value_eq, int]

theorem argument_value_plain {op : Text} {p : ParamSpec} {arg : Token} {v : Value}
    (plain : p.type = .int → ascii '$' ∉ arg.text) (ok : argumentValue op p arg = .ok v) :
    (p.type = .int ∧ ∃ n, readInt arg.text = some n ∧ v = .int n) ∨
      p.type ≠ .int ∧ v = .text arg.text := by
  by_cases int : p.type = .int
  · left
    constructor
    · exact int
    · cases read : readInt arg.text with
      | none => simp [argument_value_eq, int, plain int, read] at ok
      | some n =>
          simp only [argument_value_eq, int, plain int, read, bne_self_eq_false, Bool.false_or,
            List.contains_iff_mem, ↓reduceIte, Except.ok.injEq] at ok
          exact ⟨n, rfl, ok.symm⟩
  · right
    constructor
    · exact int
    · simp only [argument_value_eq, bne_iff_ne.mpr int, Bool.true_or, ↓reduceIte,
        Except.ok.injEq] at ok
      exact ok.symm

/-- The slot that arguments are put into: empty where the parameter is given nothing, a text where
it takes the rest, and otherwise the value of one argument. -/
theorem positional_from_slots {s : Statement} {op : OperationSpec} {ps : List ParamSpec}
    {args : List Token} {values : List Value}
    (restLast : ∀ (i : Nat) (p : ParamSpec), ps[i]? = some p → p.rest = true → i + 1 = ps.length)
    (taken : s.positionalFrom op ps args = .ok values) :
    values.length ≤ ps.length ∧ ∀ (i : Nat) (p : ParamSpec), ps[i]? = some p →
      values[i]? = none ∧ p.share (args.drop i) = none ∨
      (∃ t, values[i]? = some (.text t) ∧ p.rest = true ∧ p.share (args.drop i) = some t) ∨
      ∃ v, ∃ arg ∈ args, values[i]? = some v ∧ p.rest = false ∧
        p.share (args.drop i) = some arg.text ∧ argumentValue op.name p arg = .ok v := by
  induction ps generalizing args values with
  | nil =>
      cases args with
      | nil =>
          cases taken
          simp
      | cons arg args => cases taken
  | cons first others ih =>
      cases args with
      | nil =>
          unfold positionalFrom at taken
          split at taken
          · cases taken
          · cases taken
            constructor
            · simp
            · intro i p _
              left
              simp [ParamSpec.share]
      | cons arg args =>
          unfold positionalFrom at taken
          -- A parameter that takes the rest is the last one, so there is no slot behind it.
          by_cases rest : first.rest = true
          · rw [if_pos rest] at taken
            cases taken
            have alone : others = [] := by simpa using restLast 0 first rfl rest
            subst alone
            constructor
            · simp
            · intro i p here
              cases i with
              | zero =>
                  cases here
                  right
                  left
                  exact ⟨_, rfl, rest, by simp [ParamSpec.share, rest]⟩
              | succ i => simp at here
          · rw [if_neg rest] at taken
            cases value : argumentValue op.name first arg with
            | error located => simp [value] at taken
            | ok v =>
                cases more : s.positionalFrom op others args with
                | error located => simp [value, more] at taken
                | ok vs =>
                    simp only [value, more, Except.ok.injEq] at taken
                    subst taken
                    -- The others read what stands behind the first argument, one slot on.
                    obtain ⟨short, each⟩ := ih (fun i p here last => by
                      simpa using restLast (i + 1) p here last) more
                    constructor
                    · simpa using short
                    · intro i p here
                      cases i with
                      | zero =>
                          cases here
                          right
                          right
                          refine ⟨v, arg, by simp, rfl, by simpa using rest, ?_, value⟩
                          simp [ParamSpec.share, rest]
                      | succ i =>
                          rcases each i p here with none | given | ⟨v, arg, member, given⟩
                          · exact .inl none
                          · exact .inr (.inl given)
                          · exact .inr (.inr ⟨v, arg, List.mem_cons_of_mem _ member, given⟩)

theorem positional_slot_bound {s : Statement} {op : OperationSpec} (declared : op.Declared)
    (plain : ∀ arg ∈ s.args, ascii '$' ∉ arg.text) {values : List Value}
    (taken : s.positional op = .ok values) {i : Nat} {p : ParamSpec}
    (here : op.params[i]? = some p) :
    p.bindSlot op.name (values[i]?.getD .absent) =
      match p.share (s.args.drop i) with
      | none => if p.required then .error (.missingParam op.name p.label) else .ok (p.reads none)
      | some t =>
          if p.rest = true ∧ p.type = .int ∧ readInt t = none then
            .error (.textNotInt op.name p.label t)
          else .ok (p.reads (some t)) := by
  obtain ⟨-, each⟩ := positional_from_slots declared.restLast taken
  rcases each i p here with
    ⟨empty, none⟩ | ⟨t, slot, rest, given⟩ | ⟨v, arg, member, slot, one, given, value⟩
  · rw [empty, none]
    exact ParamSpec.bind_slot_absent op.name (declared.params p (List.mem_of_getElem? here))
  · rw [slot, given]
    simp only [Option.getD_some, rest, true_and]
    exact ParamSpec.bind_slot_text op.name p t
  · rw [slot, given]
    simp only [Option.getD_some, one, Bool.false_eq_true, false_and, ↓reduceIte]
    rcases argument_value_plain (fun _ => plain arg member) value with
      ⟨int, n, read, rfl⟩ | ⟨other, rfl⟩
    · rw [ParamSpec.bind_slot_int op.name int]
      simp [ParamSpec.reads, int, read]
    · rw [ParamSpec.bind_slot_text, if_neg fun both => other both.1]

theorem positional_bind {s : Statement} {op : OperationSpec} (declared : op.Declared)
    {values : List Value} (taken : s.positional op = .ok values) :
    op.bind values = OperationSpec.bindParams op.name op.params values ⟨op.name, []⟩ := by
  have short := (positional_from_slots declared.restLast taken).1
  unfold OperationSpec.bind
  rw [if_neg (Nat.not_lt.mpr short)]

/-- The two reasons that are left for a call to fail: a required parameter behind an optional one is
given nothing, or what an int parameter takes as the rest reads as no int. -/
theorem positional_bind_error {s : Statement} {op : OperationSpec} (declared : op.Declared)
    (plain : ∀ arg ∈ s.args, ascii '$' ∉ arg.text) {values : List Value}
    (taken : s.positional op = .ok values) {reason : Reason}
    (broke : op.bind values = .error reason) :
    ∃ (i : Nat) (p : ParamSpec), op.params[i]? = some p ∧
      (p.required = true ∧ p.share (s.args.drop i) = none ∧
          reason = .missingParam op.name p.label ∨
        ∃ t, p.rest = true ∧ p.type = .int ∧ p.share (s.args.drop i) = some t ∧
          readInt t = none ∧ reason = .textNotInt op.name p.label t) := by
  rw [positional_bind declared taken] at broke
  obtain ⟨i, p, here, refused⟩ := OperationSpec.bind_params_error broke
  rw [positional_slot_bound declared plain taken here] at refused
  refine ⟨i, p, here, ?_⟩
  cases given : p.share (s.args.drop i) with
  | none =>
      rw [given] at refused
      by_cases required : p.required = true
      · simp only [required, ↓reduceIte, Except.error.injEq] at refused
        exact .inl ⟨required, rfl, refused.symm⟩
      · simp [required] at refused
  | some t =>
      rw [given] at refused
      by_cases unread : p.rest = true ∧ p.type = .int ∧ readInt t = none
      · simp only [unread, and_self, ↓reduceIte, Except.error.injEq] at refused
        exact .inr ⟨t, unread.1, unread.2.1, rfl, unread.2.2, refused.symm⟩
      · simp only [unread, ↓reduceIte, reduceCtorEq] at refused

/-- Where binding succeeds, no slot was refused and every parameter reads what it is given. -/
theorem positional_bind_ok {s : Statement} {op : OperationSpec} (declared : op.Declared)
    (plain : ∀ arg ∈ s.args, ascii '$' ∉ arg.text) {values : List Value}
    (taken : s.positional op = .ok values) {b : Bound} (ok : op.bind values = .ok b) {i : Nat}
    {p : ParamSpec} (here : op.params[i]? = some p) :
    (p.required = true → p.share (s.args.drop i) ≠ none) ∧
      (∀ t, p.rest = true → p.type = .int → p.share (s.args.drop i) = some t →
        readInt t ≠ none) ∧
      b.value? p.label = p.reads (p.share (s.args.drop i)) := by
  rw [positional_bind declared taken] at ok
  obtain ⟨v, given, reads⟩ := OperationSpec.bind_params_ok declared.distinct ok i p here
  rw [positional_slot_bound declared plain taken here] at given
  rw [reads, show (⟨op.name, []⟩ : Bound).value? p.label = none from rfl, Option.or_none]
  cases share : p.share (s.args.drop i) with
  | none =>
      simp only [share] at given
      by_cases required : p.required = true
      · simp [required] at given
      · simp only [required, Bool.false_eq_true, ↓reduceIte, Except.ok.injEq] at given
        exact ⟨fun needed => absurd needed required, nofun, given.symm⟩
  | some t =>
      simp only [share] at given
      by_cases unread : p.rest = true ∧ p.type = .int ∧ readInt t = none
      · simp [unread] at given
      · simp only [unread, ↓reduceIte, Except.ok.injEq] at given
        refine ⟨nofun, ?_, given.symm⟩
        rintro _ rest int ⟨rfl⟩ none
        exact unread ⟨rest, int, none⟩

end Statement

/-- A call of an operation that an accepted schema declares, with arguments by position and without
variables. Where its statement is accepted, binding the slots succeeds exactly if every required
parameter is given something and what an int parameter takes as the rest reads as an int. Every
parameter then reads what it is given, or its fallback; and where binding fails, it is for one of
these two reasons, never for the number of arguments. -/
theorem positional_arguments_bound_iff {text : Text} {schema : Schema}
    (accepted : Schema.load text = .ok schema) {op : OperationSpec}
    (member : op ∈ schema.operations) {s : Statement}
    (plain : ∀ arg ∈ s.args, ascii '$' ∉ arg.text) {slots : List Value}
    (taken : s.positional op = .ok slots) :
    ((∃ b, op.bind slots = .ok b) ↔
      ∀ (i : Nat) (p : ParamSpec), op.params[i]? = some p →
        (p.required = true → p.share (s.args.drop i) ≠ none) ∧
        ∀ t, p.rest = true → p.type = .int → p.share (s.args.drop i) = some t →
          readInt t ≠ none) ∧
    (∀ b, op.bind slots = .ok b → ∀ (i : Nat) (p : ParamSpec), op.params[i]? = some p →
      b.value? p.label = p.reads (p.share (s.args.drop i))) ∧
    ∀ reason, op.bind slots = .error reason →
      ∃ (i : Nat) (p : ParamSpec), op.params[i]? = some p ∧
        (p.required = true ∧ p.share (s.args.drop i) = none ∧
            reason = .missingParam op.name p.label ∨
          ∃ t, p.rest = true ∧ p.type = .int ∧ p.share (s.args.drop i) = some t ∧
            readInt t = none ∧ reason = .textNotInt op.name p.label t) := by
  have declared := Schema.accepted_declared accepted op member
  refine ⟨⟨?_, ?_⟩, ?_, ?_⟩
  · rintro ⟨b, ok⟩ i p here
    obtain ⟨given, read, -⟩ := Statement.positional_bind_ok declared plain taken ok here
    exact ⟨given, read⟩
  · intro supplied
    cases broke : op.bind slots with
    | ok b => exact ⟨b, rfl⟩
    | error reason =>
        obtain ⟨i, p, here, lacking⟩ :=
          Statement.positional_bind_error declared plain taken broke
        obtain ⟨given, read⟩ := supplied i p here
        rcases lacking with ⟨required, none, -⟩ | ⟨t, rest, int, some, unread, -⟩
        · exact absurd none (given required)
        · exact absurd unread (read t rest int some)
  · intro b ok i p here
    exact (Statement.positional_bind_ok declared plain taken ok here).2.2
  · intro reason broke
    exact Statement.positional_bind_error declared plain taken broke

/-- An operation whose second parameter is required and takes an int as the rest, behind an optional
one. -/
def pausing : Text :=
  "operations:
  pause:
    params:
      - alias: why
      - alias: seconds
        type: int
        required: true
        rest: true
"

def pauseOperation : OperationSpec :=
  ⟨"pause", .positional,
    [⟨"why", 0, false, .absent, .text, false⟩, ⟨"seconds", 1, true, .absent, .int, true⟩]⟩

theorem pausing_accepted : Schema.load pausing = .ok ⟨[pauseOperation], []⟩ :=
  Schema.load_listed (by decide +kernel) (by decide)

def pauseStatement : Statement :=
  ⟨⟨.operation, "pause", 1⟩, [⟨.word, "rest", 1⟩, ⟨.number, "9", 1⟩]⟩

/-- A pause is given a word and an int, so binding succeeds and both are read. -/
theorem pause_of_seconds_bound :
    Schema.load pausing = .ok ⟨[pauseOperation], []⟩ ∧
      (∀ arg ∈ pauseStatement.args, ascii '$' ∉ arg.text) ∧
      pauseStatement.positional pauseOperation = .ok [.text "rest", .text "9"] ∧
      ∃ b, pauseOperation.bind [.text "rest", .text "9"] = .ok b ∧
        b.value? "why" = some (.text "rest") ∧ b.value? "seconds" = some (.int 9) := by
  have plain : ∀ arg ∈ pauseStatement.args, ascii '$' ∉ arg.text := by decide
  have taken : pauseStatement.positional pauseOperation = .ok [.text "rest", .text "9"] := by
    decide
  have bound := positional_arguments_bound_iff pausing_accepted (by simp) plain taken
  obtain ⟨b, ok⟩ := bound.1.mpr fun i p here => by
    match i, here with
    | 0, rfl => exact ⟨nofun, nofun⟩
    | 1, rfl =>
        constructor
        · decide
        · rintro t - - ⟨rfl⟩
          decide
  refine ⟨pausing_accepted, plain, taken, b, ok, ?_, ?_⟩
  · exact bound.2.1 b ok 0 _ rfl
  · exact bound.2.1 b ok 1 _ rfl

/-- A pause without arguments is accepted, and so is one of words that are no int; both fail when
they are called. -/
theorem accepted_pause_fails :
    Schema.load pausing = .ok ⟨[pauseOperation], []⟩ ∧
      (∃ s : Statement, s.args = [] ∧ s.positional pauseOperation = .ok [] ∧
        pauseOperation.bind [] = .error (.missingParam "pause" "seconds")) ∧
      ∃ s : Statement, (∀ arg ∈ s.args, ascii '$' ∉ arg.text) ∧
        s.positional pauseOperation = .ok [.text "rest", .text "1 m"] ∧
        pauseOperation.bind [.text "rest", .text "1 m"] =
          .error (.textNotInt "pause" "seconds" "1 m") := by
  refine ⟨pausing_accepted, ⟨⟨⟨.operation, "pause", 1⟩, []⟩, ?_, ?_, ?_⟩,
    ⟨⟨.operation, "pause", 2⟩,
      [⟨.word, "rest", 2⟩, ⟨.number, "1", 2⟩, ⟨.word, "m", 2⟩]⟩, ?_, ?_, ?_⟩
  all_goals decide

end DeviceScript

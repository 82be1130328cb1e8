import DeviceScript.Proofs.Operation.Binding
import Mathlib.Data.List.Perm.Basic

/-!
Options. Arguments that are pairs of a flag and a value are put into the slots of the parameters
that the flags name, in whatever order they are written, and the call reads them from there.
-/

namespace DeviceScript

open Text

/-- The argument names a parameter: it is a word of a dash and the label. -/
structure Token.Flags (t : Token) (p : ParamSpec) : Prop where
  word : t.kind = .word
  text : t.text = ascii '-' :: p.label

def inPairs (pairs : List (Token × Token)) : List Token :=
  pairs.flatMap fun pair => [pair.1, pair.2]

namespace OperationSpec

/-- What pairs of a flag and a value are to be for an operation. -/
structure Takes (op : OperationSpec) (pairs : List (Token × Token)) : Prop where
  named : ∀ pair ∈ pairs, ∃ p ∈ op.params, pair.1.Flags p
  distinct : (pairs.map fun pair => pair.1.text).Nodup
  typed : ∀ pair ∈ pairs, ∀ p ∈ op.params, pair.1.Flags p → p.type = .int →
    ascii '$' ∈ pair.2.text ∨ readInt pair.2.text ≠ none
  supplied : ∀ p ∈ op.params, p.required = true → ∃ pair ∈ pairs, pair.1.Flags p

/-- What a pair puts into which slot. -/
def Puts (op : OperationSpec) (pair : Token × Token) (entry : Int × Value) : Prop :=
  ∃ p ∈ op.params, pair.1.Flags p ∧ entry.1 = p.position ∧
    Statement.argumentValue op.name p pair.2 = .ok entry.2

variable {op : OperationSpec}

theorem param_iff (distinct : (op.params.map ParamSpec.label).Nodup) {label : Text}
    {p : ParamSpec} : op.param? label = some p ↔ p ∈ op.params ∧ p.label = label :=
  find_named_iff distinct

theorem param_of_position (slots : op.InSlots) {p q : ParamSpec} (first : p ∈ op.params)
    (second : q ∈ op.params) (same : p.position = q.position) : p = q := by
  obtain ⟨i, here⟩ := List.getElem?_of_mem first
  obtain ⟨j, there⟩ := List.getElem?_of_mem second
  rw [slots i p here, slots j q there] at same
  obtain rfl : i = j := by exact_mod_cast same
  exact Option.some.inj (here.symm.trans there)

/-- Two pairs go to one slot exactly if their flags are the same. -/
theorem Puts.same_slot (declared : op.Declared) (slots : op.InSlots) {pair pair' : Token × Token}
    {entry entry' : Int × Value} (first : op.Puts pair entry) (second : op.Puts pair' entry') :
    pair.1.text = pair'.1.text ↔ entry.1 = entry'.1 := by
  obtain ⟨p, member, flags, place, -⟩ := first
  obtain ⟨q, member', flags', place', -⟩ := second
  rw [flags.text, flags'.text, place, place', List.cons.injEq]
  constructor
  · rintro ⟨-, same⟩
    rw [List.inj_on_of_nodup_map declared.distinct member member' same]
  · intro same
    rw [param_of_position slots member member' same]
    exact ⟨rfl, rfl⟩

theorem flagged_param (declared : op.Declared) {t : Token} {p q : ParamSpec}
    (first : p ∈ op.params) (second : q ∈ op.params) (flags : t.Flags p) (flags' : t.Flags q) :
    p = q := by
  have same := flags.text.symm.trans flags'.text
  exact List.inj_on_of_nodup_map declared.distinct first second (List.cons.inj same).2

end OperationSpec

namespace Statement

variable {s : Statement} {op : OperationSpec} {given found : Given}

theorem options_from_single (flag : Token) : s.optionsFrom op given [flag] ≠ .ok found := by
  intro read
  simp only [optionsFrom] at read
  split at read
  · cases read
  · split at read
    · cases read
    · split at read
      · cases read
      · split at read <;> cases read

theorem options_from_pair (distinct : (op.params.map ParamSpec.label).Nodup) {flag arg : Token}
    {args : List Token} :
    s.optionsFrom op given (flag :: arg :: args) = .ok found ↔
      ∃ entry, op.Puts (flag, arg) entry ∧ given.value? entry.1 = none ∧
        s.optionsFrom op (entry :: given) args = .ok found := by
  constructor
  · intro read
    rw [optionsFrom.eq_def] at read
    simp only at read
    split at read
    · cases read
    · next mark label spelled =>
        split at read
        · cases read
        · next flagged =>
            split at read
            · cases read
            · next p named =>
                split at read
                · cases read
                · next free =>
                    cases value : argumentValue op.name p arg with
                    | error located => simp [value] at read
                    | ok v =>
                        simp only [value] at read
                        obtain ⟨member, rfl⟩ := (OperationSpec.param_iff distinct).mp named
                        simp only [Bool.or_eq_true, bne_iff_ne, not_or, not_not] at flagged
                        refine ⟨(p.position, v), ⟨p, member, ⟨flagged.1, ?_⟩, rfl, value⟩, ?_, read⟩
                        · rw [spelled, flagged.2]
                        · simpa using free
  · rintro ⟨⟨position, v⟩, ⟨p, member, ⟨word, spelled⟩, rfl, value⟩, free, read⟩
    have named := (OperationSpec.param_iff distinct).mpr ⟨member, rfl⟩
    rw [optionsFrom.eq_def]
    simp only at word spelled free value
    simp [spelled, word, named, free, value, read]

theorem options_from_paired (distinct : (op.params.map ParamSpec.label).Nodup) {given : Given}
    {args : List Token} (read : s.optionsFrom op given args = .ok found) :
    ∃ pairs, args = inPairs pairs := by
  match args, read with
  | [], _ => exact ⟨[], rfl⟩
  | [flag], read => exact absurd read (options_from_single flag)
  | flag :: arg :: args, read =>
      obtain ⟨entry, -, -, onward⟩ := (options_from_pair distinct).mp read
      obtain ⟨pairs, rfl⟩ := options_from_paired distinct onward
      exact ⟨(flag, arg) :: pairs, rfl⟩

theorem given_value_cons (entry : Int × Value) (given : Given) (position : Int) :
    Given.value? (entry :: given) position =
      if entry.1 = position then some entry.2 else given.value? position := by
  by_cases same : entry.1 = position <;> simp [Given.value?, same]

theorem given_value_free {entry : Int × Value} {given : Given} {position : Int} :
    Given.value? (entry :: given) position = none ↔
      entry.1 ≠ position ∧ given.value? position = none := by
  rw [given_value_cons]
  by_cases same : entry.1 = position <;> simp [same]

/-- Pairs are read one after the other, each into a slot that is still free. -/
theorem options_from_pairs (distinct : (op.params.map ParamSpec.label).Nodup)
    (pairs : List (Token × Token)) :
    s.optionsFrom op given (inPairs pairs) = .ok found ↔
      ∃ entries, List.Forall₂ op.Puts pairs entries ∧ (entries.map Prod.fst).Nodup ∧
        (∀ e ∈ entries, given.value? e.1 = none) ∧ found = entries.reverse ++ given := by
  induction pairs generalizing given with
  | nil =>
      constructor
      · intro read
        cases read
        exact ⟨[], .nil, List.nodup_nil, nofun, rfl⟩
      · rintro ⟨_, ⟨⟩, -, -, rfl⟩
        rfl
  | cons pair rest ih =>
      obtain ⟨flag, arg⟩ := pair
      -- After a pair, a slot is free if it was free before and is not the one of the pair.
      have apart (entry : Int × Value) (entries : Given) :
          (∀ e ∈ entries, Given.value? (entry :: given) e.1 = none) ↔
            entry.1 ∉ entries.map Prod.fst ∧ ∀ e ∈ entries, given.value? e.1 = none := by
        simp only [given_value_free]
        constructor
        · intro free
          refine ⟨?_, fun e among => (free e among).2⟩
          intro taken
          obtain ⟨e, among, same⟩ := List.mem_map.mp taken
          exact (free e among).1 same.symm
        · rintro ⟨fresh, free⟩ e among
          exact ⟨fun same => fresh (same ▸ List.mem_map_of_mem among), free e among⟩
      show s.optionsFrom op given (flag :: arg :: inPairs rest) = .ok found ↔ _
      rw [options_from_pair distinct]
      constructor
      · rintro ⟨entry, puts, free, onward⟩
        obtain ⟨entries, each, distinct, others, rfl⟩ := ih.mp onward
        obtain ⟨fresh, others⟩ := (apart entry entries).mp others
        have apart := List.nodup_cons.mpr ⟨fresh, distinct⟩
        refine ⟨entry :: entries, .cons puts each, apart, ?_, by simp⟩
        exact List.forall_mem_cons.mpr ⟨free, others⟩
      · rintro ⟨_, each, distinct, free, rfl⟩
        cases each with
        | @cons _ entry _ entries puts each =>
            obtain ⟨fresh, distinct⟩ := List.nodup_cons.mp distinct
            obtain ⟨here, others⟩ := List.forall_mem_cons.mp free
            refine ⟨entry, puts, here, ih.mpr ⟨entries, each, distinct, ?_, by simp⟩⟩
            exact (apart entry entries).mpr ⟨fresh, others⟩

theorem given_value_iff {entries : Given} (distinct : (entries.map Prod.fst).Nodup) {position : Int}
    {v : Value} : entries.value? position = some v ↔ (position, v) ∈ entries := by
  induction entries with
  | nil => simp [Given.value?]
  | cons entry rest ih =>
      obtain ⟨fresh, distinct⟩ := List.nodup_cons.mp distinct
      rw [given_value_cons, List.mem_cons]
      by_cases same : entry.1 = position
      · subst same
        have other : (entry.1, v) ∉ rest := fun among => fresh (List.mem_map.mpr ⟨_, among, rfl⟩)
        simp only [↓reduceIte, Option.some.injEq, other, or_false]
        constructor
        · rintro rfl
          rfl
        · intro same
          rw [← same]
      · rw [if_neg same, ih distinct]
        constructor
        · exact .inr
        · rintro (rfl | among)
          · exact absurd rfl same
          · exact among

theorem missing_required_none {given : Given} {slot : Nat} {ps : List ParamSpec} :
    missingRequired? given slot ps = none ↔
      ∀ (i : Nat) (p : ParamSpec), ps[i]? = some p → p.required = true →
        given.value? (slot + i : Nat) ≠ none := by
  induction ps generalizing slot with
  | nil => simp [missingRequired?]
  | cons first rest ih =>
      have here : missingRequired? given slot (first :: rest) = none ↔
          (first.required = true → given.value? slot ≠ none) ∧
            missingRequired? given (slot + 1) rest = none := by
        simp only [missingRequired?]
        cases first.required with
        | false => simp
        | true => cases given.value? slot <;> simp
      have shift (i : Nat) : slot + 1 + i = slot + (i + 1) := by omega
      rw [here, ih, forall_placed_cons]
      simp only [shift, Nat.add_zero]

theorem slot_values_given (given : Given) (slot : Nat) (ps : List ParamSpec) :
    (slotValues given slot ps).length ≤ ps.length ∧ ∀ i < ps.length,
      (slotValues given slot ps)[i]?.getD .absent =
        (given.value? (slot + i : Nat)).getD .absent := by
  induction ps generalizing slot with
  | nil => exact ⟨Nat.le_refl 0, nofun⟩
  | cons first rest ih =>
      obtain ⟨short, each⟩ := ih (slot + 1)
      simp only [slotValues]
      split
      · -- Nothing is given from here on.
        next none nothing =>
          rw [nothing] at each
          constructor
          · exact Nat.zero_le _
          · intro i inside
            cases i with
            | zero => simp [none]
            | succ i =>
                have later := each i (by simpa using inside)
                rwa [Nat.add_assoc, Nat.add_comm 1 i] at later
      · constructor
        · simpa using short
        · intro i inside
          cases i with
          | zero => rfl
          | succ i =>
              have later := each i (by simpa using inside)
              rwa [Nat.add_assoc, Nat.add_comm 1 i] at later

theorem slot_values_congr {given given' : Given} {slot : Nat} {ps : List ParamSpec}
    (same : ∀ i < ps.length, given.value? (slot + i : Nat) = given'.value? (slot + i : Nat)) :
    slotValues given slot ps = slotValues given' slot ps := by
  induction ps generalizing slot with
  | nil => rfl
  | cons first rest ih =>
      have here : given.value? slot = given'.value? slot := same 0 (by simp)
      have later : slotValues given (slot + 1) rest = slotValues given' (slot + 1) rest := by
        apply ih
        intro i inside
        have there := same (i + 1) (by simpa using inside)
        rwa [Nat.add_assoc, Nat.add_comm 1 i]
      simp only [slotValues, here, later]

section Filled

variable (declared : op.Declared) (inSlots : op.InSlots) {pairs : List (Token × Token)}
  {entries : Given} (each : List.Forall₂ op.Puts pairs entries)
  (distinct : (entries.map Prod.fst).Nodup)

include declared inSlots each distinct in
theorem filled_iff {i : Nat} {p : ParamSpec} (here : op.params[i]? = some p) (v : Value) :
    Given.value? entries.reverse i = some v ↔
      ∃ pair ∈ pairs, pair.1.Flags p ∧ argumentValue op.name p pair.2 = .ok v := by
  have member := List.mem_of_getElem? here
  have reversed : (entries.reverse.map Prod.fst).Nodup := by simpa using distinct
  rw [given_value_iff reversed, List.mem_reverse]
  constructor
  · intro among
    obtain ⟨pair, written, q, known, flags, place, value⟩ := mem_of_forall₂ each _ among
    have same := place.symm.trans (inSlots i p here).symm
    obtain rfl := OperationSpec.param_of_position inSlots known member same
    exact ⟨pair, written, flags, value⟩
  · rintro ⟨pair, written, flags, value⟩
    obtain ⟨⟨position, w⟩, among, q, known, flags', place, value'⟩ :=
      mem_of_forall₂ each.flip pair written
    obtain rfl := OperationSpec.flagged_param declared known member flags' flags
    simp only at place value'
    cases value.symm.trans value'
    rwa [place, inSlots i q here] at among

include declared inSlots each distinct in
theorem filled_some_iff {i : Nat} {p : ParamSpec} (here : op.params[i]? = some p) :
    Given.value? entries.reverse i ≠ none ↔ ∃ pair ∈ pairs, pair.1.Flags p := by
  rw [Option.ne_none_iff_exists']
  constructor
  · rintro ⟨v, found⟩
    obtain ⟨pair, written, flags, -⟩ := (filled_iff declared inSlots each distinct here v).mp found
    exact ⟨pair, written, flags⟩
  · rintro ⟨pair, written, flags⟩
    obtain ⟨entry, -, q, known, flags', -, value⟩ := mem_of_forall₂ each.flip pair written
    have member := List.mem_of_getElem? here
    obtain rfl := OperationSpec.flagged_param declared known member flags' flags
    exact ⟨entry.2, (filled_iff declared inSlots each distinct here _).mpr
      ⟨pair, written, flags, value⟩⟩

end Filled

/-- Arguments in pairs are accepted exactly if each pair goes to a slot of its own and every
required parameter is given. -/
theorem options_ok_iff (declared : op.Declared) (inSlots : op.InSlots)
    {pairs : List (Token × Token)} (args : s.args = inPairs pairs) {slots : List Value} :
    s.options op = .ok slots ↔
      ∃ entries, List.Forall₂ op.Puts pairs entries ∧ (entries.map Prod.fst).Nodup ∧
        (∀ p ∈ op.params, p.required = true → ∃ pair ∈ pairs, pair.1.Flags p) ∧
        slots = slotValues entries.reverse 0 op.params := by
  have read (found : Given) : s.optionsFrom op [] (inPairs pairs) = .ok found ↔
      ∃ entries, List.Forall₂ op.Puts pairs entries ∧ (entries.map Prod.fst).Nodup ∧
        (∀ e ∈ entries, Given.value? [] e.1 = none) ∧ found = entries.reverse := by
    rw [options_from_pairs declared.distinct]
    simp only [List.append_nil]
  simp only [options, args]
  constructor
  · intro ok
    split at ok
    · cases ok
    · next given taken =>
        obtain ⟨entries, each, distinct, -, rfl⟩ := (read given).mp taken
        split at ok
        · cases ok
        · next complete =>
            cases ok
            refine ⟨entries, each, distinct, ?_, rfl⟩
            intro p member required
            obtain ⟨i, here⟩ := List.getElem?_of_mem member
            have given := missing_required_none.mp complete i p here required
            rw [Nat.zero_add] at given
            exact (filled_some_iff declared inSlots each distinct here).mp given
  · rintro ⟨entries, each, distinct, supplied, rfl⟩
    have taken := (read _).mpr ⟨entries, each, distinct, fun _ _ => rfl, rfl⟩
    -- No slot of a required parameter is empty, since a pair was put there.
    have complete : missingRequired? entries.reverse 0 op.params = none := by
      apply missing_required_none.mpr
      intro i p here required
      rw [Nat.zero_add]
      exact (filled_some_iff declared inSlots each distinct here).mpr
        (supplied p (List.mem_of_getElem? here) required)
    simp only [taken, complete]

/-- Pairs find slots of their own exactly if their flags name distinct parameters and their values
have the types of these. -/
theorem puts_exist_iff (declared : op.Declared) (inSlots : op.InSlots)
    {pairs : List (Token × Token)} :
    (∃ entries, List.Forall₂ op.Puts pairs entries ∧ (entries.map Prod.fst).Nodup) ↔
      (∀ pair ∈ pairs, ∃ p ∈ op.params, pair.1.Flags p) ∧
        (pairs.map fun pair => pair.1.text).Nodup ∧
        ∀ pair ∈ pairs, ∀ p ∈ op.params, pair.1.Flags p → p.type = .int →
          ascii '$' ∈ pair.2.text ∨ readInt pair.2.text ≠ none := by
  have alike (a : Token × Token) (b : Int × Value) (a' : Token × Token) (b' : Int × Value)
      (first : op.Puts a b) (second : op.Puts a' b') : a.1.text = a'.1.text ↔ b.1 = b'.1 :=
    first.same_slot declared inSlots second
  constructor
  · rintro ⟨entries, each, distinct⟩
    refine ⟨?_, (nodup_related alike each).mpr distinct, ?_⟩
    · intro pair written
      obtain ⟨-, -, p, known, flags, -, -⟩ := mem_of_forall₂ each.flip pair written
      exact ⟨p, known, flags⟩
    · intro pair written p member flags
      obtain ⟨entry, -, q, known, flags', -, value⟩ := mem_of_forall₂ each.flip pair written
      obtain rfl := OperationSpec.flagged_param declared known member flags' flags
      exact argument_value_ok_iff.mp ⟨_, value⟩
  · rintro ⟨named, distinct, typed⟩
    -- Each pair has a slot by itself; that the slots are distinct is said of the flags.
    have put : ∃ entries, List.Forall₂ op.Puts pairs entries := by
      clear distinct
      induction pairs with
      | nil => exact ⟨[], .nil⟩
      | cons pair rest ih =>
          obtain ⟨here, others⟩ := List.forall_mem_cons.mp named
          obtain ⟨fits, further⟩ := List.forall_mem_cons.mp typed
          obtain ⟨entries, each⟩ := ih others further
          obtain ⟨p, member, flags⟩ := here
          obtain ⟨v, value⟩ := argument_value_ok_iff.mpr (fits p member flags)
          exact ⟨(p.position, v) :: entries, .cons ⟨p, member, flags, rfl, value⟩ each⟩
    obtain ⟨entries, each⟩ := put
    exact ⟨entries, each, (nodup_related alike each).mp distinct⟩

theorem options_accepted_iff (declared : op.Declared) (inSlots : op.InSlots) :
    (∃ slots, s.options op = .ok slots) ↔ ∃ pairs, s.args = inPairs pairs ∧ op.Takes pairs := by
  constructor
  · rintro ⟨slots, ok⟩
    have paired : ∃ pairs, s.args = inPairs pairs := by
      simp only [options] at ok
      split at ok
      · cases ok
      · next taken => exact options_from_paired declared.distinct taken
    obtain ⟨pairs, args⟩ := paired
    obtain ⟨entries, each, distinct, supplied, -⟩ := (options_ok_iff declared inSlots args).mp ok
    obtain ⟨named, apart, typed⟩ :=
      (puts_exist_iff declared inSlots).mp ⟨entries, each, distinct⟩
    exact ⟨pairs, args, named, apart, typed, supplied⟩
  · rintro ⟨pairs, args, takes⟩
    obtain ⟨entries, each, distinct⟩ :=
      (puts_exist_iff declared inSlots).mpr ⟨takes.named, takes.distinct, takes.typed⟩
    exact ⟨_, (options_ok_iff declared inSlots args).mpr
      ⟨entries, each, distinct, takes.supplied, rfl⟩⟩

theorem options_reordered (declared : op.Declared) (inSlots : op.InSlots) {other : Statement}
    {pairs pairs' : List (Token × Token)} (reordered : pairs'.Perm pairs)
    (args : s.args = inPairs pairs) (args' : other.args = inPairs pairs') {slots : List Value}
    (ok : s.options op = .ok slots) : other.options op = .ok slots := by
  obtain ⟨entries, each, distinct, supplied, rfl⟩ := (options_ok_iff declared inSlots args).mp ok
  obtain ⟨entries', each', permuted⟩ := List.perm_comp_forall₂ reordered each
  have distinct' : (entries'.map Prod.fst).Nodup :=
    (permuted.map Prod.fst).nodup_iff.mpr distinct
  refine (options_ok_iff declared inSlots args').mpr ⟨entries', each', distinct', ?_, ?_⟩
  · intro p member required
    obtain ⟨pair, written, flags⟩ := supplied p member required
    exact ⟨pair, reordered.mem_iff.mpr written, flags⟩
  · apply slot_values_congr
    intro i inside
    apply Option.ext
    intro v
    have reversed : (entries.reverse.map Prod.fst).Nodup := by simpa using distinct
    have reversed' : (entries'.reverse.map Prod.fst).Nodup := by simpa using distinct'
    rw [given_value_iff reversed, given_value_iff reversed', List.mem_reverse, List.mem_reverse,
      permuted.mem_iff]

/-- What the pairs come to in the slots, and that these are not too many. -/
theorem options_slots (declared : op.Declared) (inSlots : op.InSlots)
    {pairs : List (Token × Token)} (args : s.args = inPairs pairs) {slots : List Value}
    (ok : s.options op = .ok slots) :
    slots.length ≤ op.params.length ∧ ∀ (i : Nat) (p : ParamSpec), op.params[i]? = some p →
      (∀ pair ∈ pairs, pair.1.Flags p →
        argumentValue op.name p pair.2 = .ok (slots[i]?.getD .absent)) ∧
      ((∀ pair ∈ pairs, ¬ pair.1.Flags p) →
        p.required = false ∧ slots[i]?.getD .absent = .absent) := by
  obtain ⟨entries, each, distinct, supplied, rfl⟩ := (options_ok_iff declared inSlots args).mp ok
  obtain ⟨short, given⟩ := slot_values_given entries.reverse 0 op.params
  refine ⟨short, ?_⟩
  intro i p here
  have slot := given i (List.getElem?_eq_some_iff.mp here).1
  rw [Nat.zero_add] at slot
  rw [slot]
  have filled := filled_some_iff declared inSlots each distinct here
  constructor
  · intro pair written flags
    obtain ⟨entry, -, q, known, flags', -, value⟩ := mem_of_forall₂ each.flip pair written
    have member := List.mem_of_getElem? here
    -- A flag names one parameter, so the pair was put into this slot.
    obtain rfl := OperationSpec.flagged_param declared known member flags' flags
    rw [(filled_iff declared inSlots each distinct here entry.2).mpr ⟨pair, written, flags, value⟩]
    exact value
  · intro unnamed
    constructor
    · apply eq_false_of_ne_true
      intro required
      obtain ⟨pair, written, flags⟩ := supplied p (List.mem_of_getElem? here) required
      exact unnamed pair written flags
    · have empty : Given.value? entries.reverse i = none := by
        by_contra found
        obtain ⟨pair, written, flags⟩ := filled.mp found
        exact unnamed pair written flags
      rw [empty]
      rfl

theorem argument_value_bound {name : Text} {p : ParamSpec} {arg : Token} {v : Value}
    (plain : p.type = .int → ascii '$' ∉ arg.text) (value : argumentValue name p arg = .ok v) :
    p.bindSlot name v = .ok (p.reads (some arg.text)) ∧ p.reads (some arg.text) ≠ none := by
  rcases argument_value_plain plain value with ⟨int, n, read, rfl⟩ | ⟨free, rfl⟩
  · rw [ParamSpec.bind_slot_int name int]
    simp [ParamSpec.reads, int, read]
  · rw [ParamSpec.bind_slot_text]
    simp [ParamSpec.reads, free]

end Statement

/-- What a parameter is to read: the value behind its flag, or without one its fallback. -/
structure ParamSpec.ReadsFrom (p : ParamSpec) (pairs : List (Token × Token))
    (found : Option Value) : Prop where
  given : ∀ pair ∈ pairs, pair.1.Flags p →
    found = p.reads (some pair.2.text) ∧ p.reads (some pair.2.text) ≠ none
  unnamed : (∀ pair ∈ pairs, ¬ pair.1.Flags p) → found = p.reads none

namespace Statement

variable {s : Statement} {op : OperationSpec}

section Bound

variable (declared : op.Declared) (inSlots : op.InSlots) {pairs : List (Token × Token)}
  (args : s.args = inPairs pairs)
  (plain : ∀ pair ∈ pairs, ∀ p ∈ op.params, pair.1.Flags p → p.type = .int →
    ascii '$' ∉ pair.2.text)
  {slots : List Value} (ok : s.options op = .ok slots)

include declared inSlots args plain ok

theorem options_slot_bound {i : Nat} {p : ParamSpec} (here : op.params[i]? = some p) :
    ∃ found, p.bindSlot op.name (slots[i]?.getD .absent) = .ok found ∧ p.ReadsFrom pairs found := by
  have member := List.mem_of_getElem? here
  obtain ⟨given, free⟩ := (options_slots declared inSlots args ok).2 i p here
  have bound (pair : Token × Token) (written : pair ∈ pairs) (flags : pair.1.Flags p) :=
    argument_value_bound (plain pair written p member flags) (given pair written flags)
  by_cases named : ∃ pair ∈ pairs, pair.1.Flags p
  · obtain ⟨pair, written, flags⟩ := named
    refine ⟨_, (bound pair written flags).1, ?_, fun unnamed => absurd flags (unnamed pair written)⟩
    intro again written' flags'
    obtain ⟨other, reads⟩ := bound again written' flags'
    rw [(bound pair written flags).1, Except.ok.injEq] at other
    exact ⟨other, reads⟩
  · have unnamed : ∀ pair ∈ pairs, ¬ pair.1.Flags p := by simpa using named
    obtain ⟨optional, empty⟩ := free unnamed
    refine ⟨p.reads none, ?_, fun pair written flags => absurd flags (unnamed pair written),
      fun _ => rfl⟩
    rw [empty, ParamSpec.bind_slot_absent op.name (declared.params p member), optional]
    rfl

theorem options_bound : ∃ b, op.bind slots = .ok b ∧
    ∀ p ∈ op.params, p.ReadsFrom pairs (b.value? p.label) := by
  have short := (options_slots declared inSlots args ok).1
  have whole : op.bind slots = OperationSpec.bindParams op.name op.params slots ⟨op.name, []⟩ :=
    if_neg (Nat.not_lt.mpr short)
  rw [whole]
  cases result : OperationSpec.bindParams op.name op.params slots ⟨op.name, []⟩ with
  | error reason =>
      obtain ⟨i, p, here, refused⟩ := OperationSpec.bind_params_error result
      obtain ⟨found, bound, -⟩ := options_slot_bound declared inSlots args plain ok here
      rw [bound] at refused
      cases refused
  | ok b =>
      refine ⟨b, rfl, ?_⟩
      intro p member
      obtain ⟨i, here⟩ := List.getElem?_of_mem member
      obtain ⟨found, bound, reads⟩ := options_slot_bound declared inSlots args plain ok here
      obtain ⟨v, slot, value⟩ := OperationSpec.bind_params_ok declared.distinct result i p here
      rw [bound, Except.ok.injEq] at slot
      have fresh : (⟨op.name, []⟩ : Bound).value? p.label = none := rfl
      rw [value, ← slot, fresh, Option.or_none]
      exact reads

end Bound

end Statement

/-- A statement of an operation that an accepted schema declares, its arguments read as options.
They are accepted exactly if they are pairs of a flag and a value, where the flags name distinct
parameters, every int is given an int or waits for a variable, and nothing required is left out.
Where no int waits for a variable the call is bound, and every parameter reads the value behind its
flag, or without one its fallback. The order of the pairs makes no difference to the slots. -/
theorem option_arguments_bound_iff {text : Text} {schema : Schema}
    (accepted : Schema.load text = .ok schema) {op : OperationSpec}
    (member : op ∈ schema.operations) (s : Statement) :
    ((∃ slots, s.options op = .ok slots) ↔ ∃ pairs, s.args = inPairs pairs ∧ op.Takes pairs) ∧
    ∀ pairs slots, s.args = inPairs pairs → s.options op = .ok slots →
      ((∀ pair ∈ pairs, ∀ p ∈ op.params, pair.1.Flags p → p.type = .int →
          ascii '$' ∉ pair.2.text) →
        ∃ b, op.bind slots = .ok b ∧ ∀ p ∈ op.params, p.ReadsFrom pairs (b.value? p.label)) ∧
      ∀ (other : Statement) (pairs' : List (Token × Token)), pairs'.Perm pairs →
        other.args = inPairs pairs' → other.options op = .ok slots := by
  have declared := Schema.accepted_declared accepted op member
  have inSlots := (Schema.accepted_operation accepted op member).2
  refine ⟨Statement.options_accepted_iff declared inSlots, ?_⟩
  intro pairs slots args ok
  constructor
  · intro plain
    exact Statement.options_bound declared inSlots args plain ok
  · intro other pairs' reordered args'
    exact Statement.options_reordered declared inSlots reordered args args' ok

/-- An operation that takes options: a text that is required, and an int with a fallback. -/
def finding : Text :=
  "operations:
  find:
    mode: options
    params:
      - alias: what
        required: true
      - alias: times
        type: int
        default: 3
"

def findOperation : OperationSpec :=
  ⟨"find", .options,
    [⟨"what", 0, true, .absent, .text, false⟩, ⟨"times", 1, false, .int 3, .int, false⟩]⟩

theorem finding_accepted : Schema.load finding = .ok ⟨[findOperation], []⟩ :=
  Schema.load_listed (by decide +kernel) (by decide)

def findPairs : List (Token × Token) :=
  [(⟨.word, "-times", 1⟩, ⟨.number, "2", 1⟩), (⟨.word, "-what", 1⟩, ⟨.word, "probe", 1⟩)]

def findStatement : Statement := ⟨⟨.operation, "find", 1⟩, inPairs findPairs⟩

/-- A search is given an int and a text, in the other order than they are declared; both are read
where they belong, and the slots are those of the declared order. -/
theorem find_probe_bound :
    Schema.load finding = .ok ⟨[findOperation], []⟩ ∧
      (∃ pairs, findStatement.args = inPairs pairs ∧ findOperation.Takes pairs) ∧
      findStatement.options findOperation = .ok [.text "probe", .int 2] ∧
      (∃ b, findOperation.bind [.text "probe", .int 2] = .ok b ∧
        b.value? "what" = some (.text "probe") ∧ b.value? "times" = some (.int 2)) ∧
      ∀ other : Statement, other.args = inPairs findPairs.reverse →
        other.options findOperation = .ok [.text "probe", .int 2] := by
  have given : findStatement.options findOperation = .ok [.text "probe", .int 2] := by decide
  obtain ⟨accepted, found⟩ :=
    option_arguments_bound_iff finding_accepted (List.mem_singleton_self _) findStatement
  obtain ⟨bound, reordered⟩ := found findPairs _ rfl given
  have plain : ∀ pair ∈ findPairs, ascii '$' ∉ pair.2.text := by decide
  obtain ⟨b, ok, reads⟩ := bound fun pair written _ _ _ _ => plain pair written
  refine ⟨finding_accepted, accepted.mp ⟨_, given⟩, given, ⟨b, ok, ?_, ?_⟩, ?_⟩
  · have what := reads ⟨"what", 0, true, .absent, .text, false⟩ (.head _)
    exact (what.given (⟨.word, "-what", 1⟩, ⟨.word, "probe", 1⟩) (.tail _ (.head _)) ⟨rfl, rfl⟩).1
  · have times := reads ⟨"times", 1, false, .int 3, .int, false⟩ (.tail _ (.head _))
    exact (times.given (⟨.word, "-times", 1⟩, ⟨.number, "2", 1⟩) (.head _) ⟨rfl, rfl⟩).1
  · intro other args
    exact reordered other _ findPairs.reverse_perm args

end DeviceScript

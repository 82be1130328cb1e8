import DeviceScript.Proofs.Data.Sequence
import DeviceScript.Schema.Validation

/-! What is known of a schema that has been accepted. -/

namespace DeviceScript

open Text

/-- Every parameter stands at the position that it names. -/
def OperationSpec.InSlots (op : OperationSpec) : Prop :=
  ∀ (slot : Nat) (p : ParamSpec), op.params[slot]? = some p → p.position = slot

/-- What the declaration of a parameter promises: a type that is known, and a fallback of that type,
which a required parameter does not have. -/
structure ParamSpec.Declared (p : ParamSpec) : Prop where
  fallback : p.fallback = .absent ∨ (p.type = .int ∧ ∃ n, p.fallback = .int n) ∨
    p.type = .text ∧ ∃ t, p.fallback = .text t
  required : p.required = true → p.fallback = .absent

/-- What the declaration of an operation promises of its parameters together. -/
structure OperationSpec.Declared (op : OperationSpec) : Prop where
  params : ∀ p ∈ op.params, p.Declared
  distinct : (op.params.map ParamSpec.label).Nodup
  restLast : ∀ (slot : Nat) (p : ParamSpec), op.params[slot]? = some p → p.rest = true →
    slot + 1 = op.params.length

/-- A parameter with its position written out, the `index`-th of its list. -/
def ParamDoc.placed (index : Nat) (p : ParamDoc) : ParamDoc :=
  { p with position := some (p.position.getD index) }

/-- Parameters with their positions written out, from the `index`-th of their list on. -/
def placedFrom : Nat → List ParamDoc → List ParamDoc
  | _, [] => []
  | index, p :: rest => p.placed index :: placedFrom (index + 1) rest

namespace Schema

theorem check_all_iff {α β : Type} {check : Text → α → Except SchemaFault β}
    {docs : List (Text × α)} {found : List β} : checkAll check docs = .ok found ↔
      List.Forall₂ (fun entry x => check entry.1 entry.2 = .ok x) docs found := by
  induction docs generalizing found with
  | nil => simp [checkAll, eq_comm]
  | cons entry rest ih =>
      rw [checkAll.eq_2, List.forall₂_cons_left_iff]
      cases check entry.1 entry.2 with
      | error fault => simp
      | ok first =>
          cases others : checkAll check rest with
          | error fault => simp [← ih, others]
          | ok more => simp [← ih, others, eq_comm]

/-- Parameters are in their slots, and only the last of a positional operation takes the rest. -/
theorem check_slots_iff {op : Text} {mode : Mode} {slot : Nat} {ps : List ParamSpec} :
    checkSlots op mode slot ps = .ok () ↔
    ∀ (i : Nat) (p : ParamSpec), ps[i]? = some p → p.position = (slot + i : Nat) ∧
      (p.rest = true → mode = .positional ∧ i + 1 = ps.length) := by
  induction ps generalizing slot with
  | nil => simp [checkSlots]
  | cons first others ih =>
      have here : checkSlots op mode slot (first :: others) = .ok () ↔
          (first.position = slot ∧ (first.rest = true → mode = .positional ∧ others = [])) ∧
            checkSlots op mode (slot + 1) others = .ok () := by
        simp only [checkSlots]
        by_cases placed : first.position = slot
        · cases rest : first.rest with
          | false => simp [placed]
          | true =>
              by_cases positional : mode = .positional
              · by_cases last : others = [] <;> simp [placed, positional, last]
              · simp [placed, positional]
        · simp [placed]
      have shift (i : Nat) : slot + 1 + i = slot + (i + 1) := by omega
      have alone : 0 + 1 = (first :: others).length ↔ others = [] := by simp
      rw [here, ih, forall_placed_cons, alone]
      simp only [shift, Nat.add_zero, List.length_cons, Nat.add_right_cancel_iff]

def modeOf (doc : OperationDoc) : Mode :=
  if doc.mode.isEmpty then .positional else .ofName doc.mode

theorem check_operation_iff {name : Text} {doc : OperationDoc} {op : OperationSpec} :
    checkOperation name doc = .ok op ↔
      isName name = true ∧ (modeOf doc = .positional ∨ modeOf doc = .options) ∧
        ∃ ps, checkParams name [] 0 doc.params = .ok ps ∧
          checkSlots name (modeOf doc) 0 (byPosition ps) = .ok () ∧
          op = ⟨name, modeOf doc, byPosition ps⟩ := by
  by_cases named : isName name = true
  · simp only [checkOperation, named, Bool.not_true, Bool.false_eq_true, ↓reduceIte, true_and]
    rw [show (if doc.mode.isEmpty = true then Mode.positional else Mode.ofName doc.mode) =
      modeOf doc from rfl]
    generalize modeOf doc = mode
    cases mode with
    | other other => simp
    | positional =>
        cases checkParams name [] 0 doc.params with
        | error fault => simp
        | ok ps =>
            cases placed : checkSlots name .positional 0 (byPosition ps) <;>
              simp [placed, eq_comm]
    | options =>
        cases checkParams name [] 0 doc.params with
        | error fault => simp
        | ok ps =>
            cases placed : checkSlots name .options 0 (byPosition ps) <;> simp [placed, eq_comm]
  · simp [checkOperation, named]

theorem check_operation_ok {name : Text} {doc : OperationDoc} {op : OperationSpec}
    (checked : checkOperation name doc = .ok op) :
    isName op.name = true ∧ op.InSlots := by
  obtain ⟨named, -, ps, -, slots, rfl⟩ := check_operation_iff.mp checked
  constructor
  · exact named
  · intro index p found
    simpa using (check_slots_iff.mp slots index p found).1

theorem check_fallback_typed {op label : Text} {type : ParamType} {given : Datum} {v : Value}
    (known : type = .text ∨ type = .int) (checked : checkFallback op label type given = .ok v) :
    v = .absent ∨ (type = .int ∧ ∃ n, v = .int n) ∨ type = .text ∧ ∃ t, v = .text t := by
  rcases known with rfl | rfl
  · unfold checkFallback at checked
    split at checked
    · cases checked
      exact .inl rfl
    · cases checked
      exact .inr (.inr ⟨rfl, _, rfl⟩)
  · unfold checkFallback at checked
    split at checked
    · cases checked
      exact .inl rfl
    · right
      left
      refine ⟨rfl, ?_⟩
      -- Only an int and a text that reads as one are left.
      simp only at checked
      split at checked
      · split at checked
        · cases checked
          exact ⟨_, rfl⟩
        · cases checked
      · split at checked
        · cases checked
          exact ⟨_, rfl⟩
        · cases checked
      · cases checked

def typeOf (doc : ParamDoc) : ParamType :=
  if doc.type.isEmpty then .text else .ofName doc.type

theorem check_param_iff {op : Text} {seen : List Text} {index : Nat} {doc : ParamDoc}
    {p : ParamSpec} : checkParam op seen index doc = .ok p ↔
    isName doc.label = true ∧ doc.label ∉ seen ∧ (typeOf doc = .text ∨ typeOf doc = .int) ∧
      ∃ fallback, checkFallback op doc.label (typeOf doc) doc.fallback = .ok fallback ∧
        (doc.required = true → fallback = .absent) ∧
        p = ⟨doc.label, doc.position.getD index, doc.required, fallback, typeOf doc, doc.rest⟩ := by
  constructor
  · intro checked
    unfold checkParam at checked
    split at checked
    · cases checked
    · next named =>
        split at checked
        · cases checked
        · next fresh =>
            split at checked
            · cases checked
            · next other =>
                have known : typeOf doc = .text ∨ typeOf doc = .int := by
                  cases type : typeOf doc with
                  | text => exact .inl rfl
                  | int => exact .inr rfl
                  | other name => exact absurd type (other name)
                split at checked
                · cases checked
                · next fallback value =>
                    split at checked
                    · cases checked
                    · next optional =>
                        cases checked
                        exact ⟨by simpa using named, by simpa using fresh, known, fallback, value,
                          by simpa using optional, rfl⟩
  · rintro ⟨named, fresh, known, fallback, value, free, rfl⟩
    -- A missing type is that of texts.
    have chosen : (if doc.type.isEmpty = true then ParamType.text else .ofName doc.type) =
        typeOf doc := rfl
    have optional : ¬ (doc.required && fallback != .absent) = true := by simpa using free
    have unseen : ¬ seen.contains doc.label = true := by simpa using fresh
    simp only [checkParam, named, Bool.not_true, Bool.false_eq_true, ↓reduceIte, unseen, chosen]
    rcases known with text | int
    · rw [text] at value ⊢
      simp only [value, optional, Bool.false_eq_true, ↓reduceIte]
    · rw [int] at value ⊢
      simp only [value, optional, Bool.false_eq_true, ↓reduceIte]

theorem check_param_declared {op : Text} {seen : List Text} {index : Nat} {doc : ParamDoc}
    {p : ParamSpec} (checked : checkParam op seen index doc = .ok p) :
    p.label = doc.label ∧ doc.label ∉ seen ∧ p.Declared := by
  obtain ⟨-, fresh, known, fallback, value, free, rfl⟩ := check_param_iff.mp checked
  exact ⟨rfl, fresh, check_fallback_typed known value, free⟩

section Params

variable {op : Text} {seen : List Text} {index : Nat} {doc : ParamDoc} {docs : List ParamDoc}
  {p : ParamSpec} {ps : List ParamSpec}

/-- A parameter is checked for itself, but for its label, which is to be a new one. -/
theorem check_param_placed : checkParam op seen index doc = .ok p ↔
    doc.label ∉ seen ∧ checkParam op [] 0 (doc.placed index) = .ok p := by
  have type : typeOf (doc.placed index) = typeOf doc := rfl
  rw [check_param_iff, check_param_iff, type]
  simp only [ParamDoc.placed, List.not_mem_nil, not_false_eq_true, true_and, Option.getD_some]
  exact and_left_comm

theorem check_params_cons : checkParams op seen index (doc :: docs) = .ok ps ↔
    ∃ p others, checkParam op seen index doc = .ok p ∧
      checkParams op (doc.label :: seen) (index + 1) docs = .ok others ∧ ps = p :: others := by
  rw [checkParams.eq_2]
  cases checkParam op seen index doc with
  | error fault => simp
  | ok p =>
      cases checkParams op (doc.label :: seen) (index + 1) docs with
      | error fault => simp
      | ok others => simp [eq_comm]

theorem check_params_iff : checkParams op seen index docs = .ok ps ↔
    ((placedFrom index docs).map ParamDoc.label).Nodup ∧
      (∀ doc ∈ placedFrom index docs, doc.label ∉ seen) ∧
      List.Forall₂ (fun doc p => checkParam op [] 0 doc = .ok p) (placedFrom index docs) ps := by
  induction docs generalizing seen index ps with
  | nil => simp [checkParams, placedFrom, eq_comm]
  | cons doc rest ih =>
      rw [check_params_cons]
      -- The label of the first is among the labels that the others are told apart from.
      constructor
      · rintro ⟨p, others, here, later, rfl⟩
        obtain ⟨fresh, one⟩ := check_param_placed.mp here
        obtain ⟨distinct, apart, each⟩ := ih.mp later
        refine ⟨List.nodup_cons.mpr ⟨?_, distinct⟩, ?_, .cons one each⟩
        · intro again
          obtain ⟨other, member, same⟩ := List.mem_map.mp again
          exact apart other member (by simp [same, ParamDoc.placed])
        · intro other member again
          rcases List.mem_cons.mp member with rfl | among
          · exact fresh again
          · exact apart other among (List.mem_cons_of_mem _ again)
      · rintro ⟨distinct, apart, each⟩
        obtain ⟨fresh, others⟩ := List.forall_mem_cons.mp apart
        obtain ⟨unlike, distinct⟩ := List.nodup_cons.mp distinct
        cases each with
        | cons one each =>
            refine ⟨_, _, check_param_placed.mpr ⟨fresh, one⟩, ih.mpr ⟨distinct, ?_, each⟩, rfl⟩
            intro other member again
            rcases List.mem_cons.mp again with same | seen
            · exact unlike (List.mem_map.mpr ⟨other, member, same⟩)
            · exact others other member seen

end Params

theorem by_position_perm (ps : List ParamSpec) : (byPosition ps).Perm ps := List.mergeSort_perm ..

theorem by_position_slots {op : Text} {mode : Mode} {ps : List ParamSpec}
    (placed : checkSlots op mode 0 ps = .ok ()) : byPosition ps = ps := by
  have at_slot (i : Nat) (inside : i < ps.length) : ps[i].position = i := by
    simpa using (check_slots_iff.mp placed i ps[i] (List.getElem?_eq_getElem inside)).1
  apply List.mergeSort_of_pairwise
  rw [List.pairwise_iff_getElem]
  intro i j hi hj before
  rw [decide_eq_true_iff, at_slot i hi, at_slot j hj]
  exact Int.ofNat_le.mpr (Nat.le_of_lt before)

theorem check_operation_declared {name : Text} {doc : OperationDoc} {op : OperationSpec}
    (checked : checkOperation name doc = .ok op) : op.Declared := by
  obtain ⟨-, -, ps, read, slots, rfl⟩ := check_operation_iff.mp checked
  obtain ⟨labels, -, each⟩ := check_params_iff.mp read
  rw [map_related each fun _ _ checked => (check_param_declared checked).1.symm] at labels
  -- The parameters are sorted by position, which keeps them and their labels.
  have sorted := by_position_perm ps
  constructor
  · intro p member
    obtain ⟨doc, -, checked⟩ := mem_of_forall₂ each p (sorted.mem_iff.mp member)
    exact (check_param_declared checked).2.2
  · exact (sorted.map ParamSpec.label).nodup_iff.mpr labels
  · intro slot p found rest
    exact ((check_slots_iff.mp slots slot p found).2 rest).2

/-- A schema is made of what its entries are read as. -/
theorem of_doc_iff {doc : SchemaDoc} {schema : Schema} : ofDoc doc = .ok schema ↔
    ∃ operations keywords,
      List.Forall₂ (fun entry op => checkOperation entry.1 entry.2 = .ok op)
        doc.operations operations ∧
      List.Forall₂ (fun entry kw => checkKeyword entry.1 entry.2 = .ok kw) doc.keywords keywords ∧
      keywordsFault? keywords = none ∧
      (∀ op ∈ operations, ∀ kw ∈ keywords, kw.name ≠ op.name) ∧
      schema = ⟨operations, markOpeners keywords⟩ := by
  constructor
  · intro read
    simp only [ofDoc] at read
    split at read
    · cases read
    · next operations ops =>
        split at read
        · cases read
        · next keywords kws =>
            split at read
            · cases read
            · next linked =>
                split at read
                · cases read
                · next free =>
                    cases read
                    refine ⟨operations, keywords, check_all_iff.mp ops, check_all_iff.mp kws,
                      linked, ?_, rfl⟩
                    simpa using free
  · rintro ⟨operations, keywords, ops, kws, linked, apart, rfl⟩
    have free : (operations.find? fun op => keywords.any fun kw => kw.name == op.name) = none := by
      simpa using apart
    simp only [ofDoc, check_all_iff.mpr ops, check_all_iff.mpr kws, linked, free]

/-- The operations of an accepted schema come from declarations that were checked. -/
theorem accepted_checked {text : Text} {schema : Schema} (accepted : load text = .ok schema) :
    ∀ op ∈ schema.operations, ∃ name doc, checkOperation name doc = .ok op := by
  simp only [load] at accepted
  split at accepted
  · cases accepted
  · obtain ⟨operations, keywords, ops, -, -, -, rfl⟩ := of_doc_iff.mp accepted
    intro op member
    obtain ⟨entry, -, checked⟩ := mem_of_forall₂ ops op member
    exact ⟨entry.1, entry.2, checked⟩

/-- Every operation of an accepted schema has an identifier for its name, and a slot of its own
for each parameter. -/
theorem accepted_operation {text : Text} {schema : Schema} (accepted : load text = .ok schema) :
    ∀ op ∈ schema.operations, isName op.name = true ∧ op.InSlots := by
  intro op member
  obtain ⟨name, doc, checked⟩ := accepted_checked accepted op member
  exact check_operation_ok checked

theorem accepted_declared {text : Text} {schema : Schema} (accepted : load text = .ok schema) :
    ∀ op ∈ schema.operations, op.Declared := by
  intro op member
  obtain ⟨name, doc, checked⟩ := accepted_checked accepted op member
  exact check_operation_declared checked

/-- What an operation is declared as, with its parameters in the order in which they are listed. -/
def listed (entry : Text × OperationDoc) : Option OperationSpec :=
  match checkParams entry.1 [] 0 entry.2.params with
  | .ok ps => some ⟨entry.1, modeOf entry.2, ps⟩
  | .error _ => none

theorem check_all_listed {docs : List (Text × OperationDoc)} {ops : List OperationSpec}
    (read : docs.mapM listed = some ops)
    (sound : ∀ op ∈ ops, isName op.name = true ∧ (op.mode = .positional ∨ op.mode = .options) ∧
      checkSlots op.name op.mode 0 op.params = .ok ()) :
    checkAll checkOperation docs = .ok ops := by
  rw [check_all_iff]
  refine (((List.forall₂_and_left _ _).mpr ⟨sound, (mapM_some read).flip⟩).imp ?_).flip
  rintro op entry ⟨⟨named, known, placed⟩, first⟩
  simp only [listed] at first
  split at first
  · next ps params =>
      cases first
      have sorted := by_position_slots placed
      exact check_operation_iff.mpr ⟨named, known, ps, params, by rw [sorted, placed], by rw [sorted]⟩
  · cases first

/-- A document without keywords that lists the parameters of its operations in the order of their
slots is accepted as it stands. -/
theorem load_listed {text : Text} {ops : List OperationSpec}
    (read : (SchemaDoc.read text).map
      (fun doc => (doc.operations.mapM listed, doc.keywords.length)) = some (some ops, 0))
    (sound : ∀ op ∈ ops, isName op.name = true ∧ (op.mode = .positional ∨ op.mode = .options) ∧
      checkSlots op.name op.mode 0 op.params = .ok ()) :
    load text = .ok ⟨ops, []⟩ := by
  obtain ⟨⟨operations, keywords⟩, given, shape⟩ := Option.map_eq_some_iff.mp read
  rw [Prod.mk.injEq] at shape
  obtain rfl : keywords = [] := List.length_eq_zero_iff.mp shape.2
  simp only [load, given]
  exact of_doc_iff.mpr ⟨ops, [], check_all_iff.mp (check_all_listed shape.1 sound), .nil, rfl,
    nofun, rfl⟩

end Schema
end DeviceScript

import DeviceScript.Proofs.Schema.Entries
import DeviceScript.Proofs.Schema.Flow
import DeviceScript.Proofs.Schema.Placing

/-!
Validity. What a schema document is to be, said of the document itself and of all its entries at
once, is what the checks of a schema come to, in whatever order the entries are visited.
-/

namespace DeviceScript

open Text

namespace SchemaDoc

/-- What a schema document is to be. -/
structure Valid (doc : SchemaDoc) : Prop where
  operations : ∀ entry ∈ doc.operations, isName entry.1 = true ∧ entry.2.Valid
  keywords : ∀ entry ∈ doc.keywords, entry.2.Valid
  terminators : ∀ entry ∈ doc.keywords, ∀ name ∈ entry.2.terminators,
    ∃ k, (name, k) ∈ doc.keywords ∧ (entry.2.IsOf .loop → k.backLink = true)
  openers : ∀ entry ∈ doc.keywords, (∀ other ∈ doc.keywords, entry.1 ∉ other.2.terminators) →
    (entry.2.IsOf .ifBlock ∨ entry.2.IsOf .loop) ∧ entry.2.Terminated
  apart : ∀ op ∈ doc.operations, ∀ kw ∈ doc.keywords, kw.1 ≠ op.1

/-- The same entries visited in another order, with parameters listed in another order. -/
structure Alike (doc other : SchemaDoc) : Prop where
  operations : ∃ between, doc.operations.Perm between ∧
    List.Forall₂ (fun a b => a.1 = b.1 ∧ a.2.Relisted b.2) between other.operations
  keywords : doc.keywords.Perm other.keywords

theorem Alike.symm {doc other : SchemaDoc} (alike : doc.Alike other) : other.Alike doc := by
  obtain ⟨between, visited, relisted⟩ := alike.operations
  obtain ⟨others, relisted, permuted⟩ := List.perm_comp_forall₂ visited relisted
  refine ⟨⟨others, permuted.symm, relisted.flip.imp ?_⟩, alike.keywords.symm⟩
  rintro a b ⟨name, same⟩
  exact ⟨name.symm, same.mode.symm, same.params.symm⟩

theorem Alike.names {doc other : SchemaDoc} (alike : doc.Alike other) :
    (doc.operations.map Prod.fst).Perm (other.operations.map Prod.fst) := by
  obtain ⟨between, visited, relisted⟩ := alike.operations
  rw [← map_related relisted fun _ _ same => same.1]
  exact visited.map _

theorem IsMap.alike {doc other : SchemaDoc} (distinct : doc.IsMap) (alike : doc.Alike other) :
    other.IsMap := by
  constructor
  · exact alike.names.nodup_iff.mp distinct.operations
  · exact (alike.keywords.map _).nodup_iff.mp distinct.keywords

end SchemaDoc

namespace Schema

/-- What is to hold of keywords together. -/
structure Linked (keywords : List KeywordSpec) : Prop where
  terminators : ∀ kw ∈ keywords, ∀ name ∈ terminatorsOf kw,
    ∃ k ∈ keywords, k.name = name ∧ (kw.kind = .loop → k.backLink = true)
  openers : ∀ kw ∈ keywords, (∀ other ∈ keywords, kw.name ∉ terminatorsOf other) →
    (kw.kind = .ifBlock ∨ kw.kind = .loop) ∧
      kw.flow.getLast?.any FlowElem.isTerminatorSet = true

section Linked

variable {keywords : List KeywordSpec} {kw : KeywordSpec}

theorem terminator_fault_none (distinct : (keywords.map KeywordSpec.name).Nodup) {name : Text} :
    terminatorFault? keywords kw name = none ↔
      ∃ k ∈ keywords, k.name = name ∧ (kw.kind = .loop → k.backLink = true) := by
  have found {k : KeywordSpec} : keywords.find? (fun k => k.name == name) = some k ↔
      k ∈ keywords ∧ k.name = name := find_named_iff distinct
  simp only [terminatorFault?]
  cases looked : keywords.find? fun k => k.name == name with
  | none =>
      constructor
      · nofun
      · rintro ⟨k, member, named, -⟩
        rw [found.mpr ⟨member, named⟩] at looked
        cases looked
  | some k =>
      obtain ⟨member, named⟩ := found.mp looked
      constructor
      · intro sound
        refine ⟨k, member, named, ?_⟩
        intro loop
        simpa [loop] using sound
      · rintro ⟨other, among, same, back⟩
        rw [found.mpr ⟨among, same⟩, Option.some.injEq] at looked
        subst looked
        simpa using back

theorem opener_fault_none : openerFault? kw = none ↔
    (kw.opener = true → (kw.kind = .ifBlock ∨ kw.kind = .loop) ∧
      kw.flow.getLast?.any FlowElem.isTerminatorSet = true) := by
  simp only [openerFault?]
  cases kw.opener with
  | false => simp
  | true =>
      by_cases opens : kw.kind = .ifBlock ∨ kw.kind = .loop
      · rcases opens with kind | kind <;>
          cases kw.flow.getLast?.any FlowElem.isTerminatorSet <;> simp [kind]
      · simp [not_or.mp opens]

theorem not_closing_iff {name : Text} : (!(keywords.flatMap terminatorsOf).contains name) = true ↔
    ∀ other ∈ keywords, name ∉ terminatorsOf other := by
  simp

theorem keywords_fault_none (distinct : (keywords.map KeywordSpec.name).Nodup) :
    keywordsFault? keywords = none ↔ Linked keywords := by
  simp only [keywordsFault?, markOpeners, Option.or_eq_none_iff, List.findSome?_eq_none_iff,
    List.forall_mem_map, terminator_fault_none distinct, opener_fault_none, not_closing_iff]
  constructor
  · rintro ⟨terminators, openers⟩
    exact ⟨terminators, openers⟩
  · rintro ⟨terminators, openers⟩
    exact ⟨terminators, openers⟩

end Linked

section Declared

variable {entries : List (Text × KeywordDoc)} {keywords : List KeywordSpec}
  (each : List.Forall₂ (fun entry kw => checkKeyword entry.1 entry.2 = .ok kw) entries keywords)

include each

theorem declared : List.Forall₂ Declares entries keywords :=
  each.imp fun _ _ => check_keyword_declares

theorem declared_names : entries.map Prod.fst = keywords.map KeywordSpec.name :=
  map_related (declared each) fun _ _ declares => declares.name.symm

theorem declared_closing {name : Text} : (∀ other ∈ entries, name ∉ other.2.terminators) ↔
    ∀ other ∈ keywords, name ∉ terminatorsOf other :=
  forall_related (declared each) fun _ _ declares => by rw [declares.terminators]

theorem declared_exists {name : Text} (holds : Bool → Prop) :
    (∃ k, (name, k) ∈ entries ∧ holds k.backLink) ↔
      ∃ kw ∈ keywords, kw.name = name ∧ holds kw.backLink := by
  constructor
  · rintro ⟨k, among, back⟩
    obtain ⟨kw, member, declares⟩ := mem_of_forall₂ (declared each).flip (name, k) among
    refine ⟨kw, member, declares.name, ?_⟩
    rw [declares.backLink]
    exact back
  · rintro ⟨kw, member, rfl, back⟩
    obtain ⟨⟨name, k⟩, among, declares⟩ := mem_of_forall₂ (declared each) kw member
    rw [declares.backLink] at back
    rw [declares.name]
    exact ⟨k, among, back⟩

/-- What keywords are to be together may be said of their declarations. -/
theorem linked_iff : Linked keywords ↔
    (∀ entry ∈ entries, ∀ name ∈ entry.2.terminators,
      ∃ k, (name, k) ∈ entries ∧ (entry.2.IsOf .loop → k.backLink = true)) ∧
    ∀ entry ∈ entries, (∀ other ∈ entries, entry.1 ∉ other.2.terminators) →
      (entry.2.IsOf .ifBlock ∨ entry.2.IsOf .loop) ∧ entry.2.Terminated := by
  have terminators := forall_related (declared each)
    (P := fun entry => ∀ name ∈ entry.2.terminators,
      ∃ k, (name, k) ∈ entries ∧ (entry.2.IsOf .loop → k.backLink = true))
    (Q := fun kw => ∀ name ∈ terminatorsOf kw,
      ∃ k ∈ keywords, k.name = name ∧ (kw.kind = .loop → k.backLink = true))
    fun entry kw declares => by
      rw [declares.terminators, declares.kind_iff]
      apply forall₂_congr
      intro name _
      exact declared_exists each fun back => kw.kind = .loop → back = true
  have openers := forall_related (declared each)
    (P := fun entry => (∀ other ∈ entries, entry.1 ∉ other.2.terminators) →
      (entry.2.IsOf .ifBlock ∨ entry.2.IsOf .loop) ∧ entry.2.Terminated)
    (Q := fun kw => (∀ other ∈ keywords, kw.name ∉ terminatorsOf other) →
      (kw.kind = .ifBlock ∨ kw.kind = .loop) ∧ kw.flow.getLast?.any FlowElem.isTerminatorSet = true)
    fun entry kw declares => by
      rw [← declares.name, declared_closing each, declares.kind_iff, declares.kind_iff,
        declares.terminated]
  rw [terminators, openers]
  constructor
  · rintro ⟨ends, opens⟩
    exact ⟨ends, opens⟩
  · rintro ⟨ends, opens⟩
    exact ⟨ends, opens⟩

end Declared

section Entries

variable {doc : SchemaDoc} {operations : List OperationSpec} {keywords : List KeywordSpec}
  (ops : List.Forall₂ (fun entry op => checkOperation entry.1 entry.2 = .ok op)
    doc.operations operations)
  (kws : List.Forall₂ (fun entry kw => checkKeyword entry.1 entry.2 = .ok kw) doc.keywords keywords)

theorem check_operation_name {name : Text} {d : OperationDoc} {op : OperationSpec}
    (checked : checkOperation name d = .ok op) : op.name = name := by
  obtain ⟨-, -, ps, -, -, rfl⟩ := check_operation_iff.mp checked
  rfl

include ops kws in
theorem apart_iff : (∀ op ∈ doc.operations, ∀ kw ∈ doc.keywords, kw.1 ≠ op.1) ↔
    ∀ op ∈ operations, ∀ kw ∈ keywords, kw.name ≠ op.name :=
  forall_related ops fun _ _ op => forall_related (declared kws) fun _ _ kw => by
    rw [kw.name, check_operation_name op]

end Entries

/-- A document is accepted exactly if it is what it is to be. -/
theorem of_doc_valid_iff {doc : SchemaDoc} (distinct : doc.IsMap) :
    (∃ schema, ofDoc doc = .ok schema) ↔ doc.Valid := by
  constructor
  · rintro ⟨schema, read⟩
    obtain ⟨operations, keywords, ops, kws, linked, apart, -⟩ := of_doc_iff.mp read
    have names : (keywords.map KeywordSpec.name).Nodup := declared_names kws ▸ distinct.keywords
    obtain ⟨terminators, openers⟩ := (linked_iff kws).mp ((keywords_fault_none names).mp linked)
    refine ⟨?_, ?_, terminators, openers, (apart_iff ops kws).mpr apart⟩
    · intro entry member
      exact check_operation_valid_iff.mp (related_exists_iff.mp ⟨_, ops⟩ entry member)
    · intro entry member
      exact check_keyword_valid_iff.mp (related_exists_iff.mp ⟨_, kws⟩ entry member)
  · rintro ⟨operation, keyword, terminators, openers, apart⟩
    obtain ⟨operations, ops⟩ := related_exists_iff.mpr fun entry member =>
      check_operation_valid_iff.mpr (operation entry member)
    obtain ⟨keywords, kws⟩ := related_exists_iff.mpr fun entry member =>
      (@check_keyword_valid_iff entry.1 entry.2).mpr (keyword entry member)
    have names : (keywords.map KeywordSpec.name).Nodup := declared_names kws ▸ distinct.keywords
    have linked := (keywords_fault_none names).mpr ((linked_iff kws).mpr ⟨terminators, openers⟩)
    exact ⟨_, of_doc_iff.mpr ⟨operations, keywords, ops, kws, linked,
      (apart_iff ops kws).mp apart, rfl⟩⟩

/-- Keywords are marked by what is a terminator of any of them, wherever that one stands. -/
theorem mark_openers_perm {keywords keywords' : List KeywordSpec} (same : keywords.Perm keywords') :
    (markOpeners keywords).Perm (markOpeners keywords') := by
  have closing (name : Text) : (keywords.flatMap terminatorsOf).contains name =
      (keywords'.flatMap terminatorsOf).contains name := by
    rw [Bool.eq_iff_iff, List.contains_iff_mem, List.contains_iff_mem]
    exact (same.flatMap_right terminatorsOf).mem_iff
  simp only [markOpeners, closing]
  exact same.map _

theorem Linked.perm {keywords keywords' : List KeywordSpec} (same : keywords.Perm keywords')
    (linked : Linked keywords) : Linked keywords' := by
  constructor
  · intro kw member
    simpa only [same.mem_iff] using linked.terminators kw (same.mem_iff.mpr member)
  · intro kw member
    simpa only [same.mem_iff] using linked.openers kw (same.mem_iff.mpr member)

/-- However the entries are visited, the same operations and keywords are read. -/
theorem of_doc_alike {doc other : SchemaDoc} (distinct : doc.IsMap) (alike : doc.Alike other)
    {schema : Schema} (read : ofDoc doc = .ok schema) : ∃ schema', ofDoc other = .ok schema' ∧
      schema.operations.Perm schema'.operations ∧ schema.keywords.Perm schema'.keywords := by
  obtain ⟨operations, keywords, ops, kws, linked, apart, rfl⟩ := of_doc_iff.mp read
  obtain ⟨between, visited, relisted⟩ := alike.operations
  -- Visiting permutes what is read of the entries; listing parameters again does not change it.
  obtain ⟨operations', visited_ops, same_ops⟩ := List.perm_comp_forall₂ visited.symm ops
  obtain ⟨keywords', kws', same_kws⟩ := List.perm_comp_forall₂ alike.keywords.symm kws
  have ops' : List.Forall₂ (fun entry op => checkOperation entry.1 entry.2 = .ok op)
      other.operations operations' := by
    apply related_along relisted visited_ops
    rintro a b op ⟨name, same⟩ checked
    rw [← name]
    exact check_operation_relisted same checked
  have names : (keywords.map KeywordSpec.name).Nodup := declared_names kws ▸ distinct.keywords
  have names' := (same_kws.map KeywordSpec.name).nodup_iff.mpr names
  have linked' := ((keywords_fault_none names).mp linked).perm same_kws.symm
  have apart' : ∀ op ∈ operations', ∀ kw ∈ keywords', kw.name ≠ op.name := by
    simpa only [same_ops.mem_iff, same_kws.mem_iff] using apart
  refine ⟨⟨operations', markOpeners keywords'⟩, of_doc_iff.mpr ⟨operations', keywords', ops', kws',
    (keywords_fault_none names').mpr linked', apart', rfl⟩, same_ops.symm, ?_⟩
  exact mark_openers_perm same_kws.symm

structure MadeOf (schema : Schema) (doc : SchemaDoc) : Prop where
  operations : (schema.operations.map OperationSpec.name).Perm (doc.operations.map Prod.fst)
  keywords : (schema.keywords.map KeywordSpec.name).Perm (doc.keywords.map Prod.fst)
  slots : ∀ op ∈ schema.operations, op.InSlots
  openers : ∀ kw ∈ schema.keywords,
    kw.opener = true ↔ ∀ entry ∈ doc.keywords, kw.name ∉ entry.2.terminators

theorem of_doc_made {doc : SchemaDoc} {schema : Schema} (read : ofDoc doc = .ok schema) :
    schema.MadeOf doc := by
  obtain ⟨operations, keywords, ops, kws, -, -, rfl⟩ := of_doc_iff.mp read
  constructor
  · rw [map_related ops fun _ _ checked => (check_operation_name checked).symm]
  · rw [declared_names kws]
    simp [markOpeners, Function.comp_def]
  · intro op member
    obtain ⟨entry, -, checked⟩ := mem_of_forall₂ ops op member
    exact (check_operation_ok checked).2
  · intro kw member
    obtain ⟨plain, -, rfl⟩ := List.mem_map.mp member
    rw [declared_closing kws]
    exact not_closing_iff

theorem MadeOf.alike {schema : Schema} {doc other : SchemaDoc} (alike : doc.Alike other)
    (made : schema.MadeOf other) : schema.MadeOf doc := by
  constructor
  · exact made.operations.trans alike.names.symm
  · exact made.keywords.trans (alike.keywords.map _).symm
  · exact made.slots
  · simpa only [alike.keywords.mem_iff] using made.openers

end Schema

/-- A schema document with an entry for each name, in any order its entries may be visited and its
parameters listed. It is accepted exactly if it is valid. The schema that is made of it then has
every parameter in its slot, marks as openers the keywords that are no terminators, and does not
tell in which order it was read. What is read of a source is such a document, and so a source is
accepted exactly if it holds a valid one. -/
theorem schema_accepted_iff {doc visited : SchemaDoc} (distinct : doc.IsMap)
    (alike : doc.Alike visited) :
    ((∃ schema, Schema.ofDoc visited = .ok schema) ↔ doc.Valid) ∧
    (∀ schema, Schema.ofDoc visited = .ok schema → schema.MadeOf doc ∧
      ∀ first, Schema.ofDoc doc = .ok first →
        first.operations.Perm schema.operations ∧ first.keywords.Perm schema.keywords) ∧
    ∀ source written, SchemaDoc.read source = some written → written.IsMap ∧
      ((∃ schema, Schema.load source = .ok schema) ↔ written.Valid) := by
  have either : (∃ schema, Schema.ofDoc visited = .ok schema) ↔
      ∃ schema, Schema.ofDoc doc = .ok schema := by
    constructor
    · rintro ⟨schema, read⟩
      obtain ⟨first, read, -⟩ := Schema.of_doc_alike (distinct.alike alike) alike.symm read
      exact ⟨first, read⟩
    · rintro ⟨first, read⟩
      obtain ⟨schema, read, -⟩ := Schema.of_doc_alike distinct alike read
      exact ⟨schema, read⟩
  refine ⟨either.trans (Schema.of_doc_valid_iff distinct), ?_, ?_⟩
  · intro schema read
    refine ⟨(Schema.of_doc_made read).alike alike, ?_⟩
    intro first start
    obtain ⟨again, read', operations, keywords⟩ := Schema.of_doc_alike distinct alike start
    rw [read, Except.ok.injEq] at read'
    subst read'
    exact ⟨operations, keywords⟩
  · intro source written read
    have once := SchemaDoc.read_is_map read
    refine ⟨once, ?_⟩
    simp only [Schema.load, read]
    exact Schema.of_doc_valid_iff once

def branching : SchemaDoc :=
  ⟨[("find", ⟨"options", [⟨"times", some 1, false, .int 3, "int", false⟩,
      ⟨"what", some 0, true, .null, [], false⟩]⟩)],
    [("if", ⟨"if", [.text "expression", .text "body", .list [.text "fi"]], false⟩),
      ("fi", ⟨"fi", [], false⟩)]⟩

/-- The same, with the parameters in order and the end of the block in front. -/
def branchingVisited : SchemaDoc :=
  ⟨[("find", ⟨"options", [⟨"what", none, true, .null, [], false⟩,
      ⟨"times", none, false, .int 3, "int", false⟩]⟩)],
    [("fi", ⟨"fi", [], false⟩),
      ("if", ⟨"if", [.text "expression", .text "body", .list [.text "fi"]], false⟩)]⟩

theorem branching_is_map : branching.IsMap := by
  constructor <;> decide

theorem branching_alike : branching.Alike branchingVisited := by
  refine ⟨⟨_, .refl _, .cons ⟨rfl, rfl, ?_⟩ .nil⟩, ?_⟩
  · exact .swap ..
  · exact .swap ..

theorem branching_valid : branching.Valid := by
  have times : (⟨"times", some 1, false, .int 3, "int", false⟩ : ParamDoc).Valid :=
    ⟨by decide, .inr (.inr rfl), fun _ => show (3 : Int) ≤ maxInt by decide, nofun⟩
  have what : (⟨"what", some 0, true, .null, [], false⟩ : ParamDoc).Valid :=
    ⟨by decide, .inl rfl, nofun, fun _ => rfl⟩
  have find : (⟨"options", [⟨"times", some 1, false, .int 3, "int", false⟩,
      ⟨"what", some 0, true, .null, [], false⟩]⟩ : OperationDoc).Valid := by
    refine ⟨.inr (.inr rfl), ?_, by decide, by decide, by decide⟩
    exact List.forall_mem_cons.mpr ⟨times, List.forall_mem_singleton.mpr what⟩
  have block : (⟨"if", [.text "expression", .text "body", .list [.text "fi"]], false⟩ :
      KeywordDoc).Valid := by
    refine ⟨⟨.ifBlock, rfl⟩, ?_, nofun⟩
    intro i given found
    match i, found with
    | 0, rfl => exact .expression rfl
    | 1, rfl => exact .body
    | 2, rfl => exact .terminators ["fi"] nofun rfl
  have ending : (⟨"fi", [], false⟩ : KeywordDoc).Valid := ⟨⟨.fi, rfl⟩, nofun, nofun⟩
  constructor
  · exact List.forall_mem_singleton.mpr ⟨by decide, find⟩
  · exact List.forall_mem_cons.mpr ⟨block, List.forall_mem_singleton.mpr ending⟩
  · refine List.forall_mem_cons.mpr ⟨?_, List.forall_mem_singleton.mpr nofun⟩
    intro name member
    obtain rfl := List.mem_singleton.mp member
    have other : ofString "if" ≠ ofString "loop" := by decide
    exact ⟨⟨"fi", [], false⟩, .tail _ (.head _), fun loop => absurd loop other⟩
  · refine List.forall_mem_cons.mpr ⟨fun _ => ⟨.inl rfl, _, rfl⟩, List.forall_mem_singleton.mpr ?_⟩
    intro free
    exact absurd (List.mem_singleton_self _) (free _ (.head _))
  · decide

/-- The document is accepted in the other order, and its one block has an opener and an end. -/
theorem branching_accepted : branching.IsMap ∧ branching.Alike branchingVisited ∧
    ∃ schema, Schema.ofDoc branchingVisited = .ok schema ∧ schema.MadeOf branching := by
  obtain ⟨accepted, made, -⟩ := schema_accepted_iff branching_is_map branching_alike
  obtain ⟨schema, read⟩ := accepted.mpr branching_valid
  exact ⟨branching_is_map, branching_alike, schema, read, (made schema read).1⟩

end DeviceScript

import DeviceScript.Proofs.Schema.Accepted

/-!
Entries. Mappings with a key written twice are refused, and what is merged in gives way to what is
there, so a schema document has one entry for each name.
-/

namespace DeviceScript

open Text Yaml

namespace SchemaDoc

/-- Each operation and each keyword has one entry. -/
structure IsMap (doc : SchemaDoc) : Prop where
  operations : (doc.operations.map Prod.fst).Nodup
  keywords : (doc.keywords.map Prod.fst).Nodup

def keys (entries : List (Node × Node)) : List Text := entries.map fun entry => entry.1.keyText

theorem repeated_key_iff {ks : List Text} : hasRepeatedKey ks = false ↔ ks.Nodup := by
  induction ks with
  | nil => simp [hasRepeatedKey]
  | cons key rest ih => simp [hasRepeatedKey, ih]

theorem add_missing_keys {entries : List (Node × Node)} (distinct : (keys entries).Nodup)
    (more : List (Node × Node)) : (keys (addMissing entries more)).Nodup := by
  induction more generalizing entries with
  | nil => exact distinct
  | cons entry rest ih =>
      rw [addMissing, List.foldl_cons]
      apply ih
      split
      · exact distinct
      · next fresh =>
          have new : entry.1.keyText ∉ keys entries := by
            simpa [keys] using fresh
          have grown : keys (entries ++ [entry]) = keys entries ++ [entry.1.keyText] := by
            simp [keys]
          rw [grown, ← List.concat_eq_append]
          exact distinct.concat new

theorem entries_keys {node : Node} {entries : List (Node × Node)}
    (read : entriesOf node = some entries) : (keys entries).Nodup := by
  cases node with
  | mapping tag written =>
      simp only [entriesOf] at read
      split at read
      · cases read
      · next once =>
          have distinct : (keys written).Nodup := repeated_key_iff.mp (by simpa [keys] using once)
          have own : (keys (written.filter fun entry => !isMerge entry.1)).Nodup :=
            distinct.sublist (List.filter_sublist.map _)
          split at read
          · cases read
            exact own
          · obtain ⟨merged, -, rfl⟩ := Option.map_eq_some_iff.mp read
            exact add_missing_keys own merged
  | _ =>
      simp only [entriesOf] at read
      split at read
      · cases read
        exact List.nodup_nil
      · cases read

theorem decode_text_key {key : Node} {name : Text} (named : isNull key = false)
    (read : decodeText key = some name) : key.keyText = name := by
  cases key with
  | scalar tag quoted value =>
      obtain ⟨datum, resolved, text⟩ := Option.map_eq_some_iff.mp read
      simp only [isNull, resolved] at named
      cases datum with
      | null => cases named
      | _ => exact text
  | _ => cases read

theorem decode_named_keys {α : Type} {item : Node → Option α} {node : Node}
    {entries : List (Text × α)} (read : decodeNamed item node = some entries) :
    (entries.map Prod.fst).Nodup := by
  simp only [decodeNamed, Option.bind_eq_bind, Option.bind_eq_some_iff] at read
  obtain ⟨written, found, named⟩ := read
  have distinct : (keys (written.filter fun entry => !isNull entry.1)).Nodup :=
    (entries_keys found).sublist (List.filter_sublist.map _)
  have read := (List.forall₂_and_left _ _).mpr
    ⟨fun entry member => (List.mem_filter.mp member).2, mapM_some named⟩
  have names : keys (written.filter fun entry => !isNull entry.1) = entries.map Prod.fst := by
    apply map_related read
    rintro ⟨key, value⟩ entry ⟨known, given⟩
    simp only [Option.bind_eq_some_iff] at given
    obtain ⟨name, text, _, -, same⟩ := given
    cases same
    exact decode_text_key (by simpa using known) text
  rwa [names] at distinct

/-- Fields are read into a record one after the other. -/
theorem decode_fields_keeps {α : Type} {holds : α → Prop} {start record : α}
    {field : Text → Node → α → Option α} {node : Node}
    (keeps : ∀ name value record next, holds record → field name value record = some next →
      holds next)
    (first : holds start) (read : decodeFields start field node = some record) : holds record := by
  simp only [decodeFields, Option.bind_eq_bind, Option.bind_eq_some_iff] at read
  obtain ⟨written, -, filled⟩ := read
  induction written generalizing start with
  | nil =>
      cases filled
      exact first
  | cons entry rest ih =>
      obtain ⟨key, value⟩ := entry
      simp only [List.foldlM_cons, Option.bind_eq_bind, Option.bind_eq_some_iff] at filled
      obtain ⟨middle, ⟨name, -, here⟩, later⟩ := filled
      refine ih ?_ later
      split at here
      · cases here
        exact first
      · exact keeps name value start middle first here

/-- What is read of a source has one entry for each operation and each keyword. -/
theorem read_is_map {source : Text} {doc : SchemaDoc} (read : SchemaDoc.read source = some doc) :
    doc.IsMap := by
  obtain ⟨node, -, decoded⟩ := Option.bind_eq_some_iff.mp read
  apply decode_fields_keeps _ ⟨List.nodup_nil, List.nodup_nil⟩ decoded
  intro name value record next distinct filled
  split at filled
  · obtain ⟨operations, named, rfl⟩ := Option.map_eq_some_iff.mp filled
    exact ⟨decode_named_keys named, distinct.keywords⟩
  · split at filled
    · obtain ⟨keywords, named, rfl⟩ := Option.map_eq_some_iff.mp filled
      exact ⟨distinct.operations, decode_named_keys named⟩
    · cases filled

end SchemaDoc
end DeviceScript

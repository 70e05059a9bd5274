import ScriptBridge.MemberIndex
import ScriptBridge.Proofs.Json.Record
import ScriptBridge.Proofs.Json.RoundTrip

/-!
# Kept indexes

An index lists every class once, as classes are put in under their names.  Such an
index is read back from its own JSON text, in the same order.
-/

namespace ScriptBridge

namespace JsonText

mutual

theorem wellFormed_ofJson : ∀ value : Json, (ofJson value).wellFormed = true
  | .null | .bool _ | .number _ | .string _ => rfl
  | .array items => wellFormedItems_ofItems items
  | .object fields => wellFormedFields_ofFields fields

theorem wellFormedItems_ofItems : ∀ items : List Json, wellFormedItems (ofItems items) = true
  | [] => rfl
  | item :: rest => by
      simp [ofItems, wellFormedItems, wellFormed_ofJson item, wellFormedItems_ofItems rest]

theorem wellFormedFields_ofFields : ∀ fields : List (String × Json),
    wellFormedFields (ofFields fields) = true
  | [] => rfl
  | (_, value) :: rest => by
      simp [ofFields, wellFormedFields, wellFormed_ofJson value, wellFormedFields_ofFields rest]

end

theorem ofItems_eq_map (items : List Json) : ofItems items = items.map ofJson := by
  induction items with
  | nil => rfl
  | cons item rest ih => simp [ofItems, ih]

theorem entries_ofFields (fields : List (String × Json)) :
    entries (ofFields fields) = fields.map fun field => (field.1, ofJson field.2) := by
  induction fields with
  | nil => rfl
  | cons field rest ih => simpa [ofFields, entries] using ih

theorem toList_strings (values : List String) :
    toList toText (ofJson (.strings values)) = .ok values := by
  have reads : ∀ value : String, toText ((ofJson ∘ Json.string) value) = .ok (id value) :=
    fun _ => rfl
  simp only [Json.strings, ofJson, ofItems_eq_map, List.map_map, toList]
  rw [Record.mapM_map_ok reads, List.map_id]

end JsonText

/-- A record is read from the text of an object whose fields describe a value. -/
theorem Record.ofText_of_describes {Value : Type} {record : Record JsonText Value}
    {fields : List (String × Json)} {value : Value} (name : String)
    (describes : Describes
      (fun key => (fields.map fun field => (field.1, JsonText.ofJson field.2)).lookup key)
      record value)
    (nodup : (fields.map Prod.fst).Nodup) :
    record.ofText name (JsonText.ofJson (.object fields)) = .ok value := by
  simp only [JsonText.ofJson, Record.ofText, JsonText.entries_ofFields]
  refine ofEntries_of_describes _ describes ?_ (by simpa [Function.comp_def] using nodup)
  intro entry member
  obtain ⟨field, -, rfl⟩ := List.mem_map.mp member
  simp [JsonText.ignore, JsonText.wellFormed_ofJson]

namespace ClassEntry

theorem ofText_toJson (entry : ClassEntry) :
    ofText (JsonText.ofJson entry.toJson) = .ok entry := by
  obtain ⟨name, file, superClass, properties, methods⟩ := entry
  have named : JsonText.toMaybeText (JsonText.ofJson (Json.ofOption .string superClass)) =
      .ok superClass := by
    cases superClass <;> rfl
  refine Record.ofText_of_describes _ ?_ (by simp)
  exact .seq (.seq (.seq (.seq (.map _ (.required rfl rfl)) (.required rfl rfl))
    (.withDefault rfl named)) (.withDefault rfl (JsonText.toList_strings properties)))
    (.withDefault rfl (JsonText.toList_strings methods))

theorem numbers_toJson (entry : ClassEntry) : entry.toJson.numbers = [] := by
  have strings : ∀ values : List String, (Json.strings values).numbers = [] := by
    intro values
    simp only [Json.strings, Json.numbers]
    induction values with
    | nil => rfl
    | cons value values ih => simpa [Json.itemNumbers, Json.numbers] using ih
  have maybe : (Json.ofOption .string entry.superClass).numbers = [] := by
    cases entry.superClass <;> rfl
  simp [toJson, Json.numbers, Json.fieldNumbers, strings, maybe]

end ClassEntry

namespace MemberIndex

/-- Every class stands in an index once. -/
def IsProper (index : MemberIndex) : Prop :=
  index.classes.keys.Nodup

theorem isProper_empty : IsProper {} :=
  List.nodup_nil

theorem isProper_insert {index : MemberIndex} (proper : index.IsProper) (entry : ClassEntry) :
    (index.insert entry).IsProper :=
  OrderedMap.nodup_putEntry _ _ proper

theorem isProper_collect {index : MemberIndex} (proper : index.IsProper) (tree : Node)
    (file : String) : (index.collect tree file).IsProper := by
  unfold collect
  generalize declaredIn file tree = declared
  induction declared generalizing index with
  | nil => exact proper
  | cons entry rest ih => exact ih (isProper_insert proper entry)

theorem numbers_toJson (index : MemberIndex) : index.toJson.numbers = [] := by
  simp only [toJson, Json.numbers, Json.fieldNumbers, List.append_nil]
  induction index.classes.entries with
  | nil => rfl
  | cons entry rest ih =>
      simpa [Json.fieldNumbers, ClassEntry.numbers_toJson] using ih

/-- An index is read back from its text, in its order. -/
theorem read_pretty {index : MemberIndex} (proper : index.IsProper) :
    read index.pretty = .ok index := by
  obtain ⟨⟨entries⟩⟩ := index
  have readable : Json.AreReadable (toJson ⟨⟨entries⟩⟩).numbers := by
    rw [numbers_toJson]
    simp [Json.AreReadable]
  have classes : JsonText.toMap ClassEntry.ofText
      (JsonText.ofJson (.object (entries.map fun entry => (entry.1, entry.2.toJson)))) =
        .ok ⟨entries⟩ := by
    have reads : ∀ entry : String × ClassEntry,
        (ClassEntry.ofText (JsonText.ofJson entry.2.toJson)).map (fun value => (entry.1, value)) =
          .ok (id entry) := by
      intro entry
      rw [ClassEntry.ofText_toJson]
      rfl
    have same : OrderedMap.ofList entries = ⟨entries⟩ :=
      congrArg OrderedMap.mk (OrderedMap.ofList_entries proper)
    simp only [JsonText.ofJson, JsonText.toMap, JsonText.entries_ofFields, List.map_map]
    rw [Record.mapM_map_ok reads, List.map_id]
    simp only [Except.map, same]
  have found : record.ofText "struct MemberIndex"
      (JsonText.ofJson (toJson ⟨⟨entries⟩⟩)) = .ok ⟨⟨entries⟩⟩ :=
    Record.ofText_of_describes _ (.map _ (.required rfl classes)) (by simp)
  unfold read JsonText.readWhole pretty
  rw [Json.readFirst_pretty readable]
  simp only [found]
  rfl

end MemberIndex

end ScriptBridge

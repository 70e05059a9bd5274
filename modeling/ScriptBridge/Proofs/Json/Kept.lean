import ScriptBridge.Proofs.Json.RoundTrip
import ScriptBridge.Proofs.OrderedMap

/-!
# Values as they are kept

A value that was read from a text holds no integer beyond a machine word, and
merging leaves no name twice in an object.  Values of this kind are not changed
by merging them again.
-/

namespace ScriptBridge

/-- A number whose integer, if it is one, fits a machine word. -/
def JsonNumber.IsMachine : JsonNumber → Prop
  | .integer value => JsonText.IsMachine value
  | .float _ => True

namespace Json

theorem mem_itemNumbers {number : JsonNumber} {items : List Json} :
    number ∈ itemNumbers items ↔ ∃ item ∈ items, number ∈ item.numbers := by
  induction items with
  | nil => simp [itemNumbers]
  | cons item rest ih => simp [itemNumbers, ih]

theorem mem_fieldNumbers {number : JsonNumber} {fields : List (String × Json)} :
    number ∈ fieldNumbers fields ↔ ∃ field ∈ fields, number ∈ field.2.numbers := by
  induction fields with
  | nil => simp [fieldNumbers]
  | cons field rest ih => simp [fieldNumbers, ih]

mutual

/-- Merging brings in no number. -/
theorem numbers_merge_subset : ∀ value : Json, value.merge.numbers ⊆ value.numbers
  | .null => List.Subset.refl _
  | .bool _ => List.Subset.refl _
  | .number _ => List.Subset.refl _
  | .string _ => List.Subset.refl _
  | .array items => itemNumbers_merge_subset items
  | .object fields => by
      intro number member
      obtain ⟨field, kept, inside⟩ := mem_fieldNumbers.mp member
      exact fieldNumbers_merge_subset fields
        (mem_fieldNumbers.mpr ⟨field, OrderedMap.mem_ofList kept, inside⟩)

theorem itemNumbers_merge_subset : ∀ items : List Json,
    itemNumbers (mergeItems items) ⊆ itemNumbers items
  | [] => List.Subset.refl _
  | item :: rest =>
      List.append_subset.mpr
        ⟨fun _ member => List.mem_append_left _ (numbers_merge_subset item member),
          fun _ member => List.mem_append_right _ (itemNumbers_merge_subset rest member)⟩

theorem fieldNumbers_merge_subset : ∀ fields : List (String × Json),
    fieldNumbers (mergeFields fields) ⊆ fieldNumbers fields
  | [] => List.Subset.refl _
  | (_, value) :: rest =>
      List.append_subset.mpr
        ⟨fun _ member => List.mem_append_left _ (numbers_merge_subset value member),
          fun _ member => List.mem_append_right _ (fieldNumbers_merge_subset rest member)⟩

end

/-! ### Merged values -/

mutual

/-- No object of a value has a name twice. -/
def IsMerged : Json → Prop
  | .array items => AreMerged items
  | .object fields => (fields.map Prod.fst).Nodup ∧ FieldsMerged fields
  | _ => True

def AreMerged : List Json → Prop
  | [] => True
  | item :: rest => item.IsMerged ∧ AreMerged rest

def FieldsMerged : List (String × Json) → Prop
  | [] => True
  | (_, value) :: rest => value.IsMerged ∧ FieldsMerged rest

end

theorem areMerged_iff {items : List Json} : AreMerged items ↔ ∀ item ∈ items, item.IsMerged := by
  induction items with
  | nil => simp [AreMerged]
  | cons item rest ih => simp [AreMerged, ih]

theorem fieldsMerged_iff {fields : List (String × Json)} :
    FieldsMerged fields ↔ ∀ field ∈ fields, field.2.IsMerged := by
  induction fields with
  | nil => simp [FieldsMerged]
  | cons field rest ih => simp [FieldsMerged, ih]

theorem isMerged_object {fields : List (String × Json)} :
    IsMerged (.object fields) ↔
      (fields.map Prod.fst).Nodup ∧ ∀ field ∈ fields, field.2.IsMerged := by
  rw [IsMerged, fieldsMerged_iff]

mutual

/-- Merging leaves no name twice. -/
theorem isMerged_merge : ∀ value : Json, value.merge.IsMerged
  | .null => trivial
  | .bool _ => trivial
  | .number _ => trivial
  | .string _ => trivial
  | .array items => areMerged_mergeItems items
  | .object fields => by
      refine isMerged_object.mpr ⟨OrderedMap.nodup_ofList _, fun field member => ?_⟩
      exact fieldsMerged_iff.mp (fieldsMerged_mergeFields fields) field
        (OrderedMap.mem_ofList member)

theorem areMerged_mergeItems : ∀ items : List Json, AreMerged (mergeItems items)
  | [] => trivial
  | item :: rest => ⟨isMerged_merge item, areMerged_mergeItems rest⟩

theorem fieldsMerged_mergeFields : ∀ fields : List (String × Json),
    FieldsMerged (mergeFields fields)
  | [] => trivial
  | (_, value) :: rest => ⟨isMerged_merge value, fieldsMerged_mergeFields rest⟩

end

mutual

/-- A merged value is merged already. -/
theorem merge_of_isMerged : ∀ value : Json, value.IsMerged → value.merge = value
  | .null, _ => rfl
  | .bool _, _ => rfl
  | .number _, _ => rfl
  | .string _, _ => rfl
  | .array items, merged => by rw [merge, mergeItems_of_areMerged items merged]
  | .object fields, merged => by
      rw [merge, mergeFields_of_fieldsMerged fields merged.2, OrderedMap.ofList_entries merged.1]

theorem mergeItems_of_areMerged : ∀ items : List Json, AreMerged items →
    mergeItems items = items
  | [], _ => rfl
  | item :: rest, merged => by
      rw [mergeItems, merge_of_isMerged item merged.1, mergeItems_of_areMerged rest merged.2]

theorem mergeFields_of_fieldsMerged : ∀ fields : List (String × Json), FieldsMerged fields →
    mergeFields fields = fields
  | [], _ => rfl
  | (name, value) :: rest, merged => by
      rw [mergeFields, merge_of_isMerged value merged.1,
        mergeFields_of_fieldsMerged rest merged.2]

end

end Json

/-! ### Numbers that were read -/

namespace JsonText

/-- What a text means holds no integer beyond a machine word. -/
def MeansMachine (text : JsonText) : Prop :=
  ∀ value, text.value? = some value → ∀ number ∈ value.numbers, number.IsMachine

theorem mem_itemValues? {items : List JsonText} {gathered values : List Json}
    (found : itemValues? gathered items = some values) :
    ∀ value ∈ values, value ∈ gathered ∨ ∃ item ∈ items, item.value? = some value := by
  induction items generalizing gathered with
  | nil =>
      cases found
      simp
  | cons item rest ih =>
      intro value member
      unfold itemValues? at found
      split at found
      · next first equal =>
          rcases ih found value member with earlier | ⟨item, later, means⟩
          · rcases List.mem_cons.mp earlier with rfl | earlier
            · exact .inr ⟨item, by simp, equal⟩
            · exact .inl earlier
          · exact .inr ⟨item, by simp [later], means⟩
      · cases found

theorem mem_fieldValues? {fields : List (Option String × JsonText)}
    {gathered values : List (String × Json)}
    (found : fieldValues? gathered fields = some values) :
    ∀ value ∈ values, value ∈ gathered ∨ ∃ field ∈ fields, field.2.value? = some value.2 := by
  induction fields generalizing gathered with
  | nil =>
      cases found
      simp
  | cons field rest ih =>
      intro value member
      unfold fieldValues? at found
      split at found
      · next name first _ equal =>
          rcases ih found value member with earlier | ⟨field, later, means⟩
          · rcases List.mem_cons.mp earlier with rfl | earlier
            · exact .inr ⟨field, by simp, equal⟩
            · exact .inl earlier
          · exact .inr ⟨field, by simp [later], means⟩
      · cases found

theorem meansMachine_array {items : List JsonText}
    (machine : ∀ item ∈ items, MeansMachine item) : MeansMachine (.array items) := by
  intro value means number member
  obtain ⟨values, found, rfl⟩ := Option.map_eq_some_iff.mp means
  obtain ⟨value, inside, member⟩ := Json.mem_itemNumbers.mp member
  rcases mem_itemValues? found value inside with none | ⟨item, listed, means⟩
  · simp at none
  · exact machine item listed value means number member

theorem meansMachine_object {fields : List (Option String × JsonText)}
    (machine : ∀ field ∈ fields, MeansMachine field.2) : MeansMachine (.object fields) := by
  intro value means number member
  obtain ⟨values, found, rfl⟩ := Option.map_eq_some_iff.mp means
  obtain ⟨value, inside, member⟩ := Json.mem_fieldNumbers.mp member
  rcases mem_fieldValues? found value inside with none | ⟨field, listed, means⟩
  · simp at none
  · exact machine field listed value.2 means number member

theorem meansMachine_fault : MeansMachine .fault := by
  intro value means
  cases means

theorem meansMachine_brokenArray {gathered : List JsonText}
    (machine : ∀ item ∈ gathered, MeansMachine item) :
    MeansMachine (brokenArray gathered).1 := by
  refine meansMachine_array fun item member => ?_
  rcases List.mem_cons.mp (List.mem_reverse.mp member) with rfl | member
  · exact meansMachine_fault
  · exact machine item member

theorem meansMachine_brokenObject {gathered : List (Option String × JsonText)}
    (machine : ∀ field ∈ gathered, MeansMachine field.2) :
    MeansMachine (brokenObject gathered).1 := by
  refine meansMachine_object fun field member => ?_
  rcases List.mem_cons.mp (List.mem_reverse.mp member) with rfl | member
  · exact meansMachine_fault
  · exact machine field member

/-- Words and strings mean no number at all. -/
theorem meansMachine_of_numbers {text : JsonText}
    (none : ∀ value, text.value? = some value → value.numbers = []) : MeansMachine text := by
  intro value means number member
  simp [none value means] at member

theorem meansMachine_number {input rest : List Char} {value : Option JsonNumber}
    (found : readNumber input = some (value, rest)) : MeansMachine (.number value) := by
  intro json means number member
  obtain ⟨value, rfl, rfl⟩ := Option.map_eq_some_iff.mp means
  have same : number = value := by simpa [Json.numbers] using member
  subst same
  cases number with
  | integer value => exact isMachine_of_readNumber found
  | float value => trivial

/-- Whatever is read, with any fuel and behind any entries read before, means
machine integers only. -/
theorem meansMachine_read (fuel : Nat) :
    (∀ input, MeansMachine (readValue fuel input).1) ∧
    (∀ gathered input, (∀ item ∈ gathered, MeansMachine item) →
      MeansMachine (readItems fuel gathered input).1) ∧
    (∀ gathered input, (∀ field ∈ gathered, MeansMachine field.2) →
      MeansMachine (readFields fuel gathered input).1) := by
  induction fuel with
  | zero =>
      exact ⟨fun _ => meansMachine_fault, fun _ _ => meansMachine_brokenArray,
        fun _ _ => meansMachine_brokenObject⟩
  | succ fuel ih =>
      obtain ⟨values, items, fields⟩ := ih
      refine ⟨fun input => ?_, fun gathered input machine => ?_,
        fun gathered input machine => ?_⟩
      · unfold readValue
        split
        · exact meansMachine_of_numbers fun _ means => by cases means; rfl
        · exact meansMachine_of_numbers fun _ means => by cases means; rfl
        · exact meansMachine_of_numbers fun _ means => by cases means; rfl
        · split
          · next found _ _ =>
            exact meansMachine_of_numbers fun _ means => by
              obtain ⟨_, rfl, rfl⟩ := Option.map_eq_some_iff.mp means
              rfl
          · exact meansMachine_fault
        · split
          · exact meansMachine_array (by simp)
          · exact items [] _ (by simp)
        · split
          · exact meansMachine_object (by simp)
          · exact fields [] _ (by simp)
        · split
          · next found => exact meansMachine_number found
          · exact meansMachine_fault
      · have item := values input
        have more : ∀ member ∈ (readValue fuel input).1 :: gathered, MeansMachine member :=
          List.forall_mem_cons.mpr ⟨item, machine⟩
        unfold readItems
        split
        next item afterItem equal =>
        rw [equal] at more
        split
        · exact items _ _ more
        · exact meansMachine_array fun member listed => more member (List.mem_reverse.mp listed)
        · exact meansMachine_brokenArray more
      · unfold readFields
        split
        · split
          · exact meansMachine_brokenObject machine
          · next name afterName _ =>
            split
            · next afterColon _ =>
              have more : ∀ member ∈ (name, (readValue fuel afterColon).1) :: gathered,
                  MeansMachine member.2 :=
                List.forall_mem_cons.mpr ⟨values afterColon, machine⟩
              split
              next value afterValue equal =>
              rw [equal] at more
              split
              · exact fields _ _ more
              · exact meansMachine_object fun member listed =>
                  more member (List.mem_reverse.mp listed)
              · exact meansMachine_brokenObject more
            · exact meansMachine_brokenObject
                (List.forall_mem_cons.mpr ⟨meansMachine_fault, machine⟩)
        · exact meansMachine_brokenObject machine

/-- A value read from a text holds no integer beyond a machine word. -/
theorem isMachine_of_readFirst {text : String} {value : Json} {rest : List Char}
    (read : Json.readFirst text = some (value, rest)) :
    ∀ number ∈ value.numbers, number.IsMachine := by
  simp only [Json.readFirst, Option.map_eq_some_iff, Prod.mk.injEq] at read
  obtain ⟨found, means, rfl, -⟩ := read
  exact (meansMachine_read (2 * text.toList.length + 2)).1 text.toList found means

end JsonText

end ScriptBridge

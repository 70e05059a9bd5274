import ScriptBridge.Tree.Reader
import ScriptBridge.Proofs.Json.Kept
import ScriptBridge.Proofs.Json.Record
import ScriptBridge.Proofs.Tree.Induction

/-!
# Trees that were read

A tree that was read from a text keeps some of the values of the text as they
stood: the values of literals and the fields of unknown nodes.  These are merged
and hold machine integers only; the tag of an unknown node names no category, and
the place of its location is empty.
-/

namespace ScriptBridge

namespace Shape

variable {Part Other : Type}

theorem parts_map (change : Part → Other) (shape : Shape Part) :
    (shape.map change).parts = shape.parts.map change := by
  have filterMap_id : ∀ elements : List (Option Part),
      (elements.map (·.map change)).filterMap id = (elements.filterMap id).map change := by
    intro elements
    induction elements with
    | nil => rfl
    | cons element rest ih => cases element <;> simp_all
  have toList_map : ∀ part : Option Part, (part.map change).toList = part.toList.map change := by
    rintro (_ | _) <;> rfl
  cases shape <;>
    simp only [Shape.map, parts, filterMap_id, toList_map, List.map_append, List.map_cons,
      List.map_nil]

/-- Only the parts of a shape are changed. -/
theorem map_congr {first second : Part → Other} {shape : Shape Part}
    (same : ∀ part ∈ shape.parts, first part = second part) :
    shape.map first = shape.map second := by
  have optional {choice : Option Part} (alike : ∀ part ∈ choice.toList, first part = second part) :
      choice.map first = choice.map second :=
    Option.map_congr fun part inside => alike part (Option.mem_toList.mpr inside)
  cases shape
  case arrayLiteral elements =>
    simp only [Shape.map, arrayLiteral.injEq]
    refine List.map_congr_left fun element member => Option.map_congr fun part inside => ?_
    exact same part (List.mem_filterMap.mpr ⟨element, member, inside⟩)
  all_goals
    first
      | rfl
      | simp only [parts, List.forall_mem_append, List.forall_mem_cons, List.not_mem_nil,
          false_imp_iff, implies_true, and_true] at same
        try casesm* _ ∧ _
        rw [Shape.map, Shape.map]
        congr 1 <;> first
          | assumption
          | exact optional ‹_›
          | exact List.map_congr_left ‹_›

/-- A property that every part has can be carried by the parts. -/
theorem exists_lift {motive : Part → Prop} (inhabited : ∃ part, motive part) {shape : Shape Part}
    (all : ∀ part ∈ shape.parts, motive part) :
    ∃ lifted : Shape {part // motive part}, lifted.map Subtype.val = shape := by
  classical
  obtain ⟨other, holds⟩ := inhabited
  let lift (part : Part) : {part // motive part} :=
    if known : motive part then ⟨part, known⟩ else ⟨other, holds⟩
  have back : ∀ part ∈ shape.parts, (Subtype.val ∘ lift) part = id part := by
    intro part member
    simp [lift, all part member]
  exact ⟨shape.map lift, by rw [map_map, map_congr back, map_id]⟩

/-- The values of the text that a shape keeps as they stood. -/
def kept : Shape Part → List Json
  | .literal _ value => [value]
  | .unknown _ fields => fields.map Prod.snd
  | _ => []

theorem kept_map (change : Part → Other) (shape : Shape Part) :
    (shape.map change).kept = shape.kept := by
  cases shape <;> rfl

end Shape

namespace Node

/-- A node and every node that is kept in it, at any depth. -/
def stored : Node → List Node :=
  fold fun location shape =>
    ⟨location, shape.map (·.node)⟩ :: shape.parts.flatMap (·.result)

theorem stored_eq (node : Node) :
    node.stored = node :: node.shape.parts.flatMap stored := by
  obtain ⟨location, shape⟩ := node
  have whole : shape.map
      ((·.node) ∘ fun part => (⟨part, part.stored⟩ : Folded (List Node))) = shape :=
    Shape.map_id shape
  rw [stored, fold_eq, Shape.map_map, Shape.parts_map, List.flatMap_map, ← stored, whole]

theorem parts_induction {motive : Node → Prop}
    (step : ∀ node, (∀ part ∈ node.shape.parts, motive part) → motive node) :
    ∀ node, motive node := by
  refine induction fun location shape => step _ fun part member => ?_
  rw [Shape.parts_map] at member
  obtain ⟨⟨part, holds⟩, -, rfl⟩ := List.mem_map.mp member
  exact holds

/-- The numbers of the values that a tree keeps. -/
def numbers (node : Node) : List JsonNumber :=
  node.stored.flatMap fun part => part.shape.kept.flatMap Json.numbers

end Node

/-! ### Soundness -/

/-- A value as it is after reading: merged, and without integers beyond a machine
word. -/
structure Json.IsSound (value : Json) : Prop where
  merged : value.IsMerged
  machine : ∀ number ∈ value.numbers, number.IsMachine

theorem Json.isSound_null : Json.null.IsSound :=
  ⟨trivial, nofun⟩

/-- A location whose lines and columns fit 32 bits. -/
structure Location.Fits (location : Location) : Prop where
  startLine : location.start.line < 0x100000000
  startColumn : location.start.column < 0x100000000
  stopLine : location.stop.line < 0x100000000
  stopColumn : location.stop.column < 0x100000000

namespace Shape

variable {Part : Type}

/-- Whether a shape has a category. -/
def isKnown : Shape Part → Bool
  | .unknown _ _ => false
  | _ => true

/-- What a shape keeps of the text is as reading leaves it. -/
structure IsSound (shape : Shape Part) : Prop where
  kept : ∀ value ∈ shape.kept, value.IsSound
  unknown : ∀ tag fields, shape = .unknown tag fields →
    record? tag = none ∧ fields.lookup "type" = some (.string tag) ∧
      (fields.map Prod.fst).Nodup ∧ Node.withoutLocation fields = fields

theorem isSound_of_isKnown {shape : Shape Part} (known : shape.isKnown = true)
    (kept : ∀ value ∈ shape.kept, value.IsSound) : shape.IsSound where
  kept := kept
  unknown := by
    rintro tag fields rfl
    cases known

end Shape

namespace Node

/-- Every node of a tree is as reading leaves it. -/
def IsSound (node : Node) : Prop :=
  ∀ part ∈ node.stored, part.location.Fits ∧ part.shape.IsSound

theorem isSound_iff {node : Node} :
    node.IsSound ↔ node.location.Fits ∧ node.shape.IsSound ∧
      ∀ part ∈ node.shape.parts, part.IsSound := by
  constructor
  · intro sound
    rw [IsSound, stored_eq] at sound
    have ⟨own, below⟩ := List.forall_mem_cons.mp sound
    exact ⟨own.1, own.2, fun part member deeper inside =>
      below deeper (List.mem_flatMap.mpr ⟨part, member, inside⟩)⟩
  · rintro ⟨fits, own, parts⟩ part inside
    rw [stored_eq] at inside
    rcases List.mem_cons.mp inside with rfl | inside
    · exact ⟨fits, own⟩
    · obtain ⟨child, member, inside⟩ := List.mem_flatMap.mp inside
      exact parts child member part inside

end Node

/-! ### Fields of a node -/

/-- What was read bottom up from a sound value. -/
structure Reading.IsTrusted (reading : Reading) : Prop where
  value : reading.value.IsSound
  node : ∀ node, reading.node = .ok node → node.IsSound
  items : ∀ item ∈ reading.items, ∀ node, item.2 = .ok node → node.IsSound

theorem Reading.maybeNode_isSound {value : Json} {result : Except DataError Node}
    (trusted : ∀ node, result = .ok node → node.IsSound) {part : Option Node}
    (read : Reading.maybeNode value result = .ok part) : ∀ node ∈ part, node.IsSound := by
  unfold Reading.maybeNode at read
  split at read
  · cases read
    simp
  · cases result with
    | error error => simp [Except.map] at read
    | ok node =>
        cases read
        simpa using trusted node rfl

theorem mem_of_mapM_ok {Item Value Error : Type} {read : Item → Except Error Value}
    {items : List Item} {values : List Value} (found : items.mapM read = .ok values) :
    ∀ value ∈ values, ∃ item ∈ items, read item = .ok value := by
  induction items generalizing values with
  | nil =>
      cases found
      simp
  | cons item rest ih =>
      rw [List.mapM_cons] at found
      cases first : read item with
      | error error => simp [first, bind, Except.bind] at found
      | ok head =>
          cases others : rest.mapM read with
          | error error => simp [first, others, bind, Except.bind] at found
          | ok tail =>
              have same : values = head :: tail := by
                simpa [first, others, bind, Except.bind, pure, Except.pure] using found.symm
              subst same
              intro value member
              rcases List.mem_cons.mp member with rfl | member
              · exact ⟨item, by simp, first⟩
              · obtain ⟨item, later, read⟩ := ih others value member
                exact ⟨item, by simp [later], read⟩

theorem Reading.itemsWith_isSound {Value : Type} {result : Value → Prop}
    {read : Json → Except DataError Node → Except DataError Value}
    (reads : ∀ value node, (∀ part, node = .ok part → part.IsSound) →
      ∀ item, read value node = .ok item → result item)
    {reading : Reading} (trusted : reading.IsTrusted) {values : List Value}
    (found : reading.itemsWith read = .ok values) : ∀ value ∈ values, result value := by
  unfold Reading.itemsWith at found
  split at found
  · intro value member
    obtain ⟨item, listed, means⟩ := mem_of_mapM_ok found value member
    exact reads item.1 item.2 (trusted.items item listed) value means
  · cases found

namespace Record

theorem ensures_part (name : String) :
    Ensures Reading.IsTrusted (part name) Node.IsSound :=
  .required fun _ trusted => trusted.node

theorem ensures_maybePart (name : String) :
    Ensures Reading.IsTrusted (maybePart name) fun part => ∀ node ∈ part, node.IsSound :=
  .withDefault (by simp) fun _ trusted _ => Reading.maybeNode_isSound trusted.node

theorem ensures_partList (name : String) :
    Ensures Reading.IsTrusted (partList name) fun parts => ∀ node ∈ parts, node.IsSound :=
  .withDefault (by simp) fun _ trusted _ =>
    Reading.itemsWith_isSound (fun _ _ sound => sound) trusted

theorem ensures_partListWithHoles (name : String) :
    Ensures Reading.IsTrusted (partListWithHoles name)
      fun parts => ∀ node, some node ∈ parts → node.IsSound :=
  .withDefault (by simp) fun _ trusted _ read node member =>
    Reading.itemsWith_isSound (fun _ _ sound _ => Reading.maybeNode_isSound sound) trusted read
      (some node) member node rfl

theorem ensures_value {default : Json} (name : String) (plain : default.IsSound) :
    Ensures Reading.IsTrusted (.withDefault name default fun reading => .ok reading.value)
      Json.IsSound :=
  .withDefault plain fun _ trusted _ found => by
    cases found
    exact trusted.value

theorem ensures_nothing {Entry Value : Type} (trusted : Entry → Prop)
    (record : Record Entry Value) : Ensures trusted record fun _ => True :=
  fun _ _ _ _ => trivial

end Record

namespace Shape

open Record

/-- The parts and the kept values of a shape that was read are sound. -/
def WasRead (shape : Shape Node) : Prop :=
  shape.isKnown = true ∧ (∀ part ∈ shape.parts, part.IsSound) ∧
    ∀ value ∈ shape.kept, value.IsSound

theorem structured_ensures :
    ∀ entry ∈ structured, Ensures Reading.IsTrusted entry.2 WasRead := by
  simp only [structured, groupRecord, functionRecord, classRecord, classPropertyRecord,
    methodRecord, unaryRecord, binaryRecord, callRecord, spreadRecord, forEachRecord, loopRecord,
    jumpRecord, exitRecord, bindingRecord, heritageRecord, methodSignatureRecord,
    List.forall_mem_cons, List.not_mem_nil, false_imp_iff, implies_true, and_true]
  repeat' apply And.intro
  -- every record is a chain of fields, each of which ensures something of its own
  all_goals
    repeat' first
      | with_reducible apply Ensures.seq
      | with_reducible exact ensures_part _
      | with_reducible exact ensures_maybePart _
      | with_reducible exact ensures_partList _
      | with_reducible exact ensures_nothing _ (mark _)
      | with_reducible apply Ensures.map
      | with_reducible exact ensures_nothing _ (word _)
      | with_reducible exact ensures_partListWithHoles _
      | with_reducible exact ensures_value _ Json.isSound_null
      | with_reducible exact ensures_nothing _ (optionalWord _)
      | with_reducible exact ensures_nothing _ (maybeWord _)
      | with_reducible exact ensures_nothing _ (.withDefault _ _ _)
  all_goals
    intros
    refine ⟨rfl, ?_, ?_⟩
    · simp only [parts, List.mem_append, List.mem_cons, List.not_mem_nil, or_false, or_imp,
        Option.mem_toList, List.mem_filterMap, forall_and, forall_eq, false_imp_iff, implies_true]
      all_goals and_intros <;> first | assumption | simp_all
    · simp only [kept, List.mem_singleton, List.not_mem_nil, false_imp_iff, implies_true, forall_eq]
      all_goals assumption

theorem ensures_of_record? {tag : String} {record : Record Reading (Shape Node)}
    (found : record? tag = some record) : Ensures Reading.IsTrusted record WasRead := by
  unfold record? at found
  split at found
  · next shape bareShape =>
      cases found
      -- a bare category has neither parts nor kept values
      have none : shape.isKnown = true ∧ shape.parts = [] ∧ shape.kept = [] := by
        have member := OrderedMap.mem_of_lookup bareShape
        simp only [bare, List.mem_append, List.mem_map] at member
        obtain (⟨form, -, same⟩ | ⟨form, -, same⟩) | ⟨form, -, same⟩ := member <;>
          cases same <;> exact ⟨rfl, rfl, rfl⟩
      intro find _ built same
      cases same
      exact ⟨none.1, by simp [none.2.1], by simp [none.2.2]⟩
  · exact structured_ensures (tag, record) (OrderedMap.mem_of_lookup found)

end Shape

/-! ### Reading -/

theorem Location.fits_default : ({} : Location).Fits := by
  constructor <;> decide

theorem Json.toCount_lt {value : Json} {count : Nat} (read : value.toCount = .ok count) :
    count < 0x100000000 := by
  unfold Json.toCount at read
  split at read
  · split at read
    · next bound =>
        cases read
        simp only [Bool.and_eq_true, decide_eq_true_eq] at bound
        omega
    · cases read
  · cases read

theorem Position.ofJson_lt {value : Json} {position : Position}
    (read : Position.ofJson value = .ok position) :
    position.line < 0x100000000 ∧ position.column < 0x100000000 := by
  have ensures : Record.Ensures (fun _ => True) Position.record fun position =>
      position.line < 0x100000000 ∧ position.column < 0x100000000 :=
    .seq (.map (.required fun _ _ _ => Json.toCount_lt) fun _ line _ column => ⟨line, column⟩)
      (.required fun _ _ _ => Json.toCount_lt)
  exact ensures.ofJson read

theorem Location.ofJson_fits {value : Json} {location : Location}
    (read : Location.ofJson value = .ok location) : location.Fits := by
  have ensures : Record.Ensures (fun _ => True) Location.record Location.Fits :=
    .seq (.map (.withDefault (by decide) fun _ _ _ => Position.ofJson_lt)
        fun _ start _ stop => ⟨start.1, start.2, stop.1, stop.2⟩)
      (.withDefault (by decide) fun _ _ _ => Position.ofJson_lt)
  exact ensures.ofJson read

namespace Node

theorem readLocation_fits {fields : List (String × Json)} {location : Location}
    (read : readLocation fields = .ok location) : location.Fits := by
  unfold readLocation at read
  split at read
  · cases read
    exact Location.fits_default
  · cases read
    exact Location.fits_default
  · exact Location.ofJson_fits read

/-- Taking out the location leaves the names alone. -/
theorem names_withoutLocation (fields : List (String × Json)) :
    (withoutLocation fields).map Prod.fst = fields.map Prod.fst := by
  simp only [withoutLocation, List.map_map]
  refine List.map_congr_left fun field _ => ?_
  simp only [Function.comp_apply]
  split <;> rfl

theorem withoutLocation_idem (fields : List (String × Json)) :
    withoutLocation (withoutLocation fields) = withoutLocation fields := by
  simp only [withoutLocation, List.map_map]
  refine List.map_congr_left fun field _ => ?_
  by_cases location : field.1 = "loc" <;> simp [location]

theorem lookup_withoutLocation {name : String} (other : name ≠ "loc")
    (fields : List (String × Json)) :
    (withoutLocation fields).lookup name = fields.lookup name := by
  induction fields with
  | nil => rfl
  | cons field rest ih =>
      obtain ⟨key, value⟩ := field
      simp only [withoutLocation, List.map_cons] at ih ⊢
      by_cases location : key = "loc"
      · simp only [location, beq_self_eq_true, if_true, List.lookup_cons,
          beq_eq_false_iff_ne.mpr other, ih]
      · simp only [beq_eq_false_iff_ne.mpr location, Bool.false_eq_true, if_false,
          List.lookup_cons, ih]

theorem isSound_withoutLocation {fields : List (String × Json)}
    (sound : ∀ field ∈ fields, field.2.IsSound) :
    ∀ field ∈ withoutLocation fields, field.2.IsSound := by
  intro field member
  obtain ⟨⟨name, value⟩, listed, rfl⟩ := List.mem_map.mp member
  by_cases location : name = "loc"
  · simpa [location] using Json.isSound_null
  · simpa [location] using sound (name, value) listed

/-- The node read from the fields of an object is sound. -/
theorem ofFields_isSound {fields : List (String × Json)} {readings : List (String × Reading)}
    {node : Node} (nodup : (fields.map Prod.fst).Nodup)
    (sound : ∀ field ∈ fields, field.2.IsSound)
    (trusted : ∀ reading ∈ readings, reading.2.IsTrusted)
    (read : ofFields fields readings = .ok node) : node.IsSound := by
  unfold ofFields at read
  split at read
  · cases read
  · next location foundLocation =>
    have fits := readLocation_fits foundLocation
    split at read
    · next tag foundTag =>
      split at read
      · next record foundRecord =>
        cases foundShape : record.ofEntries readings with
        | error error => simp [foundShape, Except.map] at read
        | ok shape =>
            have same : node = ⟨location, shape⟩ := by
              simpa [foundShape, Except.map] using read.symm
            subst same
            have ⟨known, parts, kept⟩ :=
              (Shape.ensures_of_record? foundRecord).ofEntries trusted foundShape
            exact isSound_iff.mpr ⟨fits, Shape.isSound_of_isKnown known kept, parts⟩
      · next noRecord =>
        cases read
        refine isSound_iff.mpr ⟨fits, ⟨?_, ?_⟩, by simp [Shape.parts]⟩
        · intro value member
          obtain ⟨field, listed, rfl⟩ := List.mem_map.mp member
          exact isSound_withoutLocation sound field listed
        · intro name kept same
          cases same
          refine ⟨noRecord, ?_, ?_, withoutLocation_idem fields⟩
          · rw [lookup_withoutLocation (by decide), foundTag]
          · rw [names_withoutLocation]
            exact nodup
    · cases read

theorem isSound_item {items : List Json} (sound : Json.IsSound (.array items)) :
    ∀ item ∈ items, item.IsSound := fun item member =>
  ⟨Json.areMerged_iff.mp sound.merged item member, fun number inside =>
    sound.machine number (Json.mem_itemNumbers.mpr ⟨item, member, inside⟩)⟩

theorem isSound_field {fields : List (String × Json)} (sound : Json.IsSound (.object fields)) :
    ∀ field ∈ fields, field.2.IsSound := fun field member =>
  ⟨(Json.isMerged_object.mp sound.merged).2 field member, fun number inside =>
    sound.machine number (Json.mem_fieldNumbers.mpr ⟨field, member, inside⟩)⟩

mutual

/-- Whatever is read from a sound value can be trusted. -/
theorem reading_isTrusted : ∀ value : Json, value.IsSound → (reading value).IsTrusted
  | .null, sound => ⟨sound, nofun, nofun⟩
  | .bool _, sound => ⟨sound, nofun, nofun⟩
  | .number _, sound => ⟨sound, nofun, nofun⟩
  | .string _, sound => ⟨sound, nofun, nofun⟩
  | .array items, sound => ⟨sound, nofun, itemReadings_isSound items (isSound_item sound)⟩
  | .object fields, sound =>
      ⟨sound, fun _ read => ofFields_isSound (Json.isMerged_object.mp sound.merged).1
        (isSound_field sound) (fieldReadings_isTrusted fields (isSound_field sound)) read, nofun⟩

theorem itemReadings_isSound : ∀ items : List Json, (∀ item ∈ items, item.IsSound) →
    ∀ item ∈ itemReadings items, ∀ node, item.2 = .ok node → node.IsSound
  | [], _ => nofun
  | item :: rest, sound => List.forall_mem_cons.mpr
      ⟨(reading_isTrusted item (sound item (by simp))).node,
        itemReadings_isSound rest fun other later => sound other (by simp [later])⟩

theorem fieldReadings_isTrusted : ∀ fields : List (String × Json),
    (∀ field ∈ fields, field.2.IsSound) → ∀ reading ∈ fieldReadings fields, reading.2.IsTrusted
  | [], _ => nofun
  | (name, value) :: rest, sound => List.forall_mem_cons.mpr
      ⟨reading_isTrusted value (sound (name, value) (by simp)),
        fieldReadings_isTrusted rest fun other later => sound other (by simp [later])⟩

end

/-- A tree that was read from a text is sound. -/
theorem isSound_of_read {text : String} {node : Node} (read : Node.read text = .ok node) :
    node.IsSound := by
  unfold Node.read at read
  split at read
  · cases read
  · next value rest found =>
    have sound : value.merge.IsSound :=
      ⟨Json.isMerged_merge value, fun number member =>
        JsonText.isMachine_of_readFirst found number (Json.numbers_merge_subset value member)⟩
    split at read
    · cases read
    · next tree foundTree =>
      split at read
      · cases read
        exact (reading_isTrusted value.merge sound).node node foundTree
      · cases read

end Node

end ScriptBridge

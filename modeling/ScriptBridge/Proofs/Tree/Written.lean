import ScriptBridge.Tree.Writer
import ScriptBridge.Proofs.Tree.Stored

/-!
# Written trees as values

The value that is written for a tree is made of what is written for the parts of
each node, of the values that the node keeps, and of its location.  So it repeats
no name and holds no other numbers.
-/

namespace ScriptBridge

/-- A value made of given values, with nothing of its own but words and marks. -/
inductive Json.MadeOf (values : List Json) : Json → Prop
  | member {value : Json} (listed : value ∈ values) : MadeOf values value
  | null : MadeOf values .null
  | string (text : String) : MadeOf values (.string text)
  | bool (mark : Bool) : MadeOf values (.bool mark)
  | array {items : List Json} (listed : ∀ item ∈ items, item ∈ values ∨ item = .null) :
      MadeOf values (.array items)

namespace Json.MadeOf

variable {values : List Json}

theorem maybe {part : Option Json} (listed : ∀ value ∈ part, value ∈ values) :
    MadeOf values (Shape.maybe part) := by
  cases part with
  | none => exact .null
  | some value => exact .member (listed value rfl)

theorem maybeText (text : Option String) : MadeOf values (Shape.maybeText text) := by
  cases text with
  | none => exact .null
  | some text => exact .string text

theorem items {items : List Json} (listed : ∀ item ∈ items, item ∈ values) :
    MadeOf values (.array items) :=
  .array fun item member => .inl (listed item member)

theorem elements {items : List (Option Json)}
    (listed : ∀ value, some value ∈ items → value ∈ values) :
    MadeOf values (.array (items.map Shape.maybe)) := by
  refine .array fun item member => ?_
  obtain ⟨_ | value, inside, rfl⟩ := List.mem_map.mp member
  · exact .inr rfl
  · exact .inl (listed value inside)

theorem numbers_subset {value : Json} (made : MadeOf values value) {number : JsonNumber}
    (member : number ∈ value.numbers) : ∃ part ∈ values, number ∈ part.numbers := by
  cases made with
  | member listed => exact ⟨value, listed, member⟩
  | array listed =>
      obtain ⟨item, inside, member⟩ := Json.mem_itemNumbers.mp member
      rcases listed item inside with listed | rfl
      · exact ⟨item, listed, member⟩
      · simp [Json.numbers] at member
  | null => simp [Json.numbers] at member
  | string => simp [Json.numbers] at member
  | bool => simp [Json.numbers] at member

theorem isMerged {value : Json} (made : MadeOf values value)
    (merged : ∀ part ∈ values, part.IsMerged) : value.IsMerged := by
  cases made with
  | member listed => exact merged value listed
  | array listed =>
      refine Json.areMerged_iff.mpr fun item inside => ?_
      rcases listed item inside with listed | rfl
      · exact merged item listed
      · trivial
  | null => trivial
  | string => trivial
  | bool => trivial

end Json.MadeOf

namespace Shape

/-- Every field of a shape is made of its parts and of the values it keeps. -/
theorem fields_madeOf (shape : Shape Json) :
    ∀ field ∈ shape.fields, Json.MadeOf (shape.parts ++ shape.kept) field.2 := by
  cases shape <;> simp only [fields, List.forall_mem_cons, List.not_mem_nil, false_imp_iff,
    implies_true, and_true]
  case unknown =>
    intro field member
    exact .member (by simpa [parts, kept] using ⟨field.1, member⟩)
  case arrayLiteral elements =>
    refine .elements fun value member => ?_
    exact List.mem_append_left _ (List.mem_filterMap.mpr ⟨some value, member, rfl⟩)
  all_goals
    repeat' apply And.intro
    all_goals
      first
        | exact .string _
        | exact .bool _
        | exact .maybeText _
        | (refine .maybe ?_
           simp +contextual [parts])
        | (refine .items ?_
           simp +contextual [parts])
        | (refine .member ?_
           simp [parts, kept])

/-- The names under which a shape with a category writes its fields. -/
theorem nodup_names {shape : Shape Json} (known : shape.isKnown = true) (location : Json) :
    ((("type", .string shape.tag) :: shape.fields ++ [("loc", location)]).map
      Prod.fst).Nodup := by
  cases shape
  case unknown => cases known
  all_goals simp [fields]

theorem toJson_of_isKnown {shape : Shape Json} (known : shape.isKnown = true)
    (location : Location) :
    shape.toJson location =
      .object (("type", .string shape.tag) :: shape.fields ++ [("loc", location.toJson)]) := by
  cases shape
  case unknown => cases known
  all_goals rfl

theorem isKnown_map {Part Other : Type} (change : Part → Other) (shape : Shape Part) :
    (shape.map change).isKnown = shape.isKnown := by
  cases shape <;> rfl

end Shape

/-! ### Locations -/

namespace Location

theorem numbers_toJson (location : Location) :
    location.toJson.numbers =
      [.integer location.start.line, .integer location.start.column,
        .integer location.stop.line, .integer location.stop.column] := rfl

theorem isMerged_toJson (location : Location) : location.toJson.IsMerged := by
  simp [toJson, Position.toJson, Json.IsMerged, Json.FieldsMerged, Json.ofNat]

theorem isReadable_toJson {location : Location} (fits : location.Fits) :
    Json.AreReadable location.toJson.numbers := by
  have machine : ∀ count : Nat, count < 0x100000000 →
      JsonText.IsReadable (.integer count) := fun count small =>
    JsonText.isReadable_integer ⟨by omega, by omega⟩
  simp only [numbers_toJson, Json.AreReadable, List.forall_mem_cons]
  exact ⟨machine _ fits.startLine, machine _ fits.startColumn, machine _ fits.stopLine,
    machine _ fits.stopColumn, fun _ member => absurd member List.not_mem_nil⟩

theorem toCount_ofNat {count : Nat} (small : count < 0x100000000) :
    (Json.ofNat count).toCount = .ok count := by
  have bound : (count : Int) < 0x100000000 := by omega
  simp [Json.ofNat, Json.toCount, bound]

theorem position_ofJson_toJson {position : Position} (line : position.line < 0x100000000)
    (column : position.column < 0x100000000) :
    Position.ofJson position.toJson = .ok position := by
  let entries := [("line", Json.ofNat position.line), ("column", Json.ofNat position.column)]
  have nodup : (entries.map Prod.fst).Nodup := by simp [entries]
  have foundLine : entries.lookup "line" = some (Json.ofNat position.line) :=
    OrderedMap.lookup_of_mem nodup (by simp [entries])
  have foundColumn : entries.lookup "column" = some (Json.ofNat position.column) :=
    OrderedMap.lookup_of_mem nodup (by simp [entries])
  have describes : Record.Describes (fun name => entries.lookup name) Position.record position :=
    .seq (.map _ (.required foundLine (toCount_ofNat line)))
      (.required foundColumn (toCount_ofNat column))
  change Position.record.ofEntries entries = .ok position
  exact Record.ofEntries_of_describes _ describes (by simp) nodup

/-- A written location is read back. -/
theorem ofJson_toJson {location : Location} (fits : location.Fits) :
    Location.ofJson location.toJson = .ok location := by
  let entries := [("start", location.start.toJson), ("end", location.stop.toJson)]
  have nodup : (entries.map Prod.fst).Nodup := by simp [entries]
  have foundStart : entries.lookup "start" = some location.start.toJson :=
    OrderedMap.lookup_of_mem nodup (by simp [entries])
  have foundStop : entries.lookup "end" = some location.stop.toJson :=
    OrderedMap.lookup_of_mem nodup (by simp [entries])
  have describes : Record.Describes (fun name => entries.lookup name) Location.record location :=
    .seq (.map _ (.withDefault foundStart
        (position_ofJson_toJson fits.startLine fits.startColumn)))
      (.withDefault foundStop (position_ofJson_toJson fits.stopLine fits.stopColumn))
  change Location.record.ofEntries entries = .ok location
  exact Record.ofEntries_of_describes _ describes (by simp) nodup

end Location

/-! ### Nodes -/

namespace Shape

theorem IsSound.map {Part Other : Type} {shape : Shape Part} (sound : shape.IsSound)
    (change : Part → Other) : (shape.map change).IsSound where
  kept := by
    rw [kept_map]
    exact sound.kept
  unknown tag fields same := by
    cases shape
    case unknown =>
      cases same
      exact sound.unknown tag fields rfl
    all_goals cases same

/-- Every field that is written for a shape is its location, or is made of the parts
and the kept values; and no field is written twice. -/
theorem toJson_madeOf {shape : Shape Json} (sound : shape.IsSound) (location : Location) :
    ∃ fields, shape.toJson location = .object fields ∧ (fields.map Prod.fst).Nodup ∧
      ∀ field ∈ fields,
        field.2 = location.toJson ∨ Json.MadeOf (shape.parts ++ shape.kept) field.2 := by
  cases known : shape.isKnown with
  | true =>
      refine ⟨_, toJson_of_isKnown known location, nodup_names known _, ?_⟩
      rw [List.forall_mem_append, List.forall_mem_cons, List.forall_mem_singleton]
      exact ⟨⟨.inr (.string _), fun field member => .inr (fields_madeOf shape field member)⟩,
        .inl rfl⟩
  | false =>
      cases shape
      case unknown tag fields =>
        obtain ⟨-, -, nodup, -⟩ := sound.unknown tag fields rfl
        refine ⟨_, rfl, OrderedMap.nodup_putEntry _ _ nodup, fun field member => ?_⟩
        rcases OrderedMap.mem_putEntry member with rfl | member
        · exact .inl rfl
        · exact .inr (fields_madeOf (.unknown tag fields) field member)
      all_goals cases known

end Shape

namespace Node

theorem toJson_eq (node : Node) :
    node.toJson = (node.shape.map toJson).toJson node.location := by
  rw [toJson, fold_eq, Shape.map_map]
  rfl

theorem toJson_eq_object (node : Node) : ∃ fields, node.toJson = .object fields := by
  rw [toJson_eq]
  unfold Shape.toJson
  split <;> exact ⟨_, rfl⟩

/-- A sound tree is written without repeated names. -/
theorem isMerged_toJson (node : Node) : node.IsSound → node.toJson.IsMerged := by
  induction node using parts_induction with
  | step node ih =>
      intro sound
      obtain ⟨-, own, parts⟩ := isSound_iff.mp sound
      obtain ⟨fields, written, nodup, made⟩ :=
        Shape.toJson_madeOf (own.map toJson) node.location
      have merged : ∀ value ∈ (node.shape.map toJson).parts ++ (node.shape.map toJson).kept,
          value.IsMerged := by
        intro value source
        rw [Shape.parts_map, Shape.kept_map] at source
        rcases List.mem_append.mp source with source | source
        · obtain ⟨part, inside, rfl⟩ := List.mem_map.mp source
          exact ih part inside (parts part inside)
        · exact (own.kept value source).merged
      rw [toJson_eq, written]
      refine Json.isMerged_object.mpr ⟨nodup, fun field member => ?_⟩
      rcases made field member with same | made
      · exact same ▸ Location.isMerged_toJson node.location
      · exact made.isMerged merged

theorem numbers_eq (node : Node) :
    node.numbers = node.shape.kept.flatMap Json.numbers ++ node.shape.parts.flatMap numbers := by
  rw [numbers, stored_eq, List.flatMap_cons, List.flatMap_assoc]
  rfl

/-- A sound tree whose floats are read back is written with numbers that are. -/
theorem areReadable_toJson (node : Node) : node.IsSound →
    (∀ float, .float float ∈ node.numbers → JsonText.IsReadable (.float float)) →
    Json.AreReadable node.toJson.numbers := by
  induction node using parts_induction with
  | step node ih =>
      intro sound floats number member
      obtain ⟨fits, own, parts⟩ := isSound_iff.mp sound
      obtain ⟨fields, written, -, made⟩ := Shape.toJson_madeOf (own.map toJson) node.location
      rw [numbers_eq] at floats
      rw [toJson_eq, written] at member
      obtain ⟨field, listed, member⟩ := Json.mem_fieldNumbers.mp member
      rcases made field listed with same | made
      · exact Location.isReadable_toJson fits number (same ▸ member)
      · obtain ⟨value, source, member⟩ := made.numbers_subset member
        rw [Shape.parts_map, Shape.kept_map] at source
        rcases List.mem_append.mp source with source | kept
        · obtain ⟨part, inside, rfl⟩ := List.mem_map.mp source
          refine ih part inside (parts part inside) (fun float deeper => ?_) number member
          exact floats float
            (List.mem_append_right _ (List.mem_flatMap.mpr ⟨part, inside, deeper⟩))
        · cases number with
          | integer => exact JsonText.isReadable_integer ((own.kept _ kept).machine _ member)
          | float float =>
              exact floats float
                (List.mem_append_left _ (List.mem_flatMap.mpr ⟨value, kept, member⟩))

end Node

end ScriptBridge

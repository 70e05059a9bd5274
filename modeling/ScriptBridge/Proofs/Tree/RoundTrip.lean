import ScriptBridge.Proofs.Tree.Written
import Mathlib

/-!
# Written trees read back

A tree that was read is written as JSON and read again.  Every category finds its
fields under the names under which it wrote them; an unknown node comes back with
all that it kept, and with a place for its location if it had none.
-/

namespace ScriptBridge

/-- A shape that has a place for its location if it is unknown. -/
def Shape.settle {Part : Type} : Shape Part → Shape Part
  | .unknown tag fields => .unknown tag (OrderedMap.putEntry "loc" .null fields)
  | other => other

theorem Shape.settle_of_isKnown {Part : Type} {shape : Shape Part}
    (known : shape.isKnown = true) : shape.settle = shape := by
  cases shape <;> first | rfl | cases known

namespace Node

/-- The tree in which every unknown node has a place for its location. -/
def settled : Node → Node :=
  fold fun location shape => ⟨location, (shape.map (·.result)).settle⟩

theorem settled_eq (node : Node) :
    node.settled = ⟨node.location, (node.shape.map settled).settle⟩ := by
  rw [settled, fold_eq, Shape.map_map]
  rfl

/-- A node is read back from what is written of it. -/
def ReadsBack (node : Node) : Prop :=
  ofJson node.toJson = .ok node.settled

theorem reading_value (value : Json) : (reading value).value = value := by
  cases value <;> rfl

theorem itemReadings_eq_map (items : List Json) :
    itemReadings items = items.map fun item => (item, ofJson item) := by
  induction items with
  | nil => rfl
  | cons item rest ih => simp [itemReadings, ih, ofJson]

theorem fieldReadings_eq_map (fields : List (String × Json)) :
    fieldReadings fields = fields.map fun field => (field.1, reading field.2) := by
  induction fields with
  | nil => rfl
  | cons field rest ih => simp [fieldReadings, ih]

end Node

namespace Record

variable {find : String → Option Reading} {name : String}

theorem describes_part {part : {node : Node // node.ReadsBack}}
    (found : find name = some (Node.reading part.val.toJson)) :
    Describes find (.part name) part.val.settled :=
  .required found part.property

theorem maybeNode_of_readsBack (part : Option {node : Node // node.ReadsBack}) :
    Reading.maybeNode (Shape.maybe (part.map (·.val.toJson)))
        (Node.ofJson (Shape.maybe (part.map (·.val.toJson)))) =
      .ok (part.map (·.val.settled)) := by
  cases part with
  | none => rfl
  | some part =>
      obtain ⟨fields, object⟩ := part.val.toJson_eq_object
      have back := part.property
      simp only [Node.ReadsBack] at back
      simp only [Option.map_some, Shape.maybe, Option.getD_some, back]
      simp [object, Reading.maybeNode, Except.map]

theorem describes_maybePart {part : Option {node : Node // node.ReadsBack}}
    (found : find name = some (Node.reading (Shape.maybe (part.map (·.val.toJson))))) :
    Describes find (maybePart name) (part.map (·.val.settled)) := by
  refine .withDefault found ?_
  rw [Node.reading_value]
  exact maybeNode_of_readsBack part

theorem describes_partList {parts : List {node : Node // node.ReadsBack}}
    (found : find name = some (Node.reading (.array (parts.map (·.val.toJson))))) :
    Describes find (partList name) (parts.map (·.val.settled)) := by
  refine .withDefault found ?_
  simp only [Reading.itemsWith, Node.reading, Node.itemReadings_eq_map, List.map_map]
  exact mapM_map_ok (fun part => part.property) parts

theorem describes_partListWithHoles {parts : List (Option {node : Node // node.ReadsBack})}
    (found : find name = some (Node.reading
      (.array ((parts.map (·.map (·.val.toJson))).map Shape.maybe)))) :
    Describes find (partListWithHoles name) (parts.map (·.map (·.val.settled))) := by
  refine .withDefault found ?_
  simp only [Reading.itemsWith, Node.reading, Node.itemReadings_eq_map, List.map_map]
  exact mapM_map_ok maybeNode_of_readsBack parts

theorem describes_mark {value : Bool} (found : find name = some (Node.reading (.bool value))) :
    Describes find (mark name) value :=
  .withDefault found rfl

theorem describes_choice {default value : Bool}
    (found : find name = some (Node.reading (.bool value))) :
    Describes find (.withDefault name default fun reading => reading.value.toBool) value :=
  .withDefault found rfl

theorem describes_word {text : String}
    (found : find name = some (Node.reading (.string text))) :
    Describes find (word name) text :=
  .required found rfl

theorem describes_optionalWord {text : String}
    (found : find name = some (Node.reading (.string text))) :
    Describes find (optionalWord name) text :=
  .withDefault found rfl

theorem describes_maybeWord {text : Option String}
    (found : find name = some (Node.reading (Shape.maybeText text))) :
    Describes find (maybeWord name) text := by
  refine .withDefault found ?_
  cases text <;> rfl

theorem describes_value {default value : Json} (found : find name = some (Node.reading value)) :
    Describes find (.withDefault name default fun reading => .ok reading.value) value :=
  .withDefault found (by rw [Node.reading_value])

theorem describes_kind {kind : MethodKind}
    (found : find name = some (Node.reading (.string kind.word))) :
    Describes find (.withDefault name .method fun reading => MethodKind.ofJson reading.value)
      kind :=
  .withDefault found (by cases kind <;> rfl)

theorem Describes.of_eq {Entry Value : Type} {find : String → Option Entry}
    {record : Record Entry Value} {value other : Value} (describes : Describes find record value)
    (same : value = other) : Describes find record other :=
  same ▸ describes

end Record

namespace Shape

open Record

/-- Whether a shape consists of its tag alone. -/
def isBare {Part : Type} : Shape Part → Bool
  | .leaf _ => true
  | .keywordType _ => true
  | .unsupported _ => true
  | _ => false

theorem isBare_map {Part Other : Type} (change : Part → Other) (shape : Shape Part) :
    (shape.map change).isBare = shape.isBare := by
  cases shape <;> rfl

/-- The fields that a shape writes describe the shape to the record under its tag. -/
theorem describes_structured (find : String → Option Reading)
    {shape : Shape {node : Node // node.ReadsBack}} (known : shape.isKnown = true)
    (notBare : shape.isBare = false)
    (found : ∀ field ∈ (shape.map (·.val.toJson)).fields,
      find field.1 = some (Node.reading field.2)) :
    ∃ record, (shape.tag, record) ∈ structured ∧
      Describes find record (shape.map (·.val.settled)) := by
  revert found
  cases shape
  case unknown => cases known
  case leaf => cases notBare
  case keywordType => cases notBare
  case unsupported => cases notBare
  -- each form of a family has a tag of its own
  case' group form _ => cases form
  case' function form _ _ _ _ _ => cases form
  case' classDefinition form _ _ _ _ _ _ => cases form
  case' method form _ _ _ => cases form
  case' unary form _ _ _ => cases form
  case' binary form _ _ _ => cases form
  case' call form _ _ _ _ _ => cases form
  case' spread form _ _ => cases form
  case' forEach form _ _ _ => cases form
  case' loop form _ _ => cases form
  case' jump form _ => cases form
  case' exit form _ => cases form
  case' importBinding form _ => cases form
  case' heritage form _ _ _ => cases form
  all_goals
    simp only [Shape.map, fields, List.forall_mem_cons, List.not_mem_nil, false_imp_iff,
      implies_true, and_true, and_imp]
    intros
    refine ⟨_, by repeat constructor, ?_⟩
    try simp only [groupRecord, functionRecord, classRecord, classPropertyRecord,
      methodRecord, unaryRecord, binaryRecord, callRecord, spreadRecord, forEachRecord, loopRecord,
      jumpRecord, exitRecord, bindingRecord, heritageRecord, methodSignatureRecord]
    apply Describes.of_eq
    -- the chain of fields is taken apart, and each field finds what was written for it
    · repeat' first
        | with_reducible apply Describes.seq
        | with_reducible apply Describes.map
        | (with_reducible apply describes_part; assumption)
        | (with_reducible apply describes_maybePart; assumption)
        | (with_reducible apply describes_partList; assumption)
        | (with_reducible apply describes_partListWithHoles; assumption)
        | (with_reducible apply describes_mark; assumption)
        | (with_reducible apply describes_word; assumption)
        | (with_reducible apply describes_optionalWord; assumption)
        | (with_reducible apply describes_maybeWord; assumption)
        | (with_reducible apply describes_value; assumption)
        | (with_reducible apply describes_choice; assumption)
        | (with_reducible apply describes_kind; assumption)
    · rfl

/-! Tags are distinct. -/

theorem nodup_bare : (bare.map Prod.fst).Nodup := by
  decide

theorem nodup_structured : (structured.map Prod.fst).Nodup := by
  decide +kernel

theorem structured_not_bare : ∀ tag ∈ structured.map Prod.fst, (bare.lookup tag).isNone := by
  decide +kernel

theorem record?_of_mem {tag : String} {record : Record Reading (Shape Node)}
    (listed : (tag, record) ∈ structured) : record? tag = some record := by
  have notBare := structured_not_bare tag (List.mem_map_of_mem listed)
  rw [Option.isNone_iff_eq_none] at notBare
  simp only [record?, notBare, OrderedMap.lookup_of_mem nodup_structured listed]

theorem record?_of_isBare {shape : Shape Node} (isBare : shape.isBare = true) :
    record? shape.tag = some (.constant shape) := by
  have listed : (shape.tag, shape) ∈ bare := by
    cases shape
    case leaf form =>
      have member : form ∈ Leaf.all := by cases form <;> decide
      exact List.mem_append_left _ (List.mem_append_left _ (List.mem_map_of_mem member))
    case keywordType form =>
      have member : form ∈ KeywordType.allTypes := by cases form <;> decide
      exact List.mem_append_left _ (List.mem_append_right _ (List.mem_map_of_mem member))
    case unsupported form =>
      have member : form ∈ Unsupported.all := by cases form <;> decide
      exact List.mem_append_right _ (List.mem_map_of_mem member)
    all_goals cases isBare
  simp only [record?, OrderedMap.lookup_of_mem nodup_bare listed]

end Shape

namespace Node

theorem ofFields_of_record {fields : List (String × Json)} {readings : List (String × Reading)}
    {location : Location} {tag : String} {record : Record Reading (Shape Node)}
    {shape : Shape Node} (readsLocation : readLocation fields = .ok location)
    (foundTag : fields.lookup "type" = some (.string tag))
    (foundRecord : Shape.record? tag = some record)
    (read : record.ofEntries readings = .ok shape) :
    ofFields fields readings = .ok ⟨location, shape⟩ := by
  simp only [ofFields, readsLocation, foundTag, foundRecord, read]
  rfl

theorem ofFields_of_unknown {fields : List (String × Json)} {readings : List (String × Reading)}
    {location : Location} {tag : String} (readsLocation : readLocation fields = .ok location)
    (foundTag : fields.lookup "type" = some (.string tag))
    (noRecord : Shape.record? tag = none) :
    ofFields fields readings = .ok ⟨location, .unknown tag (withoutLocation fields)⟩ := by
  simp only [ofFields, readsLocation, foundTag, noRecord]

theorem readLocation_of_lookup {fields : List (String × Json)} {location : Location}
    (fits : location.Fits) (found : fields.lookup "loc" = some location.toJson) :
    readLocation fields = .ok location := by
  have read := Location.ofJson_toJson fits
  simp only [readLocation, found]
  exact read

/-- A shape with a category is read back if its parts are. -/
theorem readsBack_of_isKnown {location : Location}
    {shape : Shape {node : Node // node.ReadsBack}} (fits : location.Fits)
    (known : shape.isKnown = true) : ReadsBack ⟨location, shape.map Subtype.val⟩ := by
  let written := shape.map (·.val.toJson)
  let fields := ("type", .string written.tag) :: written.fields ++ [("loc", location.toJson)]
  have knownWritten : written.isKnown = true := by
    rw [Shape.isKnown_map, known]
  have nodup : (fields.map Prod.fst).Nodup := Shape.nodup_names knownWritten location.toJson
  have text : toJson ⟨location, shape.map Subtype.val⟩ = .object fields := by
    rw [toJson_eq, Shape.map_map]
    exact Shape.toJson_of_isKnown knownWritten location
  have comesBack : settled ⟨location, shape.map Subtype.val⟩ =
      ⟨location, shape.map (·.val.settled)⟩ := by
    rw [settled_eq, Shape.map_map, Shape.settle_of_isKnown (by rw [Shape.isKnown_map, known])]
    rfl
  have readsLocation : readLocation fields = .ok location :=
    readLocation_of_lookup fits (OrderedMap.lookup_of_mem nodup (by simp [fields]))
  have foundTag : fields.lookup "type" = some (.string shape.tag) := by
    rw [← Shape.tag_map (·.val.toJson)]
    exact List.lookup_cons_self
  have namesRead : (fieldReadings fields).map Prod.fst = fields.map Prod.fst := by
    simp [fieldReadings_eq_map]
  rw [ReadsBack, text, comesBack]
  cases isBare : shape.isBare with
  | true =>
      have record : Shape.record? shape.tag = some (.constant (shape.map (·.val.settled))) := by
        rw [← Shape.tag_map (·.val.settled)]
        exact Shape.record?_of_isBare (by rw [Shape.isBare_map, isBare])
      refine ofFields_of_record readsLocation foundTag record ?_
      exact Record.ofEntries_of_describes _ (.constant _) (by simp) (by rw [namesRead]; exact nodup)
  | false =>
      have found : ∀ field ∈ written.fields,
          (fieldReadings fields).lookup field.1 = some (reading field.2) := by
        intro field member
        refine OrderedMap.lookup_of_mem (by rw [namesRead]; exact nodup) ?_
        rw [fieldReadings_eq_map]
        exact List.mem_map_of_mem (by simp [fields, member])
      obtain ⟨record, listed, describes⟩ :=
        Shape.describes_structured (fun name => (fieldReadings fields).lookup name) known isBare
          found
      refine ofFields_of_record readsLocation foundTag (Shape.record?_of_mem listed) ?_
      exact Record.ofEntries_of_describes _ describes (by simp) (by rw [namesRead]; exact nodup)

theorem withoutLocation_putEntry (value : Json) (fields : List (String × Json)) :
    withoutLocation (OrderedMap.putEntry "loc" value fields) =
      OrderedMap.putEntry "loc" .null (withoutLocation fields) := by
  induction fields with
  | nil => rfl
  | cons field rest ih =>
      by_cases location : field.1 = "loc"
      · simp [OrderedMap.putEntry, withoutLocation, location]
      · simpa [OrderedMap.putEntry, withoutLocation, location] using ih

/-- An unknown node is read back with a place for its location. -/
theorem readsBack_of_unknown {location : Location} {tag : String} {fields : List (String × Json)}
    (fits : location.Fits) (sound : (Shape.unknown tag fields : Shape Node).IsSound) :
    ReadsBack ⟨location, .unknown tag fields⟩ := by
  obtain ⟨noRecord, foundTag, -, emptied⟩ := sound.unknown tag fields rfl
  let written := OrderedMap.putEntry "loc" location.toJson fields
  have readsLocation : readLocation written = .ok location :=
    readLocation_of_lookup fits (by simp [written, OrderedMap.lookup_putEntry])
  have stillTagged : written.lookup "type" = some (.string tag) := by
    simp [written, OrderedMap.lookup_putEntry, foundTag]
  have comesBack : settled ⟨location, .unknown tag fields⟩ =
      ⟨location, .unknown tag (withoutLocation written)⟩ := by
    rw [settled_eq, withoutLocation_putEntry, emptied]
    rfl
  rw [ReadsBack, comesBack]
  exact ofFields_of_unknown readsLocation stillTagged noRecord

/-- A sound tree is read back. -/
theorem readsBack_of_isSound (node : Node) : node.IsSound → node.ReadsBack := by
  induction node using parts_induction with
  | step node ih =>
      intro sound
      obtain ⟨fits, own, partsSound⟩ := isSound_iff.mp sound
      obtain ⟨location, shape⟩ := node
      have parts : ∀ part ∈ shape.parts, part.ReadsBack :=
        fun part member => ih part member (partsSound part member)
      cases known : shape.isKnown with
      | true =>
          have inhabited : ∃ node : Node, node.ReadsBack :=
            ⟨_, @readsBack_of_isKnown {} (.leaf .this) Location.fits_default rfl⟩
          obtain ⟨lifted, rfl⟩ := Shape.exists_lift inhabited parts
          rw [Shape.isKnown_map] at known
          exact readsBack_of_isKnown fits known
      | false =>
          cases shape
          case unknown => exact readsBack_of_unknown fits own
          all_goals cases known

theorem putEntry_putEntry {Value : Type} (first second : Value)
    (fields : List (String × Value)) :
    OrderedMap.putEntry "loc" second (OrderedMap.putEntry "loc" first fields) =
      OrderedMap.putEntry "loc" second fields := by
  induction fields with
  | nil => simp [OrderedMap.putEntry]
  | cons field rest ih =>
      by_cases location : field.1 = "loc" <;> simp [OrderedMap.putEntry, location, ih]

/-- A settled tree is written like the tree itself. -/
theorem toJson_settled (node : Node) : node.settled.toJson = node.toJson := by
  induction node using parts_induction with
  | step node ih =>
      have parts : node.shape.map (toJson ∘ settled) = node.shape.map toJson :=
        Shape.map_congr ih
      obtain ⟨location, shape⟩ := node
      rw [settled_eq, toJson_eq, toJson_eq]
      cases known : shape.isKnown with
      | true =>
          rw [Shape.settle_of_isKnown (by rw [Shape.isKnown_map, known]), Shape.map_map, parts]
      | false =>
          cases shape
          case unknown tag fields =>
            simp only [Shape.map, Shape.settle, Shape.toJson, putEntry_putEntry]
          all_goals cases known

/-- Where a location was taken out, its empty place is put there again. -/
theorem putEntry_null_eq_self_iff {fields : List (String × Json)}
    (emptied : withoutLocation fields = fields) :
    OrderedMap.putEntry "loc" .null fields = fields ↔ "loc" ∈ fields.map Prod.fst := by
  constructor
  · intro same
    rw [← same, OrderedMap.mem_keys_putEntry]
    exact .inl rfl
  · intro member
    induction fields with
    | nil => simp at member
    | cons field rest ih =>
        obtain ⟨name, value⟩ := field
        simp only [withoutLocation, List.map_cons, List.cons.injEq] at emptied
        by_cases location : name = "loc"
        · have empty : value = .null := by simpa [location, eq_comm] using emptied.1
          simp [OrderedMap.putEntry, location, empty]
        · have later : "loc" ∈ rest.map Prod.fst := by
            simpa [Ne.symm location] using member
          simp [OrderedMap.putEntry, location, ih emptied.2 later]

theorem map_settled_eq_self_iff {shape : Shape Node} :
    shape.map settled = shape ↔ ∀ part ∈ shape.parts, part.settled = part := by
  constructor
  · intro same
    have parts : shape.parts.map settled = shape.parts.map id := by
      rw [← Shape.parts_map, same, List.map_id]
    exact List.map_inj_left.mp parts
  · intro same
    calc
      shape.map settled = shape.map id := Shape.map_congr same
      _ = shape := Shape.map_id shape

/-- Settling changes nothing but unknown nodes without a place for their location. -/
theorem settled_eq_self_iff (node : Node) : node.IsSound →
    (node.settled = node ↔ ∀ part ∈ node.stored, ∀ tag fields,
      part.shape = .unknown tag fields → "loc" ∈ fields.map Prod.fst) := by
  induction node using parts_induction with
  | step node ih =>
      intro sound
      obtain ⟨-, own, partsSound⟩ := isSound_iff.mp sound
      obtain ⟨location, shape⟩ := node
      have parts : (∀ part ∈ shape.parts, part.settled = part) ↔
          ∀ part ∈ shape.parts.flatMap stored, ∀ tag fields,
            part.shape = .unknown tag fields → "loc" ∈ fields.map Prod.fst := by
        simp only [List.mem_flatMap]
        constructor
        · rintro same deeper ⟨part, member, inside⟩
          exact (ih part member (partsSound part member)).mp (same part member) deeper inside
        · intro placed part member
          exact (ih part member (partsSound part member)).mpr fun deeper inside =>
            placed deeper ⟨part, member, inside⟩
      rw [stored_eq, List.forall_mem_cons, ← parts, settled_eq, Node.mk.injEq]
      cases known : shape.isKnown with
      | true =>
          rw [Shape.settle_of_isKnown (by rw [Shape.isKnown_map, known]),
            map_settled_eq_self_iff]
          have notUnknown : ∀ tag fields, shape ≠ .unknown tag fields := by
            rintro tag fields rfl
            cases known
          simp [notUnknown]
      | false =>
          cases shape
          case unknown tag fields =>
            obtain ⟨-, -, -, emptied⟩ := own.unknown tag fields rfl
            simpa [Shape.map, Shape.settle, Shape.parts] using putEntry_null_eq_self_iff emptied
          all_goals cases known

/-- What is written of a tree that was read is read again. -/
theorem read_of_text {text : String} {node : Node} (sound : node.IsSound)
    (first : JsonText.readFirst text = (JsonText.ofJson node.toJson, [])) :
    Node.read text = .ok node.settled := by
  have found : Json.readFirst text = some (node.toJson, []) := by
    simp only [Json.readFirst, first, JsonText.value?_ofJson, Option.map_some]
  have back : ofJson node.toJson = .ok node.settled := readsBack_of_isSound node sound
  simp only [Node.read, found, Json.merge_of_isMerged _ (isMerged_toJson node sound), back]
  rfl

/-- Writing a tree that was read, compactly or on lines of their own, and reading it
again gives a tree that is written the same.  It is the same tree unless an unknown
node somewhere in it came without a place for its location. -/
theorem read_written {text : String} {node : Node} (read : Node.read text = .ok node)
    (floats : ∀ float, .float float ∈ node.numbers → JsonText.IsReadable (.float float)) :
    ∃ back, Node.read node.compact = .ok back ∧ Node.read node.pretty = .ok back ∧
      (back = node ↔ ∀ part ∈ node.stored, ∀ tag fields,
        part.shape = .unknown tag fields → "loc" ∈ fields.map Prod.fst) ∧
      back.compact = node.compact ∧ back.pretty = node.pretty := by
  have sound := isSound_of_read read
  have readable := areReadable_toJson node sound floats
  refine ⟨node.settled, read_of_text sound (Json.readFirst_compact readable),
    read_of_text sound (Json.readFirst_pretty readable), settled_eq_self_iff node sound, ?_, ?_⟩
  · rw [compact, toJson_settled, compact]
  · rw [pretty, toJson_settled, pretty]

/-- A literal beside an object with a tag that names no category. -/
def riddle : Json :=
  .object [("type", .string "Program"), ("body", .array [
    .object [("type", .string "Literal"), ("raw", .string "1.5"),
      ("value", .number (.float ⟨false, 6755399441055744, -52⟩))],
    .object [("type", .string "Riddle"), ("extra", .array [.number (.integer 7)])]])]

/-- The unknown node of the riddle, with no place for its location. -/
def riddleNode : Node :=
  ⟨{}, .unknown "Riddle" [("type", .string "Riddle"), ("extra", .array [.number (.integer 7)])]⟩

def riddleTree : Node :=
  ⟨{}, .group .program
    [⟨{}, .literal "1.5" (.number (.float ⟨false, 6755399441055744, -52⟩))⟩, riddleNode]⟩

theorem read_written_riddle :
    Node.read riddle.compact = .ok riddleTree ∧
      ∃ back, Node.read riddleTree.compact = .ok back ∧ Node.read riddleTree.pretty = .ok back ∧
        back ≠ riddleTree ∧ back.compact = riddleTree.compact ∧
        back.pretty = riddleTree.pretty := by
  have readable : Json.AreReadable [.float ⟨false, 6755399441055744, -52⟩, .integer 7] := by
    unfold Json.AreReadable JsonText.IsReadable
    decide
  have found : Json.readFirst riddle.compact = some (riddle, []) := by
    have numbers : riddle.numbers = [.float ⟨false, 6755399441055744, -52⟩, .integer 7] := rfl
    simp only [Json.readFirst, Json.readFirst_compact (numbers ▸ readable),
      JsonText.value?_ofJson, Option.map_some]
  have tree : ofJson riddle.merge = .ok riddleTree := by cbv
  have read : Node.read riddle.compact = .ok riddleTree := by
    simp only [Node.read, found, tree]
    rfl
  have floats : ∀ float, .float float ∈ riddleTree.numbers →
      JsonText.IsReadable (.float float) := fun float member => readable _ member
  obtain ⟨back, compact, pretty, same, sameCompact, samePretty⟩ := read_written read floats
  refine ⟨read, back, compact, pretty, fun equal => ?_, sameCompact, samePretty⟩
  have stored : riddleNode ∈ riddleTree.stored := by
    rw [stored_eq]
    exact List.mem_cons_of_mem _ (List.mem_flatMap.mpr
      ⟨riddleNode, by simp [riddleTree, Shape.parts], by rw [stored_eq]; exact List.mem_cons_self⟩)
  have placed := same.mp equal riddleNode stored "Riddle" _ rfl
  simp at placed

end Node

end ScriptBridge

import ScriptBridge.Emit.Tree
import ScriptBridge.Proofs.Tree.RoundTrip

/-!
# Trees with more in them

What other parsers add to a node makes no difference: a node of a known category finds its
fields by their names, wherever they stand and whatever stands beside them.  Fields that the
category does not have are not looked at, not even where they look like nodes.
-/

namespace ScriptBridge

/-! ## Enriched values -/

/-- Whether the value of a field is kept as it stands: what is no part of a node is neither
rearranged nor added to. -/
def Json.isKept (tag name : String) : Bool :=
  name == "type" || name == "loc" || (tag == "Literal" && name == "value")

namespace Json

mutual

/-- A value with further fields in its nodes, and with the fields of its nodes in another order.
Nodes of unknown categories stay as they are. -/
inductive Enriches : Json → Json → Prop where
  | same (value : Json) : Enriches value value
  | array {items others : List Json} (each : EnrichesItems items others) :
      Enriches (.array items) (.array others)
  | node {tag : String} {record : Record Reading (Shape Node)}
      {fields changed extra enriched : List (String × Json)}
      (isTagged : fields.lookup "type" = some (.string tag))
      (isKnown : Shape.record? tag = some record) (inside : EnrichesFields tag fields changed)
      (isExtra : ∀ field ∈ extra, field.1 ≠ "type" ∧ field.1 ≠ "loc" ∧
        field.1 ∉ record.fields.map (·.name))
      (permuted : enriched.Perm (changed ++ extra)) (distinct : (enriched.map Prod.fst).Nodup) :
      Enriches (.object fields) (.object enriched)

/-- The same number of values, each enriched. -/
inductive EnrichesItems : List Json → List Json → Prop where
  | nil : EnrichesItems [] []
  | cons {item other : Json} {items others : List Json} (first : Enriches item other)
      (rest : EnrichesItems items others) : EnrichesItems (item :: items) (other :: others)

/-- The same fields with enriched values, except where a value is kept. -/
inductive EnrichesFields : String → List (String × Json) → List (String × Json) → Prop where
  | nil {tag : String} : EnrichesFields tag [] []
  | cons {tag name : String} {value other : Json} {fields others : List (String × Json)}
      (kept : isKept tag name = true → other = value) (first : Enriches value other)
      (rest : EnrichesFields tag fields others) :
      EnrichesFields tag ((name, value) :: fields) ((name, other) :: others)

end

/-- Whether a value is an array or an object with a tag. -/
def isCompound : Json → Bool
  | .array _ => true
  | .object fields => (fields.lookup "type").isSome
  | _ => false

end Json

/-! ## What is read from enriched values -/

/-- Whatever is read from the first reading is also read from the second. -/
structure Reading.Refines (first second : Reading) : Prop where
  node : ∀ node, first.node = .ok node → second.node = .ok node
  isNull : second.value = .null ↔ first.value = .null
  same : second.value = first.value ∨ first.value.isCompound = true
  items : ∀ items, first.value = .array items → ∃ others, second.value = .array others ∧
    List.Forall₂ (fun item other : Json × Except DataError Node =>
      (other.1 = .null ↔ item.1 = .null) ∧ ∀ node, item.2 = .ok node → other.2 = .ok node)
      first.items second.items

/-- A field of a node of the given category: refined, or the same where values are kept. -/
def Reading.RefinesField (tag name : String) (first second : Reading) : Prop :=
  first.Refines second ∧ (Json.isKept tag name = true → second.value = first.value)

namespace Reading

variable {first second : Reading}

theorem Refines.refl (reading : Reading) : reading.Refines reading where
  node _ read := read
  isNull := Iff.rfl
  same := .inl rfl
  items items isArray :=
    ⟨items, isArray, List.forall₂_same.mpr fun _ _ => ⟨Iff.rfl, fun _ => id⟩⟩

theorem maybeNode_refined {value other : Json} {node otherNode : Except DataError Node}
    (isNull : other = .null ↔ value = .null)
    (nodes : ∀ read, node = .ok read → otherNode = .ok read)
    {part : Option Node} (read : Reading.maybeNode value node = .ok part) :
    Reading.maybeNode other otherNode = .ok part := by
  by_cases none : value = .null
  · obtain rfl := none
    obtain rfl := isNull.mpr rfl
    exact read
  · have some (value : Json) (node : Except DataError Node) (notNull : value ≠ .null) :
        Reading.maybeNode value node = node.map Option.some := by
      cases value with
      | null => exact absurd rfl notNull
      | _ => rfl
    rw [some value node none] at read
    rw [some other otherNode (mt isNull.mp none)]
    cases found : node with
    | error error => simp [found, Except.map] at read
    | ok tree =>
        rw [nodes tree found]
        rwa [found] at read

/-- What is read of every item is read of every refined item. -/
theorem mapM_refined {Item Value : Type} {read : Item → Except DataError Value}
    {items others : List Item} {values : List Value}
    (each : List.Forall₂
      (fun item other => ∀ value, read item = .ok value → read other = .ok value) items others)
    (found : items.mapM read = .ok values) : others.mapM read = .ok values := by
  induction each generalizing values with
  | nil => exact found
  | @cons item other items others here _ ih =>
      rw [List.mapM_cons] at found ⊢
      cases isFirst : read item with
      | error error => simp [isFirst, bind, Except.bind] at found
      | ok value =>
          cases isRest : items.mapM read with
          | error error => simp [isFirst, isRest, bind, Except.bind] at found
          | ok rest =>
              rw [isFirst, isRest] at found
              rw [here value isFirst, ih isRest]
              exact found

theorem itemsWith_refined {Value : Type}
    {read : Json → Except DataError Node → Except DataError Value}
    (refines : first.Refines second)
    (reads : ∀ value other node otherNode, (other = .null ↔ value = .null) →
      (∀ tree, node = .ok tree → otherNode = .ok tree) → ∀ found,
        read value node = .ok found → read other otherNode = .ok found)
    {values : List Value} (found : itemsWith read first = .ok values) :
    itemsWith read second = .ok values := by
  cases isArray : first.value with
  | array items =>
      obtain ⟨others, otherArray, each⟩ := refines.items items isArray
      simp only [itemsWith, isArray] at found
      simp only [itemsWith, otherArray]
      exact mapM_refined (each.imp fun item other here => reads _ _ _ _ here.1 here.2) found
  | _ => simp [itemsWith, isArray] at found

/-- What fails for arrays and objects with tags is only read from values that stay the same. -/
theorem scalar_refined {Value : Type} {read : Json → Except DataError Value}
    (refines : first.Refines second)
    (fails : ∀ value : Json, value.isCompound = true → ∀ found, read value ≠ .ok found)
    {found : Value} (reads : read first.value = .ok found) : read second.value = .ok found := by
  rcases refines.same with same | isCompound
  · rwa [same]
  · exact absurd reads (fails _ isCompound found)

end Reading

namespace Record

variable {Entry First Second Value : Type} {related : String → Entry → Entry → Prop}

/-- What is read from some entries is described as well by related entries under the same
names. -/
def Respects (related : String → Entry → Entry → Prop) (record : Record Entry Value) : Prop :=
  ∀ find other : String → Option Entry,
    (∀ field ∈ record.fields,
        Option.Rel (related field.name) (find field.name) (other field.name)) →
      ∀ value, record.build find = .ok value → Describes other record value

theorem Respects.constant (value : Value) : Respects related (Record.constant value) := by
  intro find other _ found built
  cases built
  exact .constant value

theorem Respects.map {record : Record Entry First} {function : First → Second}
    (respects : Respects related record) : Respects related (function <$> record) := by
  intro find other relates found built
  change (record.build find).map function = .ok found at built
  cases read : record.build find with
  | error error => simp [read, Except.map] at built
  | ok value =>
      have same : function value = found := by simpa [read, Except.map] using built
      exact same ▸ (respects find other relates value read).map function

theorem Respects.seq {first : Record Entry (First → Second)} {second : Record Entry First}
    (left : Respects related first) (right : Respects related second) :
    Respects related (first <*> second) := by
  intro find other relates found built
  change (combine first second).build find = _ at built
  simp only [combine] at built
  split at built
  · cases built
  · next function foundFunction =>
    split at built
    · cases built
    · next argument foundArgument =>
      cases built
      exact (left find other (fun field member => relates field (List.mem_append_left _ member))
          function foundFunction).seq
        (right find other (fun field member => relates field (List.mem_append_right _ member))
          argument foundArgument)

/-- A reader finds in related entries what it finds in the first ones. -/
def Follows (related : Entry → Entry → Prop) (read : Entry → Except DataError Value) : Prop :=
  ∀ first second, related first second → ∀ value, read first = .ok value → read second = .ok value

theorem Respects.required {name : String} {read : Entry → Except DataError Value}
    (follows : Follows (related name) read) : Respects related (.required name read) := by
  intro find other relates value built
  have here := relates _ (List.mem_singleton_self _)
  dsimp only at here
  cases found : find name with
  | none => simp [Record.required, found] at built
  | some entry =>
      rw [found] at here
      cases otherFound : other name with
      | none => rw [otherFound] at here; cases here
      | some otherEntry =>
          rw [otherFound] at here
          cases here with
          | some relates =>
              have reads : read entry = .ok value := by simpa [Record.required, found] using built
              exact .required otherFound (follows _ _ relates value reads)

theorem Respects.withDefault {name : String} {default : Value}
    {read : Entry → Except DataError Value} (follows : Follows (related name) read) :
    Respects related (.withDefault name default read) := by
  intro find other relates value built
  have here := relates _ (List.mem_singleton_self _)
  dsimp only at here
  cases found : find name with
  | none =>
      rw [found] at here
      cases otherFound : other name with
      | some otherEntry => rw [otherFound] at here; cases here
      | none =>
          refine ⟨fun field member entry isEntry => ?_, ?_⟩
          · obtain rfl := List.mem_singleton.mp member
            simp [otherFound] at isEntry
          · simpa [Record.withDefault, found, otherFound] using built
  | some entry =>
      rw [found] at here
      cases otherFound : other name with
      | none => rw [otherFound] at here; cases here
      | some otherEntry =>
          rw [otherFound] at here
          cases here with
          | some relates =>
              have reads : read entry = .ok value := by
                simpa [Record.withDefault, found] using built
              exact .withDefault otherFound (follows _ _ relates value reads)

section Fields

variable {tag name : String}

/-- What concerns arrays and objects with tags in no way. -/
theorem follows_scalar {read : Json → Except DataError Value}
    (fails : ∀ value : Json, value.isCompound = true → ∀ found, read value ≠ .ok found) :
    Follows (Reading.RefinesField tag name) fun reading => read reading.value :=
  fun _ _ refines _ => Reading.scalar_refined refines.1 fails

theorem toBool_ne_ok {value : Json} (isCompound : value.isCompound = true) (found : Bool) :
    value.toBool ≠ .ok found := by
  cases value with
  | array items => nofun
  | object fields => nofun
  | _ => cases isCompound

theorem toText_ne_ok {value : Json} (isCompound : value.isCompound = true) (found : String) :
    value.toText ≠ .ok found := by
  cases value with
  | array items => nofun
  | object fields => nofun
  | _ => cases isCompound

theorem toMaybeText_ne_ok {value : Json} (isCompound : value.isCompound = true)
    (found : Option String) : value.toMaybeText ≠ .ok found := by
  cases value with
  | array items => nofun
  | object fields => nofun
  | _ => cases isCompound

theorem ofKind_ne_ok {value : Json} (isCompound : value.isCompound = true)
    (found : MethodKind) : MethodKind.ofJson value ≠ .ok found := by
  cases value with
  | array items => nofun
  | object fields =>
      obtain ⟨tag, isTag⟩ := Option.isSome_iff_exists.mp isCompound
      match fields with
      | [] => nofun
      | [(word, content)] =>
          have isType : "type" = word := by
            by_contra different
            rw [List.lookup_cons, beq_eq_false_iff_ne.mpr different] at isTag
            cases isTag
          subst isType
          nofun
      | _ :: _ :: _ => nofun
  | _ => cases isCompound

theorem respects_part : Respects (Reading.RefinesField tag) (part name) :=
  .required fun _ _ refines => refines.1.node

theorem respects_maybePart : Respects (Reading.RefinesField tag) (maybePart name) :=
  .withDefault fun _ _ refines _ => Reading.maybeNode_refined refines.1.isNull refines.1.node

theorem respects_partList : Respects (Reading.RefinesField tag) (partList name) :=
  .withDefault fun _ _ refines _ =>
    Reading.itemsWith_refined refines.1 fun _ _ _ _ _ nodes => nodes

theorem respects_partListWithHoles :
    Respects (Reading.RefinesField tag) (partListWithHoles name) :=
  .withDefault fun _ _ refines _ =>
    Reading.itemsWith_refined refines.1 fun _ _ _ _ isNull nodes _ =>
      Reading.maybeNode_refined isNull nodes

theorem respects_flag {default : Bool} : Respects (Reading.RefinesField tag)
    (.withDefault name default fun reading => reading.value.toBool) :=
  .withDefault (follows_scalar fun _ => toBool_ne_ok)

theorem respects_word : Respects (Reading.RefinesField tag) (word name) :=
  .required (follows_scalar fun _ => toText_ne_ok)

theorem respects_optionalWord : Respects (Reading.RefinesField tag) (optionalWord name) :=
  .withDefault (follows_scalar fun _ => toText_ne_ok)

theorem respects_maybeWord : Respects (Reading.RefinesField tag) (maybeWord name) :=
  .withDefault (follows_scalar fun _ => toMaybeText_ne_ok)

theorem respects_kind : Respects (Reading.RefinesField tag)
    (.withDefault name .method fun reading => MethodKind.ofJson reading.value) :=
  .withDefault (follows_scalar fun _ => ofKind_ne_ok)

/-- A value of any form is read as it stands, so it has to be kept. -/
theorem respects_value {default : Json} (isKept : Json.isKept tag name = true) :
    Respects (Reading.RefinesField tag)
      (.withDefault name default fun reading => .ok reading.value) :=
  .withDefault fun _ _ refines _ read => by rw [← read, refines.2 isKept]

end Fields

end Record

namespace Shape

open Record

theorem structured_respects :
    ∀ entry ∈ structured, Respects (Reading.RefinesField entry.1) entry.2 := by
  simp only [structured, groupRecord, functionRecord, classRecord, classPropertyRecord,
    methodRecord, unaryRecord, binaryRecord, callRecord, spreadRecord, forEachRecord, loopRecord,
    jumpRecord, exitRecord, bindingRecord, heritageRecord, methodSignatureRecord,
    List.forall_mem_cons, List.not_mem_nil, false_imp_iff, implies_true, and_true]
  repeat' apply And.intro
  all_goals
    repeat' first
      | with_reducible exact respects_part
      | with_reducible exact respects_maybePart
      | with_reducible exact respects_partList
      | with_reducible exact respects_partListWithHoles
      | exact respects_flag
      | with_reducible exact respects_word
      | with_reducible exact respects_optionalWord
      | with_reducible exact respects_maybeWord
      | with_reducible exact respects_kind
      | with_reducible exact respects_value (by decide)
      | with_reducible apply Respects.seq
      | with_reducible apply Respects.map

theorem record?_respects {tag : String} {record : Record Reading (Shape Node)}
    (isKnown : record? tag = some record) : Respects (Reading.RefinesField tag) record := by
  unfold record? at isKnown
  cases isBare : bare.lookup tag with
  | some shape =>
      rw [isBare] at isKnown
      obtain rfl := Option.some.inj isKnown
      exact .constant shape
  | none =>
      rw [isBare] at isKnown
      exact structured_respects (tag, record) (OrderedMap.mem_of_lookup isKnown)

end Shape

/-! ## Looking up fields -/

theorem OrderedMap.lookup_of_perm {Value : Type} {first second : List (String × Value)}
    (permuted : first.Perm second) (distinct : (first.map Prod.fst).Nodup) (name : String) :
    first.lookup name = second.lookup name := by
  have alsoDistinct : (second.map Prod.fst).Nodup := (permuted.map Prod.fst).nodup_iff.mp distinct
  refine Option.ext fun value => ⟨fun found => ?_, fun found => ?_⟩
  · exact lookup_of_mem alsoDistinct (permuted.mem_iff.mp (mem_of_lookup found))
  · exact lookup_of_mem distinct (permuted.mem_iff.mpr (mem_of_lookup found))

namespace Json

/-- A name that is not among the extra fields is found where it was. -/
theorem lookup_permuted {Value : Type} {enriched changed extra : List (String × Value)}
    {name : String} (permuted : enriched.Perm (changed ++ extra))
    (distinct : (enriched.map Prod.fst).Nodup) (notExtra : name ∉ extra.map Prod.fst) :
    enriched.lookup name = changed.lookup name := by
  have absent : extra.lookup name = none := by
    rw [List.lookup_eq_none_iff]
    intro field member
    rw [bne_iff_ne]
    rintro rfl
    exact notExtra (List.mem_map_of_mem member)
  rw [OrderedMap.lookup_of_perm permuted distinct, List.lookup_append, absent, Option.or_none]

theorem EnrichesFields.lookup_kept {tag name : String} {fields changed : List (String × Json)}
    (inside : EnrichesFields tag fields changed) (isKept : isKept tag name = true) :
    changed.lookup name = fields.lookup name := by
  induction fields generalizing changed with
  | nil => cases inside; rfl
  | cons field fields ih =>
      cases inside with
      | @cons _ first value other _ others kept _ rest =>
          by_cases here : name = first
          · obtain rfl := here
            simp [kept isKept]
          · simp [List.lookup_cons, beq_eq_false_iff_ne.mpr here, ih rest]

end Json

namespace Node

theorem lookup_fieldReadings (fields : List (String × Json)) (name : String) :
    (fieldReadings fields).lookup name = (fields.lookup name).map reading := by
  induction fields with
  | nil => rfl
  | cons field rest ih =>
      obtain ⟨first, value⟩ := field
      by_cases here : name = first
      · simp [fieldReadings, here]
      · simp [fieldReadings, List.lookup_cons, beq_eq_false_iff_ne.mpr here, ih]

theorem names_fieldReadings (fields : List (String × Json)) :
    (fieldReadings fields).map Prod.fst = fields.map Prod.fst := by
  simp [fieldReadings_eq_map]

/-! ## Enriched trees -/

theorem ofFields_eq_ok {fields : List (String × Json)} {readings : List (String × Reading)}
    {tag : String} {record : Record Reading (Shape Node)} {node : Node}
    (isTagged : fields.lookup "type" = some (.string tag))
    (isKnown : Shape.record? tag = some record) (reads : ofFields fields readings = .ok node) :
    readLocation fields = .ok node.location ∧ record.ofEntries readings = .ok node.shape := by
  cases readsLocation : readLocation fields with
  | error error => simp [ofFields, readsLocation] at reads
  | ok location =>
      cases readsShape : record.ofEntries readings with
      | error error =>
          simp [ofFields, readsLocation, isTagged, isKnown, readsShape, Except.map] at reads
      | ok shape =>
          have isNode := ofFields_of_record readsLocation isTagged isKnown readsShape
          obtain rfl := Except.ok.inj (isNode.symm.trans reads)
          exact ⟨rfl, rfl⟩

/-- A node of a known category is read from an enriched object if its fields are refined. -/
theorem ofFields_refined {tag : String} {record : Record Reading (Shape Node)}
    {fields changed extra enriched : List (String × Json)}
    (isTagged : fields.lookup "type" = some (.string tag))
    (isKnown : Shape.record? tag = some record) (inside : Json.EnrichesFields tag fields changed)
    (isExtra : ∀ field ∈ extra, field.1 ≠ "type" ∧ field.1 ≠ "loc" ∧
      field.1 ∉ record.fields.map (·.name))
    (permuted : enriched.Perm (changed ++ extra)) (distinct : (enriched.map Prod.fst).Nodup)
    (refined : ∀ name, Option.Rel (Reading.RefinesField tag name)
      ((fieldReadings fields).lookup name) ((fieldReadings changed).lookup name))
    {node : Node} (reads : ofFields fields (fieldReadings fields) = .ok node) :
    ofFields enriched (fieldReadings enriched) = .ok node := by
  have found {name : String} (isUsed : name = "type" ∨ name = "loc" ∨
      name ∈ record.fields.map (·.name)) : enriched.lookup name = changed.lookup name := by
    refine Json.lookup_permuted permuted distinct fun member => ?_
    obtain ⟨field, listed, rfl⟩ := List.mem_map.mp member
    obtain ⟨notType, notLocation, notField⟩ := isExtra field listed
    exact isUsed.elim notType (·.elim notLocation notField)
  have sameTag : enriched.lookup "type" = some (.string tag) := by
    rw [found (.inl rfl), inside.lookup_kept (by simp [Json.isKept]), isTagged]
  have sameLocation : readLocation enriched = readLocation fields := by
    have kept : changed.lookup "loc" = fields.lookup "loc" :=
      inside.lookup_kept (by simp [Json.isKept])
    simp only [readLocation, found (.inr (.inl rfl)), kept]
  obtain ⟨location, shape⟩ := node
  obtain ⟨readsLocation, readsShape⟩ := ofFields_eq_ok isTagged isKnown reads
  have related : ∀ field ∈ record.fields, Option.Rel (Reading.RefinesField tag field.name)
      ((fieldReadings fields).lookup field.name) ((fieldReadings enriched).lookup field.name) := by
    intro field member
    have same : (fieldReadings enriched).lookup field.name =
        (fieldReadings changed).lookup field.name := by
      rw [lookup_fieldReadings, lookup_fieldReadings,
        found (.inr (.inr (List.mem_map_of_mem member)))]
    exact same ▸ refined field.name
  have describes := Shape.record?_respects isKnown _
    (fun name => (fieldReadings enriched).lookup name) related shape
    (Record.build_of_ofEntries readsShape)
  have readsAgain : record.ofEntries (fieldReadings enriched) = .ok shape :=
    Record.ofEntries_of_describes _ describes (by simp)
      (by rw [names_fieldReadings]; exact distinct)
  exact ofFields_of_record (sameLocation.trans readsLocation) sameTag isKnown readsAgain

mutual

/-- Whatever a value is read as, an enriched value is read as too. -/
theorem reading_refined {value other : Json} :
    value.Enriches other → (reading value).Refines (reading other)
  | .same value => .refl _
  | .array each => {
      node := nofun
      isNull := ⟨nofun, nofun⟩
      same := .inr rfl
      items := fun _ _ => ⟨_, rfl, itemReadings_refined each⟩ }
  | .node isTagged isKnown inside isExtra permuted distinct => {
      node := fun _ => ofFields_refined isTagged isKnown inside isExtra permuted distinct
        (fieldReadings_refined inside)
      isNull := ⟨nofun, nofun⟩
      same := .inr (by simp [reading, Json.isCompound, isTagged])
      items := nofun }

theorem itemReadings_refined {items others : List Json} :
    Json.EnrichesItems items others →
      List.Forall₂ (fun item other : Json × Except DataError Node =>
        (other.1 = .null ↔ item.1 = .null) ∧ ∀ node, item.2 = .ok node → other.2 = .ok node)
        (itemReadings items) (itemReadings others)
  | .nil => .nil
  | .cons first rest => by
      have refines := reading_refined first
      refine .cons ⟨?_, refines.node⟩ (itemReadings_refined rest)
      simpa only [reading_value] using refines.isNull

theorem fieldReadings_refined {tag : String} {fields changed : List (String × Json)} :
    Json.EnrichesFields tag fields changed → ∀ name, Option.Rel (Reading.RefinesField tag name)
      ((fieldReadings fields).lookup name) ((fieldReadings changed).lookup name)
  | .nil => fun _ => .none
  | @Json.EnrichesFields.cons _ field _ _ _ _ kept first rest => fun name => by
      have refines := reading_refined first
      have later := fieldReadings_refined rest name
      by_cases here : name = field
      · obtain rfl := here
        simpa [fieldReadings] using
          Option.Rel.some ⟨refines, fun isKept => by rw [kept isKept]⟩
      · simpa [fieldReadings, List.lookup_cons, beq_eq_false_iff_ne.mpr here] using later

end

/-- An enriched object is read as the same node, so the same code is generated from it, and
a text that holds the enriched object is read as this node. -/
theorem ofJson_enriched {value other : Json} {node : Node} (enriches : value.Enriches other)
    (reads : ofJson value = .ok node) :
    ofJson other = .ok node ∧
      (∀ settings : Settings,
        (ofJson other).map settings.generate = (ofJson value).map settings.generate) ∧
      ∀ text written rest, Json.readFirst text = some (written, rest) → written.merge = other →
        JsonText.onlyBlanks rest = true → Node.read text = .ok node := by
  have readsOther : ofJson other = .ok node := (reading_refined enriches).node node reads
  refine ⟨readsOther, fun settings => by rw [readsOther, reads], ?_⟩
  intro text written rest found merged blank
  simp only [Node.read, found, merged, readsOther, blank, if_true]

/-- A name as a statement. -/
def bareStatement : Json :=
  .object [("type", .string "ExpressionStatement"),
    ("expression", .object [("type", .string "Identifier"), ("name", .string "a")])]

/-- The same statement with its tags last, a range, and a node in the name that is none. -/
def lavishStatement : Json :=
  .object [("range", .array [.null]),
    ("expression", .object [("parent", .object [("type", .string "BinaryExpression")]),
      ("name", .string "a"), ("type", .string "Identifier")]),
    ("type", .string "ExpressionStatement")]

theorem enriches_lavishStatement : bareStatement.Enriches lavishStatement := by
  have name : Json.Enriches (.object [("type", .string "Identifier"), ("name", .string "a")])
      (.object [("parent", .object [("type", .string "BinaryExpression")]),
        ("name", .string "a"), ("type", .string "Identifier")]) := by
    refine .node rfl
      (Shape.record?_of_mem (.tail _ (.tail _ (.tail _ (.tail _ (.tail _ (.head _)))))))
      (.cons (fun _ => rfl) (.same _) (.cons (fun _ => rfl) (.same _) .nil))
      (List.forall_mem_singleton.mpr ?_) (List.perm_reverse.mp (.of_eq rfl)) (by decide)
    decide
  refine .node rfl
    (Shape.record?_of_mem (by repeat first | exact List.mem_cons_self | apply List.mem_cons_of_mem))
    (.cons (fun _ => rfl) (.same _) (.cons nofun name .nil))
    (List.forall_mem_singleton.mpr ?_) (List.perm_reverse.mp (.of_eq rfl)) (by decide)
  decide

theorem ofJson_enriched_lavishStatement :
    Node.read lavishStatement.compact =
      .ok ⟨{}, .expressionStatement ⟨{}, .identifier "a" none false⟩⟩ := by
  have reads : ofJson bareStatement =
      .ok ⟨{}, .expressionStatement ⟨{}, .identifier "a" none false⟩⟩ := by cbv
  have found : Json.readFirst lavishStatement.compact = some (lavishStatement, []) := by
    have readable : Json.AreReadable lavishStatement.numbers := by
      rintro number ⟨⟩
    simp only [Json.readFirst, Json.readFirst_compact readable, JsonText.value?_ofJson,
      Option.map_some]
  have merged : lavishStatement.merge = lavishStatement := rfl
  exact (ofJson_enriched enriches_lavishStatement reads).2.2 _ _ _ found merged rfl

end Node

end ScriptBridge

import ScriptBridge.Json.Record
import ScriptBridge.Proofs.OrderedMap

/-!
# What records read

Two facts about a reader of records are put together field by field.  Entries
*describe* a value if every field accepts its entry and the value is built from
what the fields find; a list of such entries with no name twice is read as this
value.  A record *ensures* a property if whatever it builds from trusted entries
has it.
-/

namespace ScriptBridge

namespace Record

variable {Entry First Second Value : Type}

/-! ### Entries that describe a value -/

/-- Every field accepts the entry under its name, and the value is built from the
entries found. -/
structure Describes (find : String → Option Entry) (record : Record Entry Value)
    (value : Value) : Prop where
  accepts : ∀ field ∈ record.fields, ∀ entry,
    find field.name = some entry → field.check entry = .ok ()
  builds : record.build find = .ok value

variable {find : String → Option Entry}

theorem Describes.constant (value : Value) :
    Describes find (Record.constant value) value where
  accepts := by simp [Record.constant]
  builds := rfl

theorem Describes.map {record : Record Entry First} {value : First} (function : First → Second)
    (describes : Describes find record value) :
    Describes find (function <$> record) (function value) where
  accepts := describes.accepts
  builds := by
    change (record.build find).map function = .ok (function value)
    rw [describes.builds]
    rfl

theorem Describes.seq {first : Record Entry (First → Second)} {second : Record Entry First}
    {function : First → Second} {value : First} (left : Describes find first function)
    (right : Describes find second value) :
    Describes find (first <*> second) (function value) where
  accepts field member := by
    rcases List.mem_append.mp member with member | member
    · exact left.accepts field member
    · exact right.accepts field member
  builds := by
    change (combine first second).build find = _
    simp only [combine, left.builds, right.builds]

/-- A field accepts an entry that it can read. -/
theorem accepts_of_reads {name : String} {read : Entry → Except DataError Value}
    {entry : Entry} {value : Value} (found : find name = some entry)
    (reads : read entry = .ok value) (required : Bool) :
    ∀ field ∈ [(⟨name, required, fun entry => (read entry).map fun _ => ()⟩ : RecordField Entry)],
      ∀ other, find field.name = some other → field.check other = .ok () := by
  intro field member other sameName
  obtain rfl := List.mem_singleton.mp member
  obtain rfl := Option.some.inj (found.symm.trans sameName)
  simp [reads, Except.map]

theorem Describes.required {name : String} {read : Entry → Except DataError Value}
    {entry : Entry} {value : Value} (found : find name = some entry)
    (reads : read entry = .ok value) : Describes find (.required name read) value where
  accepts := accepts_of_reads found reads true
  builds := by simp [Record.required, found, reads]

theorem Describes.withDefault {name : String} {default : Value}
    {read : Entry → Except DataError Value} {entry : Entry} {value : Value}
    (found : find name = some entry) (reads : read entry = .ok value) :
    Describes find (.withDefault name default read) value where
  accepts := accepts_of_reads found reads false
  builds := by simp [Record.withDefault, found, reads]

theorem mapM_map_ok {Item First Second : Type} {write : Item → First}
    {read : First → Except DataError Second} {result : Item → Second}
    (reads : ∀ item, read (write item) = .ok (result item)) (items : List Item) :
    (items.map write).mapM read = .ok (items.map result) := by
  induction items with
  | nil => rfl
  | cons item rest ih =>
      rw [List.map_cons, List.mapM_cons, reads, ih]
      rfl

/-- Entries that the fields accept pass the check, whichever names were seen before:
none of these comes again. -/
theorem checkEntries_of_accepts {ignore : Entry → Except DataError Unit}
    {fields : List (RecordField Entry)} {entries : List (String × Entry)} {seen : List String}
    (accepts : ∀ field ∈ fields, ∀ entry, (field.name, entry) ∈ entries →
      field.check entry = .ok ())
    (ignores : ∀ entry ∈ entries, ignore entry.2 = .ok ())
    (nodup : (entries.map Prod.fst).Nodup) (fresh : ∀ name ∈ seen, name ∉ entries.map Prod.fst) :
    checkEntries ignore fields seen entries = .ok () := by
  induction entries generalizing seen with
  | nil => rfl
  | cons first rest ih =>
      obtain ⟨name, entry⟩ := first
      have ⟨new, others⟩ := List.nodup_cons.mp nodup
      have acceptsRest : ∀ field ∈ fields, ∀ entry, (field.name, entry) ∈ rest →
          field.check entry = .ok () :=
        fun field member entry later => accepts field member entry (by simp [later])
      have ignoresRest : ∀ entry ∈ rest, ignore entry.2 = .ok () :=
        fun entry later => ignores entry (by simp [later])
      have unseen : name ∉ seen := fun known => fresh name known (by simp)
      cases claimed : fields.find? (·.name == name) with
      | none =>
          have passes := ignores (name, entry) (by simp)
          simp only [checkEntries, claimed, passes]
          exact ih acceptsRest ignoresRest others fun known member later =>
            fresh known member (by simp [later])
      | some field =>
          have sameName : field.name = name := by simpa using List.find?_some claimed
          have passes := accepts field (List.mem_of_find?_eq_some claimed) entry
            (by simp [sameName])
          have stillFresh : ∀ known ∈ name :: seen, known ∉ rest.map Prod.fst := by
            intro known member later
            rcases List.mem_cons.mp member with rfl | member
            · exact new later
            · exact fresh known member (by simp [later])
          simp only [checkEntries, claimed, List.contains_iff_mem, unseen, if_false, passes]
          exact ih acceptsRest ignoresRest others stillFresh

/-- A record is read from entries that describe a value. -/
theorem ofEntries_of_describes {record : Record Entry Value} {entries : List (String × Entry)}
    {value : Value} (ignore : Entry → Except DataError Unit)
    (describes : Describes (fun name => entries.lookup name) record value)
    (ignores : ∀ entry ∈ entries, ignore entry.2 = .ok ())
    (nodup : (entries.map Prod.fst).Nodup) : record.ofEntries entries ignore = .ok value := by
  have checked : checkEntries ignore record.fields [] entries = .ok () :=
    checkEntries_of_accepts
      (fun field member entry listed =>
        describes.accepts field member entry (OrderedMap.lookup_of_mem nodup listed))
      ignores nodup (by simp)
  simp only [ofEntries, checked, describes.builds]

theorem build_of_ofEntries {record : Record Entry Value} {entries : List (String × Entry)}
    {ignore : Entry → Except DataError Unit} {value : Value}
    (read : record.ofEntries entries ignore = .ok value) :
    record.build (fun name => entries.lookup name) = .ok value := by
  unfold Record.ofEntries at read
  split at read
  · cases read
  · exact read

/-! ### What a record ensures -/

/-- Whatever is built from trusted entries has a property. -/
def Ensures (trusted : Entry → Prop) (record : Record Entry Value) (result : Value → Prop) :
    Prop :=
  ∀ find : String → Option Entry, (∀ name entry, find name = some entry → trusted entry) →
    ∀ value, record.build find = .ok value → result value

variable {trusted : Entry → Prop}

theorem Ensures.map {record : Record Entry First} {function : First → Second}
    {known : First → Prop} {result : Second → Prop} (ensures : Ensures trusted record known)
    (enough : ∀ value, known value → result (function value)) :
    Ensures trusted (function <$> record) result := by
  intro find trust value built
  change (record.build find).map function = .ok value at built
  cases found : record.build find with
  | error error => simp [found, Except.map] at built
  | ok first =>
      have same : function first = value := by simpa [found, Except.map] using built
      exact same ▸ enough first (ensures find trust first found)

theorem Ensures.seq {first : Record Entry (First → Second)} {second : Record Entry First}
    {known : First → Prop} {result : Second → Prop}
    (left : Ensures trusted first fun function => ∀ value, known value → result (function value))
    (right : Ensures trusted second known) : Ensures trusted (first <*> second) result := by
  intro find trust value built
  change (combine first second).build find = _ at built
  simp only [combine] at built
  split at built
  · cases built
  · next function foundFunction =>
    split at built
    · cases built
    · next argument foundArgument =>
      cases built
      exact left find trust function foundFunction argument
        (right find trust argument foundArgument)

theorem Ensures.required {name : String} {read : Entry → Except DataError Value}
    {result : Value → Prop}
    (reads : ∀ entry, trusted entry → ∀ value, read entry = .ok value → result value) :
    Ensures trusted (.required name read) result := by
  intro find trust value built
  cases found : find name with
  | none => simp [Record.required, found] at built
  | some entry =>
      have built : read entry = .ok value := by simpa [Record.required, found] using built
      exact reads entry (trust name entry found) value built

theorem Ensures.withDefault {name : String} {default : Value}
    {read : Entry → Except DataError Value} {result : Value → Prop} (plain : result default)
    (reads : ∀ entry, trusted entry → ∀ value, read entry = .ok value → result value) :
    Ensures trusted (.withDefault name default read) result := by
  intro find trust value built
  cases found : find name with
  | none =>
      have same : default = value := by simpa [Record.withDefault, found] using built
      exact same ▸ plain
  | some entry =>
      have built : read entry = .ok value := by simpa [Record.withDefault, found] using built
      exact reads entry (trust name entry found) value built

theorem Ensures.ofEntries {record : Record Entry Value} {result : Value → Prop}
    (ensures : Ensures trusted record result) {entries : List (String × Entry)}
    (trust : ∀ entry ∈ entries, trusted entry.2) {value : Value}
    (read : record.ofEntries entries = .ok value) : result value := by
  refine ensures _ (fun name entry found => ?_) value (build_of_ofEntries read)
  exact trust (name, entry) (OrderedMap.mem_of_lookup found)

/-- A record read from a value of any form has what it ensures of all entries. -/
theorem Ensures.ofJson {record : Record Json Value} {result : Value → Prop}
    (ensures : Ensures (fun _ => True) record result) {name : String} {json : Json} {value : Value}
    (read : record.ofJson name json = .ok value) : result value := by
  unfold Record.ofJson at read
  split at read
  · exact ensures.ofEntries (by simp) read
  · unfold Record.ofPositions at read
    split at read
    · cases read
    · split at read
      · cases read
      · exact ensures _ (by simp) value read
  · cases read

end Record

end ScriptBridge

import ScriptBridge.Json.Printer
import ScriptBridge.Json.Text

/-!
# Reading records

A record is read from named entries.  Entries are looked at in the order in
which they stand, so the first bad one decides the failure; after that the
fields that are required and missing are reported in the order of their
declaration.  Entries that no field claims are ignored; in a text they must still
be well-formed.

A text that is JSON can still fail to describe what is read from it.  Each way of
failing is one cause; its message names what was found and what was wanted.
-/

namespace ScriptBridge

/-- Why a text or a value does not describe what is read from it. -/
inductive DataError where
  /-- The text is not JSON. -/
  | notJson
  | missingField (name : String)
  | duplicateField (name : String)
  | invalidType (found : Json) (wanted : String)
  | invalidValue (found : Json) (wanted : String)
  | unknownVariant (found : String) (wanted : List String)
  | tooShort (length : Nat) (wanted : String)
  | tooLong (length : Nat)
  deriving Repr

namespace DataError

/-- What a value is called in a message. -/
def describe : Json → String
  | .null => "null"
  | .bool value => "boolean `" ++ (if value then "true" else "false") ++ "`"
  | .number (.integer value) => "integer `" ++ toString value ++ "`"
  | .number (.float value) => "floating point `" ++ DecimalLayout.json.render value ++ "`"
  | .string value => "string " ++ Text.quoted value
  | .array _ => "sequence"
  | .object _ => "map"

/-- A name between backticks. -/
def ticked (name : String) : String :=
  "`" ++ name ++ "`"

/-- The message of a failure. -/
def message : DataError → String
  | .notJson => "malformed JSON"
  | .missingField name => "missing field " ++ ticked name
  | .duplicateField name => "duplicate field " ++ ticked name
  | .invalidType found wanted =>
      "invalid type: " ++ describe found ++ ", expected " ++ wanted
  | .invalidValue found wanted =>
      "invalid value: " ++ describe found ++ ", expected " ++ wanted
  | .unknownVariant found wanted =>
      "unknown variant " ++ ticked found ++ ", expected one of " ++
        String.intercalate ", " (wanted.map ticked)
  | .tooShort length wanted =>
      "invalid length " ++ toString length ++ ", expected " ++ wanted
  | .tooLong length =>
      "invalid length " ++ toString length ++ ", expected fewer elements in array"

end DataError

/-- A field of a record: its name, whether it must be present, and a check of
the entry that stands under the name. -/
structure RecordField (Entry : Type) where
  name : String
  required : Bool
  check : Entry → Except DataError Unit

/-- A reader of records: the declared fields, and how the record is put
together from the entries found. -/
structure Record (Entry Value : Type) where
  fields : List (RecordField Entry)
  build : (String → Option Entry) → Except DataError Value

namespace Record

variable {Entry First Second Value : Type}

/-- A record without fields. -/
def constant (value : Value) : Record Entry Value :=
  ⟨[], fun _ => .ok value⟩

/-- The fields of two records one after the other. -/
def combine (first : Record Entry (First → Second))
    (second : Record Entry First) : Record Entry Second where
  fields := first.fields ++ second.fields
  build entries :=
    match first.build entries with
    | .error error => .error error
    | .ok function =>
        match second.build entries with
        | .error error => .error error
        | .ok argument => .ok (function argument)

instance : Functor (Record Entry) where
  map function record :=
    ⟨record.fields, fun entries => (record.build entries).map function⟩

instance : Pure (Record Entry) := ⟨constant⟩

instance : Seq (Record Entry) where
  seq first second := combine first (second ())

/-- A field that must be present. -/
def required (name : String) (read : Entry → Except DataError Value) :
    Record Entry Value where
  fields := [⟨name, true, fun entry => (read entry).map fun _ => ()⟩]
  build entries :=
    match entries name with
    | some entry => read entry
    | none => .error (.missingField name)

/-- A field with a default. -/
def withDefault (name : String) (default : Value)
    (read : Entry → Except DataError Value) : Record Entry Value where
  fields := [⟨name, false, fun entry => (read entry).map fun _ => ()⟩]
  build entries :=
    match entries name with
    | some entry => read entry
    | none => .ok default

/-- Check the entries in their order; `ignore` looks at those that no field claims.
A name that comes twice is refused. -/
def checkEntries (ignore : Entry → Except DataError Unit)
    (fields : List (RecordField Entry)) (seen : List String) :
    List (String × Entry) → Except DataError Unit
  | [] => .ok ()
  | (name, entry) :: rest =>
      match fields.find? (·.name == name) with
      | none =>
          match ignore entry with
          | .error error => .error error
          | .ok () => checkEntries ignore fields seen rest
      | some field =>
          if seen.contains name then .error (.duplicateField name)
          else
            match field.check entry with
            | .error error => .error error
            | .ok () => checkEntries ignore fields (name :: seen) rest

/-- Read a record from named entries. -/
def ofEntries (record : Record Entry Value) (entries : List (String × Entry))
    (ignore : Entry → Except DataError Unit := fun _ => .ok ()) : Except DataError Value :=
  match checkEntries ignore record.fields [] entries with
  | .error error => .error error
  | .ok () => record.build fun name => entries.lookup name

/-- Check entries without names against the fields in order of declaration.
A required field that has no entry is an error at its place. -/
def checkPositions (wanted : String) (place : Nat) :
    List (RecordField Entry) → List Entry → Except DataError Unit
  | [], _ => .ok ()
  | field :: fields, [] =>
      if field.required then .error (.tooShort place wanted)
      else checkPositions wanted (place + 1) fields []
  | field :: fields, entry :: entries =>
      match field.check entry with
      | .error error => .error error
      | .ok () => checkPositions wanted (place + 1) fields entries

/-- How the fields of a named record are counted in a message. -/
def countedName (record : Record Entry Value) (name : String) : String :=
  let count := record.fields.length
  name ++ " with " ++ toString count ++ (if count = 1 then " element" else " elements")

/-- Read a record from its fields in order of declaration. -/
def ofPositions (record : Record Entry Value) (name : String)
    (entries : List Entry) : Except DataError Value :=
  match checkPositions (record.countedName name) 0 record.fields entries with
  | .error error => .error error
  | .ok () =>
      if record.fields.length < entries.length then .error (.tooLong entries.length)
      else
        let named := (record.fields.map (·.name)).zip entries
        record.build fun field => named.lookup field

/-- Read a named record from an object, or from an array of its fields. -/
def ofJson (record : Record Json Value) (name : String) :
    Json → Except DataError Value
  | .object fields => record.ofEntries fields
  | .array items => record.ofPositions name items
  | other => .error (.invalidType other name)

end Record

namespace JsonText

/-- What a text holds at first sight: the parts of an array or an object are not
looked at. -/
def glance : JsonText → Except DataError Json
  | .fault => .error .notJson
  | .null => .ok .null
  | .bool value => .ok (.bool value)
  | .number (some value) => .ok (.number value)
  | .number none => .error .notJson
  | .string (some value) => .ok (.string value)
  | .string none => .error .notJson
  | .array _ => .ok (.array [])
  | .object _ => .ok (.object [])

/-- Pass over a text. -/
def ignore (text : JsonText) : Except DataError Unit :=
  if text.wellFormed then .ok () else .error .notJson

/-- Fields with their names; a field whose name has no value is a fault. -/
def entries (fields : List (Option String × JsonText)) : List (String × JsonText) :=
  fields.map fun (name, value) =>
    match name with
    | some name => (name, value)
    | none => ("", .fault)

end JsonText

/-- Read a named record from the text of an object, or of an array of its fields.
There an item too many is a fault of the text itself. -/
def Record.ofText {Value : Type} (record : Record JsonText Value) (name : String) :
    JsonText → Except DataError Value
  | .object fields => record.ofEntries (JsonText.entries fields) JsonText.ignore
  | .array items =>
      match record.ofPositions name items with
      | .error (.tooLong _) => .error .notJson
      | result => result
  | other => other.glance.bind fun value => .error (.invalidType value name)

namespace Json

/-- A string. -/
def toText : Json → Except DataError String
  | .string value => .ok value
  | other => .error (.invalidType other "a string")

/-- A truth value. -/
def toBool : Json → Except DataError Bool
  | .bool value => .ok value
  | other => .error (.invalidType other "a boolean")

/-- A string, or null for none. -/
def toMaybeText : Json → Except DataError (Option String)
  | .null => .ok none
  | other => (toText other).map some

/-- A count that fits 32 bits. -/
def toCount (value : Json) : Except DataError Nat :=
  match value with
  | .number (.integer count) =>
      if 0 ≤ count && count < 0x100000000 then .ok count.toNat
      else .error (.invalidValue value "u32")
  | _ => .error (.invalidType value "u32")

end Json

namespace JsonText

/-- A string. -/
def toText (text : JsonText) : Except DataError String :=
  text.glance.bind Json.toText

/-- A truth value. -/
def toBool (text : JsonText) : Except DataError Bool :=
  text.glance.bind Json.toBool

/-- A string, or null for none. -/
def toMaybeText (text : JsonText) : Except DataError (Option String) :=
  text.glance.bind Json.toMaybeText

/-- An array whose items are all read alike. -/
def toList {Value : Type} (read : JsonText → Except DataError Value) :
    JsonText → Except DataError (List Value)
  | .array items => items.mapM read
  | other => other.glance.bind fun value => .error (.invalidType value "a sequence")

/-- An object whose fields are all read alike; the last value of a name
counts. -/
def toMap {Value : Type} (read : JsonText → Except DataError Value) :
    JsonText → Except DataError (OrderedMap String Value)
  | .object fields =>
      let readField (field : String × JsonText) : Except DataError (String × Value) :=
        (read field.2).map fun value => (field.1, value)
      ((entries fields).mapM readField).map OrderedMap.ofList
  | other => other.glance.bind fun value => .error (.invalidType value "a map")

/-- Read what a text describes.  What is wrong with the value is reported before
characters that follow it. -/
def readWhole {Value : Type} (read : JsonText → Except DataError Value)
    (source : String) : Except DataError Value :=
  let (first, rest) := readFirst source
  (read first).bind fun value =>
    if onlyBlanks rest then .ok value else .error .notJson

end JsonText

end ScriptBridge

import ScriptBridge.Decimal.Binary64
import ScriptBridge.OrderedMap

/-!
# JSON values

Objects keep their fields in the order of the text.  A field may occur more
than once; merging an object keeps the first place and the last value of each
name, at every depth.
-/

namespace ScriptBridge

/-- A JSON number: an integer that fits a machine word, or a double. -/
inductive JsonNumber where
  | integer (value : Int)
  | float (value : Binary64)
  deriving DecidableEq, Repr

/-- A JSON value. -/
inductive Json where
  | null
  | bool (value : Bool)
  | number (value : JsonNumber)
  | string (value : String)
  | array (items : List Json)
  | object (fields : List (String × Json))
  deriving Repr

namespace Json

mutual

/-- Whether two values are equal, with fields in the same order. -/
def same : Json → Json → Bool
  | .null, .null => true
  | .bool first, .bool second => first == second
  | .number first, .number second => first == second
  | .string first, .string second => first == second
  | .array first, .array second => sameItems first second
  | .object first, .object second => sameFields first second
  | _, _ => false

/-- Whether two lists of values are equal item by item. -/
def sameItems : List Json → List Json → Bool
  | [], [] => true
  | first :: firstRest, second :: secondRest =>
      same first second && sameItems firstRest secondRest
  | _, _ => false

/-- Whether two lists of fields are equal field by field. -/
def sameFields : List (String × Json) → List (String × Json) → Bool
  | [], [] => true
  | (firstName, first) :: firstRest, (secondName, second) :: secondRest =>
      firstName == secondName && same first second &&
        sameFields firstRest secondRest
  | _, _ => false

end

instance : BEq Json := ⟨same⟩

mutual

/-- Keep one field of each name, at every depth. -/
def merge : Json → Json
  | .array items => .array (mergeItems items)
  | .object fields => .object (OrderedMap.ofList (mergeFields fields)).entries
  | value => value

/-- Merge every item of a list. -/
def mergeItems : List Json → List Json
  | [] => []
  | item :: rest => merge item :: mergeItems rest

/-- Merge the value of every field. -/
def mergeFields : List (String × Json) → List (String × Json)
  | [] => []
  | (name, value) :: rest => (name, merge value) :: mergeFields rest

end

/-- The field of an object. -/
def field? (value : Json) (name : String) : Option Json :=
  match value with
  | .object fields => fields.lookup name
  | _ => none

/-- The text of a string value. -/
def text? : Json → Option String
  | .string value => some value
  | _ => none

/-- An integer value. -/
def ofNat (value : Nat) : Json :=
  .number (.integer value)

/-- A list of strings. -/
def strings (values : List String) : Json :=
  .array (values.map .string)

/-- A value that may be absent, written as null. -/
def ofOption {Value : Type} (encode : Value → Json) : Option Value → Json
  | some value => encode value
  | none => .null

end Json

end ScriptBridge

/-!
# Maps in insertion order

A map keeps its entries in the order in which their keys first came in.  A key
that comes in again keeps its place and takes the new value.
-/

namespace ScriptBridge

/-- A finite map whose entries are listed in insertion order. -/
structure OrderedMap (Key Value : Type) where
  entries : List (Key × Value) := []
  deriving DecidableEq, Repr

namespace OrderedMap

variable {Key Value : Type} [DecidableEq Key]

/-- The value that stands under a key. -/
def find? (map : OrderedMap Key Value) (key : Key) : Option Value :=
  map.entries.lookup key

/-- Whether a key occurs. -/
def contains (map : OrderedMap Key Value) (key : Key) : Bool :=
  (map.find? key).isSome

/-- Put a value under a key in a list of entries. -/
def putEntry (key : Key) (value : Value) :
    List (Key × Value) → List (Key × Value)
  | [] => [(key, value)]
  | (otherKey, otherValue) :: rest =>
      if otherKey = key then (key, value) :: rest
      else (otherKey, otherValue) :: putEntry key value rest

/-- Put a value under a key: in place if the key is known, else at the end. -/
def insert (map : OrderedMap Key Value) (key : Key) (value : Value) :
    OrderedMap Key Value :=
  ⟨putEntry key value map.entries⟩

/-- The map that results from putting in the given entries one by one. -/
def ofList (entries : List (Key × Value)) : OrderedMap Key Value :=
  entries.foldl (fun map (key, value) => map.insert key value) {}

/-- The keys in order. -/
def keys (map : OrderedMap Key Value) : List Key :=
  map.entries.map (·.1)

/-- The values in order. -/
def values (map : OrderedMap Key Value) : List Value :=
  map.entries.map (·.2)

/-- The number of entries. -/
def size (map : OrderedMap Key Value) : Nat :=
  map.entries.length

theorem lookup_putEntry (key other : Key) (value : Value)
    (entries : List (Key × Value)) :
    (putEntry key value entries).lookup other =
      if other = key then some value else entries.lookup other := by
  induction entries with
  | nil =>
      by_cases same : other = key
      · simp [putEntry, same]
      · simp [putEntry, List.lookup_cons, same, beq_eq_false_iff_ne.mpr same]
  | cons entry rest ih =>
      obtain ⟨entryKey, entryValue⟩ := entry
      by_cases sameKey : entryKey = key
      · subst sameKey
        by_cases same : other = entryKey
        · simp [putEntry, same]
        · simp [putEntry, List.lookup_cons, same, beq_eq_false_iff_ne.mpr same]
      · by_cases same : other = entryKey
        · subst same
          simp [putEntry, sameKey]
        · simp [putEntry, List.lookup_cons, sameKey, beq_eq_false_iff_ne.mpr same, ih]

/-- Looking up after an insertion finds the new value under its key and leaves
every other key alone. -/
@[simp]
theorem find?_insert (map : OrderedMap Key Value) (key other : Key)
    (value : Value) :
    (map.insert key value).find? other =
      if other = key then some value else map.find? other :=
  lookup_putEntry key other value map.entries

end OrderedMap

end ScriptBridge

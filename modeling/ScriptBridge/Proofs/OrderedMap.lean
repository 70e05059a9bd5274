import ScriptBridge.OrderedMap
import Mathlib.Data.List.Induction
import Mathlib.Data.List.Nodup

/-!
# Keys of ordered maps

A map that was built entry by entry has no key twice, and a list in which no key
comes twice is the list of entries of the map built from it.  Of many entries put in one
after the other, the last one under a key stands there, at the place where the key first
came in; and putting them in again changes nothing.
-/

namespace ScriptBridge

/-- A value behind a list is a first occurrence if it is not in the list. -/
theorem eraseDups_concat {Value : Type} [DecidableEq Value] (values : List Value) (last : Value) :
    (values ++ [last]).eraseDups =
      if last ∈ values then values.eraseDups else values.eraseDups ++ [last] := by
  rw [List.eraseDups_append]
  by_cases known : last ∈ values <;> simp [List.removeAll, known, List.eraseDups_cons]

namespace OrderedMap

variable {Key Value : Type} [DecidableEq Key]

theorem mem_keys_putEntry {key other : Key} {value : Value} {entries : List (Key × Value)} :
    other ∈ (putEntry key value entries).map Prod.fst ↔
      other = key ∨ other ∈ entries.map Prod.fst := by
  induction entries with
  | nil => simp [putEntry]
  | cons entry rest ih =>
      by_cases same : entry.1 = key
      · simp [putEntry, same]
      · simp only [putEntry, same, if_false, List.map_cons, List.mem_cons, ih]
        tauto

/-- Putting in an entry repeats no key. -/
theorem nodup_putEntry (key : Key) (value : Value) {entries : List (Key × Value)}
    (nodup : (entries.map Prod.fst).Nodup) :
    ((putEntry key value entries).map Prod.fst).Nodup := by
  induction entries with
  | nil => simp [putEntry]
  | cons entry rest ih =>
      obtain ⟨fresh, others⟩ := List.nodup_cons.mp nodup
      by_cases same : entry.1 = key
      · simpa [putEntry, same] using nodup
      · have stillFresh : entry.1 ∉ (putEntry key value rest).map Prod.fst := by
          rw [mem_keys_putEntry]
          tauto
        simpa [putEntry, same] using And.intro stillFresh (ih others)

/-- A key that is not there yet goes to the end. -/
theorem putEntry_of_notMem {key : Key} (value : Value) {entries : List (Key × Value)}
    (fresh : key ∉ entries.map Prod.fst) :
    putEntry key value entries = entries ++ [(key, value)] := by
  induction entries with
  | nil => rfl
  | cons entry rest ih =>
      simp only [List.map_cons, List.mem_cons, not_or] at fresh
      simp [putEntry, Ne.symm fresh.1, ih fresh.2]

/-- What stands in a map after an entry was put in, is this entry or stood there. -/
theorem mem_putEntry {key : Key} {value : Value} {entries : List (Key × Value)}
    {entry : Key × Value} (member : entry ∈ putEntry key value entries) :
    entry = (key, value) ∨ entry ∈ entries := by
  induction entries with
  | nil => simpa [putEntry] using member
  | cons first rest ih =>
      by_cases same : first.1 = key
      · simp only [putEntry, same, if_true, List.mem_cons] at member
        rcases member with rfl | member
        · exact .inl rfl
        · exact .inr (by simp [member])
      · simp only [putEntry, same, if_false, List.mem_cons] at member
        rcases member with rfl | member
        · exact .inr (by simp)
        · exact (ih member).imp id (by simp +contextual)

theorem mem_of_lookup {entries : List (Key × Value)} {key : Key} {value : Value}
    (found : entries.lookup key = some value) : (key, value) ∈ entries := by
  obtain ⟨before, after, rfl, -⟩ := List.lookup_eq_some_iff.mp found
  simp

theorem lookup_of_mem {entries : List (Key × Value)} {key : Key} {value : Value}
    (nodup : (entries.map Prod.fst).Nodup) (member : (key, value) ∈ entries) :
    entries.lookup key = some value := by
  induction entries with
  | nil => simp at member
  | cons first rest ih =>
      have ⟨fresh, others⟩ := List.nodup_cons.mp nodup
      rcases List.mem_cons.mp member with rfl | member
      · simp
      · have later : key ∈ rest.map Prod.fst := List.mem_map_of_mem member
        have different : (key == first.1) = false := by
          rw [beq_eq_false_iff_ne]
          rintro rfl
          exact fresh later
        rw [List.lookup_cons, different]
        exact ih others member

theorem find?_eq_none {map : OrderedMap Key Value} {key : Key} (fresh : key ∉ map.keys) :
    map.find? key = none := by
  refine List.lookup_eq_none_iff.mpr fun entry member => ?_
  rw [bne_iff_ne]
  rintro rfl
  exact fresh (List.mem_map_of_mem member)

theorem nodup_foldl_insert (entries : List (Key × Value)) (map : OrderedMap Key Value)
    (nodup : map.keys.Nodup) :
    (entries.foldl (fun map (key, value) => map.insert key value) map).keys.Nodup := by
  induction entries generalizing map with
  | nil => exact nodup
  | cons entry rest ih => exact ih _ (nodup_putEntry entry.1 entry.2 nodup)

theorem nodup_ofList (entries : List (Key × Value)) : (ofList entries).keys.Nodup :=
  nodup_foldl_insert entries {} (by simp [keys])

theorem mem_ofList {entries : List (Key × Value)} {entry : Key × Value}
    (member : entry ∈ (ofList entries).entries) : entry ∈ entries := by
  have stays : ∀ (entries : List (Key × Value)) (map : OrderedMap Key Value),
      entry ∈ (entries.foldl (fun map (key, value) => map.insert key value) map).entries →
      entry ∈ map.entries ∨ entry ∈ entries := by
    intro entries
    induction entries with
    | nil => exact fun map member => .inl member
    | cons first rest ih =>
        intro map member
        rcases ih _ member with inserted | later
        · rcases mem_putEntry inserted with rfl | earlier
          · exact .inr (by simp)
          · exact .inl earlier
        · exact .inr (by simp [later])
  simpa using stays entries {} member

/-- Without repeated keys the map has the entries that were put in. -/
theorem ofList_entries {entries : List (Key × Value)}
    (nodup : (entries.map Prod.fst).Nodup) : (ofList entries).entries = entries := by
  have grows : ∀ (later earlier : List (Key × Value)),
      ((earlier ++ later).map Prod.fst).Nodup →
      (later.foldl (fun map (key, value) => map.insert key value)
        (⟨earlier⟩ : OrderedMap Key Value)).entries = earlier ++ later := by
    intro later
    induction later with
    | nil => simp
    | cons entry rest ih =>
        intro earlier nodup
        have fresh : entry.1 ∉ earlier.map Prod.fst := by
          simp only [List.map_append, List.map_cons, List.nodup_append] at nodup
          exact fun member => nodup.2.2 entry.1 member entry.1 (by simp) rfl
        have shifted : ((earlier ++ [entry] ++ rest).map Prod.fst).Nodup := by
          simpa using nodup
        simpa [insert, putEntry_of_notMem entry.2 fresh] using ih (earlier ++ [entry]) shifted
  exact grows entries [] (by simpa using nodup)

/-! ## Many entries -/

theorem keys_insert (map : OrderedMap Key Value) (key : Key) (value : Value) :
    (map.insert key value).keys =
      if key ∈ map.keys then map.keys else map.keys ++ [key] := by
  obtain ⟨entries⟩ := map
  unfold insert keys
  induction entries with
  | nil => simp [putEntry]
  | cons entry rest ih =>
      by_cases same : entry.1 = key
      · simp [putEntry, same]
      · simp only [putEntry, same, if_false, List.map_cons, List.mem_cons, Ne.symm same,
          false_or, ih]
        split <;> rfl

/-- The map after the given entries were put in one by one. -/
def insertAll (map : OrderedMap Key Value) (added : List (Key × Value)) :
    OrderedMap Key Value :=
  added.foldl (fun map (key, value) => map.insert key value) map

theorem insertAll_concat (map : OrderedMap Key Value) (added : List (Key × Value))
    (entry : Key × Value) :
    map.insertAll (added ++ [entry]) = (map.insertAll added).insert entry.1 entry.2 := by
  simp [insertAll]

/-- New keys go to the end, in the order in which they first come in. -/
theorem keys_insertAll (map : OrderedMap Key Value) (added : List (Key × Value)) :
    (map.insertAll added).keys =
      map.keys ++ (added.map Prod.fst).eraseDups.filter fun key => key ∉ map.keys := by
  induction added using List.reverseRecOn with
  | nil => simp [insertAll]
  | append_singleton added entry ih =>
      have isKey : entry.1 ∈ (map.insertAll added).keys ↔
          entry.1 ∈ map.keys ∨ entry.1 ∈ added.map Prod.fst := by
        rw [ih, List.mem_append, List.mem_filter, List.mem_eraseDups, decide_eq_true_iff]
        tauto
      rw [insertAll_concat, keys_insert, List.map_append, List.map_singleton, eraseDups_concat]
      by_cases again : entry.1 ∈ added.map Prod.fst
      · rw [if_pos (isKey.mpr (.inr again)), if_pos again, ih]
      · rw [if_neg again, List.filter_append, ← List.append_assoc, ← ih]
        by_cases known : entry.1 ∈ map.keys
        · rw [if_pos (isKey.mpr (.inl known))]
          simp [known]
        · rw [if_neg fun old => (isKey.mp old).elim known again]
          simp [known]

/-- Of all values put in under a key the last one stands there. -/
theorem find?_insertAll (map : OrderedMap Key Value) (added : List (Key × Value)) (key : Key) :
    (map.insertAll added).find? key = (added.reverse.lookup key).or (map.find? key) := by
  induction added using List.reverseRecOn with
  | nil => rfl
  | append_singleton added entry ih =>
      rw [insertAll_concat, find?_insert, List.reverse_append, List.reverse_singleton,
        List.singleton_append, List.lookup_cons]
      by_cases same : key = entry.1
      · simp [same]
      · simp [beq_eq_false_iff_ne.mpr same, same, ih]

/-- The first entry takes the last value put in under its key, and the other keys are put
into the rest. -/
theorem insertAll_cons (key : Key) (value : Value) (rest added : List (Key × Value)) :
    insertAll ⟨(key, value) :: rest⟩ added =
      ⟨(key, (added.reverse.lookup key).getD value) ::
        (insertAll ⟨rest⟩ (added.filter fun entry => entry.1 ≠ key)).entries⟩ := by
  induction added using List.reverseRecOn with
  | nil => rfl
  | append_singleton added entry ih =>
      rw [insertAll_concat, ih, List.reverse_append, List.reverse_singleton,
        List.singleton_append, List.lookup_cons, List.filter_append]
      by_cases same : entry.1 = key
      · simp [insert, putEntry, same]
      · have others : [entry].filter (fun entry => entry.1 ≠ key) = [entry] := by simp [same]
        rw [others, insertAll_concat, beq_eq_false_iff_ne.mpr (Ne.symm same)]
        simp [insert, putEntry, Ne.symm same]

/-- Entries that are put in a second time change nothing if the same holds behind the
first entry of the map. -/
theorem insertAll_again_cons {key : Key} {value : Value} {rest added : List (Key × Value)}
    (again : (insertAll ⟨rest⟩ (added.filter fun entry => entry.1 ≠ key)).insertAll
        (added.filter fun entry => entry.1 ≠ key) =
      insertAll ⟨rest⟩ (added.filter fun entry => entry.1 ≠ key)) :
    (insertAll ⟨(key, value) :: rest⟩ added).insertAll added =
      insertAll ⟨(key, value) :: rest⟩ added := by
  rw [insertAll_cons key value rest added, insertAll_cons, again]
  cases added.reverse.lookup key <;> rfl

/-- Entries that are put in a second time change nothing. -/
theorem insertAll_insertAll (entries added : List (Key × Value)) :
    (insertAll ⟨entries⟩ added).insertAll added = insertAll ⟨entries⟩ added := by
  match entries, added with
  | [], [] => rfl
  | [], first :: others =>
      -- The first entry of all may as well have been there before.
      have present : insertAll ⟨[]⟩ (first :: others) =
          insertAll ⟨[(first.1, first.2)]⟩ (first :: others) := by
        simp [insertAll, insert, putEntry]
      rw [present]
      exact insertAll_again_cons (insertAll_insertAll [] _)
  | (key, value) :: rest, added =>
      exact insertAll_again_cons (insertAll_insertAll rest _)
termination_by added.length + entries.length
decreasing_by
  · have shorter := List.length_filter_le (fun entry => entry.1 ≠ first.1) others
    simp only [ne_eq, decide_not] at shorter
    simp
    omega
  · have shorter := List.length_filter_le (fun entry => entry.1 ≠ key) added
    simp only [ne_eq, decide_not] at shorter
    simp
    omega

end OrderedMap

end ScriptBridge

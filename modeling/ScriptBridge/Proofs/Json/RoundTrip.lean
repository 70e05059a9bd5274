import ScriptBridge.Json.Reader
import ScriptBridge.Proofs.Json.Token
import Mathlib.Data.List.Forall2

/-!
# Written JSON reads back

Compact and indented text differ in nothing but the blanks between their tokens.
So the brackets are treated once, for rows of entries with any blanks around
them, and each of the two layouts is read back by one induction over values.
-/

namespace ScriptBridge

namespace JsonText

mutual

/-- The syntax of a value that is written without fault. -/
def ofJson : Json → JsonText
  | .null => .null
  | .bool value => .bool value
  | .number value => .number (some value)
  | .string value => .string (some value)
  | .array items => .array (ofItems items)
  | .object fields => .object (ofFields fields)

def ofItems : List Json → List JsonText
  | [] => []
  | item :: rest => ofJson item :: ofItems rest

def ofFields : List (String × Json) → List (Option String × JsonText)
  | [] => []
  | (name, value) :: rest => (some name, ofJson value) :: ofFields rest

end

mutual

/-- A value is the value of its syntax. -/
theorem value?_ofJson : ∀ value : Json, (ofJson value).value? = some value
  | .null => rfl
  | .bool _ => rfl
  | .number _ => rfl
  | .string _ => rfl
  | .array items => by simp [ofJson, value?, itemValues?_ofItems items []]
  | .object fields => by simp [ofJson, value?, fieldValues?_ofFields fields []]

theorem itemValues?_ofItems : ∀ (items gathered : List Json),
    itemValues? gathered (ofItems items) = some (gathered.reverse ++ items)
  | [], gathered => by simp [ofItems, itemValues?]
  | item :: rest, gathered => by
      simp [ofItems, itemValues?, value?_ofJson item, itemValues?_ofItems rest]

theorem fieldValues?_ofFields : ∀ (fields gathered : List (String × Json)),
    fieldValues? gathered (ofFields fields) = some (gathered.reverse ++ fields)
  | [], gathered => by simp [ofFields, fieldValues?]
  | (name, value) :: rest, gathered => by
      simp [ofFields, fieldValues?, value?_ofJson value, fieldValues?_ofFields rest]

end

/-! ### Blanks -/

/-- A text of blanks only. -/
def AreBlanks (blanks : List Char) : Prop :=
  ∀ character ∈ blanks, isBlank character = true

/-- A text that starts with something other than a blank. -/
def IsSolid (text : List Char) : Prop :=
  ∃ first rest, text = first :: rest ∧ isBlank first = false

theorem skipBlanks_append {blanks : List Char} (blank : AreBlanks blanks)
    (rest : List Char) : skipBlanks (blanks ++ rest) = skipBlanks rest := by
  induction blanks with
  | nil => rfl
  | cons character blanks ih =>
      have first : isBlank character = true := blank character (by simp)
      have others := ih fun other member => blank other (by simp [member])
      simpa [skipBlanks, first] using others

theorem skipBlanks_cons (character : Char) (solid : isBlank character = false)
    (rest : List Char) : skipBlanks (character :: rest) = character :: rest := by
  simp [skipBlanks, solid]

theorem readValue_blanks {blanks : List Char} (blank : AreBlanks blanks) (fuel : Nat)
    (rest : List Char) : readValue fuel (blanks ++ rest) = readValue fuel rest := by
  cases fuel with
  | zero => rfl
  | succ fuel => simp only [readValue, skipBlanks_append blank]

theorem endsNumber_blanks {blanks : List Char} (blank : AreBlanks blanks) {rest : List Char}
    (ends : endsNumber rest = true) : endsNumber (blanks ++ rest) = true := by
  cases blanks with
  | nil => exact ends
  | cons character blanks =>
      have first : isBlank character = true := blank character (by simp)
      simp [endsNumber, first]

/-! ### Texts that are read back -/

/-- A text is read as the given syntax in front of everything that ends it.  Fuel of
twice its length is enough: each character pays for one bracket or one entry, and
each of these for two calls. -/
structure Reads (text : List Char) (value : JsonText) : Prop where
  solid : IsSolid text
  closesNothing : text.head? ≠ some ']'
  reads : ∀ fuel rest, 2 * text.length ≤ fuel → endsNumber rest = true →
    readValue fuel (text ++ rest) = (value, rest)

/-- A text without brackets takes one call. -/
theorem Reads.ofToken {text : List Char} {value : JsonText} (solid : IsSolid text)
    (closesNothing : text.head? ≠ some ']')
    (reads : ∀ fuel rest, endsNumber rest = true →
      readValue (fuel + 1) (text ++ rest) = (value, rest)) : Reads text value where
  solid := solid
  closesNothing := closesNothing
  reads fuel rest enough ends := by
    obtain ⟨first, more, rfl, -⟩ := solid
    simp only [List.length_cons] at enough
    obtain ⟨fuel, rfl⟩ := Nat.exists_eq_succ_of_ne_zero (Nat.ne_zero_of_lt enough)
    exact reads fuel rest ends

/-- A text is read as a field: a name, a colon, and a value behind blanks. -/
def ReadsField (text : List Char) (field : Option String × JsonText) : Prop :=
  ∃ name blanks valueText, field.1 = some name ∧
    text = (Json.escape name).toList ++ ':' :: (blanks ++ valueText) ∧
    AreBlanks blanks ∧ Reads valueText field.2

/-- Entries with commas between them, each behind the same blanks, and blanks
behind the last one. -/
def row (blanks closing : List Char) : List (List Char) → List Char
  | [] => closing
  | [text] => blanks ++ text ++ closing
  | text :: next :: others => blanks ++ text ++ ',' :: row blanks closing (next :: others)

variable {blanks closing : List Char}

theorem readItems_row (blank : AreBlanks blanks) (blankEnd : AreBlanks closing)
    {texts : List (List Char)} {values : List JsonText} (all : List.Forall₂ Reads texts values) :
    texts ≠ [] → ∀ fuel gathered rest, 2 * (row blanks closing texts).length < fuel →
    readItems fuel gathered (row blanks closing texts ++ ']' :: rest) =
      (.array (gathered.reverse ++ values), rest) := by
  induction all with
  | nil => exact fun nonempty => absurd rfl nonempty
  | @cons text value texts values first others ih =>
      intro _ fuel gathered rest enough
      obtain ⟨fuel, rfl⟩ := Nat.exists_eq_succ_of_ne_zero (Nat.ne_zero_of_lt enough)
      cases others with
      | nil =>
          simp only [row, List.length_append] at enough
          have item := first.reads fuel (closing ++ ']' :: rest) (by omega)
            (endsNumber_blanks blankEnd rfl)
          simp only [row, List.append_assoc, readItems, readValue_blanks blank, item,
            skipBlanks_append blankEnd, skipBlanks_cons ']' rfl]
          simp
      | @cons next nextValue texts values second others =>
          simp only [row, List.length_append, List.length_cons] at enough
          have item := first.reads fuel
            (',' :: (row blanks closing (next :: texts) ++ ']' :: rest)) (by omega) rfl
          have more := ih (by simp) fuel (value :: gathered) rest (by omega)
          simp only [row, List.append_assoc, List.cons_append, readItems,
            readValue_blanks blank, item, skipBlanks_cons ',' rfl]
          simpa using more

theorem readFields_row (blank : AreBlanks blanks) (blankEnd : AreBlanks closing)
    {texts : List (List Char)} {fields : List (Option String × JsonText)}
    (all : List.Forall₂ ReadsField texts fields) :
    texts ≠ [] → ∀ fuel gathered rest, 2 * (row blanks closing texts).length < fuel →
    readFields fuel gathered (row blanks closing texts ++ '\x7d' :: rest) =
      (.object (gathered.reverse ++ fields), rest) := by
  induction all with
  | nil => exact fun nonempty => absurd rfl nonempty
  | @cons text field texts fields first others ih =>
      intro _ fuel gathered rest enough
      obtain ⟨fuel, rfl⟩ := Nat.exists_eq_succ_of_ne_zero (Nat.ne_zero_of_lt enough)
      obtain ⟨name, gap, valueText, named, textEq, gapBlank, read⟩ := first
      obtain rfl := textEq.symm
      obtain ⟨fieldName, value⟩ := field
      subst named
      cases others with
      | nil =>
          simp only [row, List.length_append, List.length_cons] at enough
          have item := read.reads fuel (closing ++ '\x7d' :: rest) (by omega)
            (endsNumber_blanks blankEnd rfl)
          simp only [row, List.append_assoc, readFields, skipBlanks_append blank,
            toList_escape, List.cons_append, skipBlanks_cons '"' rfl,
            readString_escape, skipBlanks_cons ':' rfl,
            readValue_blanks gapBlank, item, skipBlanks_append blankEnd,
            skipBlanks_cons '\x7d' rfl]
          simp
      | @cons next nextField texts fields second others =>
          simp only [row, List.length_append, List.length_cons] at enough
          have item := read.reads fuel
            (',' :: (row blanks closing (next :: texts) ++ '\x7d' :: rest)) (by omega) rfl
          have more := ih (by simp) fuel ((some name, value) :: gathered) rest (by omega)
          simp only [row, List.append_assoc, readFields, skipBlanks_append blank,
            toList_escape, List.cons_append, skipBlanks_cons '"' rfl,
            readString_escape, skipBlanks_cons ':' rfl,
            readValue_blanks gapBlank, item, skipBlanks_cons ',' rfl]
          simpa using more

/-- Brackets around at least one item. -/
theorem reads_array (blank : AreBlanks blanks) (blankEnd : AreBlanks closing)
    {texts : List (List Char)} {values : List JsonText}
    (all : List.Forall₂ Reads texts values) (nonempty : texts ≠ []) :
    Reads ('[' :: (row blanks closing texts ++ [']'])) (.array values) where
  solid := ⟨_, _, rfl, rfl⟩
  closesNothing := by simp
  reads fuel rest enough _ := by
    simp only [List.length_cons, List.length_append] at enough
    obtain ⟨fuel, rfl⟩ := Nat.exists_eq_succ_of_ne_zero (Nat.ne_zero_of_lt enough)
    have items := readItems_row blank blankEnd all nonempty fuel [] rest (by omega)
    have notEmpty : ∀ after,
        skipBlanks (row blanks closing texts ++ ']' :: rest) ≠ ']' :: after := by
      intro after closed
      cases all with
      | nil => exact nonempty rfl
      | cons first others =>
          obtain ⟨⟨character, more, rfl, solid⟩, opened, -⟩ := first
          cases others <;>
            simp_all [row, skipBlanks_append blank, skipBlanks_cons _ solid]
    simp only [List.cons_append, List.append_assoc, List.nil_append, readValue,
      skipBlanks_cons '[' rfl]
    exact items

/-- Braces around at least one field. -/
theorem reads_object (blank : AreBlanks blanks) (blankEnd : AreBlanks closing)
    {texts : List (List Char)} {fields : List (Option String × JsonText)}
    (all : List.Forall₂ ReadsField texts fields) (nonempty : texts ≠ []) :
    Reads ('\x7b' :: (row blanks closing texts ++ ['\x7d'])) (.object fields) where
  solid := ⟨_, _, rfl, rfl⟩
  closesNothing := by simp
  reads fuel rest enough _ := by
    simp only [List.length_cons, List.length_append] at enough
    obtain ⟨fuel, rfl⟩ := Nat.exists_eq_succ_of_ne_zero (Nat.ne_zero_of_lt enough)
    have items := readFields_row blank blankEnd all nonempty fuel [] rest (by omega)
    have notEmpty : ∀ after,
        skipBlanks (row blanks closing texts ++ '\x7d' :: rest) ≠ '\x7d' :: after := by
      intro after closed
      cases all with
      | nil => exact nonempty rfl
      | cons first others =>
          obtain ⟨name, gap, valueText, -, textEq, -⟩ := first
          obtain rfl := textEq.symm
          cases others <;>
            simp_all [row, skipBlanks_append blank, toList_escape,
              skipBlanks_cons '"' rfl]
    simp only [List.cons_append, List.append_assoc, List.nil_append, readValue,
      skipBlanks_cons '\x7b' rfl]
    exact items

/-- A number starts with its sign or with a digit. -/
theorem head_of_readNumber {input : List Char} {result : Option JsonNumber × List Char}
    (found : readNumber input = some result) :
    ∃ first rest, input = first :: rest ∧ (first = '-' ∨ first.isDigit = true) := by
  cases input with
  | nil => simp [readNumber, isWhole] at found
  | cons first rest =>
      refine ⟨first, rest, rfl, ?_⟩
      by_contra other
      push Not at other
      have digit : first.isDigit = false := by simpa using other.2
      simp [readNumber, other.1, digit, isWhole] at found

theorem reads_number {value : JsonNumber} (readable : IsReadable value) :
    Reads (Json.numberText value).toList (.number (some value)) := by
  obtain ⟨first, more, text, start⟩ := head_of_readNumber readable
  have solid : isBlank first = false := by
    rcases start with rfl | digit
    · rfl
    · cases blank : isBlank first
      · rfl
      · simp only [isBlank, Bool.or_eq_true, beq_iff_eq] at blank
        rcases blank with ((rfl | rfl) | rfl) | rfl <;> exact absurd digit (by decide)
  have notLetter : ∀ letter ∈ ['n', 't', 'f', '"', '[', '\x7b', ']'], first ≠ letter := by
    rintro letter member rfl
    rcases start with rfl | digit
    · exact absurd member (by decide)
    · simp only [List.mem_cons, List.not_mem_nil, or_false] at member
      rcases member with rfl | rfl | rfl | rfl | rfl | rfl | rfl <;>
        exact absurd digit (by decide)
  refine .ofToken ⟨first, more, text, solid⟩
    (by simpa [text] using notLetter ']' (by decide)) ?_
  intro fuel rest ends
  have number := readNumber_append ends (Json.numberText value).toList
  rw [readable] at number
  rw [text] at number ⊢
  simp only [List.cons_append] at number ⊢
  simp only [readValue, skipBlanks_cons _ solid]
  split
  case h_7 => simp [number]
  all_goals
    next equal =>
      injection equal with head
      exact absurd head (notLetter _ (by decide))

theorem reads_string (text : String) :
    Reads (Json.escape text).toList (.string (some text)) := by
  have solid : IsSolid (Json.escape text).toList :=
    ⟨'"', text.toList.flatMap Json.escapeCharacter ++ ['"'], by simp [Json.escape], rfl⟩
  refine .ofToken solid (by simp [Json.escape]) ?_
  intro fuel rest _
  simp only [toList_escape, readValue, skipBlanks_cons '"' rfl, readString_escape]

theorem row_eq_intercalate (texts : List (List Char)) (nonempty : texts ≠ []) :
    row blanks closing texts =
      blanks ++ ((',' :: blanks).intercalate texts ++ closing) := by
  induction texts with
  | nil => exact absurd rfl nonempty
  | cons text texts ih =>
      cases texts with
      | nil => simp [row]
      | cons next texts =>
          rw [row, ih (by simp)]
          simp [List.intercalate_cons_cons]

end JsonText

namespace Json

open JsonText

mutual

/-- Every number that stands in a value. -/
def numbers : Json → List JsonNumber
  | .number value => [value]
  | .array items => itemNumbers items
  | .object fields => fieldNumbers fields
  | _ => []

def itemNumbers : List Json → List JsonNumber
  | [] => []
  | item :: rest => item.numbers ++ itemNumbers rest

def fieldNumbers : List (String × Json) → List JsonNumber
  | [] => []
  | (_, value) :: rest => value.numbers ++ fieldNumbers rest

end

/-- Numbers that are all read back from their own texts. -/
def AreReadable (values : List JsonNumber) : Prop :=
  ∀ value ∈ values, IsReadable value

theorem areReadable_append {first second : List JsonNumber} :
    AreReadable (first ++ second) ↔ AreReadable first ∧ AreReadable second := by
  simp [AreReadable, or_imp, forall_and]

theorem areBlanks_nil : AreBlanks [] := by
  simp [AreBlanks]

theorem areBlanks_newline (depth : Nat) : AreBlanks (newline depth).toList := by
  intro character member
  simp only [newline, String.toList_append, String.toList_ofList, List.mem_append,
    List.mem_replicate] at member
  rcases member with first | ⟨-, rfl⟩
  · have same : character = '\n' := by simpa using first
    exact same ▸ rfl
  · rfl

theorem toList_compact_array (item : Json) (items : List Json) :
    (compact (.array (item :: items))).toList =
      '[' :: (row [] [] ((compactItems (item :: items)).map String.toList) ++ [']']) := by
  rw [row_eq_intercalate _ (by simp [compactItems])]
  simp [compact, String.toList_intercalate]

theorem toList_compact_object (field : String × Json) (fields : List (String × Json)) :
    (compact (.object (field :: fields))).toList =
      '\x7b' ::
        (row [] [] ((compactFields (field :: fields)).map String.toList) ++ ['\x7d']) := by
  rw [row_eq_intercalate _ (by simp [compactFields])]
  simp [compact, String.toList_intercalate]

theorem toList_enclose (opening closing : Char) (depth : Nat) (entries : List String)
    (nonempty : entries ≠ []) :
    (enclose (String.singleton opening) (String.singleton closing) depth entries).toList =
      opening :: (row (newline (depth + 1)).toList (newline depth).toList
        (entries.map String.toList) ++ [closing]) := by
  rw [row_eq_intercalate _ (by simpa using nonempty)]
  obtain _ | ⟨entry, entries⟩ := entries
  · exact absurd rfl nonempty
  · simp [enclose, String.toList_intercalate]

mutual

/-- Compact text is read back. -/
theorem reads_compact : ∀ value : Json, AreReadable value.numbers →
    Reads value.compact.toList (JsonText.ofJson value)
  | .null, _ => .ofToken ⟨'n', ['u', 'l', 'l'], rfl, rfl⟩ (by decide) fun _ _ _ => rfl
  | .bool true, _ => .ofToken ⟨'t', ['r', 'u', 'e'], rfl, rfl⟩ (by decide) fun _ _ _ => rfl
  | .bool false, _ =>
      .ofToken ⟨'f', ['a', 'l', 's', 'e'], rfl, rfl⟩ (by decide) fun _ _ _ => rfl
  | .number value, readable => reads_number (readable value (by simp [numbers]))
  | .string text, _ => reads_string text
  | .array [], _ => .ofToken ⟨'[', [']'], rfl, rfl⟩ (by decide) fun _ _ _ => rfl
  | .array (item :: items), readable => by
      rw [toList_compact_array]
      exact reads_array areBlanks_nil areBlanks_nil
        (reads_compactItems (item :: items) readable) (by simp [compactItems])
  | .object [], _ => .ofToken ⟨'\x7b', ['\x7d'], rfl, rfl⟩ (by decide) fun _ _ _ => rfl
  | .object (field :: fields), readable => by
      rw [toList_compact_object]
      exact reads_object areBlanks_nil areBlanks_nil
        (reads_compactFields (field :: fields) readable) (by simp [compactFields])

theorem reads_compactItems : ∀ items : List Json, AreReadable (itemNumbers items) →
    List.Forall₂ Reads ((compactItems items).map String.toList) (ofItems items)
  | [], _ => .nil
  | item :: rest, readable =>
      have ⟨first, others⟩ := areReadable_append.mp readable
      .cons (reads_compact item first) (reads_compactItems rest others)

theorem reads_compactFields : ∀ fields : List (String × Json), AreReadable (fieldNumbers fields) →
    List.Forall₂ ReadsField ((compactFields fields).map String.toList) (ofFields fields)
  | [], _ => .nil
  | (name, value) :: rest, readable =>
      have ⟨first, others⟩ := areReadable_append.mp readable
      .cons ⟨name, [], value.compact.toList, rfl, by simp, areBlanks_nil,
        reads_compact value first⟩ (reads_compactFields rest others)

end

mutual

/-- Indented text is read back, from any depth. -/
theorem reads_indented : ∀ (value : Json) (depth : Nat), AreReadable value.numbers →
    Reads (value.indented depth).toList (JsonText.ofJson value)
  | .null, _, readable => reads_compact .null readable
  | .bool value, _, readable => reads_compact (.bool value) readable
  | .number value, _, readable => reads_compact (.number value) readable
  | .string text, _, readable => reads_compact (.string text) readable
  | .array [], _, readable => reads_compact (.array []) readable
  | .array (item :: items), depth, readable => by
      have text := toList_enclose '[' ']' depth (indentedItems (depth + 1) (item :: items))
        (by simp [indentedItems])
      have read := reads_array (areBlanks_newline (depth + 1)) (areBlanks_newline depth)
        (reads_indentedItems (item :: items) (depth + 1) readable) (by simp [indentedItems])
      exact text ▸ read
  | .object [], _, readable => reads_compact (.object []) readable
  | .object (field :: fields), depth, readable => by
      have text := toList_enclose '\x7b' '\x7d' depth
        (indentedFields (depth + 1) (field :: fields)) (by simp [indentedFields])
      have read := reads_object (areBlanks_newline (depth + 1)) (areBlanks_newline depth)
        (reads_indentedFields (field :: fields) (depth + 1) readable) (by simp [indentedFields])
      exact text ▸ read

theorem reads_indentedItems : ∀ (items : List Json) (depth : Nat), AreReadable (itemNumbers items) →
    List.Forall₂ Reads ((indentedItems depth items).map String.toList) (ofItems items)
  | [], _, _ => .nil
  | item :: rest, depth, readable =>
      have ⟨first, others⟩ := areReadable_append.mp readable
      .cons (reads_indented item depth first) (reads_indentedItems rest depth others)

theorem reads_indentedFields : ∀ (fields : List (String × Json)) (depth : Nat),
    AreReadable (fieldNumbers fields) →
    List.Forall₂ ReadsField ((indentedFields depth fields).map String.toList) (ofFields fields)
  | [], _, _ => .nil
  | (name, value) :: rest, depth, readable =>
      have ⟨first, others⟩ := areReadable_append.mp readable
      .cons ⟨name, [' '], (value.indented depth).toList, rfl, by simp,
        by simp [AreBlanks, JsonText.isBlank], reads_indented value depth first⟩
        (reads_indentedFields rest depth others)

end

/-- A text that is read as the syntax of a value holds this value alone. -/
theorem readFirst_of_reads {text : String} {value : Json}
    (read : Reads text.toList (JsonText.ofJson value)) :
    JsonText.readFirst text = (JsonText.ofJson value, []) := by
  have found := read.reads (2 * text.toList.length + 2) [] (by omega) rfl
  simpa [JsonText.readFirst] using found

theorem readFirst_compact {value : Json} (readable : AreReadable value.numbers) :
    JsonText.readFirst value.compact = (JsonText.ofJson value, []) :=
  readFirst_of_reads (reads_compact value readable)

theorem readFirst_pretty {value : Json} (readable : AreReadable value.numbers) :
    JsonText.readFirst value.pretty = (JsonText.ofJson value, []) :=
  readFirst_of_reads (reads_indented value 0 readable)

end Json

end ScriptBridge

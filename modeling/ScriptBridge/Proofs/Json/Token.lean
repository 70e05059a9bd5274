import ScriptBridge.Json.Printer
import ScriptBridge.Json.Text
import Mathlib.Data.List.TakeWhile
import Mathlib.Tactic.IntervalCases

/-!
# Strings and numbers of JSON read back

A written string is read back whatever follows its final quote.  A number has no
end of its own: the reader goes on as long as it can, so what follows a written
number must be something that no number goes on with.
-/

namespace ScriptBridge

namespace JsonText

/-! ### Strings -/

/-- Reading an escaped character gains the code of the character. -/
theorem readString_escapeCharacter (character : Char) (gathered : List Nat)
    (rest : List Char) :
    readString .plain gathered (Json.escapeCharacter character ++ rest) =
      readString .plain (character.toNat :: gathered) rest := by
  -- the characters with an escape of their own, the other controls, and the rest
  unfold Json.escapeCharacter
  split
  case h_8 notQuote notBackslash _ _ _ _ _ =>
    split
    case isTrue control =>
      have code : ∀ code < 0x20,
          readString .plain gathered
              (['\\', 'u'] ++
                  List.replicate (4 - (Text.hexDigits code).length) '0' ++
                  Text.hexDigits code ++ rest) =
            readString .plain (code :: gathered) rest := by
        intro code small
        interval_cases code <;> rfl
      exact code character.toNat control
    case isFalse visible =>
      have step : stringStep .plain character = some (.plain, some character.toNat) := by
        simp [stringStep, show character ≠ '\\' from notBackslash, visible]
      simp only [List.singleton_append, readString, step]
      split
      · exact absurd rfl notQuote
      · rfl
  all_goals rfl

theorem readString_flatMap (text : List Char) (gathered : List Nat) (rest : List Char) :
    readString .plain gathered (text.flatMap Json.escapeCharacter ++ '"' :: rest) =
      some (assemble [] ((text.map Char.toNat).reverse ++ gathered), rest) := by
  induction text generalizing gathered with
  | nil => simp [readString]
  | cons character text ih =>
      rw [List.flatMap_cons, List.append_assoc, readString_escapeCharacter, ih]
      simp

/-- A character is never half of a surrogate pair. -/
theorem not_half (character : Char) :
    isLowHalf character.toNat = false ∧ isHighHalf character.toNat = false := by
  have valid : character.toNat < 0xD800 ∨ 0xDFFF < character.toNat := by
    rcases character.valid with low | ⟨high, -⟩
    · exact .inl low
    · exact .inr high
  simp only [isLowHalf, isHighHalf, Bool.and_eq_false_iff, decide_eq_false_iff_not]
  omega

theorem assemble_codes (text built : List Char) :
    assemble built (text.map Char.toNat) = some (String.ofList (text.reverse ++ built)) := by
  induction text generalizing built with
  | nil => rfl
  | cons character text ih =>
      obtain ⟨notLow, notHigh⟩ := not_half character
      cases text with
      | nil => simp [assemble, notLow, notHigh]
      | cons next text =>
          have rest := ih (character :: built)
          simp only [List.map_cons] at rest
          simp only [List.map_cons, assemble, notLow, notHigh, Char.ofNat_toNat, rest]
          simp

/-- A written string is read back. -/
theorem readString_escape (text : String) (rest : List Char) :
    readString .plain [] (text.toList.flatMap Json.escapeCharacter ++ '"' :: rest) =
      some (some text, rest) := by
  rw [readString_flatMap, List.append_nil, ← List.map_reverse, assemble_codes]
  simp

theorem toList_escape (text : String) (rest : List Char) :
    (Json.escape text).toList ++ rest =
      '"' :: (text.toList.flatMap Json.escapeCharacter ++ '"' :: rest) := by
  simp [Json.escape]

/-! ### Numbers -/

/-- Whether no number goes on with a text: it is at its end, or a blank, a comma or
a closing bracket follows. -/
def endsNumber (rest : List Char) : Bool :=
  match rest with
  | [] => true
  | character :: _ =>
      character == ',' || character == ']' || character == '\x7d' || isBlank character

theorem endsNumber_cons {character : Char} {rest : List Char}
    (ends : endsNumber (character :: rest) = true) :
    character.isDigit = false ∧ character ≠ '.' ∧ character ≠ 'e' ∧ character ≠ 'E' ∧
      character ≠ '+' ∧ character ≠ '-' := by
  simp only [endsNumber, isBlank, Bool.or_eq_true, beq_iff_eq] at ends
  rcases ends with ((rfl | rfl) | rfl) | ((rfl | rfl) | rfl) | rfl <;> decide

variable {rest : List Char}

theorem takeWhile_digits (ends : endsNumber rest = true) (input : List Char) :
    (input ++ rest).takeWhile Char.isDigit = input.takeWhile Char.isDigit ∧
      (input ++ rest).dropWhile Char.isDigit = input.dropWhile Char.isDigit ++ rest := by
  induction input with
  | nil =>
      cases rest with
      | nil => simp
      | cons character rest => simp [(endsNumber_cons ends).1]
  | cons character input ih =>
      cases digit : character.isDigit
      · simp [digit]
      · simp [digit, ih]

theorem readFraction_append (ends : endsNumber rest = true) (input : List Char) :
    readFraction (input ++ rest) =
      (readFraction input).map fun (digits, after) => (digits, after ++ rest) := by
  cases input with
  | nil =>
      cases rest with
      | nil => simp [readFraction]
      | cons character rest =>
          have noPoint := (endsNumber_cons ends).2.1
          simp [readFraction, noPoint]
  | cons character input =>
      obtain ⟨taken, dropped⟩ := takeWhile_digits ends input
      by_cases point : character = '.'
      · subst point
        simp only [readFraction, List.cons_append, taken, dropped]
        split <;> simp
      · simp [readFraction, point]

theorem readExponent_append (ends : endsNumber rest = true) (input : List Char) :
    readExponent (input ++ rest) =
      (readExponent input).map fun (exponent, after) => (exponent, after ++ rest) := by
  -- whatever the sign, the digits behind it end where the text ends
  have unsigned (sign : Int) (digits : List Char) :
      (if ((digits ++ rest).takeWhile Char.isDigit).isEmpty then none
        else some (some (sign * digitsValue ((digits ++ rest).takeWhile Char.isDigit)),
          (digits ++ rest).dropWhile Char.isDigit)) =
      (if (digits.takeWhile Char.isDigit).isEmpty then none
        else some (some (sign * digitsValue (digits.takeWhile Char.isDigit)),
          digits.dropWhile Char.isDigit)).map
        fun ((exponent, after) : Option Int × List Char) => (exponent, after ++ rest) := by
    obtain ⟨taken, dropped⟩ := takeWhile_digits ends digits
    rw [taken, dropped]
    split <;> rfl
  have signed (marker : Char) (mark : marker = 'e' ∨ marker = 'E') (more : List Char) :
      readExponent (marker :: more ++ rest) =
        (readExponent (marker :: more)).map
          fun (exponent, after) => (exponent, after ++ rest) := by
    cases more with
    | nil =>
        cases rest with
        | nil => rcases mark with rfl | rfl <;> rfl
        | cons character rest =>
            obtain ⟨noDigit, -, -, -, noPlus, noMinus⟩ := endsNumber_cons ends
            rcases mark with rfl | rfl <;> simp [readExponent, noDigit, noPlus, noMinus]
    | cons sign more =>
        by_cases plus : sign = '+'
        · subst plus
          rcases mark with rfl | rfl <;> exact unsigned 1 more
        · by_cases minus : sign = '-'
          · subst minus
            rcases mark with rfl | rfl <;> exact unsigned (-1) more
          · have direct := unsigned 1 (sign :: more)
            rcases mark with rfl | rfl <;>
              simpa [readExponent, plus, minus] using direct
  cases input with
  | nil =>
      cases rest with
      | nil => rfl
      | cons character rest =>
          obtain ⟨-, -, notSmall, notCapital, -⟩ := endsNumber_cons ends
          simp [readExponent, notSmall, notCapital]
  | cons marker more =>
      by_cases small : marker = 'e'
      · exact signed marker (.inl small) more
      · by_cases capital : marker = 'E'
        · exact signed marker (.inr capital) more
        · simp [readExponent, small, capital]

/-- A number behind its sign. -/
private def readUnsigned (negative : Bool) (unsigned : List Char) :
    Option (Option JsonNumber × List Char) :=
  if !isWhole (unsigned.takeWhile Char.isDigit) then none
  else
    (readFraction (unsigned.dropWhile Char.isDigit)).bind fun (fraction, afterFraction) =>
    (readExponent afterFraction).map fun (exponent, rest) =>
      let whole := unsigned.takeWhile Char.isDigit
      let exact :=
        if fraction.isEmpty && exponent.isNone then integer? negative (digitsValue whole)
        else none
      match exact with
      | some value => (some (.integer value), rest)
      | none =>
          let coefficient := digitsValue (whole ++ fraction)
          let power := exponent.getD 0 - fraction.length
          ((Binary64.ofDecimal negative coefficient power).map .float, rest)

private theorem readUnsigned_append (ends : endsNumber rest = true) (negative : Bool)
    (unsigned : List Char) :
    readUnsigned negative (unsigned ++ rest) =
      (readUnsigned negative unsigned).map fun (value, after) => (value, after ++ rest) := by
  obtain ⟨taken, dropped⟩ := takeWhile_digits ends unsigned
  simp only [readUnsigned, taken, dropped, readFraction_append ends]
  split
  · rfl
  · cases readFraction (unsigned.dropWhile Char.isDigit) with
    | none => rfl
    | some fraction =>
        obtain ⟨fraction, afterFraction⟩ := fraction
        simp only [Option.map_some, Option.bind_some, readExponent_append ends,
          Option.map_map]
        congr 1
        funext ⟨exponent, after⟩
        cases found : (if fraction.isEmpty && exponent.isNone then
            integer? negative (digitsValue (unsigned.takeWhile Char.isDigit))
          else none) <;> simp only [Function.comp_apply, found]

private theorem readNumber_minus (unsigned : List Char) :
    readNumber ('-' :: unsigned) = readUnsigned true unsigned := rfl

private theorem readNumber_plain (input : List Char) (plain : input.head? ≠ some '-') :
    readNumber input = readUnsigned false input := by
  unfold readNumber
  split
  next equal =>
    split at equal
    · simp at plain
    · cases equal
      rfl

/-- A number is read alike alone and in front of a text that ends it. -/
theorem readNumber_append (ends : endsNumber rest = true) (input : List Char) :
    readNumber (input ++ rest) =
      (readNumber input).map fun (value, after) => (value, after ++ rest) := by
  by_cases minus : input.head? = some '-'
  · obtain ⟨unsigned, rfl⟩ := List.head?_eq_some_iff.mp minus
    exact readUnsigned_append ends true unsigned
  · have plain : (input ++ rest).head? ≠ some '-' := by
      cases input with
      | cons character input => simpa using minus
      | nil =>
          cases rest with
          | nil => simp
          | cons character rest => simpa using (endsNumber_cons ends).2.2.2.2.2
    rw [readNumber_plain _ plain, readNumber_plain _ minus]
    exact readUnsigned_append ends false input

/-! ### Integers -/

/-- Whether an integer fits a machine word, with or without a sign. -/
def IsMachine (value : Int) : Prop :=
  -0x8000000000000000 ≤ value ∧ value < 0x10000000000000000

theorem takeWhile_toDigits (magnitude : Nat) :
    (Nat.toDigits 10 magnitude).takeWhile Char.isDigit = Nat.toDigits 10 magnitude ∧
      (Nat.toDigits 10 magnitude).dropWhile Char.isDigit = [] := by
  have digits : ∀ character ∈ Nat.toDigits 10 magnitude, character.isDigit = true :=
    fun _ member => Nat.isDigit_of_mem_toDigits (by decide) (by decide) member
  exact ⟨List.takeWhile_eq_self_iff.mpr digits, List.dropWhile_eq_nil_iff.mpr digits⟩

theorem isWhole_toDigits (magnitude : Nat) : isWhole (Nat.toDigits 10 magnitude) = true := by
  -- a leading zero could only come from a leading part that is zero
  have noZero : ∀ magnitude : Nat, 0 < magnitude →
      (Nat.toDigits 10 magnitude).head? ≠ some '0' := by
    intro magnitude
    induction magnitude using Nat.strongRecOn with
    | _ magnitude ih =>
        intro positive
        rcases Nat.lt_or_ge magnitude 10 with small | large
        · rw [Nat.toDigits_of_lt_base small]
          simp
          omega
        · have leading := ih (magnitude / 10) (by omega) (by omega)
          rw [Nat.toDigits_of_base_le (by decide) large]
          cases first : Nat.toDigits 10 (magnitude / 10) with
          | nil => exact absurd first Nat.toDigits_ne_nil
          | cons digit digits => simpa [first] using leading
  rcases Nat.eq_zero_or_pos magnitude with rfl | positive
  · decide
  · have head := noZero magnitude positive
    have nonempty : Nat.toDigits 10 magnitude ≠ [] := Nat.toDigits_ne_nil
    unfold isWhole
    split
    · next none => exact absurd none nonempty
    · next zero => simp [zero] at head
    · rfl

theorem digitsValue_toDigits (magnitude : Nat) :
    digitsValue (Nat.toDigits 10 magnitude) = magnitude :=
  Nat.ofDigitChars_ten_toDigits

private theorem readUnsigned_toDigits {negative : Bool} {magnitude : Nat} {value : Int}
    (fits : integer? negative magnitude = some value) :
    readUnsigned negative (Nat.toDigits 10 magnitude) = some (some (.integer value), []) := by
  obtain ⟨taken, dropped⟩ := takeWhile_toDigits magnitude
  simp [readUnsigned, taken, dropped, isWhole_toDigits, readFraction, readExponent,
    digitsValue_toDigits, fits]

/-- A number that its own text stands for. -/
def IsReadable (number : JsonNumber) : Prop :=
  readNumber (Json.numberText number).toList = some (some number, [])

/-- Every integer that fits a machine word is read back. -/
theorem isReadable_integer {value : Int} (machine : IsMachine value) :
    IsReadable (.integer value) := by
  obtain ⟨least, greatest⟩ := machine
  cases value with
  | ofNat magnitude =>
      have fits : integer? false magnitude = some (Int.ofNat magnitude) := by
        have small : magnitude < 0x10000000000000000 := by
          simp only [Int.ofNat_eq_natCast] at greatest
          omega
        simp [integer?, small]
      have plain : (Nat.toDigits 10 magnitude).head? ≠ some '-' := by
        intro head
        obtain ⟨rest, shape⟩ := List.head?_eq_some_iff.mp head
        have digit : ('-' : Char).isDigit = true :=
          Nat.isDigit_of_mem_toDigits (n := magnitude) (b := 10) (by decide) (by decide)
            (by simp [shape])
        exact absurd digit (by decide)
      have text : (Json.numberText (.integer (Int.ofNat magnitude))).toList =
          Nat.toDigits 10 magnitude := Nat.toList_repr
      rw [IsReadable, text, readNumber_plain _ plain, readUnsigned_toDigits fits]
  | negSucc magnitude =>
      have fits : integer? true (magnitude + 1) = some (Int.negSucc magnitude) := by
        have small : magnitude + 1 ≤ 0x8000000000000000 := by omega
        simp [integer?, small, Int.negSucc_eq]
      have text : (Json.numberText (.integer (Int.negSucc magnitude))).toList =
          '-' :: Nat.toDigits 10 (magnitude + 1) := by
        have shape : Json.numberText (.integer (Int.negSucc magnitude)) =
            "-" ++ Nat.repr (magnitude + 1) := rfl
        rw [shape, String.toList_append, Nat.toList_repr]
        rfl
      rw [IsReadable, text, readNumber_minus, readUnsigned_toDigits fits]

theorem isMachine_integer? {negative : Bool} {magnitude : Nat} {value : Int}
    (found : integer? negative magnitude = some value) : IsMachine value := by
  unfold integer? at found
  unfold IsMachine
  split at found
  · split at found
    · next bound =>
        simp only [Bool.and_eq_true, decide_eq_true_eq] at bound
        cases found
        omega
    · cases found
  · split at found
    · cases found
      omega
    · cases found

/-- An integer that was read fits a machine word. -/
theorem isMachine_of_readNumber {input rest : List Char} {value : Int}
    (found : readNumber input = some (some (.integer value), rest)) : IsMachine value := by
  have unsigned : ∀ negative input,
      readUnsigned negative input = some (some (.integer value), rest) → IsMachine value := by
    intro negative input found
    unfold readUnsigned at found
    split at found
    · cases found
    · simp only [Option.bind_eq_some_iff, Option.map_eq_some_iff] at found
      obtain ⟨⟨fraction, afterFraction⟩, -, ⟨exponent, after⟩, -, shape⟩ := found
      simp only at shape
      split at shape
      · next fits =>
          simp only [Prod.mk.injEq, Option.some.injEq, JsonNumber.integer.injEq] at shape
          obtain ⟨rfl, -⟩ := shape
          split at fits
          · exact isMachine_integer? fits
          · cases fits
      · simp at shape
  by_cases minus : input.head? = some '-'
  · obtain ⟨more, rfl⟩ := List.head?_eq_some_iff.mp minus
    exact unsigned true more found
  · rw [readNumber_plain _ minus] at found
    exact unsigned false input found

end JsonText

end ScriptBridge

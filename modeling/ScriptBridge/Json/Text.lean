import ScriptBridge.Json.Value

/-!
# JSON text

A text is read into a tree of its syntax first.  A number may be written well and
still lie beyond the range of doubles, and a string may hold half of a surrogate
pair: such leaves are well-formed but have no value.  Where the text stops being
JSON the tree has a fault, and nothing behind the fault is read.
-/

namespace ScriptBridge

/-- What a text holds, as far as it is JSON. -/
inductive JsonText where
  /-- The text is not JSON from here on. -/
  | fault
  | null
  | bool (value : Bool)
  | number (value : Option JsonNumber)
  | string (value : Option String)
  | array (items : List JsonText)
  | object (fields : List (Option String × JsonText))
  deriving Repr

namespace JsonText

mutual

/-- Whether a text has no fault. -/
def wellFormed : JsonText → Bool
  | .fault => false
  | .array items => wellFormedItems items
  | .object fields => wellFormedFields fields
  | _ => true

/-- Whether no item has a fault. -/
def wellFormedItems : List JsonText → Bool
  | [] => true
  | item :: rest => item.wellFormed && wellFormedItems rest

/-- Whether no field has a fault. -/
def wellFormedFields : List (Option String × JsonText) → Bool
  | [] => true
  | (_, value) :: rest => value.wellFormed && wellFormedFields rest

end

mutual

/-- The value of a text, if every part of it has one. -/
def value? : JsonText → Option Json
  | .fault => none
  | .null => some .null
  | .bool value => some (.bool value)
  | .number value => value.map .number
  | .string value => value.map .string
  | .array items => (itemValues? [] items).map .array
  | .object fields => (fieldValues? [] fields).map .object

/-- The values of items, behind those gathered in reverse. -/
def itemValues? (gathered : List Json) : List JsonText → Option (List Json)
  | [] => some gathered.reverse
  | item :: rest =>
      match item.value? with
      | some value => itemValues? (value :: gathered) rest
      | none => none

/-- The names and values of fields, behind those gathered in reverse. -/
def fieldValues? (gathered : List (String × Json)) :
    List (Option String × JsonText) → Option (List (String × Json))
  | [] => some gathered.reverse
  | (name, value) :: rest =>
      match name, value.value? with
      | some name, some value => fieldValues? ((name, value) :: gathered) rest
      | _, _ => none

end

/-- The four blanks that may stand between tokens. -/
def isBlank (character : Char) : Bool :=
  character == ' ' || character == '\n' || character == '\r' || character == '\t'

/-- The text after its leading blanks. -/
def skipBlanks (input : List Char) : List Char :=
  input.dropWhile isBlank

/-- Whether only blanks remain. -/
def onlyBlanks (rest : List Char) : Bool :=
  (skipBlanks rest).isEmpty

/-- The value of a hexadecimal digit. -/
def hexValue? (character : Char) : Option Nat :=
  if character.isDigit then some (character.toNat - '0'.toNat)
  else if 'a' ≤ character && character ≤ 'f' then some (character.toNat - 'a'.toNat + 10)
  else if 'A' ≤ character && character ≤ 'F' then some (character.toNat - 'A'.toNat + 10)
  else none

/-- The character that a one-letter escape stands for. -/
def escapedCharacter? : Char → Option Char
  | '"' => some '"'
  | '\\' => some '\\'
  | '/' => some '/'
  | 'b' => some '\x08'
  | 'f' => some '\x0c'
  | 'n' => some '\n'
  | 'r' => some '\r'
  | 't' => some '\t'
  | _ => none

/-- Where the reader stands inside a string. -/
inductive StringState where
  | plain
  | escaped
  | digits (missing value : Nat)

/-- One step of the reader inside a string, other than its final quote: the next
state and the code gained, if any. -/
def stringStep (state : StringState) (character : Char) :
    Option (StringState × Option Nat) :=
  match state with
  | .plain =>
      if character == '\\' then some (.escaped, none)
      else if character.toNat < 0x20 then none
      else some (.plain, some character.toNat)
  | .escaped =>
      if character == 'u' then some (.digits 4 0, none)
      else (escapedCharacter? character).map fun meant => (.plain, some meant.toNat)
  | .digits missing value =>
      (hexValue? character).map fun digit =>
        let next := 16 * value + digit
        if missing ≤ 1 then (.plain, some next) else (.digits (missing - 1) next, none)

/-- The first half of a surrogate pair. -/
def isHighHalf (code : Nat) : Bool :=
  0xD800 ≤ code && code < 0xDC00

/-- The second half of a surrogate pair. -/
def isLowHalf (code : Nat) : Bool :=
  0xDC00 ≤ code && code < 0xE000

/-- The character that a surrogate pair stands for. -/
def joinHalves (high low : Nat) : Char :=
  Char.ofNat (0x10000 + (high - 0xD800) * 0x400 + (low - 0xDC00))

/-- The text with the given codes, the last one first, in front of what is already
built.  Halves of surrogate pairs have a meaning only together. -/
def assemble (built : List Char) : List Nat → Option String
  | [] => some (String.ofList built)
  | [code] =>
      if isLowHalf code || isHighHalf code then none
      else some (String.ofList (Char.ofNat code :: built))
  | code :: previous :: earlier =>
      if isLowHalf code then
        if isHighHalf previous then assemble (joinHalves previous code :: built) earlier
        else none
      else if isHighHalf code then none
      else assemble (Char.ofNat code :: built) (previous :: earlier)

/-- The rest of a string up to its final quote, with the codes read so far in
reverse. -/
def readString (state : StringState) (gathered : List Nat) :
    List Char → Option (Option String × List Char)
  | [] => none
  | character :: rest =>
      match state, character with
      | .plain, '"' => some (assemble [] gathered, rest)
      | _, _ =>
          match stringStep state character with
          | some (next, some gained) => readString next (gained :: gathered) rest
          | some (next, none) => readString next gathered rest
          | none => none

/-- The number written by decimal digits. -/
def digitsValue (digits : List Char) : Nat :=
  digits.foldl (fun value digit => 10 * value + (digit.toNat - '0'.toNat)) 0

/-- A whole number without a superfluous leading zero. -/
def isWhole (digits : List Char) : Bool :=
  match digits with
  | [] => false
  | '0' :: rest => rest.isEmpty
  | _ => true

/-- The fraction after a whole number, if there is one. -/
def readFraction (input : List Char) : Option (List Char × List Char) :=
  match input with
  | '.' :: rest =>
      let digits := rest.takeWhile Char.isDigit
      if digits.isEmpty then none else some (digits, rest.dropWhile Char.isDigit)
  | _ => some ([], input)

/-- The exponent of a number, if there is one. -/
def readExponent (input : List Char) : Option (Option Int × List Char) :=
  let unsigned (sign : Int) (rest : List Char) :=
    let digits := rest.takeWhile Char.isDigit
    if digits.isEmpty then none
    else some (some (sign * digitsValue digits), rest.dropWhile Char.isDigit)
  let signed (rest : List Char) :=
    match rest with
    | '+' :: more => unsigned 1 more
    | '-' :: more => unsigned (-1) more
    | _ => unsigned 1 rest
  match input with
  | 'e' :: rest => signed rest
  | 'E' :: rest => signed rest
  | _ => some (none, input)

/-- A whole number as an integer if it fits a machine word.  A negative zero
is no integer. -/
def integer? (negative : Bool) (magnitude : Nat) : Option Int :=
  if negative then
    if 0 < magnitude && magnitude ≤ 0x8000000000000000 then some (-magnitude) else none
  else if magnitude < 0x10000000000000000 then some magnitude else none

/-- The number that stands in front of the text; it has no value beyond the range
of doubles. -/
def readNumber (input : List Char) : Option (Option JsonNumber × List Char) :=
  let (negative, unsigned) :=
    match input with
    | '-' :: rest => (true, rest)
    | _ => (false, input)
  let whole := unsigned.takeWhile Char.isDigit
  if !isWhole whole then none
  else
    (readFraction (unsigned.dropWhile Char.isDigit)).bind fun (fraction, afterFraction) =>
    (readExponent afterFraction).map fun (exponent, rest) =>
      let exact :=
        if fraction.isEmpty && exponent.isNone then integer? negative (digitsValue whole)
        else none
      match exact with
      | some value => (some (.integer value), rest)
      | none =>
          let coefficient := digitsValue (whole ++ fraction)
          let power := exponent.getD 0 - fraction.length
          ((Binary64.ofDecimal negative coefficient power).map .float, rest)

/-- An array that is broken off behind the given items, which stand in reverse. -/
def brokenArray (gathered : List JsonText) : JsonText × List Char :=
  (.array (.fault :: gathered).reverse, [])

/-- An object that is broken off behind the given fields, which stand in reverse. -/
def brokenObject (gathered : List (Option String × JsonText)) : JsonText × List Char :=
  (.object ((none, .fault) :: gathered).reverse, [])

mutual

/-- The text in front, with what follows it.  Every call uses up fuel. -/
def readValue (fuel : Nat) (input : List Char) : JsonText × List Char :=
  match fuel with
  | 0 => (.fault, [])
  | fuel + 1 =>
      match skipBlanks input with
      | 'n' :: 'u' :: 'l' :: 'l' :: rest => (.null, rest)
      | 't' :: 'r' :: 'u' :: 'e' :: rest => (.bool true, rest)
      | 'f' :: 'a' :: 'l' :: 's' :: 'e' :: rest => (.bool false, rest)
      | '"' :: rest =>
          match readString .plain [] rest with
          | some (value, after) => (.string value, after)
          | none => (.fault, [])
      | '[' :: rest =>
          match skipBlanks rest with
          | ']' :: after => (.array [], after)
          | _ => readItems fuel [] rest
      | '\x7b' :: rest =>
          match skipBlanks rest with
          | '\x7d' :: after => (.object [], after)
          | _ => readFields fuel [] rest
      | other =>
          match readNumber other with
          | some (value, after) => (.number value, after)
          | none => (.fault, [])

/-- The items of an array, with those read so far in reverse. -/
def readItems (fuel : Nat) (gathered : List JsonText) (input : List Char) :
    JsonText × List Char :=
  match fuel with
  | 0 => brokenArray gathered
  | fuel + 1 =>
      let (item, afterItem) := readValue fuel input
      match skipBlanks afterItem with
      | ',' :: rest => readItems fuel (item :: gathered) rest
      | ']' :: rest => (.array (item :: gathered).reverse, rest)
      | _ => brokenArray (item :: gathered)

/-- The fields of an object, with those read so far in reverse. -/
def readFields (fuel : Nat) (gathered : List (Option String × JsonText))
    (input : List Char) : JsonText × List Char :=
  match fuel with
  | 0 => brokenObject gathered
  | fuel + 1 =>
      match skipBlanks input with
      | '"' :: afterQuote =>
          match readString .plain [] afterQuote with
          | none => brokenObject gathered
          | some (name, afterName) =>
              match skipBlanks afterName with
              | ':' :: afterColon =>
                  let (value, afterValue) := readValue fuel afterColon
                  match skipBlanks afterValue with
                  | ',' :: rest => readFields fuel ((name, value) :: gathered) rest
                  | '\x7d' :: rest => (.object ((name, value) :: gathered).reverse, rest)
                  | _ => brokenObject ((name, value) :: gathered)
              | _ => brokenObject ((name, .fault) :: gathered)
      | _ => brokenObject gathered

end

/-- What stands in front of a text, with what follows it. -/
def readFirst (text : String) : JsonText × List Char :=
  let input := text.toList
  readValue (2 * input.length + 2) input

end JsonText

end ScriptBridge

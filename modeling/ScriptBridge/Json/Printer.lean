import ScriptBridge.Json.Value
import ScriptBridge.Decimal.Layout
import ScriptBridge.Text.Quoted

/-!
# Writing JSON text

Compact text has no blanks at all; indented text puts every item and field on
its own line, two spaces deeper than the bracket that encloses it.
-/

namespace ScriptBridge

namespace Json

/-- One character inside a JSON string. -/
def escapeCharacter (character : Char) : List Char :=
  match character with
  | '"' => ['\\', '"']
  | '\\' => ['\\', '\\']
  | '\n' => ['\\', 'n']
  | '\r' => ['\\', 'r']
  | '\t' => ['\\', 't']
  | '\x08' => ['\\', 'b']
  | '\x0c' => ['\\', 'f']
  | _ =>
      if character.toNat < 0x20 then
        let digits := Text.hexDigits character.toNat
        ['\\', 'u'] ++ List.replicate (4 - digits.length) '0' ++ digits
      else [character]

/-- A JSON string literal. -/
def escape (text : String) : String :=
  String.ofList (['"'] ++ text.toList.flatMap escapeCharacter ++ ['"'])

/-- The text of a number. -/
def numberText : JsonNumber → String
  | .integer value => toString value
  | .float value => DecimalLayout.json.render value

mutual

/-- The value without any blanks. -/
def compact : Json → String
  | .null => "null"
  | .bool value => if value then "true" else "false"
  | .number value => numberText value
  | .string value => escape value
  | .array items => "[" ++ String.intercalate "," (compactItems items) ++ "]"
  | .object fields => "\x7b" ++ String.intercalate "," (compactFields fields) ++ "\x7d"

/-- The items of an array without any blanks. -/
def compactItems : List Json → List String
  | [] => []
  | item :: rest => compact item :: compactItems rest

/-- The fields of an object without any blanks. -/
def compactFields : List (String × Json) → List String
  | [] => []
  | (name, value) :: rest =>
      (escape name ++ ":" ++ compact value) :: compactFields rest

end

/-- The start of a line at the given depth. -/
def newline (depth : Nat) : String :=
  "\n" ++ String.ofList (List.replicate (2 * depth) ' ')

/-- Entries between two brackets, one on each line. -/
def enclose (opening closing : String) (depth : Nat) (entries : List String) :
    String :=
  match entries with
  | [] => opening ++ closing
  | _ =>
      opening ++ newline (depth + 1) ++
        String.intercalate ("," ++ newline (depth + 1)) entries ++
        newline depth ++ closing

mutual

/-- The value with one entry on each line, from the given depth on. -/
def indented (depth : Nat) : Json → String
  | .array items => enclose "[" "]" depth (indentedItems (depth + 1) items)
  | .object fields =>
      enclose "\x7b" "\x7d" depth (indentedFields (depth + 1) fields)
  | value => compact value

/-- The items of an array at the given depth. -/
def indentedItems (depth : Nat) : List Json → List String
  | [] => []
  | item :: rest => indented depth item :: indentedItems depth rest

/-- The fields of an object at the given depth. -/
def indentedFields (depth : Nat) : List (String × Json) → List String
  | [] => []
  | (name, value) :: rest =>
      (escape name ++ ": " ++ indented depth value) ::
        indentedFields depth rest

end

/-- The value with one entry on each line. -/
def pretty (value : Json) : String :=
  value.indented 0

end Json

end ScriptBridge

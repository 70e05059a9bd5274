import ScriptBridge.Json.Text

/-!
# Reading JSON values

A text has a value if it is JSON and every number and string of it has one.
Objects are returned as they stand, repeated names included.  The place where a
value ends is given by its line, counted from one, and by the number of bytes in
front of it on that line.
-/

namespace ScriptBridge

namespace Json

/-- The value in front of a text, with what follows it. -/
def readFirst (text : String) : Option (Json × List Char) :=
  let (first, rest) := JsonText.readFirst text
  first.value?.map fun value => (value, rest)

/-- The one value that a text holds. -/
def read (text : String) : Option Json :=
  match readFirst text with
  | some (value, rest) => if JsonText.onlyBlanks rest then some value else none
  | none => none

end Json

/-- A line and a number of bytes. -/
structure TextPlace where
  line : Nat := 1
  column : Nat := 0
  deriving DecidableEq, Repr

namespace TextPlace

/-- The place behind a character. -/
def after (place : TextPlace) (character : Char) : TextPlace :=
  if character = '\n' then ⟨place.line + 1, 0⟩
  else ⟨place.line, place.column + character.utf8Size⟩

/-- The place behind a text. -/
def behind (text : List Char) : TextPlace :=
  text.foldl after {}

/-- The words that name a place. -/
def describe (place : TextPlace) : String :=
  "line " ++ toString place.line ++ " column " ++ toString place.column

end TextPlace

/-- The place where what stands in front of a text ends. -/
def JsonText.endOfFirst (text : String) : TextPlace :=
  let input := text.toList
  let (_, rest) := JsonText.readFirst text
  TextPlace.behind (input.take (input.length - rest.length))

end ScriptBridge

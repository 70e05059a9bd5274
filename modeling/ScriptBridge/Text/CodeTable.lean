/-!
# Tables of code points

A character class of the Unicode standard is kept as a table of inclusive ranges
of code points in increasing order.  A code point is looked up by halving the
part of the table where it may be.
-/

namespace ScriptBridge

namespace Text

/-- Inclusive ranges of code points. -/
abbrev CodeTable := Array (Nat × Nat)

namespace CodeTable

/-- Whether a code point lies in one of the ranges from `low` up to, but without,
`high`.  Every step halves the part that is left. -/
def containsBetween (table : CodeTable) (code : Nat) : Nat → Nat → Nat → Bool
  | 0, _, _ => false
  | steps + 1, low, high =>
      let middle := (low + high) / 2
      match table[middle]? with
      | none => false
      | some (first, last) =>
          if high ≤ low then false
          else if code < first then table.containsBetween code steps low middle
          else if last < code then table.containsBetween code steps (middle + 1) high
          else true

/-- Whether a character lies in one of the ranges. -/
def contains (table : CodeTable) (character : Char) : Bool :=
  table.containsBetween character.toNat (table.size + 1) 0 table.size

end CodeTable

/-- White space: the blanks, line ends and separators of the Unicode standard. -/
def blankTable : CodeTable :=
  #[(0x9, 0xD), (0x20, 0x20), (0x85, 0x85), (0xA0, 0xA0), (0x1680, 0x1680), (0x2000, 0x200A),
    (0x2028, 0x2029), (0x202F, 0x202F), (0x205F, 0x205F), (0x3000, 0x3000)]

/-- Whether a character is white space. -/
def isBlank (character : Char) : Bool :=
  if character.val < 128 then
    character == ' ' || (9 ≤ character.val && character.val ≤ 13)
  else
    blankTable.contains character

/-- A text without the white space at both ends. -/
def trim (text : List Char) : List Char :=
  ((text.dropWhile isBlank).reverse.dropWhile isBlank).reverse

end Text

end ScriptBridge

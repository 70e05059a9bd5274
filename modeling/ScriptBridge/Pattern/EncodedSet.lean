import ScriptBridge.Pattern.Basic
import ScriptBridge.Text.Utf8

/-!
# Encoded sets

A set of characters is a list of disjoint ranges of code points in increasing
order.  In UTF-8 a range becomes several sequences of byte ranges, such that
every choice of one byte from each range of a sequence encodes a member.  The
members of a set are read byte by byte: the sequences that encode them are listed
in increasing order, and gathered in a tree that branches on one byte range after
the other.
-/

namespace ScriptBridge

/-- An inclusive range of code points or of bytes. -/
abbrev CodeRange := Nat × Nat

namespace CodeRange

/-- Put a range behind ranges gathered in reverse, joining it to the last one where
they touch. -/
def join (gathered : List CodeRange) (range : CodeRange) : List CodeRange :=
  match gathered with
  | [] => [range]
  | (first, last) :: rest =>
      if range.1 ≤ last + 1 then (first, max last range.2) :: rest else range :: gathered

/-- Disjoint ranges in increasing order with the same members. -/
def normalize (ranges : List CodeRange) : List CodeRange :=
  ((ranges.mergeSort fun first second => first.1 ≤ second.1).foldl join []).reverse

/-- The greatest code point. -/
def lastCode : Nat := 0x10FFFF

/-- The gaps of ranges in increasing order, from the given code point on. -/
def gapsFrom (start : Nat) : List CodeRange → List CodeRange
  | [] => if start ≤ lastCode then [(start, lastCode)] else []
  | (first, last) :: rest =>
      if start < first then (start, first - 1) :: gapsFrom (last + 1) rest
      else gapsFrom (last + 1) rest

/-- The ranges without the surrogates, which are no characters. -/
def withoutSurrogates (ranges : List CodeRange) : List CodeRange :=
  ranges.filterMap fun (first, last) =>
    let first := if 0xD800 ≤ first && first ≤ 0xDFFF then 0xE000 else first
    let last := if 0xD800 ≤ last && last ≤ 0xDFFF then 0xD7FF else last
    if first ≤ last then some (first, last) else none

/-- The bytes that encode a code point. -/
def encoded (code : Nat) : List Nat :=
  (Utf8.encode (String.singleton (Char.ofNat code))).map UInt8.toNat

/-- Where a range has to be cut, if anywhere: its parts must not hold surrogates,
must have encodings of one length, and must cover all values of every byte behind
the first one in which they differ.  The first part ends at the given code point,
the second starts at the other. -/
def cut? (low high : Nat) : Option (Nat × Nat) :=
  if low < 0xE000 && 0xD7FF < high then some (0xD7FF, 0xE000)
  else
    match [0x7F, 0x7FF, 0xFFFF].find? fun bound => low ≤ bound && bound < high with
    | some bound => some (bound, bound + 1)
    | none =>
        if high ≤ 0x7F then none
        else
          [0x40, 0x1000, 0x40000].findSome? fun block =>
            if low / block = high / block then none
            else if low % block ≠ 0 then
              some ((low / block + 1) * block - 1, (low / block + 1) * block)
            else if high % block ≠ block - 1 then
              some (high / block * block - 1, high / block * block)
            else none

/-- The sequences of byte ranges of a range of code points, cut at most so often. -/
def byteSequences : Nat → Nat → Nat → List (List CodeRange)
  | 0, _, _ => []
  | cuts + 1, low, high =>
      if high < low then []
      else
        match cut? low high with
        | some (stop, start) => byteSequences cuts low stop ++ byteSequences cuts start high
        | none => [(encoded low).zip (encoded high)]

end CodeRange

namespace CharClass

/-- The ranges of code points of a set. -/
def ranges : CharClass → List CodeRange
  | .nothing => []
  | .only member => [(member.toNat, member.toNat)]
  | .range low high => if low ≤ high then [(low.toNat, high.toNat)] else []
  | .word => Text.wordTable.toList
  | .digit => Text.digitTable.toList
  | .blank => Text.blankTable.toList
  | .union first second => CodeRange.normalize (first.ranges ++ second.ranges)
  | .complement inner => CodeRange.gapsFrom 0 inner.ranges
  | .folded (.only member) =>
      CodeRange.normalize ((Text.caseVariants member).map fun variant =>
        (variant.toNat, variant.toNat))
  | .folded inner =>
      let variants := Text.casedCharacters.filter (folded inner).contains
      CodeRange.normalize (inner.ranges ++ variants.map fun variant =>
        (variant.toNat, variant.toNat))

end CharClass

/-- What may be read next: each move reads a byte of a range and goes on with a tree
of its own; further moves stand behind it. -/
inductive ByteTree where
  | done
  | move (range : CodeRange) (next further : ByteTree)
  deriving DecidableEq, Repr

namespace ByteTree

/-- Put a sequence in front.  What it starts with like the next sequence is shared. -/
def prepend : List CodeRange → ByteTree → ByteTree
  | [], tree => tree
  | range :: rest, .done => .move range (prepend rest .done) .done
  | range :: rest, .move second next further =>
      if range = second then .move second (prepend rest next) further
      else .move range (prepend rest .done) (.move second next further)

/-- The tree of sequences in increasing order. -/
def ofSequences (sequences : List (List CodeRange)) : ByteTree :=
  sequences.foldr prepend .done

end ByteTree

/-- A set of characters with the byte sequences that encode its members. -/
structure EncodedSet where
  ranges : List CodeRange
  sequences : List (List CodeRange)
  tree : ByteTree
  deriving DecidableEq, Repr

namespace EncodedSet

/-- The set with the given ranges of code points. -/
def ofRanges (ranges : List CodeRange) : EncodedSet :=
  let sequences := ranges.flatMap fun (low, high) => CodeRange.byteSequences 32 low high
  ⟨ranges, sequences, .ofSequences sequences⟩

/-- Whether each member is a single byte. -/
def isAscii (members : EncodedSet) : Bool :=
  members.ranges.all fun (_, last) => last < 128

end EncodedSet

end ScriptBridge

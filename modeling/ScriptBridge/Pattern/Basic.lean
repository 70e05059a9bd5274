import ScriptBridge.Text.Word
import ScriptBridge.Text.CaseFolding

/-!
# Patterns

A pattern describes texts: single characters and runs of them, conditions on
the place where it stands, and sequences and choices of patterns.
Groups remember the text they cover.
-/

namespace ScriptBridge

/-- A set of characters. -/
inductive CharClass where
  | nothing
  | only (character : Char)
  | range (low high : Char)
  | word
  | digit
  | blank
  | union (first second : CharClass)
  | complement (inner : CharClass)
  /-- The case variants of the members. -/
  | folded (inner : CharClass)
  deriving DecidableEq, Repr

namespace CharClass

/-- Whether a character belongs to the set. -/
def contains : CharClass → Char → Bool
  | .nothing, _ => false
  | .only member, character => member == character
  | .range low high, character => low ≤ character && character ≤ high
  | .word, character => Text.isWord character
  | .digit, character => Text.isDigit character
  | .blank, character => Text.isBlank character
  | .union first second, character => first.contains character || second.contains character
  | .complement inner, character => !inner.contains character
  | .folded inner, character =>
      inner.contains character || (Text.caseVariants character).any inner.contains

/-- The given characters. -/
def ofList : List Char → CharClass
  | [] => .nothing
  | [character] => .only character
  | character :: rest => .union (.only character) (ofList rest)

/-- Every character but the line feed. -/
def notLineFeed : CharClass :=
  .complement (.only '\n')

/-- Every character. -/
def anything : CharClass :=
  .complement .nothing

/-- The characters of both sets. -/
def intersection (first second : CharClass) : CharClass :=
  .complement (.union (.complement first) (.complement second))

/-- The characters of the first set that are not in the second. -/
def difference (first second : CharClass) : CharClass :=
  intersection first (.complement second)

/-- The characters of exactly one of two sets. -/
def symmetricDifference (first second : CharClass) : CharClass :=
  difference (.union first second) (intersection first second)

end CharClass

/-- How a place lies to the words around it. -/
inductive WordEdge where
  /-- A word starts or ends here. -/
  | boundary
  /-- No word starts or ends here. -/
  | inside
  | start
  | stop
  /-- No word reaches the place from the left. -/
  | startHalf
  /-- No word goes on to the right. -/
  | stopHalf
  deriving DecidableEq, Repr

/-- A condition on a place in a text. -/
inductive Condition where
  | textStart
  | textEnd
  | lineStart
  | lineEnd
  /-- The start of a line, where a carriage return ends lines too. -/
  | returnLineStart
  /-- The end of a line, where a carriage return ends lines too. -/
  | returnLineEnd
  /-- The given edge of words made of the given characters. -/
  | edge (kind : WordEdge) (members : CharClass)
  deriving DecidableEq, Repr

/-- A description of texts. -/
inductive Pattern where
  /-- The empty text. -/
  | empty
  /-- Exactly the given text. -/
  | literal (text : List Char)
  /-- One character of a set. -/
  | one (members : CharClass)
  /-- At least so many characters of a set, preferably many or few. -/
  | run (members : CharClass) (least : Nat) (greedy : Bool)
  /-- Any number of runs of a set, each with a separator behind it that is not in the
  set, preferably many. -/
  | chain (members : CharClass) (separator : Char)
  /-- The empty text at a place of the given kind. -/
  | condition (kind : Condition)
  /-- One pattern after the other. -/
  | sequence (first second : Pattern)
  /-- The first pattern, or else the second. -/
  | choice (first second : Pattern)
  /-- A pattern whose text is remembered under a number. -/
  | group (index : Nat) (inner : Pattern)
  deriving DecidableEq, Repr

namespace Pattern

/-- Patterns one after the other. -/
def inOrder : List Pattern → Pattern
  | [] => .empty
  | [pattern] => pattern
  | pattern :: rest => .sequence pattern (inOrder rest)

/-- The first of several patterns that fits. -/
def anyOf : List Pattern → Pattern
  | [] => .one .nothing
  | [pattern] => pattern
  | pattern :: rest => .choice pattern (anyOf rest)

/-- A pattern, or else nothing. -/
def optional (pattern : Pattern) : Pattern :=
  .choice pattern .empty

/-- The given word. -/
def text (word : String) : Pattern :=
  .literal word.toList

/-- As many characters of a set as possible, at least one. -/
def oneOrMore (members : CharClass) : Pattern :=
  .run members 1 true

/-- As many characters of a set as possible, or none. -/
def zeroOrMore (members : CharClass) : Pattern :=
  .run members 0 true

/-- The edge of a word. -/
def boundary : Pattern :=
  .condition (.edge .boundary .word)

/-- White space. -/
def blanks : Pattern :=
  .oneOrMore .blank

/-- White space, or nothing. -/
def maybeBlanks : Pattern :=
  .zeroOrMore .blank

end Pattern

end ScriptBridge

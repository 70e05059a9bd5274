import ScriptBridge.Pattern.Expression

/-!
# Written character sets

A set between brackets lists characters, ranges, escapes, named sets and further
sets, and may combine such lists by intersection and difference.  Escapes are the
same inside and outside of brackets.
-/

namespace ScriptBridge

namespace Pattern

/-- How the parts of a written pattern are understood. -/
structure Flags where
  ignoresCase : Bool := false
  multiLine : Bool := false
  dotMatchesLineFeed : Bool := false
  prefersFew : Bool := false
  /-- Classes hold ASCII characters only. -/
  onlyAscii : Bool := false
  /-- A carriage return ends lines too. -/
  returnEndsLine : Bool := false
  /-- Blanks and comments have no meaning. -/
  ignoresBlanks : Bool := false
  deriving DecidableEq, Repr

/-- The text behind blanks and comments; a comment ends with its line. -/
def passBlanks (inComment : Bool) : List Char → List Char
  | [] => []
  | character :: rest =>
      if inComment then passBlanks (character ≠ '\n') rest
      else if Text.isBlank character then passBlanks false rest
      else if character = '#' then passBlanks true rest
      else character :: rest

/-- The text behind what has no meaning. -/
def Flags.pass (flags : Flags) (input : List Char) : List Char :=
  if flags.ignoresBlanks then passBlanks false input else input

/-- The ASCII characters. -/
def asciiSet : CharClass :=
  .range '\x00' '\x7f'

/-- The case variants of a set, if case is ignored. -/
def Flags.fold (flags : Flags) (members : CharClass) : CharClass :=
  if !flags.ignoresCase then members
  else if flags.onlyAscii then (CharClass.folded members).intersection asciiSet
  else .folded members

/-- The complement of a set, which is no set of ASCII characters. -/
def Flags.negate? (flags : Flags) (negated : Bool) (members : CharClass) : Option CharClass :=
  if !negated then some members
  else if flags.onlyAscii then none
  else some (.complement members)

/-- The sets of ASCII characters that have a name. -/
def namedSets : List (String × CharClass) :=
  let lower : CharClass := .range 'a' 'z'
  let upper : CharClass := .range 'A' 'Z'
  let digits : CharClass := .range '0' '9'
  let alpha := lower.union upper
  let graph : CharClass := .range '!' '~'
  [("alnum", alpha.union digits),
   ("alpha", alpha),
   ("ascii", asciiSet),
   ("blank", CharClass.ofList ['\t', ' ']),
   ("cntrl", (CharClass.range '\x00' '\x1f').union (.only '\x7f')),
   ("digit", digits),
   ("graph", graph),
   ("lower", lower),
   ("print", .range ' ' '~'),
   ("punct", graph.difference (alpha.union digits)),
   ("space", (CharClass.range '\t' '\r').union (.only ' ')),
   ("upper", upper),
   ("word", (alpha.union digits).union (.only '_')),
   ("xdigit", (digits.union (.range 'a' 'f')).union (.range 'A' 'F'))]

/-- The named set, or else nothing. -/
def namedSet (name : String) : CharClass :=
  (namedSets.lookup name).getD .nothing

/-- The word characters. -/
def Flags.word (flags : Flags) : CharClass :=
  if flags.onlyAscii then namedSet "word" else .word

/-- The digits. -/
def Flags.digit (flags : Flags) : CharClass :=
  if flags.onlyAscii then namedSet "digit" else .digit

/-- White space. -/
def Flags.blank (flags : Flags) : CharClass :=
  if flags.onlyAscii then namedSet "space" else .blank

/-- What an escape stands for. -/
inductive Escape where
  | character (value : Char)
  | members (set : CharClass)
  | condition (kind : Condition)

/-- The value of a hexadecimal digit. -/
def hexValue? (digit : Char) : Option Nat :=
  if '0' ≤ digit && digit ≤ '9' then some (digit.toNat - '0'.toNat)
  else if 'a' ≤ digit && digit ≤ 'f' then some (digit.toNat - 'a'.toNat + 10)
  else if 'A' ≤ digit && digit ≤ 'F' then some (digit.toNat - 'A'.toNat + 10)
  else none

/-- The character with the given code point. -/
def scalar? (code : Nat) : Option Char :=
  if code.isValidChar then some (Char.ofNat code) else none

/-- The number written by so many hexadecimal digits. -/
def readHexDigits (flags : Flags) : Nat → Nat → List Char → Option (Nat × List Char)
  | 0, number, input => some (number, input)
  | _ + 1, _, [] => none
  | missing + 1, number, digit :: rest =>
      match hexValue? digit with
      | some value => readHexDigits flags missing (16 * number + value) (flags.pass rest)
      | none => none

/-- The number written by hexadecimal digits up to a closing brace, at least one.
At most so many are read. -/
def readBracedDigits (flags : Flags) (number : Option Nat) :
    Nat → List Char → Option (Nat × List Char)
  | bound + 1, digit :: rest =>
      if digit = '\x7d' then number.map fun number => (number, flags.pass rest)
      else
        match hexValue? digit with
        | some value =>
            readBracedDigits flags (some (16 * number.getD 0 + value)) bound (flags.pass rest)
        | none => none
  | _, _ => none

/-- A character written by its code point: between braces, or with so many digits.
Two digits are a byte, which is a character of its own only below 128 when classes
hold ASCII characters. -/
def readCodePoint (flags : Flags) (width : Nat) (input : List Char) :
    Option (Escape × List Char) := do
  match flags.pass input with
  | '\x7b' :: digits =>
      let (code, rest) ← readBracedDigits flags none input.length (flags.pass digits)
      some (.character (← scalar? code), rest)
  | digits =>
      let (code, rest) ← readHexDigits flags width 0 digits
      if flags.onlyAscii && width = 2 && 128 ≤ code then none
      else some (.character (← scalar? code), rest)

/-- Whether a character stands for itself behind a backslash: every ASCII
character but letters, digits and angle brackets. -/
def isEscapable (character : Char) : Bool :=
  character.toNat < 128 && !character.isAlphanum && character ≠ '<' && character ≠ '>'

/-- Whether a character may stand in the name of an edge of words. -/
def isEdgeCharacter (character : Char) : Bool :=
  character.isAlpha || character = '-'

/-- The letters of a name, at most so many, with what follows them. -/
def readEdgeName (flags : Flags) : Nat → List Char → List Char × List Char
  | bound + 1, character :: rest =>
      if isEdgeCharacter character then
        let (name, after) := readEdgeName flags bound (flags.pass rest)
        (character :: name, after)
      else ([], character :: rest)
  | _, input => ([], input)

/-- The edge of words with the given name. -/
def edge? (name : String) : Option WordEdge :=
  [("start", .start), ("end", .stop), ("start-half", .startHalf),
    ("end-half", .stopHalf)].lookup name

/-- Read what may follow the escape for a word boundary: the name of an edge
between braces.  Other braces are a repetition. -/
def readEdge (flags : Flags) (input : List Char) : Option (WordEdge × List Char) :=
  match input with
  | '\x7b' :: afterBrace =>
      match flags.pass afterBrace with
      | [] => none
      | first :: rest =>
          if isEdgeCharacter first then
            match readEdgeName flags input.length (first :: rest) with
            | (name, '\x7d' :: after) =>
                (edge? (String.ofList name)).map fun edge => (edge, after)
            | _ => none
          else some (.boundary, input)
  | _ => some (.boundary, input)

/-- Read an escape behind its backslash. -/
def readEscape (flags : Flags) : List Char → Option (Escape × List Char)
  | [] => none
  | 'd' :: rest => some (.members flags.digit, rest)
  | 'D' :: rest => (flags.negate? true flags.digit).map fun set => (.members set, rest)
  | 'w' :: rest => some (.members flags.word, rest)
  | 'W' :: rest => (flags.negate? true flags.word).map fun set => (.members set, rest)
  | 's' :: rest => some (.members flags.blank, rest)
  | 'S' :: rest => (flags.negate? true flags.blank).map fun set => (.members set, rest)
  | 'A' :: rest => some (.condition .textStart, rest)
  | 'z' :: rest => some (.condition .textEnd, rest)
  | 'b' :: rest =>
      (readEdge flags rest).map fun (edge, after) =>
        (.condition (.edge edge flags.word), after)
  | 'B' :: rest => some (.condition (.edge .inside flags.word), rest)
  | '<' :: rest => some (.condition (.edge .start flags.word), rest)
  | '>' :: rest => some (.condition (.edge .stop flags.word), rest)
  | 'a' :: rest => some (.character '\x07', rest)
  | 'f' :: rest => some (.character '\x0c', rest)
  | 't' :: rest => some (.character '\t', rest)
  | 'n' :: rest => some (.character '\n', rest)
  | 'r' :: rest => some (.character '\r', rest)
  | 'v' :: rest => some (.character '\x0b', rest)
  | 'x' :: rest => readCodePoint flags 2 rest
  | 'u' :: rest => readCodePoint flags 4 rest
  | 'U' :: rest => readCodePoint flags 8 rest
  | character :: rest =>
      if isEscapable character then some (.character character, rest) else none

/-- Read the name of a set behind `[:`, up to the closing `:]`; nothing if there is
no such name.  The set itself is missing if it is no set of ASCII characters. -/
def readNamedSet (flags : Flags) (input : List Char) :
    Option (Option CharClass × List Char) :=
  let (negated, named) := match input with
    | '^' :: rest => (true, rest)
    | _ => (false, input)
  let name := named.takeWhile Char.isAlpha
  match named.drop name.length, namedSets.lookup (String.ofList name) with
  | ':' :: ']' :: rest, some set => some (flags.negate? negated (flags.fold set), rest)
  | _, _ => none

/-- Read one member of a set: a character or an escape. -/
def readMember (flags : Flags) : List Char → Option (Escape × List Char)
  | [] => none
  | '\\' :: rest => readEscape flags rest
  | character :: rest => some (.character character, rest)

/-- Whether a character may be listed in a set. -/
def Flags.allows (flags : Flags) (character : Char) : Bool :=
  !flags.onlyAscii || character.toNat < 128

/-- Whether a dash and what follows it are no part of a range. -/
def endsBeforeDash (flags : Flags) (behindDash : List Char) : Bool :=
  match flags.pass behindDash with
  | ']' :: _ => true
  | '-' :: _ => true
  | _ => false

/-- Read a member of a set, or a range of them. -/
def readRange (flags : Flags) (input : List Char) : Option (CharClass × List Char) := do
  let (first, afterFirst) ← readMember flags input
  match first, flags.pass afterFirst with
  | .condition _, _ => none
  | .members set, '-' :: rest =>
      if endsBeforeDash flags rest then some (set, '-' :: rest) else none
  | .members set, rest => some (set, rest)
  | .character low, '-' :: rest =>
      if !flags.allows low then none
      else if endsBeforeDash flags rest then some (.only low, '-' :: rest)
      else
        match ← readMember flags (flags.pass rest) with
        | (.character high, afterSecond) =>
            if low ≤ high && flags.allows high then some (.range low high, afterSecond)
            else none
        | _ => none
  | .character low, rest => if flags.allows low then some (.only low, rest) else none

/-- Items of a set: their members, how many there are, and how many levels lie in
each other within one of them. -/
structure SetItems where
  members : CharClass := .nothing
  count : Nat := 0
  levels : Nat := 0

namespace SetItems

/-- One more item. -/
def add (items : SetItems) (members : CharClass) (levels : Nat) : SetItems :=
  ⟨if items.count = 0 then members else items.members.union members, items.count + 1,
    max items.levels levels⟩

/-- Several items are one more level. -/
def allLevels (items : SetItems) : Nat :=
  if 2 ≤ items.count then items.levels + 1 else items.levels

end SetItems

/-- The operand on the left of items that are being read: how it combines with
them, and its levels. -/
structure SetOperand where
  combine : CharClass → CharClass
  levels : Nat

/-- The members and the levels of items together with the operand on their left.
Case is ignored in both before they are combined. -/
def Flags.finish (flags : Flags) (left : Option SetOperand) (items : SetItems) :
    CharClass × Nat :=
  match left with
  | none => (items.members, items.allLevels)
  | some operand =>
      (operand.combine (flags.fold items.members), max operand.levels items.allLevels + 1)

/-- The operand that the items read so far become in front of an operator. -/
def Flags.operand (flags : Flags) (operator : CharClass → CharClass → CharClass)
    (left : Option SetOperand) (items : SetItems) : SetOperand :=
  let (members, levels) := flags.finish left items
  ⟨operator (flags.fold members), levels⟩

/-- The items that only the start of a set can have: dashes, or else a closing
bracket, which stand for themselves. -/
def readSetStart (flags : Flags) (items : SetItems) :
    Nat → List Char → SetItems × List Char
  | bound + 1, '-' :: rest =>
      readSetStart flags (items.add (.only '-') 0) bound (flags.pass rest)
  | _ + 1, ']' :: rest =>
      if items.count = 0 then (items.add (.only ']') 0, flags.pass rest)
      else (items, ']' :: rest)
  | _, rest => (items, rest)

mutual

/-- Read a set behind its opening bracket, with its levels. -/
def readSet (fuel : Nat) (flags : Flags) (input : List Char) :
    Option ((CharClass × Nat) × List Char) :=
  match fuel with
  | 0 => none
  | fuel + 1 => do
      let (negated, inner) := match flags.pass input with
        | '^' :: rest => (true, flags.pass rest)
        | other => (false, other)
      let (start, rest) := readSetStart flags {} inner.length inner
      let ((members, levels), after) ← readSetItems fuel flags none start rest
      let set ← flags.negate? negated (flags.fold members)
      some ((set, levels + 1), after)

/-- Read the items of a set up to its closing bracket. -/
def readSetItems (fuel : Nat) (flags : Flags) (left : Option SetOperand)
    (items : SetItems) (input : List Char) : Option ((CharClass × Nat) × List Char) :=
  match fuel with
  | 0 => none
  | fuel + 1 =>
      let operator (operation : CharClass → CharClass → CharClass) (rest : List Char) :=
        readSetItems fuel flags (some (flags.operand operation left items)) {} rest
      let nested (rest : List Char) :=
        match readSet fuel flags rest with
        | some ((members, levels), after) =>
            readSetItems fuel flags left (items.add members levels) after
        | none => none
      match flags.pass input with
      | [] => none
      | ']' :: rest => some (flags.finish left items, rest)
      | '&' :: '&' :: rest => operator CharClass.intersection rest
      | '-' :: '-' :: rest => operator CharClass.difference rest
      | '~' :: '~' :: rest => operator CharClass.symmetricDifference rest
      | '[' :: ':' :: rest =>
          match readNamedSet flags rest with
          | some (some members, after) =>
              readSetItems fuel flags left (items.add members 0) after
          | some (none, _) => none
          | none => nested (':' :: rest)
      | '[' :: rest => nested rest
      | other =>
          match readRange flags other with
          | some (members, after) =>
              readSetItems fuel flags left (items.add members 0) after
          | none => none

end

end Pattern

end ScriptBridge

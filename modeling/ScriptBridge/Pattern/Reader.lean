import ScriptBridge.Pattern.Occurrence
import ScriptBridge.Pattern.Set
import ScriptBridge.Pattern.Size

/-!
# Written patterns

Patterns are written as regular expressions: characters, escapes, sets between
brackets, anchors, groups, alternatives and repetitions.  Groups may set flags,
which hold up to the end of the group around them.  A text that is not
well-formed describes no pattern, and neither does one that is nested too deeply
or needs too much memory.
-/

namespace ScriptBridge

namespace Pattern

/-- The text behind white space. -/
def dropBlanks (input : List Char) : List Char :=
  input.dropWhile Text.isBlank

/-- The decimal digits at the start of a text, at most so many, with what follows
them. -/
def readDigits (flags : Flags) : Nat → List Char → List Char × List Char
  | bound + 1, digit :: rest =>
      if digit.isDigit then
        let (digits, after) := readDigits flags bound (flags.pass rest)
        (digit :: digits, after)
      else ([], digit :: rest)
  | _, input => ([], input)

/-- A number of 32 bits with blanks around it. -/
def readNumber (flags : Flags) (input : List Char) : Option (Nat × List Char) :=
  let (digits, rest) := readDigits flags input.length (dropBlanks input)
  if digits.isEmpty then none
  else
    let number := digits.foldl (fun number digit => 10 * number + (digit.toNat - '0'.toNat)) 0
    if number < 0x100000000 then some (number, flags.pass (dropBlanks rest)) else none

/-- Read the bounds of a repetition behind the opening brace. -/
def readBounds (flags : Flags) (input : List Char) :
    Option ((Nat × Option Nat) × List Char) := do
  let (least, afterLeast) ← readNumber flags (flags.pass input)
  match afterLeast with
  | '\x7d' :: rest => some ((least, some least), flags.pass rest)
  | ',' :: afterComma =>
      match flags.pass afterComma with
      | '\x7d' :: rest => some ((least, none), flags.pass rest)
      | behind =>
          match readNumber flags behind with
          | some (most, '\x7d' :: rest) =>
              if least ≤ most then some ((least, some most), flags.pass rest) else none
          | _ => none
  | _ => none

/-- The bounds of the repetition at the start of a text, if there is one. -/
def readRepetition (flags : Flags) : List Char → Option ((Nat × Option Nat) × List Char)
  | '*' :: rest => some ((0, none), rest)
  | '+' :: rest => some ((1, none), rest)
  | '?' :: rest => some ((0, some 1), rest)
  | '\x7b' :: rest => readBounds flags rest
  | _ => none

/-- Whether a character starts a repetition. -/
def startsRepetition (character : Char) : Bool :=
  ['*', '+', '?', '\x7b'].contains character

/-- Set one flag, or clear it. -/
def Flags.set? (flags : Flags) (value : Bool) : Char → Option Flags
  | 'i' => some { flags with ignoresCase := value }
  | 'm' => some { flags with multiLine := value }
  | 's' => some { flags with dotMatchesLineFeed := value }
  | 'U' => some { flags with prefersFew := value }
  | 'u' => some { flags with onlyAscii := !value }
  | 'R' => some { flags with returnEndsLine := value }
  | 'x' => some { flags with ignoresBlanks := value }
  | _ => none

/-- Set flags by their letters, each at most once. -/
def Flags.setAll (value : Bool) (seen : List Char) :
    List Char → Flags → Option Flags
  | [], flags => some flags
  | letter :: rest, flags =>
      if seen.contains letter then none
      else (flags.set? value letter).bind (Flags.setAll value (letter :: seen) rest)

/-- The flags behind `(?`: those set, and behind a dash those cleared. -/
def Flags.change (flags : Flags) (letters : List Char) : Option Flags :=
  let positive := letters.takeWhile (· ≠ '-')
  match letters.drop positive.length with
  | [] => Flags.setAll true [] positive flags
  | _ :: negative =>
      if negative.isEmpty then none
      else (Flags.setAll true [] positive flags).bind (Flags.setAll false positive negative)

/-- Whether a character may stand in the name of a group. -/
def isNameCharacter (character : Char) : Bool :=
  Text.isWord character || ['.', '[', ']'].contains character

/-- Read the name of a group up to the closing angle bracket. -/
def readGroupName (input : List Char) : Option (List Char × List Char) :=
  match input with
  | first :: _ =>
      let name := input.takeWhile (· ≠ '>')
      if Text.isWord first && !Text.isDigit first && name.all isNameCharacter &&
          name.length < input.length then
        some (name, input.drop (name.length + 1))
      else none
  | [] => none

/-- One character as an expression. -/
def Flags.character (flags : Flags) (value : Char) : PatternExpression :=
  .one (if flags.allows value then flags.fold (.only value) else .only value)

/-- An escape as an expression. -/
def Flags.escape (flags : Flags) : Escape → PatternExpression
  | .character value => flags.character value
  | .members set => .one set
  | .condition kind => .condition kind

/-- The characters that a dot stands for. -/
def Flags.dot (flags : Flags) : CharClass :=
  if flags.dotMatchesLineFeed then .anything
  else if flags.returnEndsLine then .complement (.ofList ['\r', '\n'])
  else .notLineFeed

/-- The start of the text or of a line. -/
def Flags.start (flags : Flags) : Condition :=
  if !flags.multiLine then .textStart
  else if flags.returnEndsLine then .returnLineStart
  else .lineStart

/-- The end of the text or of a line. -/
def Flags.stop (flags : Flags) : Condition :=
  if !flags.multiLine then .textEnd
  else if flags.returnEndsLine then .returnLineEnd
  else .lineEnd

/-- A single character as an expression; a dot is no set of ASCII characters. -/
def Flags.single? (flags : Flags) : Char → Option PatternExpression
  | '^' => some (.condition flags.start)
  | '$' => some (.condition flags.stop)
  | '.' => if flags.onlyAscii then none else some (.one flags.dot)
  | character => some (flags.character character)

/-- The expressions read so far, in reverse, with the last one put to them. -/
def pushLast (before : List PatternExpression) :
    Option PatternExpression → List PatternExpression
  | some last => last :: before
  | none => before

/-- The expressions read so far as one. -/
def finishSequence (before : List PatternExpression) (last : Option PatternExpression) :
    PatternExpression :=
  .inOrder (pushLast before last).reverse

/-- What stands behind an opening parenthesis: a group, or flags for what follows. -/
inductive GroupHead where
  | group (capture : Capture) (flags : Flags)
  | flags (flags : Flags)

/-- Read what stands in front of the inner expression of a group, or the whole of a
group that only sets flags. -/
def readGroupHead (flags : Flags) (input : List Char) : Option (GroupHead × List Char) :=
  let named (rest : List Char) :=
    (readGroupName rest).map fun (name, after) => (GroupHead.group (.named name) flags, after)
  match flags.pass input with
  | '?' :: 'P' :: '<' :: rest => named rest
  | '?' :: '<' :: rest => named rest
  | '?' :: rest =>
      let letters := rest.takeWhile fun character => character ≠ ':' && character ≠ ')'
      match letters, rest.drop letters.length, flags.change letters with
      | _, ':' :: after, some changed => some (.group .none changed, after)
      | _ :: _, ')' :: after, some changed => some (.flags changed, after)
      | _, _, _ => none
  | rest => some (.group .numbered flags, rest)

mutual

/-- Read alternatives up to the end of the group. -/
def readAlternatives (fuel : Nat) (flags : Flags) (input : List Char) :
    Option (PatternExpression × List Char) :=
  match fuel with
  | 0 => none
  | fuel + 1 => do
      let (first, after, rest) ← readSequence fuel flags [] none input
      match rest with
      | '|' :: next =>
          let (second, rest) ← readAlternatives fuel after next
          some (.choice first second, rest)
      | _ => some (first, rest)

/-- Read one alternative; gives also the flags that hold behind it.  `last` is
what a repetition would repeat. -/
def readSequence (fuel : Nat) (flags : Flags) (before : List PatternExpression)
    (last : Option PatternExpression) (input : List Char) :
    Option (PatternExpression × Flags × List Char) :=
  match fuel with
  | 0 => none
  | fuel + 1 =>
      let further (expression : PatternExpression) (rest : List Char) :=
        readSequence fuel flags (pushLast before last) (some expression) rest
      match flags.pass input with
      | [] => some (finishSequence before last, flags, [])
      | '|' :: rest => some (finishSequence before last, flags, '|' :: rest)
      | ')' :: rest => some (finishSequence before last, flags, ')' :: rest)
      | '\\' :: rest =>
          match readEscape flags rest with
          | some (escape, after) => further (flags.escape escape) after
          | none => none
      | '[' :: rest =>
          match readSet fuel flags rest with
          | some ((members, levels), after) => further (.bracketed levels members) after
          | none => none
      | '(' :: rest =>
          match readGroupHead flags rest with
          | some (.group capture inner, after) =>
              match readAlternatives fuel inner after with
              | some (expression, ')' :: after) => further (.group capture expression) after
              | _ => none
          | some (.flags changed, after) =>
              readSequence fuel changed (.flags :: pushLast before last) none after
          | none => none
      | character :: rest =>
          if startsRepetition character then
            match last, readRepetition flags (character :: rest) with
            | some inner, some ((least, most), '?' :: after) =>
                readSequence fuel flags before
                  (some (.repeated inner least most flags.prefersFew)) after
            | some inner, some ((least, most), after) =>
                readSequence fuel flags before
                  (some (.repeated inner least most (!flags.prefersFew))) after
            | _, _ => none
          else
            match flags.single? character with
            | some expression => further expression rest
            | none => none

end

/-- How many levels of an expression may lie in each other. -/
def levelLimit : Nat := 250

/-- The expression that a text describes. -/
def readExpression (source : String) : Option PatternExpression :=
  let input := source.toList
  match readAlternatives (2 * input.length + 2) {} input with
  | some (expression, []) =>
      if expression.levels ≤ levelLimit && expression.groupNames.Nodup &&
          expression.fitsLimit then
        some expression
      else none
  | _ => none

end Pattern

/-- A pattern together with the text that describes it. -/
structure WrittenPattern where
  source : String
  expression : PatternExpression
  deriving DecidableEq, Repr

namespace WrittenPattern

/-- The pattern that a text describes. -/
def read? (source : String) : Option WrittenPattern :=
  (Pattern.readExpression source).map fun expression => ⟨source, expression⟩

/-- Whether the pattern fits somewhere in a text. -/
def occursIn (written : WrittenPattern) (text : String) : Bool :=
  written.expression.occursIn text

end WrittenPattern

end ScriptBridge

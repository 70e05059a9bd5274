import ScriptBridge.Pattern.EncodedSet
import ScriptBridge.Pattern.Expression

/-!
# Simplified patterns

Before its automata are built, a pattern expression is simplified: characters in a
row become one literal, a choice between characters becomes a set, what all branches
of a choice start with is written once, and groups that remember nothing disappear.
-/

namespace ScriptBridge

/-- A pattern whose literals, sets, sequences and choices are as large as possible. -/
inductive SimplePattern where
  | empty
  /-- At least one character. -/
  | literal (text : List Char)
  /-- One character of a set that has not exactly one member. -/
  | set (members : EncodedSet)
  | condition (kind : Condition)
  | repeated (inner : SimplePattern) (least : Nat) (most : Option Nat) (greedy : Bool)
  /-- A group that remembers its text. -/
  | group (inner : SimplePattern)
  /-- Two parts or more. -/
  | sequence (parts : List SimplePattern)
  /-- Two branches or more. -/
  | choice (branches : List SimplePattern)
  deriving Repr

namespace SimplePattern

/-- The parts of a pattern that may be a sequence. -/
def parts : SimplePattern → List SimplePattern
  | .empty => []
  | .sequence parts => parts
  | pattern => [pattern]

/-- The branches of a pattern that may be a choice. -/
def branches : SimplePattern → List SimplePattern
  | .choice branches => branches
  | pattern => [pattern]

/-- The pattern with the given parts. -/
def ofParts : List SimplePattern → SimplePattern
  | [] => .empty
  | [part] => part
  | parts => .sequence parts

/-- Put a part in front of others.  Two literals in a row are one. -/
def pushPart : SimplePattern → List SimplePattern → List SimplePattern
  | .literal first, .literal second :: rest => .literal (first ++ second) :: rest
  | part, rest => part :: rest

/-- One pattern after the other. -/
def andThen (first second : SimplePattern) : SimplePattern :=
  ofParts (first.parts.foldr pushPart second.parts)

/-- One character within ranges of code points.  Surrogates encode no character. -/
def ofRanges (ranges : List CodeRange) : SimplePattern :=
  match CodeRange.withoutSurrogates ranges with
  | [(first, last)] =>
      if first = last then .literal [Char.ofNat first] else .set (.ofRanges [(first, last)])
  | ranges => .set (.ofRanges ranges)

mutual

/-- Whether the pattern fits only the empty text. -/
def fitsOnlyEmpty : SimplePattern → Bool
  | .empty => true
  | .literal _ => false
  | .set _ => false
  | .condition _ => true
  | .repeated inner _ _ _ => inner.fitsOnlyEmpty
  | .group inner => inner.fitsOnlyEmpty
  | .sequence parts => fitOnlyEmpty parts
  | .choice branches => fitOnlyEmpty branches

/-- Whether all patterns fit only the empty text. -/
def fitOnlyEmpty : List SimplePattern → Bool
  | [] => true
  | pattern :: rest => pattern.fitsOnlyEmpty && fitOnlyEmpty rest

end

mutual

/-- Whether the pattern has a part that fits no text at all. -/
def hasVoid : SimplePattern → Bool
  | .set members => members.ranges.isEmpty
  | .repeated inner _ _ _ => inner.hasVoid
  | .group inner => inner.hasVoid
  | .sequence parts => haveVoid parts
  | .choice branches => haveVoid branches
  | _ => false

/-- Whether one of the patterns has a part that fits no text at all. -/
def haveVoid : List SimplePattern → Bool
  | [] => false
  | pattern :: rest => pattern.hasVoid || haveVoid rest

end

mutual

/-- Whether the pattern takes at least one character, whatever the text. -/
def takesCharacter : SimplePattern → Bool
  | .literal _ => true
  | .set _ => true
  | .repeated inner least _ _ => 0 < least && inner.takesCharacter
  | .group inner => inner.takesCharacter
  | .sequence parts => someTakesCharacter parts
  | .choice branches => eachTakesCharacter branches
  | _ => false

/-- Whether one of the patterns takes at least one character. -/
def someTakesCharacter : List SimplePattern → Bool
  | [] => false
  | pattern :: rest => pattern.takesCharacter || someTakesCharacter rest

/-- Whether each of the patterns takes at least one character. -/
def eachTakesCharacter : List SimplePattern → Bool
  | [] => true
  | pattern :: rest => pattern.takesCharacter && eachTakesCharacter rest

end

mutual

/-- Whether the pattern fits only at the start of the text. -/
def needsTextStart : SimplePattern → Bool
  | .condition kind => kind = .textStart
  | .repeated inner least _ _ => 0 < least && inner.needsTextStart
  | .group inner => inner.needsTextStart
  | .sequence parts => sequenceNeedsTextStart parts
  | .choice branches => eachNeedsTextStart branches
  | _ => false

/-- Whether a sequence of patterns fits only at the start of the text. -/
def sequenceNeedsTextStart : List SimplePattern → Bool
  | [] => false
  | pattern :: rest =>
      pattern.needsTextStart || (pattern.fitsOnlyEmpty && sequenceNeedsTextStart rest)

/-- Whether each of the patterns fits only at the start of the text. -/
def eachNeedsTextStart : List SimplePattern → Bool
  | [] => true
  | pattern :: rest => pattern.needsTextStart && eachNeedsTextStart rest

end

mutual

/-- Whether the pattern fits only up to the end of the text. -/
def needsTextEnd : SimplePattern → Bool
  | .condition kind => kind = .textEnd
  | .repeated inner least _ _ => 0 < least && inner.needsTextEnd
  | .group inner => inner.needsTextEnd
  | .sequence parts => sequenceNeedsTextEnd parts
  | .choice branches => eachNeedsTextEnd branches
  | _ => false

/-- Whether a sequence of patterns fits only up to the end of the text. -/
def sequenceNeedsTextEnd : List SimplePattern → Bool
  | [] => false
  | pattern :: rest =>
      sequenceNeedsTextEnd rest || (fitOnlyEmpty rest && pattern.needsTextEnd)

/-- Whether each of the patterns fits only up to the end of the text. -/
def eachNeedsTextEnd : List SimplePattern → Bool
  | [] => true
  | pattern :: rest => pattern.needsTextEnd && eachNeedsTextEnd rest

end

/-- A pattern repeated between `least` and `most` times.  More than one repetition of
what fits only the empty text adds nothing. -/
def repeatedly (inner : SimplePattern) (least : Nat) (most : Option Nat) (greedy : Bool) :
    SimplePattern :=
  let (least, most) :=
    if inner.fitsOnlyEmpty then (min least 1, some (min (most.getD 1) 1)) else (least, most)
  match least, most with
  | 0, some 0 => .empty
  | 1, some 1 => inner
  | least, most => .repeated inner least most greedy

mutual

/-- Whether two patterns are the same.  A group that remembers its text is like no
other. -/
def same : SimplePattern → SimplePattern → Bool
  | .empty, .empty => true
  | .literal first, .literal second => first = second
  | .set first, .set second => first.ranges = second.ranges
  | .condition first, .condition second => first = second
  | .repeated first least most greedy, .repeated second least' most' greedy' =>
      least = least' && most = most' && greedy = greedy' && same first second
  | .sequence first, .sequence second => sameAll first second
  | .choice first, .choice second => sameAll first second
  | _, _ => false

/-- Whether the patterns of two lists are the same. -/
def sameAll : List SimplePattern → List SimplePattern → Bool
  | [], [] => true
  | first :: firstRest, second :: secondRest => same first second && sameAll firstRest secondRest
  | _, _ => false

end

/-- The number of leading parts in which two sequences are the same. -/
def agreement : List SimplePattern → List SimplePattern → Nat
  | first :: firstRest, second :: secondRest =>
      if same first second then agreement firstRest secondRest + 1 else 0
  | _, _ => 0

/-- The parts of a sequence, if the pattern is one. -/
def sequence? : SimplePattern → Option (List SimplePattern)
  | .sequence parts => some parts
  | _ => none

/-- The character of a pattern that is a single one. -/
def character? : SimplePattern → Option Char
  | .literal [character] => some character
  | _ => none

/-- The ranges of a pattern that is a set. -/
def ranges? : SimplePattern → Option (List CodeRange)
  | .set members => some members.ranges
  | _ => none

/-- The text of a pattern that is a literal. -/
def literal? : SimplePattern → Option (List Char)
  | .literal text => some text
  | _ => none

/-- The set of characters that are the branches of a choice, or of which the branches
are sets. -/
def joinedRanges? (branches : List SimplePattern) : Option (List CodeRange) :=
  match branches.mapM character? with
  | some characters =>
      some (CodeRange.normalize (characters.map fun character =>
        (character.toNat, character.toNat)))
  | none =>
      (branches.mapM ranges?).map fun ranges => CodeRange.normalize ranges.flatten

/-- What all branches start with, and what is left of each. -/
def commonStart? (branches : List SimplePattern) :
    Option (List SimplePattern × List SimplePattern) :=
  match branches.mapM sequence? with
  | some (first :: others) =>
      let length := others.foldl (fun length parts => min length (agreement first parts))
        first.length
      if length = 0 then none
      else some (first.take length, (first :: others).map fun parts => ofParts (parts.drop length))
  | _ => none

mutual

/-- The number of patterns in a pattern. -/
def weight : SimplePattern → Nat
  | .repeated inner _ _ _ => inner.weight + 1
  | .group inner => inner.weight + 1
  | .sequence parts => totalWeight parts + 1
  | .choice branches => totalWeight branches + 1
  | _ => 1

/-- The number of patterns in several. -/
def totalWeight : List SimplePattern → Nat
  | [] => 0
  | pattern :: rest => pattern.weight + totalWeight rest

end

/-- The first of several patterns that fits; common starts are taken out at most so
often. -/
def firstOfWithin : Nat → List SimplePattern → SimplePattern
  | 0, branches => .choice branches
  | fuel + 1, alternatives =>
      match alternatives.flatMap branches with
      | [] => .set (.ofRanges [])
      | [branch] => branch
      | branches =>
          match joinedRanges? branches with
          | some ranges => ofRanges ranges
          | none =>
              match commonStart? branches with
              | some (start, rests) => (ofParts start).andThen (firstOfWithin fuel rests)
              | none => .choice branches

/-- The first of several patterns that fits.  Each common start that is taken out is a
part of every branch, so there are fewer of them than patterns. -/
def firstOf : List SimplePattern → SimplePattern
  | [pattern] => pattern
  | alternatives => firstOfWithin (totalWeight alternatives + 1) alternatives

end SimplePattern

namespace PatternExpression

/-- The simplified branches of an expression that may be a choice. -/
def simplifiedBranches : PatternExpression → List SimplePattern
  | .empty => [.empty]
  | .flags => [.empty]
  | .one members => [.ofRanges members.ranges]
  | .bracketed _ members => [.ofRanges members.ranges]
  | .condition kind => [.condition kind]
  | .repeated inner least most greedy =>
      [(SimplePattern.firstOf inner.simplifiedBranches).repeatedly least most greedy]
  | .group .none inner => [.firstOf inner.simplifiedBranches]
  | .group _ inner => [.group (.firstOf inner.simplifiedBranches)]
  | .sequence first second =>
      [(SimplePattern.firstOf first.simplifiedBranches).andThen
        (.firstOf second.simplifiedBranches)]
  | .choice first second =>
      .firstOf first.simplifiedBranches :: second.simplifiedBranches

/-- The simplified pattern of an expression. -/
def simplified (expression : PatternExpression) : SimplePattern :=
  .firstOf expression.simplifiedBranches

end PatternExpression

end ScriptBridge

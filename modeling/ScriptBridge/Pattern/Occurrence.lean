import ScriptBridge.Pattern.Search
import ScriptBridge.Pattern.Expression

/-!
# Occurrence of patterns

Whether a pattern fits somewhere does not depend on which ways it prefers.  The
text is read once from left to right, with a mark on each character set of the
pattern that may have taken the character just read.  Counted repetitions are
unfolded first, so that every repetition has marks of its own.
-/

namespace ScriptBridge

/-- A pattern with a mark on each character set: whether it may have taken the
character before the current place. -/
inductive MarkedPattern where
  | empty
  | one (members : CharClass) (marked : Bool)
  | condition (kind : Condition)
  | sequence (first second : MarkedPattern)
  | choice (first second : MarkedPattern)
  /-- One repetition or more. -/
  | oneOrMore (inner : MarkedPattern)

namespace MarkedPattern

/-- Whether the pattern fits the empty text at a place. -/
def fitsEmpty (place : Cursor) : MarkedPattern → Bool
  | .empty => true
  | .one _ _ => false
  | .condition kind => kind.holds place
  | .sequence first second => first.fitsEmpty place && second.fitsEmpty place
  | .choice first second => first.fitsEmpty place || second.fitsEmpty place
  | .oneOrMore inner => inner.fitsEmpty place

/-- Whether a marked set may be the last one of the pattern at a place. -/
def endsAt (place : Cursor) : MarkedPattern → Bool
  | .empty => false
  | .one _ marked => marked
  | .condition _ => false
  | .sequence first second =>
      second.endsAt place || (first.endsAt place && second.fitsEmpty place)
  | .choice first second => first.endsAt place || second.endsAt place
  | .oneOrMore inner => inner.endsAt place

/-- The marks behind the next character; `entered` says whether the pattern may
start at the place. -/
def advance (place : Cursor) (character : Char) (entered : Bool) :
    MarkedPattern → MarkedPattern
  | .empty => .empty
  | .one members _ => .one members (entered && members.contains character)
  | .condition kind => .condition kind
  | .sequence first second =>
      let enteredSecond := (entered && first.fitsEmpty place) || first.endsAt place
      .sequence (first.advance place character entered)
        (second.advance place character enteredSecond)
  | .choice first second =>
      .choice (first.advance place character entered) (second.advance place character entered)
  | .oneOrMore inner => .oneOrMore (inner.advance place character (entered || inner.endsAt place))

/-- A pattern, or else nothing. -/
def optional (inner : MarkedPattern) : MarkedPattern :=
  .choice inner .empty

/-- So many copies of a pattern, one after the other. -/
def copies (inner : MarkedPattern) (count : Nat) : MarkedPattern :=
  match count with
  | 0 => .empty
  | 1 => inner
  | count + 2 =>
      let half := copies inner ((count + 2) / 2)
      if count % 2 = 0 then .sequence half half else .sequence half (.sequence half inner)
termination_by count
decreasing_by omega

/-- A pattern repeated between `least` and `most` times. -/
def repeated (inner : MarkedPattern) (least : Nat) (most : Option Nat) : MarkedPattern :=
  match least, most with
  | 0, none => .optional (.oneOrMore inner)
  | 1, none => .oneOrMore inner
  | least + 1, none => .sequence (copies inner least) (.oneOrMore inner)
  | 0, some most => copies (.optional inner) most
  | least, some most =>
      if most ≤ least then copies inner least
      else .sequence (copies inner least) (copies (.optional inner) (most - least))

/-- Whether the pattern fits at one of the places, or has been under way since an
earlier one. -/
def fitsAmong : MarkedPattern → List Cursor → Bool
  | _, [] => false
  | pattern, place :: rest =>
      if pattern.fitsEmpty place || pattern.endsAt place then true
      else
        match place.after with
        | character :: _ => fitsAmong (pattern.advance place character true) rest
        | [] => false

end MarkedPattern

namespace PatternExpression

/-- The pattern that is described, without any mark.  Groups only hold their parts
together. -/
def unmarked : PatternExpression → MarkedPattern
  | .empty => .empty
  | .flags => .empty
  | .one members => .one members false
  | .bracketed _ members => .one members false
  | .condition kind => .condition kind
  | .repeated inner least most _ =>
      let (least, most) := inner.repetitionBounds least most
      inner.unmarked.repeated least most
  | .group _ inner => inner.unmarked
  | .sequence first second => .sequence first.unmarked second.unmarked
  | .choice first second => .choice first.unmarked second.unmarked

/-- Whether the described pattern fits somewhere in a text. -/
def occursIn (expression : PatternExpression) (text : String) : Bool :=
  expression.unmarked.fitsAmong (placesOf text.toList)

end PatternExpression

end ScriptBridge

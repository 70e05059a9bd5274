import ScriptBridge.Pattern.Basic

/-!
# The ways of a pattern

All ways in which a pattern fits at a place are listed in order of preference:
the first choice before the second, longer runs before shorter ones when many
characters are preferred.
-/

namespace ScriptBridge

/-- A place in a text: how many characters lie before it, the last of them, and
the characters that follow. -/
structure Cursor where
  position : Nat
  previous : Option Char
  after : List Char
  deriving DecidableEq, Repr

/-- The place before the first character. -/
def Cursor.start (text : List Char) : Cursor :=
  ⟨0, none, text⟩

/-- The place behind the given text, if it stands here. -/
def Cursor.skip? (cursor : Cursor) : List Char → Option Cursor
  | [] => some cursor
  | wanted :: rest =>
      match cursor.after with
      | character :: after =>
          if character = wanted then
            Cursor.skip? ⟨cursor.position + 1, some character, after⟩ rest
          else none
      | [] => none

/-- The place behind the next character, if it belongs to the given set. -/
def Cursor.take? (cursor : Cursor) (members : CharClass) : Option Cursor :=
  match cursor.after with
  | character :: after =>
      if members.contains character then
        some ⟨cursor.position + 1, some character, after⟩
      else none
  | [] => none

/-- Whether the given edge lies between two characters, either of which may be
missing at an end of the text. -/
def WordEdge.liesBetween (edge : WordEdge) (members : CharClass)
    (previous next : Option Char) : Bool :=
  let before := previous.any members.contains
  let after := next.any members.contains
  match edge with
  | .boundary => before != after
  | .inside => before == after
  | .start => !before && after
  | .stop => before && !after
  | .startHalf => !before
  | .stopHalf => !after

/-- Whether a place is of the given kind. -/
def Condition.holds (condition : Condition) (cursor : Cursor) : Bool :=
  match condition with
  | .textStart => cursor.previous.isNone
  | .textEnd => cursor.after.isEmpty
  | .lineStart => cursor.previous.all (· == '\n')
  | .lineEnd => cursor.after.head?.all (· == '\n')
  | .returnLineStart =>
      cursor.previous.all fun character =>
        character == '\n' || (character == '\r' && cursor.after.head? != some '\n')
  | .returnLineEnd =>
      cursor.after.head?.all fun character =>
        character == '\r' || (character == '\n' && cursor.previous != some '\r')
  | .edge kind members => kind.liesBetween members cursor.previous cursor.after.head?

/-- The place itself, if it is of the given kind. -/
def Cursor.stay? (cursor : Cursor) (kind : Condition) : Option Cursor :=
  if kind.holds cursor then some cursor else none

/-- The places behind runs of at least so many characters of a set, the longest
run first. -/
def runEnds (members : CharClass) (least position : Nat)
    (previous : Option Char) (gathered : List Cursor) :
    List Char → List Cursor
  | [] => if least = 0 then ⟨position, previous, []⟩ :: gathered else gathered
  | character :: rest =>
      let reached :=
        if least = 0 then ⟨position, previous, character :: rest⟩ :: gathered else gathered
      if members.contains character then
        runEnds members (least - 1) (position + 1) (some character) reached rest
      else reached

/-- The places behind chains of runs with separators, the longest chain first, in
front of those gathered; `inside` says whether a run has been started. -/
def chainEnds (members : CharClass) (separator : Char) (inside : Bool) (position : Nat)
    (gathered : List Cursor) : List Char → List Cursor
  | [] => gathered
  | character :: rest =>
      if members.contains character then
        chainEnds members separator true (position + 1) gathered rest
      else if inside && character == separator then
        chainEnds members separator false (position + 1)
          (⟨position + 1, some character, rest⟩ :: gathered) rest
      else gathered

/-- A remembered stretch of a text. -/
structure Group where
  index : Nat
  start : Nat
  stop : Nat
  deriving DecidableEq, Repr

/-- How far a match has come, with the groups it went through. -/
structure Attempt where
  cursor : Cursor
  groups : List Group
  deriving DecidableEq, Repr

/-- Go on to another place, if there is one. -/
def Attempt.goOn (attempt : Attempt) (next : Option Cursor) : List Attempt :=
  match next with
  | some cursor => [{ attempt with cursor }]
  | none => []

/-- Note that a group started at the given position ends here. -/
def Attempt.close (index start : Nat) (attempt : Attempt) : Attempt :=
  { attempt with groups := ⟨index, start, attempt.cursor.position⟩ :: attempt.groups }

namespace Pattern

/-- All ways in which a pattern fits, the preferred ones first. -/
def ways : Pattern → Attempt → List Attempt
  | .empty, attempt => [attempt]
  | .literal text, attempt => attempt.goOn (attempt.cursor.skip? text)
  | .one members, attempt => attempt.goOn (attempt.cursor.take? members)
  | .run members least greedy, ⟨cursor, groups⟩ =>
      let ends := runEnds members least cursor.position cursor.previous [] cursor.after
      (if greedy then ends else ends.reverse).map fun next => ⟨next, groups⟩
  | .chain members separator, ⟨cursor, groups⟩ =>
      (chainEnds members separator false cursor.position [cursor] cursor.after).map fun next =>
        ⟨next, groups⟩
  | .condition kind, attempt => attempt.goOn (attempt.cursor.stay? kind)
  | .sequence first second, attempt => (first.ways attempt).flatMap second.ways
  | .choice first second, attempt => first.ways attempt ++ second.ways attempt
  | .group index inner, attempt =>
      (inner.ways attempt).map (Attempt.close index attempt.cursor.position)

end Pattern

end ScriptBridge

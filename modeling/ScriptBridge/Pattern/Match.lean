import ScriptBridge.Pattern.Search

/-!
# Matches of patterns

A match is the most preferred way of a pattern at the first place that has one.
Matches are found from left to right and do not overlap.
-/

namespace ScriptBridge

/-- A match: where it starts, where it stops, and its groups. -/
structure Match where
  start : Cursor
  stop : Cursor
  groups : List Group
  deriving DecidableEq, Repr

namespace Match

/-- The number of characters covered. -/
def length (found : Match) : Nat :=
  found.stop.position - found.start.position

/-- The text under a group, empty if the match did not go through it. -/
def group (found : Match) (index : Nat) : List Char :=
  match found.groups.find? (·.index == index) with
  | some stretch =>
      (found.start.after.drop (stretch.start - found.start.position)).take
        (stretch.stop - stretch.start)
  | none => []

end Match

namespace Pattern

/-- The search for a pattern in a text. -/
def searchIn (pattern : Pattern) (text : List Char) : Searcher :=
  pattern.prepare (placesOf text) fun _ => true

/-- Whether a pattern may fit in a text: the text has everything it needs. -/
def mayFitIn (pattern : Pattern) (text : List Char) : Bool :=
  pattern.needs.all fun wanted => standsIn wanted text

end Pattern

namespace Searcher

/-- The match at the given place. -/
def matchAt (search : Searcher) (place : Cursor) : Option Match :=
  (search.walk ⟨place, []⟩).map fun attempt => ⟨place, attempt.cursor, attempt.groups⟩

/-- Replace every match from the given place on.  The first `covered` characters
belong to the match before; `written` is the result so far in reverse. -/
def replaceFrom (search : Searcher) (replacement : Match → List Char)
    (covered position : Nat) (previous : Option Char) (written : List Char)
    (replaced : Bool) : List Char → Option (List Char)
  | [] => if replaced then some written.reverse else none
  | character :: rest =>
      let next := position + 1
      let here := some character
      match covered with
      | left + 1 => search.replaceFrom replacement left next here written replaced rest
      | 0 =>
          match search.matchAt ⟨position, previous, character :: rest⟩ with
          | some found =>
              if found.length = 0 then
                search.replaceFrom replacement 0 next here (character :: written) replaced rest
              else
                search.replaceFrom replacement (found.length - 1) next here
                  ((replacement found).reverse ++ written) true rest
          | none =>
              search.replaceFrom replacement 0 next here (character :: written) replaced rest

end Searcher

namespace Pattern

/-- The first match in a text. -/
def find? (pattern : Pattern) (text : List Char) : Option Match :=
  if pattern.mayFitIn text then (placesOf text).findSome? (pattern.searchIn text).matchAt
  else none

/-- Replace the first match, if there is one. -/
def replaceFirst (pattern : Pattern) (replacement : Match → List Char)
    (text : List Char) : Option (List Char) :=
  (pattern.find? text).map fun found =>
    text.take found.start.position ++ replacement found ++ found.stop.after

/-- Replace every match, from left to right and without overlaps; nothing if
there is none.  Matches of the empty text are left alone. -/
def replaceAll (pattern : Pattern) (replacement : Match → List Char)
    (text : List Char) : Option (List Char) :=
  if pattern.mayFitIn text then
    (pattern.searchIn text).replaceFrom replacement 0 0 none [] false text
  else none

end Pattern

end ScriptBridge

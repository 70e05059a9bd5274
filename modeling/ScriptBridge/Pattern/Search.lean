import ScriptBridge.Pattern.Ways

/-!
# Searching for patterns

Of all the ways of a pattern a search takes the first that leads to the goal.  The
parts of a pattern are prepared from the last to the first: the goal of a part is
to come to a place from which the next part leads on, so a search never has to turn
back.  Where a part may end at many places, the places that lead on are marked for
the whole text at once.
-/

namespace ScriptBridge

/-- The places of a text from the given one on, behind those gathered in reverse. -/
def placesFrom (gathered : List Cursor) (position : Nat) (previous : Option Char) :
    List Char → List Cursor
  | [] => (⟨position, previous, []⟩ :: gathered).reverse
  | character :: rest =>
      placesFrom (⟨position, previous, character :: rest⟩ :: gathered) (position + 1)
        (some character) rest

/-- The places of a text, in order. -/
def placesOf (text : List Char) : List Cursor :=
  placesFrom [] 0 none text

/-- Whether a text stands somewhere in another one. -/
def standsIn (wanted : List Char) : List Char → Bool
  | [] => wanted.isEmpty
  | character :: rest => wanted.isPrefixOf (character :: rest) || standsIn wanted rest

/-- A mark for every place, made from the last place to the first: each mark comes from
the place and the mark behind it. -/
def marksBackwards {Mark : Type} (mark : Cursor → Mark → Mark) (last : Mark)
    (places : List Cursor) : Array Mark :=
  (places.foldr (fun place marks => mark place (marks.headD last) :: marks) []).toArray

/-- Whether a run of characters of a set leads from a place to the goal, given the same
for the place behind it.  A run that has been started ends only behind one of the
characters. -/
def runLeads (members : CharClass) (started : Bool) (goal : Cursor → Bool) (place : Cursor)
    (later : Bool) : Bool :=
  (later && place.after.head?.any members.contains) ||
    ((!started || place.previous.any members.contains) && goal place)

/-- What is known of chains at a place: whether one that starts there leads to the goal,
and whether one with a run under way does. -/
structure ChainMark where
  starting : Bool
  inside : Bool

/-- What is known of chains at a place, given the same for the place behind it. -/
def chainLeads (members : CharClass) (separator : Char) (goal : Cursor → Bool)
    (place : Cursor) (later : ChainMark) : ChainMark :=
  match place.after with
  | [] => ⟨goal place, false⟩
  | character :: _ =>
      if members.contains character then ⟨goal place || later.inside, later.inside⟩
      else ⟨goal place, character == separator && later.starting⟩

/-- A prepared search: whether the pattern leads from a place to its goal, and the most
preferred way there. -/
structure Searcher where
  leads : Cursor → Bool
  walk : Attempt → Option Attempt

namespace Searcher

/-- A search for a pattern that fits in one way at most. -/
def ofStep (goal : Cursor → Bool) (step : Cursor → Option Cursor) : Searcher where
  leads place :=
    match step place with
    | some next => goal next
    | none => false
  walk attempt :=
    match step attempt.cursor with
    | some cursor => if goal cursor then some { attempt with cursor } else none
    | none => none

/-- A search among many ways, which are listed only where one of them leads to the
goal. -/
def ofWays (goal leads : Cursor → Bool) (ways : Attempt → List Attempt) : Searcher where
  leads := leads
  walk attempt :=
    if leads attempt.cursor then (ways attempt).find? fun next => goal next.cursor else none

end Searcher

namespace Pattern

/-- Whether a place leads on behind so many characters of a set. -/
def leadsBehind (members : CharClass) (leads : Cursor → Bool) : Nat → Cursor → Bool
  | 0, place => leads place
  | least + 1, place =>
      match place.take? members with
      | some next => leadsBehind members leads least next
      | none => false

/-- Texts that every match of a pattern contains. -/
def needs : Pattern → List (List Char)
  | .literal text => [text]
  | .sequence first second => first.needs ++ second.needs
  | .group _ inner => inner.needs
  | _ => []

/-- Prepare the search for a pattern that is to lead to the goal. -/
def prepare (places : List Cursor) : Pattern → (Cursor → Bool) → Searcher
  | .empty, goal => .ofStep goal some
  | .literal text, goal => .ofStep goal (·.skip? text)
  | .one members, goal => .ofStep goal (·.take? members)
  | .condition kind, goal => .ofStep goal (·.stay? kind)
  | .run members least greedy, goal =>
      let marks := marksBackwards (runLeads members (0 < least) goal) false places
      let leads := fun place : Cursor => marks.getD place.position false
      .ofWays goal (leadsBehind members leads least) (ways (.run members least greedy))
  | .chain members separator, goal =>
      let marks := marksBackwards (chainLeads members separator goal) ⟨false, false⟩ places
      let leads := fun place : Cursor => (marks.getD place.position ⟨false, false⟩).starting
      .ofWays goal leads (ways (.chain members separator))
  | .sequence first second, goal =>
      let rest := second.prepare places goal
      let start := first.prepare places rest.leads
      ⟨start.leads, fun attempt => (start.walk attempt).bind rest.walk⟩
  | .choice first second, goal =>
      let one := first.prepare places goal
      let other := second.prepare places goal
      ⟨fun place => one.leads place || other.leads place,
        fun attempt => (one.walk attempt).orElse fun _ => other.walk attempt⟩
  | .group index inner, goal =>
      let prepared := inner.prepare places goal
      ⟨prepared.leads, fun attempt =>
        (prepared.walk attempt).map (Attempt.close index attempt.cursor.position)⟩

end Pattern

end ScriptBridge

import ScriptBridge.Pattern.Basic

/-!
# Pattern expressions

A pattern expression is a pattern as it is written, with its groups and counted
repetitions.
-/

namespace ScriptBridge

/-- Whether a group remembers its text, and under which name. -/
inductive Capture where
  | none
  | numbered
  | named (name : List Char)
  deriving DecidableEq, Repr

/-- A pattern as it is written. -/
inductive PatternExpression where
  | empty
  /-- A change of flags, which matches the empty text. -/
  | flags
  /-- One character of a set that has no inner structure. -/
  | one (members : CharClass)
  /-- One character of a set between brackets; so many levels lie in each other. -/
  | bracketed (levels : Nat) (members : CharClass)
  | condition (kind : Condition)
  | repeated (inner : PatternExpression) (least : Nat) (most : Option Nat) (greedy : Bool)
  | group (capture : Capture) (inner : PatternExpression)
  | sequence (first second : PatternExpression)
  | choice (first second : PatternExpression)
  deriving DecidableEq, Repr

namespace PatternExpression

/-- Expressions one after the other. -/
def inOrder : List PatternExpression → PatternExpression
  | [] => .empty
  | [expression] => expression
  | expression :: rest => .sequence expression (inOrder rest)

/-- How many levels of an expression lie in each other.  A sequence and a choice
are one level, however many parts they have. -/
def levels : PatternExpression → Nat
  | .empty => 0
  | .flags => 0
  | .one _ => 0
  | .bracketed levels _ => levels
  | .condition _ => 0
  | .repeated inner _ _ _ => inner.levels + 1
  | .group _ inner => inner.levels + 1
  | .sequence first (.sequence second third) =>
      max (first.levels + 1) (sequence second third).levels
  | .sequence first second => max first.levels second.levels + 1
  | .choice first (.choice second third) =>
      max (first.levels + 1) (choice second third).levels
  | .choice first second => max first.levels second.levels + 1

/-- The names of the groups, in order. -/
def groupNames : PatternExpression → List (List Char)
  | .group (.named name) inner => name :: inner.groupNames
  | .group _ inner => inner.groupNames
  | .repeated inner _ _ _ => inner.groupNames
  | .sequence first second => first.groupNames ++ second.groupNames
  | .choice first second => first.groupNames ++ second.groupNames
  | _ => []

/-- Whether an expression fits only the empty text. -/
def fitsOnlyEmpty : PatternExpression → Bool
  | .empty => true
  | .flags => true
  | .one _ => false
  | .bracketed _ _ => false
  | .condition _ => true
  | .repeated inner _ most _ => inner.fitsOnlyEmpty || most == some 0
  | .group _ inner => inner.fitsOnlyEmpty
  | .sequence first second => first.fitsOnlyEmpty && second.fitsOnlyEmpty
  | .choice first second => first.fitsOnlyEmpty && second.fitsOnlyEmpty

/-- How often an expression is really repeated: more than one repetition of what fits
only the empty text adds nothing. -/
def repetitionBounds (inner : PatternExpression) (least : Nat) (most : Option Nat) :
    Nat × Option Nat :=
  if inner.fitsOnlyEmpty then (min least 1, some (min (most.getD 1) 1)) else (least, most)

end PatternExpression

end ScriptBridge

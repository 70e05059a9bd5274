import Std.Data.HashMap
import ScriptBridge.Pattern.Simplified

/-!
# The size of a pattern

A pattern is matched by two automata over bytes, one for each direction in which
a text can be read.  Their sizes are counted in bytes of memory; a pattern whose
automata would grow beyond a limit is refused.  The states are counted in the
order in which they are added, because the number of a state decides which states
of a set can be used again.

A choice between literals is read byte by byte.  A node of its tree lists what may
follow, the latest literal first: moves to further nodes, and stops where a literal
ends.  Moves are shared only as far back as the last stop, because a literal that
ends is preferred to every later one.
-/

namespace ScriptBridge

/-- The ways on from a node, the latest first. -/
inductive LiteralTree where
  | done
  | move (byte : UInt8) (next further : LiteralTree)
  | stop (further : LiteralTree)
  deriving DecidableEq, Repr

namespace LiteralTree

/-- Whether nothing can be read. -/
def isLeaf : LiteralTree → Bool
  | .done => true
  | .move _ _ _ => false
  | .stop further => further.isLeaf

/-- Let a literal end at a node.  A second end adds nothing to a leaf. -/
def close : LiteralTree → LiteralTree
  | .stop .done => .stop .done
  | tree => .stop tree

/-- Add a literal. -/
def insert : List UInt8 → LiteralTree → LiteralTree
  | [], tree => tree.close
  | byte :: rest, .move other next further =>
      if byte = other then .move other (insert rest next) further
      else .move other next (insert (byte :: rest) further)
  | byte :: rest, .done => .move byte (insert rest .done) .done
  | byte :: rest, .stop further => .move byte (insert rest .done) (.stop further)

/-- The tree of literals, in the order in which they are preferred. -/
def ofLiterals (literals : List (List UInt8)) : LiteralTree :=
  literals.foldl (fun tree literal => insert literal tree) .done

end LiteralTree

/-- The direction in which an automaton reads a text. -/
inductive ReadingDirection where
  | forward
  | backward
  deriving DecidableEq, Repr

/-- How large an automaton has grown.  Its states are numbered as they are added. -/
structure AutomatonSize where
  states : Nat := 0
  memory : Nat := 0
  deriving DecidableEq, Repr

namespace AutomatonSize

/-- The memory of a state. -/
def stateMemory : Nat := 32

/-- The memory of a move to another state on a range of bytes. -/
def moveMemory : Nat := 8

/-- The memory of a reference from a branching state to another. -/
def referenceMemory : Nat := 4

/-- The greatest size that is accepted. -/
def limit : Nat := 10 * 1024 * 1024

/-- Whether the automaton is within the limit. -/
def fits (size : AutomatonSize) : Bool :=
  size.memory ≤ limit

/-- Add so many states that lead to one other each. -/
def addPlain (size : AutomatonSize) (count : Nat) : AutomatonSize :=
  ⟨size.states + count, size.memory + count * stateMemory⟩

/-- Add a state with so many moves. -/
def addMoves (size : AutomatonSize) (moves : Nat) : AutomatonSize :=
  ⟨size.states + 1, size.memory + stateMemory + moves * moveMemory⟩

/-- Add a state that branches to so many others. -/
def addBranching (size : AutomatonSize) (references : Nat) : AutomatonSize :=
  ⟨size.states + 1, size.memory + stateMemory + references * referenceMemory⟩

/-- Let a branching state refer to so many states more. -/
def addReferences (size : AutomatonSize) (references : Nat) : AutomatonSize :=
  { size with memory := size.memory + references * referenceMemory }

/-- Add so many copies of something.  An automaton beyond the limit grows no further. -/
def addCopies (copy : AutomatonSize → AutomatonSize) : Nat → AutomatonSize → AutomatonSize
  | 0, size => size
  | count + 1, size => if size.fits then addCopies copy count (copy size) else size

end AutomatonSize

/-- States that may be used again.  A state is kept under a slot that is computed from
what it reads; a later one takes its place there. -/
structure StateTable (Key : Type) where
  slots : Nat
  kept : Std.HashMap Nat (Key × Nat) := {}

namespace StateTable

/-- The slot of a list of numbers, which are mixed into a word one after the other. -/
def slotOf (slots : Nat) (numbers : List Nat) : Nat :=
  let mixed := numbers.foldl
    (fun mixed number => (mixed ^^^ number.toUInt64) * 1099511628211)
    (14695981039346656037 : UInt64)
  mixed.toNat % slots

variable {Key : Type} [DecidableEq Key]

/-- The state with the given key, if it is still kept in the slot. -/
def find? (table : StateTable Key) (slot : Nat) (key : Key) : Option Nat :=
  match table.kept[slot]? with
  | some (other, state) => if key = other then some state else none
  | none => none

/-- Keep a state in a slot. -/
def keep (table : StateTable Key) (slot : Nat) (key : Key) (state : Nat) : StateTable Key :=
  { table with kept := table.kept.insert slot (key, state) }

end StateTable

namespace ByteTree

/-- A move of a state: the range that it reads and the state to which it leads. -/
abbrev Move := CodeRange × Nat

/-- The numbers of moves that are listed in reverse. -/
def moveNumbers (moves : List Move) : List Nat :=
  moves.foldl (fun numbers ((low, high), state) => low :: high :: state :: numbers) []

/-- Add the states that read a tree and lead to `target`, where the moves of the first
state so far are given in reverse.  States with the same moves are shared.  The result
is the number of the first state. -/
def addStates (target : Nat) :
    ByteTree → List Move → AutomatonSize × StateTable (List Move) →
      Nat × AutomatonSize × StateTable (List Move)
  | .done, moves, (size, table) =>
      let slot := StateTable.slotOf table.slots (moveNumbers moves)
      match table.find? slot moves with
      | some state => (state, size, table)
      | none => (size.states, size.addMoves moves.length, table.keep slot moves size.states)
  | .move range next further, moves, built =>
      match next with
      | .done => further.addStates target ((range, target) :: moves) built
      | .move _ _ _ =>
          let (state, built) := next.addStates target [] built
          further.addStates target ((range, state) :: moves) built

end ByteTree

namespace EncodedSet

/-- A range that is read before going on to a state. -/
abbrev Step := Nat × CodeRange

/-- Add the states that read a sequence and go on to the given state. -/
def addSequence : List CodeRange → Nat → AutomatonSize × StateTable Step →
    AutomatonSize × StateTable Step
  | [], _, built => built
  | (low, high) :: rest, state, (size, table) =>
      let step := (state, (low, high))
      let slot := StateTable.slotOf table.slots [state, low, high]
      match table.find? slot step with
      | some known => addSequence rest known (size, table)
      | none => addSequence rest size.states
          (size.addPlain 1, table.keep slot step size.states)

/-- Add the states for one character of a set.  Forwards, states with the same moves are
shared; backwards, what the sequences start with. -/
def addStates (direction : ReadingDirection) (members : EncodedSet) (size : AutomatonSize) :
    AutomatonSize :=
  if members.isAscii then (size.addPlain 1).addMoves members.ranges.length
  else
    match direction with
    | .forward =>
        (members.tree.addStates size.states [] (size.addPlain 1, ⟨10000, {}⟩)).2.1
    | .backward =>
        let target := size.states + 1
        let size := (size.addBranching members.sequences.length).addPlain 1
        (members.sequences.foldl (fun built sequence => addSequence sequence target built)
          (size, ⟨1000, {}⟩)).1

end EncodedSet

namespace LiteralTree

/-- Add the state for so many moves from one node, if there are any. -/
def addNodeMoves (size : AutomatonSize) : Nat → AutomatonSize
  | 0 => size
  | 1 => (size.addPlain 1).addReferences 1
  | moves => (size.addMoves moves).addReferences 1

/-- Add the states of a node, where so many moves of it have been met since the last
stop. -/
def addNode : LiteralTree → Nat → AutomatonSize → AutomatonSize
  | .done, moves, size => (addNodeMoves size moves).addBranching 0
  | .stop further, moves, size =>
      further.addNode 0 ((addNodeMoves size moves).addReferences 1)
  | .move _ next further, moves, size =>
      further.addNode (moves + 1) (if next.isLeaf then size else next.addNode 0 size)

/-- Add the states of a tree. -/
def addStates (tree : LiteralTree) (size : AutomatonSize) : AutomatonSize :=
  tree.addNode 0 (size.addPlain 1)

end LiteralTree

namespace SimplePattern

/-- The bytes of a text in the order in which they are read. -/
def bytesOf (direction : ReadingDirection) (text : List Char) : List UInt8 :=
  let bytes := Utf8.encode (String.ofList text)
  match direction with
  | .forward => bytes
  | .backward => bytes.reverse

/-- The number of bytes of a text. -/
def byteCount (text : List Char) : Nat :=
  text.foldl (fun count character => count + character.utf8Size) 0

/-- Add the states for repetitions, given how to add those for one, and whether each of
them takes a character. -/
def addRepetitions (copy : AutomatonSize → AutomatonSize) (takes : Bool) (least : Nat)
    (most : Option Nat) (size : AutomatonSize) : AutomatonSize :=
  match least, most with
  | 0, none =>
      if takes then copy (size.addBranching 2)
      else (((copy size).addBranching 2).addBranching 2).addPlain 1
  | least, none => (AutomatonSize.addCopies copy least size).addBranching 2
  | 0, some 1 => (copy (size.addBranching 2)).addPlain 1
  | least, some most =>
      let size := if least = 0 then size.addPlain 1 else AutomatonSize.addCopies copy least size
      if most ≤ least then size
      else
        AutomatonSize.addCopies (fun size => copy (size.addBranching 2)) (most - least)
          (size.addPlain 1)

mutual

/-- Add the states of a pattern. -/
def addStates (direction : ReadingDirection) : SimplePattern → AutomatonSize → AutomatonSize
  | .empty, size => size.addPlain 1
  | .literal text, size => size.addPlain (byteCount text)
  | .set members, size => members.addStates direction size
  | .condition _, size => size.addPlain 1
  | .repeated inner least most _, size =>
      addRepetitions (addStates direction inner) (inner.takesCharacter && !inner.hasVoid)
        least most size
  | .group inner, size =>
      match direction with
      | .forward => (addStates .forward inner (size.addPlain 1)).addPlain 1
      | .backward => addStates .backward inner size
  | .sequence parts, size => addParts direction parts size
  | .choice branches, size =>
      match branches.mapM literal? with
      | some literals => (LiteralTree.ofLiterals (literals.map (bytesOf direction))).addStates size
      | none => addBranches direction 0 branches size

/-- Add the states of the parts of a sequence. -/
def addParts (direction : ReadingDirection) : List SimplePattern → AutomatonSize → AutomatonSize
  | [], size => size
  | part :: rest, size =>
      match direction with
      | .forward => addParts .forward rest (addStates .forward part size)
      | .backward => addStates .backward part (addParts .backward rest size)

/-- Add the states of the branches of a choice, so many of which have been added.  The
state that branches comes behind the first two, with the one where they meet again. -/
def addBranches (direction : ReadingDirection) (count : Nat) :
    List SimplePattern → AutomatonSize → AutomatonSize
  | [], size => size
  | branch :: rest, size =>
      let size := (addStates direction branch size).addReferences 1
      addBranches direction (count + 1) rest
        (if count = 1 then (size.addBranching 0).addPlain 1 else size)

end

/-- The automaton before the pattern: any bytes may stand in front of a match, unless it
has to start where the text does. -/
def leadSize (anchored : Bool) : AutomatonSize :=
  let size : AutomatonSize := {}
  if anchored then size.addPlain 1
  else ((size.addBranching 2).addPlain 1).addMoves 1

/-- The size of the automaton of a pattern.  Forwards the whole match is a group that
remembers its text. -/
def automatonSize (pattern : SimplePattern) : ReadingDirection → AutomatonSize
  | .forward =>
      ((group pattern).addStates .forward (leadSize pattern.needsTextStart)).addPlain 1
  | .backward =>
      (pattern.addStates .backward (leadSize pattern.needsTextEnd)).addPlain 1

/-- Whether the pattern is a choice between so many literals that they are searched for
without an automaton of this kind. -/
def isWordList : SimplePattern → Bool
  | .choice branches => 3000 ≤ branches.length && branches.all fun branch => branch.literal?.isSome
  | _ => false

end SimplePattern

namespace PatternExpression

/-- Whether the automata of an expression stay within the limit. -/
def fitsLimit (expression : PatternExpression) : Bool :=
  let pattern := expression.simplified
  pattern.isWordList ||
    ((pattern.automatonSize .forward).fits && (pattern.automatonSize .backward).fits)

end PatternExpression

end ScriptBridge

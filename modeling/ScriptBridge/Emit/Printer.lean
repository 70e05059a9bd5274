import ScriptBridge.Diagnostic.Basic
import ScriptBridge.IndentedText
import ScriptBridge.Options
import ScriptBridge.Precedence
import ScriptBridge.Scope
import ScriptBridge.Tree.Place
import ScriptBridge.TypeImports

/-!
# Printers

A printer writes code under fixed settings.  It keeps the text written so far,
the scopes around the current place, the types referred to, the diagnostics
raised and the ranks looked up, and it stops at the first error if the options
say so.

Every construct is printed in a role, which says where it stands in the
construct around it.  A role is set for one construct, which takes it, and never
holds for its parts.

The rank of an operator is asked for by the construct around it and by the
operator itself.  It is looked up once and remembered under the place of the
operator, so that an operator without a rank is reported once.
-/

namespace ScriptBridge

/-- What a file is generated with. -/
structure Settings where
  options : Options := {}
  index : Option MemberIndex := none
  file : String := ""

/-- Where a construct stands in the construct around it. -/
inductive Role where
  /-- Anywhere else. -/
  | plain
  /-- An operand, for the rank of which the construct around it has asked. -/
  | ranked
  /-- The name of a type. -/
  | typeName
  /-- A parameter. -/
  | parameter
  /-- The name of a declared variable. -/
  | declaredName
  /-- The name behind a dot, or a label. -/
  | memberName
  /-- The key of an entry or member. -/
  | key
  /-- A declaration behind `export`. -/
  | exported
  /-- A block with a statement put in front of its own. -/
  | block (prologue : Option String)
  /-- The function of a method defined at the given place. -/
  | method (owner : Position) (isConstructor isAbstract : Bool)
  deriving DecidableEq, Repr

/-- The state of a printer. -/
structure PrinterState where
  /-- The role of the construct that is printed next. -/
  role : Role := .plain
  text : IndentedText := {}
  scopes : ScopeStack := {}
  types : TypeImports := {}
  diagnostics : List Diagnostic := []
  /-- The ranks looked up so far, each under the place of its node. -/
  ranks : OrderedMap NodePlace Rank := {}
  deriving DecidableEq, Repr

/-- The state before anything is printed. -/
def PrinterState.start : PrinterState := {}

/-- A computation that prints code; it may stop with an error. -/
abbrev Printer := ReaderT Settings (StateT PrinterState (Except Diagnostic))

/-- The role of a name bound by a pattern in the given role. -/
def Role.binding : Role → Role
  | .parameter => .parameter
  | .declaredName => .declaredName
  | _ => .plain

/-- The role of an expression under a cast in the given role. -/
def Role.underCast : Role → Role
  | .ranked => .ranked
  | _ => .plain

/-- How a construct gets at a part beside its node: the part is printed in a role,
and it is asked for its rank. -/
class Printable (Access : Type) where
  printAs : Access → Role → Printer Unit
  rankOf : Node → Access → Printer Rank

namespace Folded

variable {Access : Type} [Printable Access]

/-- Print a part in the given role. -/
def printAs (part : Folded Access) (role : Role) : Printer Unit :=
  Printable.printAs part.result role

/-- Print a part that stands in no special place. -/
def print (part : Folded Access) : Printer Unit :=
  part.printAs .plain

end Folded

namespace Printer

/-- Take the role that was set for the construct at hand; none is left behind. -/
def takeRole : Printer Role := do
  let role := (← get).role
  modify fun state => { state with role := .plain }
  return role

/-- Print a construct for which the given role is set. -/
def withRole (role : Role) (printer : Printer Unit) : Printer Unit := do
  modify fun state => { state with role }
  printer

/-- The options of the run. -/
def options : Printer Options :=
  return (← read).options

/-- Change the text. -/
def modifyText (change : IndentedText → IndentedText) : Printer Unit :=
  modify fun state => { state with text := change state.text }

/-- Change the scopes. -/
def modifyScopes (change : ScopeStack → ScopeStack) : Printer Unit :=
  modify fun state => { state with scopes := change state.scopes }

/-- Change what is known of types. -/
def modifyTypes (change : TypeImports → TypeImports) : Printer Unit :=
  modify fun state => { state with types := change state.types }

/-- Write a text. -/
def write (added : String) : Printer Unit :=
  modifyText fun text => text.write added

/-- Write a text if a condition holds. -/
def writeIf (condition : Bool) (added : String) : Printer Unit :=
  if condition then write added else pure ()

/-- Write a text exactly as it is. -/
def writeVerbatim (added : String) : Printer Unit :=
  modifyText fun text => text.writeVerbatim added

/-- End the line. -/
def newLine : Printer Unit :=
  modifyText IndentedText.newLine

/-- Indent further lines by one more level. -/
def indent : Printer Unit :=
  modifyText IndentedText.indent

/-- Indent further lines by one level less. -/
def dedent : Printer Unit :=
  modifyText IndentedText.dedent

/-- The length of the text. -/
def length : Printer Nat :=
  return (← get).text.size

/-- Drop everything behind an earlier length. -/
def truncate (length : Nat) : Printer Unit :=
  modifyText fun text => text.truncate length

/-- Run a printer and take back what it writes. -/
def textOf (printer : Printer Unit) : Printer String := do
  let (marked, length) := (← get).text.mark
  modifyText fun _ => marked
  printer
  let (before, taken) := (← get).text.splitOff length
  modifyText fun _ => before
  return taken

/-- Print something between two texts if a condition holds, else bare. -/
def enclosedIf (condition : Bool) (opening closing : String) (printer : Printer Unit) :
    Printer Unit := do
  writeIf condition opening
  printer
  writeIf condition closing

/-- Print items with commas between them. -/
def separated {Item : Type} (print : Item → Printer Unit) : List Item → Printer Unit
  | [] => pure ()
  | [item] => print item
  | item :: next :: rest => do
      print item
      write ", "
      separated print (next :: rest)

/-- Print something that may be absent. -/
def whenPresent {Item : Type} (item : Option Item) (print : Item → Printer Unit) :
    Printer Unit :=
  match item with
  | some item => print item
  | none => pure ()

/-- Raise a diagnostic.  An error ends the generation if the options say so. -/
def report (problem : Problem) (place : Position) (arguments : List String) :
    Printer Unit := do
  let settings ← read
  let diagnostic := Diagnostic.about problem settings.file place arguments
  modify fun state => { state with diagnostics := state.diagnostics ++ [diagnostic] }
  if diagnostic.isError && settings.options.stopAtError then throw diagnostic

/-- Report something that is not converted. -/
def unsupported (place : Position) (what : String) : Printer Unit :=
  report .unsupportedConstruct place [what]

/-- Report something that is not converted if it is present. -/
def unsupportedIf (present : Bool) (place : Position) (what : String) : Printer Unit :=
  if present then unsupported place what else pure ()

/-- Report that a necessary part is missing. -/
def missing (place : Position) (what : String) : Printer Unit :=
  report .missingPart place [what]

/-- The rank of a pattern that stands at the given place.  One that has no rank
is reported and binds loosest. -/
def lookUpRank (place : Position) : Option String → Printer Rank
  | none => pure Precedence.primary
  | some pattern =>
      match Precedence.rank? pattern with
      | some rank => pure rank
      | none => do
          report .unrankedOperator place [pattern]
          pure Precedence.unranked

/-- The rank remembered under a place.  If there is none it is looked up and
remembered. -/
def remembered (place : NodePlace) (lookUp : Printer Rank) : Printer Rank := do
  match (← get).ranks.find? place with
  | some rank => return rank
  | none =>
      let rank ← lookUp
      modify fun state => { state with ranks := state.ranks.insert place rank }
      return rank

/-- The rank of the node at a place.  Casts have the rank of what they wrap. -/
def rankAt : NodePlace → Node → Printer Rank
  | place, ⟨_, .cast expression _⟩ => rankAt (Shape.castStep :: place) expression
  | place, node =>
      remembered place (lookUpRank node.location.start node.shape.operatorPattern?)

end Printer

/-- A part without a place: its rank is looked up whenever it is asked for. -/
abbrev Part := Folded (Role → Printer Unit)

instance : Printable (Role → Printer Unit) where
  printAs printer role := printer role
  rankOf node _ :=
    Printer.lookUpRank node.underCasts.location.start node.underCasts.shape.operatorPattern?

/-- The printer of a part that stands at a known place. -/
structure PlacedPrinter where
  place : NodePlace
  printer : Printer Unit

instance : Printable PlacedPrinter where
  printAs placed role := Printer.withRole role placed.printer
  rankOf node placed := Printer.rankAt placed.place node

/-- A part of which the place does not matter. -/
def Folded.toPart {Access : Type} [Printable Access] (part : Folded Access) : Part :=
  ⟨part.node, part.printAs⟩

namespace Printer

variable {Access : Type} [Printable Access]

/-- Print a type behind a colon. -/
def declaredType (part : Option (Folded Access)) : Printer Unit :=
  whenPresent part fun type => do
    write ": "
    type.print

/-- Print parameters between parentheses. -/
def parameters (params : List (Folded Access)) : Printer Unit := do
  write "("
  separated (Folded.printAs · .parameter) params
  write ")"

/-- The rank of a part. -/
def rankOf (child : Folded Access) : Printer Rank :=
  Printable.rankOf child.node child.result

/-- Print an operand, in parentheses if it binds too loosely. -/
def operand (kind : Operand) (parent : Rank) (child : Folded Access) : Printer Unit := do
  let rank ← rankOf child
  enclosedIf (kind.needsParens rank parent) "(" ")" (child.printAs .ranked)

/-- Print an item of a list, where only a sequence needs parentheses. -/
def listItem (child : Folded Access) : Printer Unit :=
  operand .tight Precedence.comma child

end Printer

end ScriptBridge

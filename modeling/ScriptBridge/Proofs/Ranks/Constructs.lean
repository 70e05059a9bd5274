import ScriptBridge.Proofs.Printing.Inspection
import ScriptBridge.Proofs.Ranks.Ledger

/-!
# Constructs and the places that they use

Every construct prints each of its parts at most once, and asks for the rank of an operand
right before it prints the operand.  So it uses no place that its parts do not use, apart from
its own, and no place twice.
-/

namespace ScriptBridge

namespace Printer

/-- A node with two printers, one that remembers ranks and one that goes by roles, and the
places that they use.  They are tracked by a ledger, also behind the lookup of its rank. -/
structure Tallied (ledger : Ledger) where
  node : Node
  printer : PlacedPrinter
  printAs : Role → Printer Unit
  used : NodePlace → Nat
  tracked : ∀ role, role ≠ .ranked →
    Tracks ledger none used (withRole role printer.printer) (printAs role)
  operand : ∀ needsParens : Rank → Bool, Tracks ledger none used
    (do
      let rank ← rankAt printer.place node
      enclosedIf (needsParens rank) "(" ")" (withRole .ranked printer.printer))
    (do
      let rank ← lookUpRank node.underCasts.location.start node.underCasts.shape.operatorPattern?
      enclosedIf (needsParens rank) "(" ")" (printAs .ranked))

variable {ledger : Ledger}

namespace Tallied

/-- The part that knows its place. -/
def placed (item : Tallied ledger) : Folded PlacedPrinter := ⟨item.node, item.printer⟩

/-- The same part where its place does not matter. -/
def written (item : Tallied ledger) : Part := item.placed.toPart

/-- The part that goes by roles. -/
def part (item : Tallied ledger) : Part := ⟨item.node, item.printAs⟩

theorem node_placed (item : Tallied ledger) : item.placed.node = item.node :=
  rfl

theorem node_written (item : Tallied ledger) : item.written.node = item.node :=
  rfl

theorem node_part (item : Tallied ledger) : item.part.node = item.node :=
  rfl

/-- The places used by some parts together. -/
def total (items : List (Tallied ledger)) : NodePlace → Nat :=
  (items.map (·.used)).sum

@[simp]
theorem total_nil : total ([] : List (Tallied ledger)) = 0 :=
  rfl

@[simp]
theorem total_cons (item : Tallied ledger) (items : List (Tallied ledger)) :
    total (item :: items) = item.used + total items := by
  simp [total]

@[simp]
theorem total_append (items others : List (Tallied ledger)) :
    total (items ++ others) = total items + total others := by
  simp [total]

theorem total_filter_le (keep : Tallied ledger → Bool) (items : List (Tallied ledger)) :
    total (items.filter keep) ≤ total items := by
  induction items with
  | nil => exact le_refl _
  | cons item rest ih =>
      rw [List.filter_cons]
      split
      · rw [total_cons, total_cons]
        exact add_le_add_right ih _
      · rw [total_cons]
        exact le_add_left ih

theorem total_head?_le (items : List (Tallied ledger)) :
    total items.head?.toList ≤ total items := by
  cases items <;> simp

/-- Of two spellings of type arguments one is chosen. -/
theorem total_chosen_le (typeParameters typeArguments : Option (Tallied ledger)) :
    total (chosenTypeArguments typeParameters typeArguments).toList ≤
      total typeParameters.toList + total typeArguments.toList := by
  cases typeArguments <;> simp [chosenTypeArguments]

theorem total_elements (elements : List (Option (Tallied ledger))) :
    (elements.map fun element => (element.toList.map (·.used)).sum).sum =
      total (elements.filterMap id) := by
  induction elements with
  | nil => rfl
  | cons element rest ih =>
      rw [List.map_cons, List.sum_cons, ih]
      cases element <;> simp

theorem print (item : Tallied ledger) :
    Tracks ledger none item.used item.written.print item.part.print :=
  item.tracked .plain (by decide)

end Tallied

open Tallied

/-- A way to look at parts under which a part is printed as it is where its place does not
matter. -/
def Viewed {Access : Type} [Printable Access] (view : Tallied ledger → Folded Access) : Prop :=
  ∀ item role, (view item).printAs role = item.written.printAs role

theorem viewed_written : Viewed (@written ledger) :=
  fun _ _ => rfl

theorem viewed_placed : Viewed (@placed ledger) :=
  fun _ _ => rfl

/-- A printer of parts that uses some places, whichever of their printers the parts have. -/
abbrev Uses {Result : Type} (ledger : Ledger) (used : NodePlace → Nat)
    (printer : (Tallied ledger → Part) → Printer Result) : Prop :=
  Tracks ledger none used (printer written) (printer part)

namespace Remembering

/-! ## Parts in a row -/

section

variable {First Second : Type} {toFirst : Tallied ledger → First}
variable {toSecond : Tallied ledger → Second} {printFirst : First → Printer Unit}
variable {printSecond : Second → Printer Unit}
variable (each : ∀ item : Tallied ledger,
  Tracks ledger none item.used (printFirst (toFirst item)) (printSecond (toSecond item)))

include each

theorem parts (items : List (Tallied ledger)) :
    Tracks ledger none (total items) (Printer.separated printFirst (items.map toFirst))
      (Printer.separated printSecond (items.map toSecond)) :=
  separated each items

theorem part? (item : Option (Tallied ledger)) :
    Tracks ledger none (total item.toList) (Printer.whenPresent (item.map toFirst) printFirst)
      (Printer.whenPresent (item.map toSecond) printSecond) :=
  whenPresent each item

end

section Views

variable {Access : Type} [Printable Access] {view : Tallied ledger → Folded Access}

/-- A part behind a word. -/
theorem afterWord (viewed : Viewed view) (word : String) {role : Role} (unasked : role ≠ .ranked)
    (item : Option (Tallied ledger)) :
    Tracks ledger none (total item.toList)
      (Printer.whenPresent (item.map view) fun part => do
        Printer.write word
        part.printAs role)
      (Printer.whenPresent (item.map part) fun part => do
        Printer.write word
        part.printAs role) := by
  refine part? ?_ item
  intro item
  refine (write word).before ?_
  rw [viewed]
  exact item.tracked role unasked

theorem declaredType (viewed : Viewed view) (type : Option (Tallied ledger)) :
    Tracks ledger none (total type.toList)
      (declaredType (type.map view)) (declaredType (type.map part)) :=
  afterWord viewed ": " (by decide) type

theorem parameters (viewed : Viewed view) (params : List (Tallied ledger)) :
    Tracks ledger none (total params)
      (parameters (params.map view)) (parameters (params.map part)) := by
  refine (write "(").before (Tracks.closing (parts (fun param => ?_) params) (write ")"))
  rw [viewed]
  exact param.tracked .parameter (by decide)

theorem chosenTypes (viewed : Viewed view)
    (typeParameters typeArguments : Option (Tallied ledger)) :
    Tracks ledger none (total typeParameters.toList + total typeArguments.toList)
      (Printer.whenPresent
        (chosenTypeArguments (typeParameters.map view) (typeArguments.map view)) Folded.print)
      (Printer.whenPresent
        (chosenTypeArguments (typeParameters.map part) (typeArguments.map part))
        Folded.print) := by
  rw [Shape.chosenTypeArguments_map, Shape.chosenTypeArguments_map]
  refine (part? (fun types => ?_) _).atMost (total_chosen_le typeParameters typeArguments)
  rw [Folded.print, viewed]
  exact types.print

end Views

/-! ## Operands -/

theorem operand (kind : Operand) (parent : Rank) (child : Tallied ledger) :
    Tracks ledger none child.used (operand kind parent child.placed)
      (operand kind parent child.part) :=
  child.operand fun rank => kind.needsParens rank parent

theorem listItem (child : Tallied ledger) :
    Tracks ledger none child.used (listItem child.placed) (listItem child.part) :=
  operand _ _ child

theorem unary (rank : Rank) (operator : String) (leading : Bool) (argument : Tallied ledger) :
    Tracks ledger none argument.used (unary rank operator leading argument.placed)
      (unary rank operator leading argument.part) := by
  cases leading
  · exact (operand _ _ argument).closing (write operator)
  · exact (write operator).before ((writeIf _ " ").before (operand _ _ argument))

theorem binary (rank : Rank) (fromRight : Bool) (operator : String)
    (left right : Tallied ledger) :
    Tracks ledger none (left.used + right.used)
      (binary rank fromRight operator left.placed right.placed)
      (binary rank fromRight operator left.part right.part) :=
  (operand _ _ left).andThen ((write " ").before ((write operator).before
    ((write " ").before (operand _ _ right))))

theorem conditional (rank : Rank) (test consequent alternate : Tallied ledger) :
    Tracks ledger none (test.used + (consequent.used + alternate.used))
      (conditional rank test.placed consequent.placed alternate.placed)
      (conditional rank test.part consequent.part alternate.part) :=
  (operand _ _ test).andThen ((write " ? ").before ((operand _ _ consequent).andThen
    ((write " : ").before (operand _ _ alternate))))

theorem spread (rank : Rank) (argument : Tallied ledger) :
    Tracks ledger none argument.used (spread rank argument.placed) (spread rank argument.part) :=
  (write "...").before (operand _ _ argument)

theorem member (rank : Rank) (object property : Tallied ledger) (computed optional : Bool) :
    Tracks ledger none (object.used + property.used)
      (member rank object.placed property.placed computed optional)
      (member rank object.part property.part computed optional) := by
  cases computed
  · exact (operand _ _ object).andThen
      ((write _).before (property.tracked .memberName (by decide)))
  · exact (operand _ _ object).andThen ((write _).before (property.print.closing (write "]")))

theorem rawCode (arguments : List (Tallied ledger)) :
    Tracks ledger none (total arguments) (rawCode (arguments.map placed))
      (rawCode (arguments.map part)) := by
  cases arguments with
  | nil => exact (pure ()).tracks
  | cons code others =>
      rw [List.map_cons, List.map_cons]
      simp only [Printer.rawCode, node_placed, node_part]
      split
      · exact (write _).tracks.atMost zero_le
      · exact ((textOf code.print).closingWith fun _ => writeVerbatim _).atMost (by simp)

theorem applied (opening : String) (arguments : List (Tallied ledger))
    (typeParameters typeArguments : Option (Tallied ledger)) :
    Tracks ledger none
      ((total typeParameters.toList + total typeArguments.toList) + total arguments)
      (applied opening (arguments.map placed)
        (chosenTypeArguments (typeParameters.map placed) (typeArguments.map placed)))
      (applied opening (arguments.map part)
        (chosenTypeArguments (typeParameters.map part) (typeArguments.map part))) :=
  (chosenTypes viewed_placed typeParameters typeArguments).andThen ((write opening).before
    ((parts listItem arguments).closing (write ")")))

theorem constructed (rank : Rank) (callee : Tallied ledger) :
    Tracks ledger none callee.used (constructed rank callee.placed)
      (constructed rank callee.part) := by
  unfold Printer.constructed
  exact .choice (enclosedIf true "(" ")" callee.print) (operand _ _ callee)

theorem construction (rank : Rank) (callee : Tallied ledger) (arguments : List (Tallied ledger))
    (typeParameters typeArguments : Option (Tallied ledger)) :
    Tracks ledger none
      (callee.used + (total typeParameters.toList + total typeArguments.toList +
        total arguments))
      (construction rank callee.placed (arguments.map placed)
        (chosenTypeArguments (typeParameters.map placed) (typeArguments.map placed)))
      (construction rank callee.part (arguments.map part)
        (chosenTypeArguments (typeParameters.map part) (typeArguments.map part))) := by
  refine (textOf (constructed rank callee)).bind fun text => ?_
  split
  · exact (write _).tracks.atMost zero_le
  · split
    · rw [List.head?_map, List.head?_map]
      refine Tracks.atMost ?_ (le_add_left (total_head?_le arguments))
      apply part?
      exact Tallied.print
    · exact (write "new ").before ((writeVerbatim text).before
        (applied "(" arguments typeParameters typeArguments))

theorem arrayLiteral (elements : List (Option (Tallied ledger))) :
    Tracks ledger none (total (elements.filterMap id))
      (arrayLiteral (elements.map (·.map placed)))
      (arrayLiteral (elements.map (·.map part))) := by
  rw [← total_elements]
  exact (write "[").before ((separated (fun element => whenPresent listItem element)
    elements).closing (write "]"))

theorem declarator (variableName : Tallied ledger) (init : Option (Tallied ledger)) :
    Tracks ledger none (variableName.used + total init.toList)
      (declarator variableName.placed (init.map placed))
      (declarator variableName.part (init.map part)) := by
  refine (variableName.tracked .declaredName (by decide)).andThen (part? ?_ init)
  intro value
  exact (write " = ").before (listItem value)

theorem arrowBody (body : Tallied ledger) :
    Tracks ledger none body.used (arrowBody body.placed) (arrowBody body.part) := by
  have sameBlock : isBlock body.placed = isBlock body.part := rfl
  have sameLiteral : isObjectLiteral body.placed = isObjectLiteral body.part := rfl
  unfold Printer.arrowBody
  rw [sameBlock, sameLiteral]
  split
  · exact body.print
  · exact body.operand _

theorem arrow (place : Position) (params : List (Tallied ledger))
    (body returnType : Option (Tallied ledger)) :
    Tracks ledger none (total params + (total returnType.toList + total body.toList))
      (arrow place (params.map placed) (body.map placed) (returnType.map placed))
      (arrow place (params.map part) (body.map part) (returnType.map part)) := by
  refine withinFunction "" false false ((parameters viewed_placed params).andThen
    ((declaredType viewed_placed returnType).andThen ((write " => ").before ?_)))
  cases body with
  | none => exact (unsupported _ _).tracks
  | some body => exact (arrowBody body).atMost (by simp)

/-! ## Types -/

theorem typeClause (type : Tallied ledger) :
    Uses ledger type.used fun view => typeClause (view type) := by
  refine (textOf type.print).closingWith fun text => ?_
  split
  · exact write _
  · exact writeVerbatim _

theorem namedType (name : Tallied ledger) (typeParameters typeArguments : Option (Tallied ledger)) :
    Uses ledger (name.used + (total typeParameters.toList + total typeArguments.toList))
      fun view =>
        namedType (view name) (typeParameters.map view) (typeArguments.map view) :=
  (name.tracked .typeName (by decide)).andThen
    (chosenTypes viewed_written typeParameters typeArguments)

theorem typeList (params : List (Tallied ledger)) :
    Uses ledger (total params) fun view => typeList (params.map view) :=
  (write "<").before ((parts (fun param => param.tracked .typeName (by decide)) params).closing
    (write ">"))

theorem qualifiedName (left right : Tallied ledger) :
    Uses ledger (left.used + right.used) fun view => qualifiedName (view left) (view right) := by
  simp only [Uses, Printer.qualifiedName, node_written, node_part]
  split
  · exact ((write _).before ((write _).before (write _).tracks)).atMost zero_le
  · exact left.print.andThen ((write _).before (right.tracked .memberName (by decide)))

/-! ## Expressions -/

theorem identifier (role : Role) (source : String) (type : Option (Tallied ledger))
    (optional : Bool) :
    Uses ledger (total type.toList) fun view =>
      identifier role source (type.map view) optional :=
  (name role source).before ((writeIf optional "?").before (declaredType viewed_written type))

theorem literal (raw : String) (value : Json) :
    Keeps ledger (literal raw value) (literal raw value) :=
  options.bind fun _ => write _

theorem binding_ne (role : Role) : role.binding ≠ .ranked := by
  cases role <;> simp [Role.binding]

theorem rest (role : Role) (argument : Tallied ledger) (type : Option (Tallied ledger)) :
    Uses ledger (argument.used + total type.toList) fun view =>
      rest role (view argument) (type.map view) :=
  (write "...").before ((argument.tracked _ (binding_ne role)).andThen
    (declaredType viewed_written type))

theorem assignmentPattern (role : Role) (left right : Tallied ledger) :
    Uses ledger (left.used + right.used) fun view =>
      assignmentPattern role (view left) (view right) :=
  (left.tracked _ (binding_ne role)).andThen ((write " = ").before right.print)

theorem objectLiteral (properties : List (Tallied ledger)) :
    Uses ledger (total properties) fun view => objectLiteral (properties.map view) :=
  (write "\x7b").before ((parts Tallied.print properties).closing (write "\x7d"))

theorem entryKey (key : Tallied ledger) (computed : Bool) :
    Uses ledger key.used fun view => entryKey (view key) computed := by
  cases computed
  · exact key.tracked .key (by decide)
  · exact enclosedIf true "[" "]" key.print

theorem entry (key value : Tallied ledger) (computed : Bool) :
    Uses ledger (key.used + value.used) fun view => entry (view key) (view value) computed :=
  (entryKey key computed).andThen ((write ": ").before value.print)

/-! ## Statements -/

theorem statements (wroteAny : Bool) (body : List (Tallied ledger)) :
    Uses ledger (total body) fun view => statements wroteAny (body.map view) := by
  induction body generalizing wroteAny with
  | nil => exact (pure _).tracks
  | cons statement rest ih =>
      simp only [Uses, List.map_cons, Printer.statements, total_cons, node_written, node_part]
      refine .choice ((ih wroteAny).atMost le_add_self) ?_
      refine length.beforeRest fun before => ?_
      -- A statement that is not the first starts a line; the rest is the same.
      split
      case' isTrue => apply newLine.before
      all_goals
        refine length.beforeRest fun start => statement.print.andThen ?_
        refine length.beforeRest fun stop => ?_
        exact .choice ((truncate before).before (ih wroteAny)) ((writeIf _ ";").before (ih true))

theorem topLevel (body : List (Tallied ledger)) :
    Uses ledger (total body) fun view => topLevel (body.map view) :=
  (statements false body).closingWith fun _ => pure ()

theorem block (prologue : Option String) (body : List (Tallied ledger)) :
    Uses ledger (total body) fun view => block prologue (body.map view) := by
  refine (write "\x7b").before (length.beforeRest fun opened => indent.before
    (newLine.before ((write _).before ((statements _ body).closingWith fun wroteAny =>
      dedent.bind fun _ => ?_))))
  split
  · exact newLine.bind fun _ => write "\x7d"
  · exact (truncate opened).bind fun _ => write "\x7d"

theorem braced (prologue : Option String) (statement : Tallied ledger) :
    Uses ledger statement.used fun view => braced prologue (view statement) := by
  have sameBlock : isBlock statement.written = isBlock statement.part := rfl
  simp only [Uses, Printer.braced, sameBlock]
  exact .choice (statement.tracked (.block prologue) (by simp))
    ((block prologue [statement]).atMost (by simp))

theorem alternative (statement : Tallied ledger) :
    Uses ledger statement.used fun view => alternative (view statement) := by
  simp only [Uses, Printer.alternative, node_written, node_part]
  split
  · exact (write " else ").before statement.print
  · exact (pure ()).tracks.atMost zero_le
  · exact (write " else ").before (braced none statement)

theorem ifStatement (test consequent : Tallied ledger) (alternate : Option (Tallied ledger)) :
    Uses ledger (test.used + (consequent.used + total alternate.toList)) fun view =>
      ifStatement (view test) (view consequent) (alternate.map view) :=
  (write "if (").before (test.print.andThen ((write ") ").before
    ((braced none consequent).andThen (part? alternative alternate))))

theorem switchCases (cases : List (Tallied ledger)) :
    Uses ledger (total cases) fun view => switchCases (cases.map view) := by
  induction cases with
  | nil => exact (pure ()).tracks
  | cons branch rest ih =>
      rw [total_cons]
      exact newLine.before (branch.print.andThen ih)

theorem switch (discriminant : Tallied ledger) (cases : List (Tallied ledger)) :
    Uses ledger (discriminant.used + total cases) fun view =>
      switch (view discriminant) (cases.map view) := by
  refine (write "switch (").before (discriminant.print.andThen ((write ") \x7b").before
    (indent.before ((switchCases cases).closing (dedent.bind fun _ => ?_)))))
  cases cases with
  | nil => exact write "\x7d"
  | cons => exact newLine.bind fun _ => write "\x7d"

/-- The statements of a case, in a block of their own, up to the break. -/
theorem caseBody (consequent : List (Tallied ledger)) :
    Uses ledger (total consequent) fun view => (do
      Printer.indent
      Printer.newLine
      let start ← Printer.length
      Printer.write "\x7b"
      Printer.indent
      Printer.newLine
      let wroteAny ← Printer.statements false
        ((consequent.map view).filter fun part => !part.node.isBreak)
      Printer.dedent
      if wroteAny then
        Printer.newLine
        Printer.write "\x7d"
        Printer.newLine
      else Printer.truncate start
      Printer.write "break;"
      Printer.dedent) := by
  have kept := total_filter_le (fun item => !item.node.isBreak) consequent
  have broken : Keeps ledger (do Printer.write "break;"; Printer.dedent) _ :=
    (write "break;").bind fun _ => dedent
  simp only [Uses, List.filter_map]
  refine Tracks.atMost ?_ kept
  refine indent.before (newLine.before (length.beforeRest fun start => (write "\x7b").before
    (indent.before (newLine.before ((statements false _).closingWith fun wroteAny =>
      dedent.bind fun _ => ?_)))))
  split
  · exact newLine.bind fun _ => (write "\x7d").bind fun _ => newLine.bind fun _ => broken
  · exact (truncate start).bind fun _ => broken

theorem switchCase (test : Option (Tallied ledger)) (consequent : List (Tallied ledger)) :
    Uses ledger (total test.toList + total consequent) fun view =>
      switchCase (test.map view) (consequent.map view) := by
  have behind := caseBody consequent
  cases test with
  | none => exact ((write "default:").before behind).atMost (by simp)
  | some test =>
      exact ((write "case ").before (test.print.andThen ((write ":").before behind))).atMost
        (by simp)

theorem forLoop (init test update : Option (Tallied ledger)) (body : Tallied ledger) :
    Uses ledger
      (total init.toList + (total test.toList + (total update.toList + body.used))) fun view =>
        forLoop (init.map view) (test.map view) (update.map view) (view body) :=
  (write "for (").before ((part? Tallied.print init).andThen ((write ";").before
    ((afterWord viewed_written " " (by decide) test).andThen ((write ";").before
      ((afterWord viewed_written " " (by decide) update).andThen
        ((write ") ").before (braced none body)))))))

theorem forEach (form : EachForm) (left right body : Tallied ledger) :
    Uses ledger (left.used + (right.used + body.used)) fun view =>
      forEach form (view left) (view right) (view body) :=
  (write "for (").before (left.print.andThen ((write " ").before ((write _).before
    ((write " ").before (right.print.andThen ((write ") ").before (braced none body)))))))

theorem loop (form : LoopForm) (test body : Tallied ledger) :
    Uses ledger (test.used + body.used) fun view => loop form (view test) (view body) := by
  cases form with
  | whileLoop =>
      exact (write "while (").before (test.print.andThen ((write ") ").before
        (braced none body)))
  | doWhile =>
      rw [add_comm]
      exact (write "do ").before ((braced none body).andThen ((write " while (").before
        (test.print.closing (write ")"))))

theorem jump (form : JumpForm) (label : Option (Tallied ledger)) :
    Uses ledger (total label.toList) fun view => jump form (label.map view) :=
  (write _).before (afterWord viewed_written " " (by decide) label)

theorem exit (form : ExitForm) (place : Position) (argument : Option (Tallied ledger)) :
    Uses ledger (total argument.toList) fun view => exit form place (argument.map view) := by
  cases form <;> cases argument
  · exact (write _).tracks
  · next value => exact ((write _).before value.print).atMost (by simp)
  · exact (missing _ _).tracks
  · next value => exact ((write _).before value.print).atMost (by simp)

theorem tryStatement (body : Tallied ledger) (handler finalizer : Option (Tallied ledger)) :
    Uses ledger (body.used + (total handler.toList + total finalizer.toList)) fun view =>
      tryStatement (view body) (handler.map view) (finalizer.map view) := by
  refine (write "try ").before ((braced none body).andThen
    ((afterWord viewed_written " " (by decide) handler).andThen (part? ?_ finalizer)))
  intro finalizer
  exact (write " finally ").before (braced none finalizer)

theorem caughtName (param : Tallied ledger) :
    Uses ledger param.used fun view => caughtName (view param) := by
  simp only [Uses, Printer.caughtName, node_written, node_part]
  split
  · exact (name _ _).tracks.atMost zero_le
  · exact param.tracked .declaredName (by decide)

theorem catchClause (param : Option (Tallied ledger)) (body : Tallied ledger) :
    Uses ledger (total param.toList + body.used) fun view =>
      catchClause (param.map view) (view body) := by
  refine (write "catch").before (Tracks.andThen (part? ?_ param)
    ((write " ").before (braced none body)))
  intro param
  exact (write " (").before ((caughtName param).closing (write ")"))

theorem variableDeclaration (role : Role) (declarations : List (Tallied ledger)) (kind : String) :
    Uses ledger (total declarations) fun view =>
      variableDeclaration role (declarations.map view) kind :=
  (writeIf _ "export ").before ((write _).before (parts Tallied.print declarations))

/-! ## Declarations -/

/-- What is asked of a part that need not be there, is asked of its node. -/
theorem bind_node {Result : Type} (item : Option (Tallied ledger)) (ask : Node → Option Result) :
    (item.map written).bind (fun part => ask part.node) =
      (item.map part).bind fun part => ask part.node := by
  cases item <;> rfl

theorem isEmpty_map {Item First Second : Type} (toFirst : Item → First) (toSecond : Item → Second)
    (items : List Item) : (items.map toFirst).isEmpty = (items.map toSecond).isEmpty := by
  cases items <;> rfl

/-- A function up to its body. -/
theorem functionHeading {used : NodePlace → Nat} (functionName : Option String)
    (params : List (Tallied ledger)) (returnType : Option (Tallied ledger))
    {first second : Printer Unit} (body : Tracks ledger none used first second) :
    Tracks ledger none (total params + (total returnType.toList + used))
      (do
        Printer.write "function"
        Printer.whenPresent functionName fun name => do
          Printer.write " "
          Printer.write name
        Printer.withinFunction (functionName.getD "") false false do
          Printer.parameters (params.map written)
          Printer.declaredType (returnType.map written)
          first)
      (do
        Printer.write "function"
        Printer.whenPresent functionName fun name => do
          Printer.write " "
          Printer.write name
        Printer.withinFunction (functionName.getD "") false false do
          Printer.parameters (params.map part)
          Printer.declaredType (returnType.map part)
          second) := by
  refine (write "function").before ((whenPresent_keeps ?_ functionName).before
    (withinFunction _ false false ((parameters viewed_written params).andThen
      ((declaredType viewed_written returnType).andThen body))))
  intro name
  exact (write " ").bind fun _ => write _

theorem function (form : FunctionForm) (role : Role) (place : Position) (marks : FunctionMarks)
    (nameNode : Option (Tallied ledger)) (params : List (Tallied ledger))
    (body returnType : Option (Tallied ledger)) :
    Uses ledger (total params + (total returnType.toList + total body.toList)) fun view =>
      function form role place marks (nameNode.map view) (params.map view) (body.map view)
        (returnType.map view) := by
  simp only [Uses, Printer.function, bind_node nameNode Node.identifier?]
  refine (unsupportedIf _ place _).before ((unsupportedIf _ place _).before
    ((unsupportedIf _ place _).before (options.beforeRest fun options => ?_)))
  split
  case' isTrue =>
    refine (writeIf _ "export ").before ((whenPresent_keeps (fun _ => modifyScopes _) _).before ?_)
  all_goals
    refine functionHeading _ params returnType ?_
    cases body with
    | none => exact (missing _ _).tracks
    | some body => exact ((write " ").before (braced none body)).atMost (by simp)

theorem methodFunction (owner : Position) (isConstructor isAbstract : Bool)
    (params : List (Tallied ledger)) (body returnType : Option (Tallied ledger)) :
    Uses ledger (total params + (total returnType.toList + total body.toList)) fun view =>
      methodFunction owner isConstructor isAbstract (params.map view)
        (body.map view) (returnType.map view) := by
  refine (parameters viewed_written params).andThen ?_
  dsimp only
  split
  case' isTrue => refine (declaredType viewed_written returnType).andThen ?_
  case' isFalse => refine Tracks.atMost ?_ le_add_self
  all_goals
    cases body with
    | none =>
        cases isAbstract
        · exact (missing _ _).tracks
        · exact (write _).tracks
    | some body =>
        exact ((write " ").before (withinMemberBody (braced _ body))).atMost (by simp)

/-- A class behind its superclass. -/
theorem classRest (className : String) (superName : Option String)
    (implementing : List (Tallied ledger)) (body : Tallied ledger) :
    Uses ledger (total implementing + body.used) fun view => (do
      if !(implementing.map view).isEmpty then
        Printer.write " implements "
        Printer.separated Folded.print (implementing.map view)
      Printer.write " "
      Printer.modifyScopes fun scopes => scopes.enterClass className superName
      (view body).print
      Printer.modifyScopes fun scopes => scopes.exitClass.1) := by
  have inside : Uses ledger body.used fun view => (do
      Printer.write " "
      Printer.modifyScopes fun scopes => scopes.enterClass className superName
      (view body).print
      Printer.modifyScopes fun scopes => scopes.exitClass.1) :=
    (write " ").before ((modifyScopes _).before (body.print.closing (modifyScopes _)))
  simp only [Uses, isEmpty_map written part implementing]
  split
  · exact (write " implements ").before ((parts Tallied.print implementing).andThen inside)
  · exact inside.atMost le_add_self

theorem classDefinition (role : Role) (place : Position) (marks : ClassMarks)
    (nameNode superClass : Option (Tallied ledger)) (implementing : List (Tallied ledger))
    (body : Tallied ledger) (decorators : List (Tallied ledger)) :
    Uses ledger (total superClass.toList + (total implementing + body.used)) fun view =>
      classDefinition role place marks (nameNode.map view) (superClass.map view)
        (implementing.map view) (view body) (decorators.map view) := by
  simp only [Uses, Printer.classDefinition, bind_node nameNode Node.identifier?,
    isEmpty_map written part decorators, bind_node superClass Node.lastName?]
  split
  · exact (missing _ _).tracks.atMost zero_le
  · exact (unsupportedIf _ place _).before ((unsupportedIf _ place _).before
      (options.beforeRest fun options => (modifyTypes _).before
        ((writeIf _ "export ").before ((writeIf _ "abstract ").before
          ((write "class ").before ((write _).before
            ((afterWord viewed_written " extends " (by decide) superClass).andThen
              (classRest _ _ implementing body))))))))

theorem accessibility (word : Option String) :
    Keeps ledger (accessibility word) (accessibility word) :=
  whenPresent_keeps (fun _ => (write _).bind fun _ => write " ") word

theorem classProperty (place : Position) (marks : PropertyMarks) (key : Tallied ledger)
    (value type : Option (Tallied ledger)) (decorators : List (Tallied ledger)) :
    Uses ledger (key.used + (total type.toList + total value.toList)) fun view =>
      classProperty place marks (view key) (value.map view) (type.map view)
        (decorators.map view) := by
  simp only [Uses, Printer.classProperty, isEmpty_map written part decorators]
  refine (unsupportedIf _ place _).before ((unsupportedIf _ place _).before
    ((unsupportedIf _ place _).before ((unsupportedIf _ place _).before
      ((unsupportedIf _ place _).before ((accessibility _).before
        ((writeIf _ "static ").before ((writeIf _ "readonly ").before
          ((key.tracked .key (by decide)).andThen ((partName? rfl).beforeRest fun name =>
            (whenPresent_keeps ?_ name).before
              ((declaredType viewed_written type).andThen
                ((afterWord viewed_written " = " (by decide) value).closing
                  (write ";"))))))))))))
  intro name
  exact modifyScopes _

theorem method (form : MethodForm) (place : Position) (marks : MethodMarks)
    (key value : Tallied ledger) :
    Uses ledger value.used fun view => method form place marks (view key) (view value) := by
  have sameMarks : methodMarks? form value.written = methodMarks? form value.part := rfl
  simp only [Uses, Printer.method, sameMarks, node_written, node_part]
  refine (unsupportedIf _ place _).before ?_
  split
  · exact (unsupported _ _).tracks.atMost zero_le
  · refine (unsupportedIf _ place _).before ((unsupportedIf _ place _).before
      ((methodName? _ rfl).beforeRest fun name => ?_))
    cases name with
    | none => exact (missing _ _).tracks.atMost zero_le
    | some name =>
        exact (accessibility _).before ((writeIf _ "abstract ").before
          ((writeIf _ "static ").before ((write _).before ((write name).before
            (withinFunction name true _ (value.tracked _ (by simp)))))))

theorem interface (place : Position) (nameNode body : Tallied ledger)
    (extending implementing : List (Tallied ledger)) :
    Uses ledger (total extending + body.used) fun view =>
      interface place (view nameNode) (view body) (extending.map view)
        (implementing.map view) := by
  simp only [Uses, Printer.interface, isEmpty_map written part implementing,
    isEmpty_map written part extending]
  refine (unsupportedIf _ place _).before ((partName? rfl).beforeRest fun name => ?_)
  cases name with
  | none => exact (missing _ _).tracks.atMost zero_le
  | some name =>
      have behind : Uses ledger body.used fun view => (do
          Printer.write " "
          (view body).print) := (write " ").before body.print
      refine (modifyTypes _).before ((write _).before ((write name).before ?_))
      split
      · exact (write " extends ").before ((parts Tallied.print extending).andThen behind)
      · exact behind.atMost le_add_self

theorem methodSignature (marks : SignatureMarks) (key : Tallied ledger)
    (params : List (Tallied ledger)) (returnType : Option (Tallied ledger)) :
    Uses ledger (key.used + (total params + total returnType.toList)) fun view =>
      methodSignature marks (view key) (params.map view) (returnType.map view) :=
  (accessibility _).before ((writeIf _ "static ").before ((entryKey key _).andThen
    ((writeIf _ "?").before ((withinFunction "" false false
      (parameters viewed_written params)).andThen
        ((declaredType viewed_written returnType).closing (write ";"))))))

theorem propertySignature (key : Tallied ledger) (type : Option (Tallied ledger))
    (readonly optional computed : Bool) :
    Uses ledger (key.used + total type.toList) fun view =>
      propertySignature (view key) (type.map view) readonly optional computed :=
  (writeIf _ "readonly ").before ((entryKey key _).andThen ((writeIf _ "?").before
    ((declaredType viewed_written type).closing (write ";"))))

/-! ## Imports and exports -/

theorem importedText (specifier : Node) :
    Keeps ledger (importedText specifier) (importedText specifier) := by
  refine options.bind fun options => ?_
  split
  · exact (modifyTypes _).bind fun _ => pure _
  · exact (unsupported _ _).bind fun _ => pure _

theorem importClause (clause : ImportClause) (specifiers : List (Tallied ledger)) :
    Keeps ledger (importClause clause (specifiers.map written))
      (importClause clause (specifiers.map part)) := by
  induction specifiers generalizing clause with
  | nil => exact pure clause
  | cons specifier rest ih =>
      simp only [List.map_cons, Printer.importClause, node_written, node_part]
      refine (importedText specifier.node).bind fun text => ?_
      cases text with
      | none => exact ih clause
      | some text => exact ih _

theorem importDeclaration (specifiers : List (Tallied ledger)) (source : Tallied ledger) :
    Uses ledger source.used fun view =>
      importDeclaration (specifiers.map view) (view source) := by
  refine (importClause {} specifiers).beforeRest fun clause => (write "import ").before
    (options.beforeRest fun options => ?_)
  simp only [node_written, node_part]
  split
  · exact ((write _).before ((write _).before (write _).tracks)).atMost zero_le
  · split
    · exact (write _).before ((write _).before source.print)
    · exact source.print

theorem specifier (node : Node) : Keeps ledger (specifier node) (specifier node) := by
  refine (importedText node).bind fun text => ?_
  cases text with
  | none => exact pure ()
  | some text => exact write text

theorem exportNamed (place : Position) (declaration : Option (Tallied ledger))
    (specifiers : List (Tallied ledger)) :
    Uses ledger (total declaration.toList) fun view =>
      exportNamed place (declaration.map view) (specifiers.map view) := by
  cases declaration with
  | none =>
      simp only [Uses, Option.map_none, Printer.exportNamed, isEmpty_map written part specifiers]
      exact (unsupportedIf _ _ _).tracks
  | some declaration => exact (declaration.tracked .exported (by decide)).atMost (by simp)

theorem exportDefault (declaration : Tallied ledger) :
    Uses ledger declaration.used fun view => exportDefault (view declaration) :=
  (write "export default ").before declaration.print

/-! ## Constructs -/

/-- A construct that asks for no rank uses at most the places that its parts use. -/
theorem withoutOperands (location : Location) (shape : Shape (Tallied ledger)) (role : Role)
    (noCast : ∀ expression type, shape ≠ .cast expression type) :
    Uses ledger (total shape.parts) fun view =>
      withoutOperands location (shape.map view) role := by
  have nothing {first second : Printer Unit} (keeps : Keeps ledger first second) :
      Tracks ledger none (total shape.parts) first second := keeps.tracks.atMost zero_le
  cases shape with
  | leaf form =>
      cases form with
      | this | super | debugger => exact nothing (write _)
      | _ => exact nothing (pure ())
  | keywordType form => exact nothing (write _)
  | unsupported form => exact nothing (unsupported _ _)
  | unknown name fields => exact nothing (report (by decide) _ _)
  | group form body =>
      cases form with
      | program => exact topLevel body
      | moduleBlock => exact topLevel body
      | block =>
          cases role with
          | block prologue => exact block prologue body
          | _ => exact block none body
      | classBody => exact block none body
      | interfaceBody => exact block none body
  | identifier source type optional => exact identifier role source type optional
  | literal raw value => exact nothing (literal raw value)
  | arrayLiteral | unary | binary | conditional | call | member | sequence | declarator =>
      exact nothing (pure ())
  | objectLiteral properties => exact objectLiteral properties
  | entry key value computed shorthand =>
      exact (entry key value computed).atMost (by simp [Shape.parts])
  | function form marks name params body returnType =>
      have few : total params + (total returnType.toList + total body.toList) ≤
          total (Shape.function form marks name params body returnType).parts := by
        intro place
        simp only [Shape.parts, total_append, Pi.add_apply]
        omega
      have asMethod (owner : Position) (isConstructor isAbstract : Bool) :=
        (methodFunction owner isConstructor isAbstract params body returnType).atMost few
      have alone (form : FunctionForm) :=
        (function form role location.start marks name params body returnType).atMost few
      cases form with
      | declared => exact nothing (unsupported _ _)
      | arrow =>
          cases role with
          | method owner isConstructor isAbstract => exact asMethod owner isConstructor isAbstract
          | _ => exact alone .arrow
      | emptyBody =>
          cases role with
          | method owner isConstructor isAbstract => exact asMethod owner isConstructor isAbstract
          | _ => exact nothing (unsupported _ _)
      | expression =>
          cases role with
          | method owner isConstructor isAbstract => exact asMethod owner isConstructor isAbstract
          | _ => exact alone .expression
      | declaration =>
          cases role with
          | method owner isConstructor isAbstract => exact asMethod owner isConstructor isAbstract
          | _ => exact alone .declaration
  | classDefinition form marks name superClass implementing body decorators =>
      refine (classDefinition role _ marks name superClass implementing body decorators).atMost
        fun place => ?_
      simp only [Shape.parts, total_append, total_cons, total_nil, Pi.add_apply]
      omega
  | classProperty marks key value type decorators =>
      refine (classProperty _ marks key value type decorators).atMost fun place => ?_
      simp only [Shape.parts, total_append, total_cons, total_nil, Pi.add_apply]
      omega
  | method form marks key value =>
      exact (method form _ marks key value).atMost (by simp [Shape.parts])
  | spread form argument type =>
      cases form with
      | spread => exact nothing (pure ())
      | rest => exact (rest role argument type).atMost (by simp [Shape.parts])
  | assignmentPattern left right =>
      exact (assignmentPattern role left right).atMost (by simp [Shape.parts])
  | cast expression type => exact absurd rfl (noCast expression type)
  | expressionStatement expression => exact expression.print.atMost (by simp [Shape.parts])
  | ifStatement test consequent alternate =>
      exact (ifStatement test consequent alternate).atMost (by simp [Shape.parts])
  | switch discriminant cases =>
      exact (switch discriminant cases).atMost (by simp [Shape.parts])
  | switchCase test consequent => exact (switchCase test consequent).atMost (by simp [Shape.parts])
  | forLoop init test update body =>
      exact (forLoop init test update body).atMost (by simp [Shape.parts])
  | forEach form left right body =>
      exact (forEach form left right body).atMost (by simp [Shape.parts])
  | loop form test body => exact (loop form test body).atMost (by simp [Shape.parts])
  | jump form label => exact jump form label
  | exit form argument => exact exit form _ argument
  | tryStatement block handler finalizer =>
      exact (tryStatement block handler finalizer).atMost (by simp [Shape.parts])
  | catchClause param body => exact (catchClause param body).atMost (by simp [Shape.parts])
  | variableDeclaration declarations kind => exact variableDeclaration role declarations kind
  | importDeclaration specifiers source =>
      exact (importDeclaration specifiers source).atMost (by simp [Shape.parts])
  | importSpecifier imported binding =>
      simp only [Uses, Shape.map, Printer.withoutOperands, Option.map_map]
      exact nothing (specifier _)
  | importBinding form binding => exact nothing (specifier _)
  | exportNamed declaration specifiers source =>
      refine (exportNamed _ declaration specifiers).atMost fun place => ?_
      simp only [Shape.parts, total_append, Pi.add_apply]
      omega
  | exportDefault declaration => exact (exportDefault declaration).atMost (by simp [Shape.parts])
  | moduleDeclaration name body =>
      exact (part? Tallied.print body).atMost (by simp [Shape.parts])
  | interface name body extending implementing =>
      refine (interface _ name body extending implementing).atMost fun place => ?_
      simp only [Shape.parts, total_append, total_cons, total_nil, Pi.add_apply]
      omega
  | heritage form expression typeParameters typeArguments =>
      exact (namedType expression typeParameters typeArguments).atMost (by simp [Shape.parts])
  | methodSignature marks key params returnType =>
      exact (methodSignature marks key params returnType).atMost (by simp [Shape.parts])
  | propertySignature key type readonly optional computed =>
      exact (propertySignature key type readonly optional computed).atMost (by simp [Shape.parts])
  | typeClause type => exact (typeClause type).atMost (by simp [Shape.parts])
  | typeReference name typeParameters typeArguments =>
      exact (namedType name typeParameters typeArguments).atMost (by simp [Shape.parts])
  | typeList params => exact typeList params
  | qualifiedName left right => exact (qualifiedName left right).atMost (by simp [Shape.parts])
  | arrayType element =>
      exact (element.print.closing (write "[]")).atMost (by simp [Shape.parts])

section Constructs

variable {due : Option NodePlace} {own : NodePlace → Nat} {firstRank secondRank : Printer Rank}

theorem call (asks : Tracks ledger due own firstRank secondRank)
    (drops : ∀ {used : NodePlace → Nat} {first second : Printer Unit},
      Tracks ledger none used first second → Tracks ledger due used first second)
    (callee : Tallied ledger) (arguments : List (Tallied ledger)) (optional : Bool)
    (typeParameters typeArguments : Option (Tallied ledger)) :
    Tracks ledger due
      (own + (callee.used + (total typeParameters.toList + total typeArguments.toList +
        total arguments)))
      (call firstRank callee.placed (arguments.map placed) optional
        (chosenTypeArguments (typeParameters.map placed) (typeArguments.map placed)))
      (call secondRank callee.part (arguments.map part) optional
        (chosenTypeArguments (typeParameters.map part) (typeArguments.map part))) := by
  simp only [Printer.call, node_placed, node_part]
  refine .choice (drops ((rawCode arguments).atMost fun place => ?_)) (asks.bind fun rank => ?_)
  · simp only [Pi.add_apply]
    omega
  · exact (operand _ rank callee).andThen (applied _ arguments typeParameters typeArguments)

/-- A construct uses its own place and those that its parts use.  What is due is due at its own
place, so an operator prints it when it asks for its rank, and it is dropped if the construct is
no operator. -/
theorem constructWith (location : Location) (shape : Shape (Tallied ledger)) (role : Role)
    (noCast : ∀ expression type, shape ≠ .cast expression type)
    (asks : Tracks ledger due own firstRank secondRank)
    (drops : shape.isOperator = false →
      ∀ {used : NodePlace → Nat} {first second : Printer Unit},
        Tracks ledger none used first second → Tracks ledger due used first second) :
    Tracks ledger due (own + total shape.parts)
      (constructWith firstRank location (shape.map placed) role)
      (match withOperands secondRank location.start (shape.map part) with
        | some printer => printer
        | none => Printer.withoutOperands location (shape.map part) role) := by
  have others := (withoutOperands location shape role noCast).atMost
    (le_add_self (b := own))
  unfold Printer.constructWith
  rw [Shape.map_map]
  cases shape with
  | arrayLiteral elements => exact (drops rfl (arrayLiteral elements)).atMost le_add_self
  | unary form operator leading argument =>
      exact (asks.bind fun rank => unary rank operator leading argument).atMost
        (by simp [Shape.parts])
  | binary form operator left right =>
      cases form <;> exact (asks.bind fun rank => binary rank _ operator left right).atMost
        (by simp [Shape.parts])
  | conditional test consequent alternate =>
      exact (asks.bind fun rank => conditional rank test consequent alternate).atMost
        (by simp [Shape.parts])
  | call form callee arguments optional typeParameters typeArguments =>
      have few : own + (callee.used + (total typeParameters.toList + total typeArguments.toList +
          total arguments)) ≤ own + total (Shape.call form callee arguments optional typeParameters
            typeArguments).parts := by
        intro place
        simp only [Shape.parts, total_append, total_cons, total_nil, Pi.add_apply]
        omega
      cases form with
      | call =>
          exact (call asks (drops rfl) callee arguments optional typeParameters
            typeArguments).atMost few
      | construction =>
          exact (asks.bind fun rank =>
            construction rank callee arguments typeParameters typeArguments).atMost few
  | member object property computed optional =>
      exact (asks.bind fun rank => member rank object property computed optional).atMost
        (by simp [Shape.parts])
  | sequence expressions =>
      exact asks.bind fun rank => parts (operand .loose rank) expressions
  | spread form argument type =>
      cases form with
      | spread =>
          exact (asks.bind fun rank => spread rank argument).atMost (by simp [Shape.parts])
      | rest => exact drops rfl others
  | declarator name init =>
      exact (drops rfl (declarator name init)).atMost (by simp [Shape.parts])
  | function form marks name params body returnType =>
      cases form with
      | arrow =>
          refine (drops rfl (arrow location.start params body returnType)).atMost fun place => ?_
          simp only [Shape.parts, total_append, Pi.add_apply]
          omega
      | _ => exact drops rfl others
  | _ => exact drops rfl others

end Constructs

end Remembering

end Printer

end ScriptBridge

import ScriptBridge.Proofs.Printing.Outcome
import ScriptBridge.Proofs.Tree.Induction

/-!
# Congruences of printers

A relation between printers that is kept by sequencing and holds of the
primitive printers holds of every printer that is composed of them.  This file
carries such a relation through all printers that leave the scopes alone: if the
parts of a construct are printed by related printers, so is the construct.

The scopes are left open here on purpose.  Some relations, such as the one that
compares scopes with the position in the tree, hold of a scoped construct only
as a whole.
-/

namespace ScriptBridge

/-- The changes that printers make to the text.  The level only rises together with a new line. -/
inductive IndentedText.IsEdit : (IndentedText → IndentedText) → Prop where
  | write (added : String) : IsEdit (·.write added)
  | writeVerbatim (added : String) : IsEdit (·.writeVerbatim added)
  | newLine : IsEdit newLine
  | indentedLine : IsEdit fun text => text.indent.newLine
  | dedent : IsEdit dedent
  | truncate (length : Nat) : IsEdit (·.truncate length)

namespace Printer

/-- Start a line that is indented by one more level. -/
def indentedLine : Printer Unit :=
  modifyText fun text => text.indent.newLine

theorem indent_newLine {Result : Type} (rest : Printer Result) :
    (do indent; newLine; rest) = (do indentedLine; rest) :=
  ext_outcome fun _ _ => rfl

/-- Whether a computation ignores that the generation may stop at errors. -/
def StopBlind {Result : Type} (rest : Options → Printer Result) : Prop :=
  ∀ (options : Options) (stop : Bool),
    rest { options with stopAtError := stop } = rest options

/-- A relation between printers that sequencing keeps and that holds of the
printers of text and diagnostics. -/
structure TextCongruence
    (Related : ∀ {Result : Type}, Printer Result → Printer Result → Prop) : Prop where
  pure {Result : Type} (value : Result) :
    Related (pure value : Printer Result) (pure value)
  bind {Result Other : Type} {first second : Printer Result}
    {firstRest secondRest : Result → Printer Other} :
    Related first second → (∀ value, Related (firstRest value) (secondRest value)) →
      Related (first >>= firstRest) (second >>= secondRest)
  modifyText {change : IndentedText → IndentedText} :
    IndentedText.IsEdit change → Related (modifyText change) (modifyText change)
  length : Related length length
  textOf {first second : Printer Unit} :
    Related first second → Related (textOf first) (textOf second)
  report (problem : Problem) (place : Position) (arguments : List String) :
    Related (report problem place arguments) (report problem place arguments)
  options {Result : Type} {firstRest secondRest : Options → Printer Result} :
    StopBlind firstRest → StopBlind secondRest →
      (∀ options, Related (firstRest options) (secondRest options)) →
      Related (options >>= firstRest) (options >>= secondRest)

/-- A relation that also holds of the printers of types. -/
structure Congruence (Related : ∀ {Result : Type}, Printer Result → Printer Result → Prop) :
    Prop extends TextCongruence Related where
  modifyTypes (change : TypeImports → TypeImports) :
    Related (modifyTypes change) (modifyTypes change)

/-- Whether it makes no difference to a relation at which of two places a problem is
reported. -/
def SamePlace (Related : ∀ {Result : Type}, Printer Result → Printer Result → Prop)
    (place other : Position) : Prop :=
  ∀ problem arguments, Related (report problem place arguments) (report problem other arguments)

/-- A node with two printers that are related in every role. -/
structure Twin (Related : ∀ {Result : Type}, Printer Result → Printer Result → Prop) where
  node : Node
  left : Role → Printer Unit
  right : Role → Printer Unit
  related : ∀ role, Related (left role) (right role)

namespace Twin

variable {Related : ∀ {Result : Type}, Printer Result → Printer Result → Prop}

/-- The part that the first printer makes of the node. -/
def first (twin : Twin Related) : Part := ⟨twin.node, twin.left⟩

/-- The part that the second printer makes of the node. -/
def second (twin : Twin Related) : Part := ⟨twin.node, twin.right⟩

theorem node_first (twin : Twin Related) : twin.first.node = twin.node :=
  rfl

theorem node_second (twin : Twin Related) : twin.second.node = twin.node :=
  rfl

end Twin

/-- Two parts that are printed by related printers, also as operands, and look the same to
whatever prints operands. -/
structure SamePart (Related : ∀ {Result : Type}, Printer Result → Printer Result → Prop)
    (first second : Part) : Prop where
  printed : ∀ role, Related (first.printAs role) (second.printAs role)
  ranked : Related (rankOf first) (rankOf second)
  name : first.node.identifier? = second.node.identifier?
  text : first.node.stringLiteral? = second.node.stringLiteral?
  callsInChain : first.node.callsInChain = second.node.callsInChain
  block : isBlock first = isBlock second
  objectLiteral : isObjectLiteral first = isObjectLiteral second

/-- The pattern of an operator does not depend on its operands. -/
@[simp]
theorem operatorPattern?_map {Before After : Type} (change : Before → After)
    (shape : Shape Before) :
    (shape.map change).operatorPattern? = shape.operatorPattern? := by
  cases shape with
  | call form callee arguments optional typeParameters typeArguments =>
      cases form <;> simp [Shape.map, Shape.operatorPattern?]
  | spread form argument declaredType => cases form <;> rfl
  | unsupported form => cases form <;> rfl
  | function form => cases form <;> rfl
  | _ => rfl

/-- An import behind the names that it lists. -/
def importFrom (clause : ImportClause) (source : Part) : Printer Unit := do
  write "import "
  match source.node.stringLiteral?.bind (← options).importAlias? with
  | some binding =>
      write clause.names
      write " = "
      write binding
  | none =>
      if !clause.clauses.isEmpty then
        write (String.intercalate ", " clause.clauses)
        write " from "
      source.print

/-- An interface from its first word on. -/
def interfaceText (name : String) (body : Part) (extending : List Part) : Printer Unit := do
  write "export interface "
  write name
  if !extending.isEmpty then
    write " extends "
    separated Folded.print extending
  write " "
  body.print

/-- Breaks are told by the node of a part alone. -/
theorem filter_isBreak
    {Related : ∀ {Result : Type}, Printer Result → Printer Result → Prop}
    (body : List (Twin Related)) {toPart : Twin Related → Part}
    (keeps : ∀ twin, (toPart twin).node = twin.node) :
    (body.map toPart).filter (fun part => !part.node.isBreak) =
      (body.filter fun twin => !twin.node.isBreak).map toPart := by
  rw [List.filter_map]
  congr 2
  funext twin
  simp [keeps twin]

namespace TextCongruence

variable {Related : ∀ {Result : Type}, Printer Result → Printer Result → Prop}
variable (closed : TextCongruence Related)

include closed

/-! ## Writing -/

theorem write (added : String) : Related (write added) (write added) :=
  closed.modifyText (.write added)

theorem writeIf (condition : Bool) (added : String) :
    Related (writeIf condition added) (writeIf condition added) := by
  unfold Printer.writeIf
  split
  · exact closed.write added
  · exact closed.pure ()

theorem writeVerbatim (added : String) :
    Related (writeVerbatim added) (writeVerbatim added) :=
  closed.modifyText (.writeVerbatim added)

theorem newLine : Related newLine newLine :=
  closed.modifyText .newLine

theorem indentedLine : Related indentedLine indentedLine :=
  closed.modifyText .indentedLine

theorem dedent : Related dedent dedent :=
  closed.modifyText .dedent

theorem truncate (length : Nat) : Related (truncate length) (truncate length) :=
  closed.modifyText (.truncate length)

/-- Printers follow one another. -/
theorem andThen {Result : Type} {first second : Printer Unit}
    {firstRest secondRest : Printer Result}
    (start : Related first second) (rest : Related firstRest secondRest) :
    Related (do first; firstRest) (do second; secondRest) :=
  closed.bind start fun _ => rest

theorem enclosedIf (condition : Bool) (opening closing : String)
    {first second : Printer Unit} (inside : Related first second) :
    Related (enclosedIf condition opening closing first)
      (enclosedIf condition opening closing second) :=
  closed.andThen (closed.writeIf condition opening)
    (closed.andThen inside (closed.writeIf condition closing))

theorem separated {Item First Second : Type} {toFirst : Item → First}
    {toSecond : Item → Second} {printFirst : First → Printer Unit}
    {printSecond : Second → Printer Unit}
    (each : ∀ item, Related (printFirst (toFirst item)) (printSecond (toSecond item)))
    (items : List Item) :
    Related (separated printFirst (items.map toFirst))
      (separated printSecond (items.map toSecond)) := by
  induction items with
  | nil => exact closed.pure ()
  | cons item rest ih =>
      cases rest with
      | nil => exact each item
      | cons next rest =>
          exact closed.andThen (each item) (closed.andThen (closed.write ", ") ih)

theorem whenPresent {Item First Second : Type} {toFirst : Item → First}
    {toSecond : Item → Second} {printFirst : First → Printer Unit}
    {printSecond : Second → Printer Unit}
    (each : ∀ item, Related (printFirst (toFirst item)) (printSecond (toSecond item)))
    (item : Option Item) :
    Related (whenPresent (item.map toFirst) printFirst)
      (whenPresent (item.map toSecond) printSecond) := by
  cases item with
  | none => exact closed.pure ()
  | some item => exact each item

theorem whenPresent_same {Item : Type} {printFirst printSecond : Item → Printer Unit}
    (each : ∀ item, Related (printFirst item) (printSecond item)) (item : Option Item) :
    Related (Printer.whenPresent item printFirst) (Printer.whenPresent item printSecond) := by
  cases item with
  | none => exact closed.pure ()
  | some item => exact each item

theorem samePlace (place : Position) : SamePlace Related place place :=
  fun problem arguments => closed.report problem place arguments

theorem unsupportedIf_of_samePlace {place other : Position} (same : SamePlace Related place other)
    (present : Bool) (what : String) :
    Related (Printer.unsupportedIf present place what)
      (Printer.unsupportedIf present other what) := by
  unfold Printer.unsupportedIf
  split
  · exact same _ _
  · exact closed.pure ()

theorem unsupported (place : Position) (what : String) :
    Related (unsupported place what) (unsupported place what) :=
  closed.report _ _ _

theorem unsupportedIf (present : Bool) (place : Position) (what : String) :
    Related (unsupportedIf present place what) (unsupportedIf present place what) :=
  closed.unsupportedIf_of_samePlace (closed.samePlace place) present what

theorem missing (place : Position) (what : String) :
    Related (missing place what) (missing place what) :=
  closed.report _ _ _

/-! ## Operands -/

theorem lookUpRank {place other : Position} (same : SamePlace Related place other)
    (pattern : Option String) :
    Related (lookUpRank place pattern) (lookUpRank other pattern) := by
  unfold Printer.lookUpRank
  split
  · exact closed.pure _
  · split
    · exact closed.pure _
    · exact closed.andThen (same _ _) (closed.pure _)

/-- The two parts of a twin look the same. -/
theorem samePart (twin : Twin Related) : SamePart Related twin.first twin.second where
  printed := twin.related
  ranked := closed.lookUpRank (closed.samePlace _) _
  name := rfl
  text := rfl
  callsInChain := rfl
  block := rfl
  objectLiteral := rfl

theorem ownRank {Item : Type} {toFirst toSecond : Item → Part} (role : Role)
    {place other : Position} (same : SamePlace Related place other) (shape : Shape Item) :
    Related (ownRank role place (shape.map toFirst))
      (ownRank role other (shape.map toSecond)) := by
  simp only [Printer.ownRank, Shape.rank, operatorPattern?_map]
  split
  · exact closed.pure _
  · exact closed.lookUpRank same _

section Operands

variable {first second : Part}

theorem operand (kind : Operand) (parent : Rank) (same : SamePart Related first second) :
    Related (operand kind parent first) (operand kind parent second) :=
  closed.bind same.ranked fun rank =>
    closed.enclosedIf (kind.needsParens rank parent) "(" ")" (same.printed .ranked)

theorem listItem (same : SamePart Related first second) :
    Related (listItem first) (listItem second) :=
  closed.operand .tight Precedence.comma same

end Operands

theorem declaredType (type : Option (Twin Related)) :
    Related (declaredType (type.map Twin.first)) (declaredType (type.map Twin.second)) := by
  apply closed.whenPresent
  intro type
  exact closed.andThen (closed.write ": ") (type.related .plain)

theorem parameters (params : List (Twin Related)) :
    Related (parameters (params.map Twin.first)) (parameters (params.map Twin.second)) :=
  closed.andThen (closed.write "(")
    (closed.andThen (closed.separated (fun param => param.related .parameter) params)
      (closed.write ")"))

/-! ## Types -/

theorem typeClause (type : Twin Related) :
    Related (typeClause type.first) (typeClause type.second) := by
  apply closed.bind (closed.textOf (type.related .plain))
  intro text
  split
  · exact closed.write "any[]"
  · exact closed.writeVerbatim text

theorem chosenTypes (typeParameters typeArguments : Option (Twin Related)) :
    Related
      (Printer.whenPresent (chosenTypeArguments (typeParameters.map Twin.first)
        (typeArguments.map Twin.first)) Folded.print)
      (Printer.whenPresent (chosenTypeArguments (typeParameters.map Twin.second)
        (typeArguments.map Twin.second)) Folded.print) := by
  cases typeArguments with
  | some types => exact types.related .plain
  | none =>
      cases typeParameters with
      | some types => exact types.related .plain
      | none => exact closed.pure ()

theorem namedType (name : Twin Related) (typeParameters typeArguments : Option (Twin Related)) :
    Related
      (namedType name.first (typeParameters.map Twin.first) (typeArguments.map Twin.first))
      (namedType name.second (typeParameters.map Twin.second)
        (typeArguments.map Twin.second)) :=
  closed.andThen (name.related .typeName) (closed.chosenTypes typeParameters typeArguments)

theorem typeList (params : List (Twin Related)) :
    Related (typeList (params.map Twin.first)) (typeList (params.map Twin.second)) :=
  closed.andThen (closed.write "<")
    (closed.andThen (closed.separated (fun param => param.related .typeName) params)
      (closed.write ">"))

theorem qualifiedName (left right : Twin Related) :
    Related (qualifiedName left.first right.first) (qualifiedName left.second right.second) := by
  unfold Printer.qualifiedName
  simp only [Twin.node_first, Twin.node_second]
  split
  · exact closed.andThen (closed.write _) (closed.andThen (closed.write _) (closed.write _))
  · exact closed.andThen (left.related .plain)
      (closed.andThen (closed.write ".") (right.related .memberName))

theorem arrayType (element : Twin Related) :
    Related (arrayType element.first) (arrayType element.second) :=
  closed.andThen (element.related .plain) (closed.write "[]")

/-! ## Expressions -/

theorem literal (raw : String) (value : Json) :
    Related (literal raw value) (literal raw value) :=
  closed.options (fun _ _ => rfl) (fun _ _ => rfl) fun _ => closed.write _

theorem rest (role : Role) (argument : Twin Related) (type : Option (Twin Related)) :
    Related (rest role argument.first (type.map Twin.first))
      (rest role argument.second (type.map Twin.second)) :=
  closed.andThen (closed.write "...")
    (closed.andThen (argument.related role.binding) (closed.declaredType type))

theorem assignmentPattern (role : Role) (left right : Twin Related) :
    Related (assignmentPattern role left.first right.first)
      (assignmentPattern role left.second right.second) :=
  closed.andThen (left.related role.binding)
    (closed.andThen (closed.write " = ") (right.related .plain))

theorem objectLiteral (properties : List (Twin Related)) :
    Related (objectLiteral (properties.map Twin.first))
      (objectLiteral (properties.map Twin.second)) :=
  closed.andThen (closed.write "\x7b")
    (closed.andThen (closed.separated (fun property => property.related .plain) properties)
      (closed.write "\x7d"))

theorem entryKey (key : Twin Related) (computed : Bool) :
    Related (entryKey key.first computed) (entryKey key.second computed) := by
  unfold Printer.entryKey
  split
  · exact closed.enclosedIf true "[" "]" (key.related .plain)
  · exact key.related .key

theorem entry (key value : Twin Related) (computed : Bool) :
    Related (entry key.first value.first computed) (entry key.second value.second computed) :=
  closed.andThen (closed.entryKey key computed)
    (closed.andThen (closed.write ": ") (value.related .plain))

section Operators

variable {Item : Type} {toFirst toSecond : Item → Part}
variable (same : ∀ item, SamePart Related (toFirst item) (toSecond item))

include same

theorem unary (rank : Rank) (operator : String) (leading : Bool) (argument : Item) :
    Related (unary rank operator leading (toFirst argument))
      (unary rank operator leading (toSecond argument)) := by
  have printed := closed.operand .tight rank (same argument)
  unfold Printer.unary
  split
  · exact closed.andThen (closed.write operator)
      (closed.andThen (closed.writeIf _ " ") printed)
  · exact closed.andThen printed (closed.write operator)

theorem binary (rank : Rank) (fromRight : Bool) (operator : String) (left right : Item) :
    Related (binary rank fromRight operator (toFirst left) (toFirst right))
      (binary rank fromRight operator (toSecond left) (toSecond right)) :=
  closed.andThen (closed.operand _ rank (same left))
    (closed.andThen (closed.write " ")
      (closed.andThen (closed.write operator)
        (closed.andThen (closed.write " ") (closed.operand _ rank (same right)))))

theorem conditional (rank : Rank) (test consequent alternate : Item) :
    Related (conditional rank (toFirst test) (toFirst consequent) (toFirst alternate))
      (conditional rank (toSecond test) (toSecond consequent) (toSecond alternate)) :=
  closed.andThen (closed.operand .tight rank (same test))
    (closed.andThen (closed.write " ? ")
      (closed.andThen (closed.operand .tight rank (same consequent))
        (closed.andThen (closed.write " : ") (closed.operand .tight rank (same alternate)))))

theorem spread (rank : Rank) (argument : Item) :
    Related (spread rank (toFirst argument)) (spread rank (toSecond argument)) :=
  closed.andThen (closed.write "...") (closed.operand .loose rank (same argument))

theorem member (rank : Rank) (object property : Item) (computed optional : Bool) :
    Related (member rank (toFirst object) (toFirst property) computed optional)
      (member rank (toSecond object) (toSecond property) computed optional) := by
  apply closed.andThen (closed.operand .loose rank (same object))
  split
  · exact closed.andThen (closed.write _)
      (closed.andThen ((same property).printed .plain) (closed.write "]"))
  · exact closed.andThen (closed.write _) ((same property).printed .memberName)

theorem rawCode (arguments : List Item) :
    Related (rawCode (arguments.map toFirst)) (rawCode (arguments.map toSecond)) := by
  cases arguments with
  | nil => exact closed.pure ()
  | cons code rest =>
      simp only [List.map_cons, Printer.rawCode, (same code).text]
      split
      · exact closed.write _
      · exact closed.bind (closed.textOf ((same code).printed .plain)) fun _ =>
          closed.writeVerbatim _

theorem applied (opening : String) (arguments : List Item)
    (typeParameters typeArguments : Option Item) :
    Related
      (applied opening (arguments.map toFirst)
        (chosenTypeArguments (typeParameters.map toFirst) (typeArguments.map toFirst)))
      (applied opening (arguments.map toSecond)
        (chosenTypeArguments (typeParameters.map toSecond) (typeArguments.map toSecond))) := by
  have types : Related
      (Printer.whenPresent (chosenTypeArguments (typeParameters.map toFirst)
        (typeArguments.map toFirst)) Folded.print)
      (Printer.whenPresent (chosenTypeArguments (typeParameters.map toSecond)
        (typeArguments.map toSecond)) Folded.print) := by
    cases typeArguments with
    | some types => exact (same types).printed .plain
    | none =>
        exact closed.whenPresent (fun types => (same types).printed .plain) typeParameters
  exact closed.andThen types
    (closed.andThen (closed.write opening)
      (closed.andThen (closed.separated (fun argument => closed.listItem (same argument)) arguments)
        (closed.write ")")))

theorem call {firstRank secondRank : Printer Rank} (ranked : Related firstRank secondRank)
    (callee : Item) (arguments : List Item) (optional : Bool)
    (typeParameters typeArguments : Option Item) :
    Related
      (call firstRank (toFirst callee) (arguments.map toFirst) optional
        (chosenTypeArguments (typeParameters.map toFirst) (typeArguments.map toFirst)))
      (call secondRank (toSecond callee) (arguments.map toSecond) optional
        (chosenTypeArguments (typeParameters.map toSecond) (typeArguments.map toSecond))) := by
  unfold Printer.call
  rw [(same callee).name]
  split
  · exact closed.rawCode same arguments
  · apply closed.bind ranked
    intro rank
    exact closed.andThen (closed.operand .loose rank (same callee))
      (closed.applied same _ arguments typeParameters typeArguments)

theorem constructed (rank : Rank) (callee : Item) :
    Related (constructed rank (toFirst callee)) (constructed rank (toSecond callee)) := by
  unfold Printer.constructed
  rw [(same callee).callsInChain]
  split
  · exact closed.enclosedIf true "(" ")" ((same callee).printed .plain)
  · exact closed.operand .loose rank (same callee)

theorem construction (rank : Rank) (callee : Item) (arguments : List Item)
    (typeParameters typeArguments : Option Item) :
    Related
      (construction rank (toFirst callee) (arguments.map toFirst)
        (chosenTypeArguments (typeParameters.map toFirst) (typeArguments.map toFirst)))
      (construction rank (toSecond callee) (arguments.map toSecond)
        (chosenTypeArguments (typeParameters.map toSecond) (typeArguments.map toSecond))) := by
  apply closed.bind (closed.textOf (closed.constructed same rank callee))
  intro text
  split
  · exact closed.write "[]"
  · split
    · rw [List.head?_map, List.head?_map]
      exact closed.whenPresent (fun pattern => (same pattern).printed .plain) arguments.head?
    · exact closed.andThen (closed.write "new ")
        (closed.andThen (closed.writeVerbatim text)
          (closed.applied same "(" arguments typeParameters typeArguments))

theorem arrayLiteral (elements : List (Option Item)) :
    Related (arrayLiteral (elements.map (·.map toFirst)))
      (arrayLiteral (elements.map (·.map toSecond))) := by
  apply closed.andThen (closed.write "[")
  apply closed.andThen _ (closed.write "]")
  apply closed.separated
  intro element
  exact closed.whenPresent (fun element => closed.listItem (same element)) element

theorem declarator (name : Item) (init : Option Item) :
    Related (declarator (toFirst name) (init.map toFirst))
      (declarator (toSecond name) (init.map toSecond)) := by
  apply closed.andThen ((same name).printed .declaredName)
  apply closed.whenPresent
  intro value
  exact closed.andThen (closed.write " = ") (closed.listItem (same value))

theorem arrowBody (body : Item) :
    Related (arrowBody (toFirst body)) (arrowBody (toSecond body)) := by
  unfold Printer.arrowBody
  rw [(same body).block, (same body).objectLiteral]
  split
  · exact (same body).printed .plain
  · exact closed.bind (same body).ranked fun rank =>
      closed.enclosedIf _ "(" ")" ((same body).printed .ranked)

end Operators

/-! ## Statements -/

theorem statements (wroteAny : Bool) (body : List (Twin Related)) :
    Related (statements wroteAny (body.map Twin.first))
      (statements wroteAny (body.map Twin.second)) := by
  induction body generalizing wroteAny with
  | nil => exact closed.pure wroteAny
  | cons statement rest ih =>
      by_cases empty : statement.node.isEmptyStatement
      · simpa only [List.map_cons, Printer.statements, Twin.first, Twin.second, empty, if_true]
          using ih wroteAny
      · simp only [List.map_cons, Printer.statements, Twin.first, Twin.second, empty]
        apply closed.bind closed.length
        intro before
        -- A statement that is not the first starts a line; the rest is the same.
        split
        case' neg.isTrue => apply closed.andThen closed.newLine
        all_goals
          apply closed.bind closed.length
          intro start
          apply closed.andThen (statement.related .plain)
          apply closed.bind closed.length
          intro stop
          split
          · exact closed.andThen (closed.truncate before) (ih wroteAny)
          · exact closed.andThen (closed.writeIf _ ";") (ih true)

theorem topLevel (body : List (Twin Related)) :
    Related (topLevel (body.map Twin.first)) (topLevel (body.map Twin.second)) :=
  closed.bind (closed.statements false body) fun _ => closed.pure ()

theorem block (prologue : Option String) (body : List (Twin Related)) :
    Related (block prologue (body.map Twin.first)) (block prologue (body.map Twin.second)) := by
  apply closed.andThen (closed.write "\x7b")
  apply closed.bind closed.length
  intro opened
  simp only [indent_newLine]
  apply closed.andThen closed.indentedLine
  apply closed.andThen (closed.write _)
  apply closed.bind (closed.statements prologue.isSome body)
  intro wroteAny
  apply closed.andThen closed.dedent
  split
  · exact closed.andThen closed.newLine (closed.write "\x7d")
  · exact closed.andThen (closed.truncate opened) (closed.write "\x7d")

theorem braced (prologue : Option String) (statement : Twin Related) :
    Related (braced prologue statement.first) (braced prologue statement.second) := by
  unfold Printer.braced
  change Related (if isBlock statement.first then _ else _)
    (if isBlock statement.first then _ else _)
  split
  · exact statement.related (.block prologue)
  · exact closed.block prologue [statement]

theorem alternative (statement : Twin Related) :
    Related (alternative statement.first) (alternative statement.second) := by
  obtain ⟨⟨location, shape⟩, left, right, related⟩ := statement
  let statement : Twin Related := ⟨⟨location, shape⟩, left, right, related⟩
  have inBraces : Related
      (do Printer.write " else "; Printer.braced none statement.first)
      (do Printer.write " else "; Printer.braced none statement.second) :=
    closed.andThen (closed.write " else ") (closed.braced none statement)
  cases shape with
  | ifStatement => exact closed.andThen (closed.write " else ") (related .plain)
  | group form body =>
      cases form with
      | block =>
          cases body with
          | nil => exact closed.pure ()
          | cons => exact inBraces
      | _ => exact inBraces
  | _ => exact inBraces

theorem ifStatement (test consequent : Twin Related) (alternate : Option (Twin Related)) :
    Related (ifStatement test.first consequent.first (alternate.map Twin.first))
      (ifStatement test.second consequent.second (alternate.map Twin.second)) :=
  closed.andThen (closed.write "if (")
    (closed.andThen (test.related .plain)
      (closed.andThen (closed.write ") ")
        (closed.andThen (closed.braced none consequent)
          (closed.whenPresent closed.alternative alternate))))

theorem switchCases (cases : List (Twin Related)) :
    Related (switchCases (cases.map Twin.first)) (switchCases (cases.map Twin.second)) := by
  induction cases with
  | nil => exact closed.pure ()
  | cons branch rest ih =>
      exact closed.andThen closed.newLine (closed.andThen (branch.related .plain) ih)

theorem switch (discriminant : Twin Related) (cases : List (Twin Related)) :
    Related (switch discriminant.first (cases.map Twin.first))
      (switch discriminant.second (cases.map Twin.second)) := by
  apply closed.andThen (closed.write "switch (")
  apply closed.andThen (discriminant.related .plain)
  apply closed.andThen (closed.write ") \x7b")
  cases cases with
  | nil => exact closed.write "\x7d"
  | cons branch rest =>
      -- The first case starts the line for which the level is raised.
      simp only [List.map_cons, Printer.switchCases, bind_assoc, indent_newLine]
      apply closed.andThen closed.indentedLine
      apply closed.andThen (branch.related .plain)
      apply closed.andThen (closed.switchCases rest)
      apply closed.andThen closed.dedent
      exact closed.andThen closed.newLine (closed.write "\x7d")

theorem switchCase (test : Option (Twin Related)) (consequent : List (Twin Related)) :
    Related (switchCase (test.map Twin.first) (consequent.map Twin.first))
      (switchCase (test.map Twin.second) (consequent.map Twin.second)) := by
  unfold Printer.switchCase
  rw [filter_isBreak consequent fun _ => rfl, filter_isBreak consequent fun _ => rfl]
  cases test
  case' none => apply closed.andThen (closed.write "default:")
  case' some test =>
    apply closed.andThen (closed.write "case ")
    apply closed.andThen (test.related .plain)
    apply closed.andThen (closed.write ":")
  -- Behind its heading every case is printed alike.
  all_goals
    simp only [indent_newLine]
    apply closed.andThen closed.indentedLine
    apply closed.bind closed.length
    intro start
    apply closed.andThen (closed.write "\x7b")
    apply closed.andThen closed.indentedLine
    apply closed.bind (closed.statements false _)
    intro wroteAny
    apply closed.andThen closed.dedent
    have ending := closed.andThen (closed.write "break;") closed.dedent
    split
    · exact closed.andThen closed.newLine
        (closed.andThen (closed.write "\x7d") (closed.andThen closed.newLine ending))
    · exact closed.andThen (closed.truncate start) ending

theorem afterSpace (part : Option (Twin Related)) :
    Related
      (Printer.whenPresent (part.map Twin.first) fun part => do
        Printer.write " "
        part.print)
      (Printer.whenPresent (part.map Twin.second) fun part => do
        Printer.write " "
        part.print) := by
  apply closed.whenPresent
  intro part
  exact closed.andThen (closed.write " ") (part.related .plain)

theorem forLoop (init test update : Option (Twin Related)) (body : Twin Related) :
    Related
      (forLoop (init.map Twin.first) (test.map Twin.first) (update.map Twin.first) body.first)
      (forLoop (init.map Twin.second) (test.map Twin.second) (update.map Twin.second)
        body.second) := by
  apply closed.andThen (closed.write "for (")
  apply closed.andThen (closed.whenPresent (fun part => part.related .plain) init)
  apply closed.andThen (closed.write ";")
  apply closed.andThen (closed.afterSpace test)
  apply closed.andThen (closed.write ";")
  apply closed.andThen (closed.afterSpace update)
  apply closed.andThen (closed.write ") ")
  exact closed.braced none body

theorem forEach (form : EachForm) (left right body : Twin Related) :
    Related (forEach form left.first right.first body.first)
      (forEach form left.second right.second body.second) := by
  apply closed.andThen (closed.write "for (")
  apply closed.andThen (left.related .plain)
  apply closed.andThen (closed.write " ")
  apply closed.andThen (closed.write (eachWord form))
  apply closed.andThen (closed.write " ")
  apply closed.andThen (right.related .plain)
  apply closed.andThen (closed.write ") ")
  exact closed.braced none body

theorem loop (form : LoopForm) (test body : Twin Related) :
    Related (loop form test.first body.first) (loop form test.second body.second) := by
  cases form with
  | whileLoop =>
      apply closed.andThen (closed.write "while (")
      apply closed.andThen (test.related .plain)
      apply closed.andThen (closed.write ") ")
      exact closed.braced none body
  | doWhile =>
      apply closed.andThen (closed.write "do ")
      apply closed.andThen (closed.braced none body)
      apply closed.andThen (closed.write " while (")
      apply closed.andThen (test.related .plain)
      exact closed.write ")"

theorem jump (form : JumpForm) (label : Option (Twin Related)) :
    Related (jump form (label.map Twin.first)) (jump form (label.map Twin.second)) := by
  apply closed.andThen (closed.write (jumpWord form))
  apply closed.whenPresent
  intro label
  exact closed.andThen (closed.write " ") (label.related .memberName)

theorem exit (form : ExitForm) {place other : Position} (same : SamePlace Related place other)
    (argument : Option (Twin Related)) :
    Related (exit form place (argument.map Twin.first))
      (exit form other (argument.map Twin.second)) := by
  cases form with
  | returning =>
      cases argument with
      | none => exact closed.write "return"
      | some value => exact closed.andThen (closed.write "return ") (value.related .plain)
  | throwing =>
      cases argument with
      | none => exact same _ _
      | some value => exact closed.andThen (closed.write "throw ") (value.related .plain)

theorem tryStatement (body : Twin Related) (handler finalizer : Option (Twin Related)) :
    Related (tryStatement body.first (handler.map Twin.first) (finalizer.map Twin.first))
      (tryStatement body.second (handler.map Twin.second) (finalizer.map Twin.second)) := by
  apply closed.andThen (closed.write "try ")
  apply closed.andThen (closed.braced none body)
  apply closed.andThen (closed.afterSpace handler)
  apply closed.whenPresent
  intro finalizer
  exact closed.andThen (closed.write " finally ") (closed.braced none finalizer)

theorem variableDeclaration (role : Role) (declarations : List (Twin Related))
    (kind : String) :
    Related (variableDeclaration role (declarations.map Twin.first) kind)
      (variableDeclaration role (declarations.map Twin.second) kind) :=
  closed.andThen (closed.writeIf _ "export ")
    (closed.andThen (closed.write _)
      (closed.separated (fun declaration => declaration.related .plain) declarations))

/-! ## Imports, exports and interfaces -/

theorem exportNamed {place other : Position} (same : SamePlace Related place other)
    (declaration : Option (Twin Related)) (specifiers : List (Twin Related)) :
    Related (exportNamed place (declaration.map Twin.first) (specifiers.map Twin.first))
      (exportNamed other (declaration.map Twin.second) (specifiers.map Twin.second)) := by
  cases declaration with
  | some declaration => exact declaration.related .exported
  | none =>
      simp only [Option.map_none, Printer.exportNamed, List.isEmpty_map]
      exact closed.unsupportedIf_of_samePlace same _ "ExportSpecifier"

theorem exportDefault (declaration : Twin Related) :
    Related (exportDefault declaration.first) (exportDefault declaration.second) :=
  closed.andThen (closed.write "export default ") (declaration.related .plain)

theorem partName? (part : Twin Related) :
    Related (partName? part.first) (partName? part.second) :=
  closed.options (fun _ _ => rfl) (fun _ _ => rfl) fun _ => closed.pure _

theorem propertySignature (key : Twin Related) (type : Option (Twin Related))
    (readonly optional computed : Bool) :
    Related (propertySignature key.first (type.map Twin.first) readonly optional computed)
      (propertySignature key.second (type.map Twin.second) readonly optional computed) := by
  apply closed.andThen (closed.writeIf readonly "readonly ")
  apply closed.andThen (closed.entryKey key computed)
  apply closed.andThen (closed.writeIf optional "?")
  apply closed.andThen (closed.declaredType type)
  exact closed.write ";"

theorem accessibility (word : Option String) :
    Related (accessibility word) (accessibility word) :=
  closed.whenPresent_same (fun _ => closed.andThen (closed.write _) (closed.write " ")) word

/-- An import behind the names that it lists. -/
theorem importFrom (clause : ImportClause) (source : Twin Related) :
    Related (importFrom clause source.first) (importFrom clause source.second) := by
  apply closed.andThen (closed.write "import ")
  apply closed.options (fun _ _ => rfl) (fun _ _ => rfl)
  intro options
  simp only [Twin.node_first, Twin.node_second]
  split
  · exact closed.andThen (closed.write _) (closed.andThen (closed.write _) (closed.write _))
  · split
    · exact closed.andThen (closed.write _)
        (closed.andThen (closed.write " from ") (source.related .plain))
    · exact source.related .plain

/-- An interface from its first word on. -/
theorem interfaceText (name : String) (body : Twin Related) (extending : List (Twin Related)) :
    Related (interfaceText name body.first (extending.map Twin.first))
      (interfaceText name body.second (extending.map Twin.second)) := by
  unfold Printer.interfaceText
  simp only [List.isEmpty_map]
  apply closed.andThen (closed.write "export interface ")
  apply closed.andThen (closed.write name)
  have behind := closed.andThen (closed.write " ") (body.related .plain)
  split
  · exact closed.andThen (closed.write " extends ")
      (closed.andThen (closed.separated (fun part => part.related .plain) extending) behind)
  · exact behind

end TextCongruence

namespace Congruence

variable {Related : ∀ {Result : Type}, Printer Result → Printer Result → Prop}
variable (closed : Congruence Related)

include closed

theorem importedText (specifier : Node) :
    Related (importedText specifier) (importedText specifier) := by
  apply closed.options (fun _ _ => rfl) (fun _ _ => rfl)
  intro options
  split
  · exact closed.andThen (closed.modifyTypes _) (closed.pure _)
  · exact closed.andThen (closed.unsupported _ _) (closed.pure _)

theorem importClause (clause : ImportClause) (specifiers : List (Twin Related)) :
    Related (importClause clause (specifiers.map Twin.first))
      (importClause clause (specifiers.map Twin.second)) := by
  induction specifiers generalizing clause with
  | nil => exact closed.pure clause
  | cons specifier rest ih =>
      apply closed.bind (closed.importedText specifier.node)
      intro text
      cases text with
      | none => exact ih clause
      | some text => exact ih (clause.add specifier.node text)

theorem importDeclaration (specifiers : List (Twin Related)) (source : Twin Related) :
    Related (importDeclaration (specifiers.map Twin.first) source.first)
      (importDeclaration (specifiers.map Twin.second) source.second) :=
  closed.bind (closed.importClause {} specifiers) fun clause => closed.importFrom clause source

theorem specifier (node : Node) : Related (specifier node) (specifier node) := by
  apply closed.bind (closed.importedText node)
  intro text
  cases text with
  | none => exact closed.pure ()
  | some text => exact closed.write text

theorem interface {place other : Position} (same : SamePlace Related place other)
    (name body : Twin Related) (extending implementing : List (Twin Related)) :
    Related
      (interface place name.first body.first (extending.map Twin.first)
        (implementing.map Twin.first))
      (interface other name.second body.second (extending.map Twin.second)
        (implementing.map Twin.second)) := by
  have sameEmpty (toPart : Twin Related → Part) :
      (implementing.map toPart).isEmpty = implementing.isEmpty := List.isEmpty_map
  unfold Printer.interface
  rw [sameEmpty, sameEmpty]
  apply closed.andThen (closed.unsupportedIf_of_samePlace same _ _)
  apply closed.bind (closed.partName? name)
  intro renamed
  cases renamed with
  | none => exact same _ _
  | some renamed =>
      exact closed.andThen (closed.modifyTypes _) (closed.interfaceText renamed body extending)

end Congruence

end Printer

end ScriptBridge

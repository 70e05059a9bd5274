import ScriptBridge.Emit.TypeName
import ScriptBridge.Json.Printer

/-!
# Printing expressions

Operands are put in parentheses by rank.  Bare names get the receiver that
their scope asks for.  Some calls have a meaning of their own: `__JS__` writes
code as it stands, a new array is an empty literal, and a new regular expression
is its pattern.
-/

namespace ScriptBridge

/-- Whether a call occurs along a chain of member accesses. -/
def Node.callsInChain : Node → Bool
  | ⟨_, .call .call _ _ _ _ _⟩ => true
  | ⟨_, .member object _ _ _⟩ => object.callsInChain
  | _ => false

/-- A text without the quotes around it. -/
def unquoted (text : String) : String :=
  match text.toList with
  | first :: second :: rest =>
      if (first = '"' ∨ first = '\'') ∧ (second :: rest).getLast? = some first then
        String.ofList (second :: rest).dropLast
      else text
  | _ => text

namespace Printer

variable {Access : Type} [Printable Access]

/-- A name, with what its role asks for: types are noted, bindings declared, and
bare names get a receiver. -/
def name (role : Role) (source : String) : Printer Unit := do
  let settings ← read
  let renamed := settings.options.renameIdentifier source
  match role with
  | .typeName =>
      let type := settings.options.renameType renamed
      modifyTypes fun types => types.record type
      write type
  | .parameter =>
      modifyScopes fun scopes => scopes.declareParam renamed
      write renamed
  | .declaredName =>
      modifyScopes fun scopes => scopes.declareLocal renamed
      write renamed
  | .memberName | .key => write renamed
  | _ =>
      let receiver := (← get).scopes.qualifier settings.index renamed
      write (receiver.getD "")
      write renamed

/-- An identifier with its type. -/
def identifier (role : Role) (source : String) (type : Option Part) (optional : Bool) :
    Printer Unit := do
  name role source
  writeIf optional "?"
  declaredType type

/-- A literal: its source text, or its value if there is none. -/
def literal (raw : String) (value : Json) : Printer Unit := do
  let text := if raw.isEmpty then value.compact else raw
  write ((← options).renameLiteral text)

/-- Whether an operator is a word, which needs a space before its operand. -/
def isWordOperator (operator : String) : Bool :=
  operator.toList.all Char.isAlpha

/-- An operator before or after its operand. -/
def unary (rank : Rank) (operator : String) (leading : Bool) (argument : Folded Access) :
    Printer Unit := do
  if leading then
    write operator
    writeIf (isWordOperator operator) " "
    operand .tight rank argument
  else
    operand .tight rank argument
    write operator

/-- An operator between two operands.  The operand on the side from which the
operator groups may be of the same rank. -/
def binary (rank : Rank) (fromRight : Bool) (operator : String) (left right : Folded Access) :
    Printer Unit := do
  operand (if fromRight then .tight else .loose) rank left
  write " "
  write operator
  write " "
  operand (if fromRight then .loose else .tight) rank right

/-- A choice between two expressions. -/
def conditional (rank : Rank) (test consequent alternate : Folded Access) : Printer Unit := do
  operand .tight rank test
  write " ? "
  operand .tight rank consequent
  write " : "
  operand .tight rank alternate

/-- Three dots before an expression. -/
def spread (rank : Rank) (argument : Folded Access) : Printer Unit := do
  write "..."
  operand .loose rank argument

/-- Three dots before a binding. -/
def rest (role : Role) (argument : Part) (type : Option Part) : Printer Unit := do
  write "..."
  argument.printAs role.binding
  declaredType type

/-- A binding with a default. -/
def assignmentPattern (role : Role) (left right : Part) : Printer Unit := do
  left.printAs role.binding
  write " = "
  right.print

/-- A part of an object, by name or by key. -/
def member (rank : Rank) (object property : Folded Access) (computed optional : Bool) :
    Printer Unit := do
  operand .loose rank object
  if computed then
    write (if optional then "?.[" else "[")
    property.print
    write "]"
  else
    write (if optional then "?." else ".")
    property.printAs .memberName

/-- The name whose calls write code as it stands. -/
def rawCodeName : String :=
  "__JS__"

/-- Code as it stands: the value of the first argument if it is a string, else
its text without quotes. -/
def rawCode : List (Folded Access) → Printer Unit
  | [] => pure ()
  | code :: _ =>
      match code.node.stringLiteral? with
      | some text => write text
      | none => do
          let text ← textOf code.print
          writeVerbatim (unquoted text)

/-- Type arguments and arguments. -/
def applied (opening : String) (arguments : List (Folded Access))
    (types : Option (Folded Access)) : Printer Unit := do
  whenPresent types Folded.print
  write opening
  separated listItem arguments
  write ")"

/-- A call. -/
def call (ownRank : Printer Rank) (callee : Folded Access) (arguments : List (Folded Access))
    (optional : Bool) (types : Option (Folded Access)) : Printer Unit :=
  if callee.node.identifier? = some rawCodeName then rawCode arguments
  else do
    let rank ← ownRank
    operand .loose rank callee
    applied (if optional then "?.(" else "(") arguments types

/-- The callee of a construction.  A call in it would take the arguments, so it
is put in parentheses. -/
def constructed (rank : Rank) (callee : Folded Access) : Printer Unit :=
  if callee.node.callsInChain then enclosedIf true "(" ")" callee.print
  else operand .loose rank callee

/-- A construction. -/
def construction (rank : Rank) (callee : Folded Access) (arguments : List (Folded Access))
    (types : Option (Folded Access)) : Printer Unit := do
  let text ← textOf (constructed rank callee)
  if text = "Array" then write "[]"
  else if text = "RegExp" then whenPresent arguments.head? Folded.print
  else
    write "new "
    writeVerbatim text
    applied "(" arguments types

/-- An array literal. -/
def arrayLiteral (elements : List (Option (Folded Access))) : Printer Unit := do
  write "["
  separated (whenPresent · listItem) elements
  write "]"

/-- An object literal. -/
def objectLiteral (properties : List Part) : Printer Unit := do
  write "\x7b"
  separated Folded.print properties
  write "\x7d"

/-- A key, between brackets if it is computed. -/
def entryKey (key : Part) (computed : Bool) : Printer Unit :=
  if computed then enclosedIf true "[" "]" key.print else key.printAs .key

/-- An entry of an object literal.  Short entries are spelled out, so that the
value can get a receiver. -/
def entry (key value : Part) (computed : Bool) : Printer Unit := do
  entryKey key computed
  write ": "
  value.print

/-- Run a printer within a function. -/
def withinFunction (name : String) (isMethod isStatic : Bool) (printer : Printer Unit) :
    Printer Unit := do
  modifyScopes fun scopes => scopes.enterFunction name isMethod isStatic
  printer
  modifyScopes fun scopes => scopes.exitFunction.1

/-- Whether a part is a block of statements. -/
def isBlock {Result : Type} (part : Folded Result) : Bool :=
  match part.node.shape with
  | .group .block _ => true
  | _ => false

/-- Whether a part is an object literal. -/
def isObjectLiteral {Result : Type} (part : Folded Result) : Bool :=
  match part.node.shape with
  | .objectLiteral _ => true
  | _ => false

/-- The body of an arrow function: a block, or an expression that is put in
parentheses if it is an object literal or binds looser than an assignment. -/
def arrowBody (body : Folded Access) : Printer Unit := do
  if isBlock body then body.print
  else
    let rank ← rankOf body
    enclosedIf (isObjectLiteral body || Precedence.assignment < rank) "(" ")"
      (body.printAs .ranked)

/-- An arrow function. -/
def arrow (place : Position) (params : List (Folded Access))
    (body returnType : Option (Folded Access)) : Printer Unit :=
  withinFunction "" false false do
    parameters params
    declaredType returnType
    write " => "
    match body with
    | some body => arrowBody body
    | none => unsupported place "ArrowFunctionExpression without body"

end Printer

end ScriptBridge

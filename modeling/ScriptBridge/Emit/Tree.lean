import ScriptBridge.Emit.Declaration
import ScriptBridge.Emit.Import

/-!
# Generating code

A syntax tree is printed in one pass.  The result is the printed text behind the
imports that its types need, together with all diagnostics.
-/

namespace ScriptBridge

namespace Printer

/-- Print a construct that asks for the ranks of its parts; there is none for other
constructs.  An operator asks for its own rank first. -/
def withOperands {Access : Type} [Printable Access] (ownRank : Printer Rank) (place : Position)
    (shape : Shape (Folded Access)) : Option (Printer Unit) :=
  match shape with
  | .arrayLiteral elements => some (arrayLiteral elements)
  | .function .arrow _ _ params body returnType => some (arrow place params body returnType)
  | .unary _ operator leading argument => some do
      unary (← ownRank) operator leading argument
  | .binary _ operator left right => some do
      binary (← ownRank) shape.isRightAssociative operator left right
  | .conditional test consequent alternate => some do
      conditional (← ownRank) test consequent alternate
  | .call .call callee arguments optional typeParameters typeArguments =>
      some (call ownRank callee arguments optional
        (chosenTypeArguments typeParameters typeArguments))
  | .call .construction callee arguments _ typeParameters typeArguments => some do
      construction (← ownRank) callee arguments (chosenTypeArguments typeParameters typeArguments)
  | .member object property computed optional => some do
      member (← ownRank) object property computed optional
  | .sequence expressions => some do
      let rank ← ownRank
      separated (operand .loose rank) expressions
  | .spread .spread argument _ => some do
      spread (← ownRank) argument
  | .declarator name init => some (declarator name init)
  | _ => none

/-- Print a construct that does not ask for the ranks of its parts. -/
def withoutOperands (location : Location) (shape : Shape Part) (role : Role) : Printer Unit :=
  let place := location.start
  match shape with
  | .leaf .this => write "this"
  | .leaf .super => write "super"
  | .leaf .debugger => write "debugger"
  | .keywordType form => write (keywordText form)
  | .unsupported form => unsupported place form.tag
  | .unknown name _ => report .unrecognizedTag place [name]
  | .group .program body => topLevel body
  | .group .moduleBlock body => topLevel body
  | .group .block body =>
      match role with
      | .block prologue => block prologue body
      | _ => block none body
  | .group .classBody body => block none body
  | .group .interfaceBody body => block none body
  | .identifier source type optional => identifier role source type optional
  | .literal raw value => literal raw value
  | .objectLiteral properties => objectLiteral properties
  | .entry key value computed _ => entry key value computed
  | .function form marks name params body returnType =>
      match form, role with
      | .declared, _ => unsupported place form.tag
      | _, .method owner isConstructor isAbstract =>
          methodFunction owner isConstructor isAbstract params body returnType
      | .emptyBody, _ => unsupported place form.tag
      | _, _ => function form role place marks name params body returnType
  | .classDefinition _ marks name superClass implementing body decorators =>
      classDefinition role place marks name superClass implementing body decorators
  | .classProperty marks key value type decorators =>
      classProperty place marks key value type decorators
  | .method form marks key value => method form place marks key value
  | .spread .rest argument type => rest role argument type
  | .assignmentPattern left right => assignmentPattern role left right
  | .cast expression _ => expression.printAs role.underCast
  | .expressionStatement expression => expression.print
  | .ifStatement test consequent alternate => ifStatement test consequent alternate
  | .switch discriminant cases => switch discriminant cases
  | .switchCase test consequent => switchCase test consequent
  | .forLoop init test update body => forLoop init test update body
  | .forEach form left right body => forEach form left right body
  | .loop form test body => loop form test body
  | .jump form label => jump form label
  | .exit form argument => exit form place argument
  | .tryStatement body handler finalizer => tryStatement body handler finalizer
  | .catchClause param body => catchClause param body
  | .variableDeclaration declarations kind => variableDeclaration role declarations kind
  | .importDeclaration specifiers source => importDeclaration specifiers source
  | .importSpecifier imported binding =>
      specifier ⟨location, .importSpecifier imported.node (binding.map (·.node))⟩
  | .importBinding form binding => specifier ⟨location, .importBinding form binding.node⟩
  | .exportNamed declaration specifiers _ => exportNamed place declaration specifiers
  | .exportDefault declaration => exportDefault declaration
  | .moduleDeclaration _ body => whenPresent body Folded.print
  | .interface name body extending implementing =>
      interface place name body extending implementing
  | .heritage _ expression typeParameters typeArguments =>
      namedType expression typeParameters typeArguments
  | .methodSignature marks key params returnType =>
      methodSignature marks key params returnType
  | .propertySignature key type readonly optional computed =>
      propertySignature key type readonly optional computed
  | .typeClause type => typeClause type
  | .typeReference name typeParameters typeArguments =>
      namedType name typeParameters typeArguments
  | .typeList params => typeList params
  | .qualifiedName left right => qualifiedName left right
  | .arrayType element => arrayType element
  | _ => pure ()

/-- Print a construct, given the lookup of its rank. -/
def constructWith {Access : Type} [Printable Access] (ownRank : Printer Rank)
    (location : Location) (shape : Shape (Folded Access)) (role : Role) : Printer Unit :=
  match withOperands ownRank location.start shape with
  | some printer => printer
  | none => withoutOperands location (shape.map Folded.toPart) role

/-- Print the construct at a place in the role that was set for it, given the printers of its
parts at any place.  The parts find the roles that the construct sets for them. -/
def constructAt (location : Location) (shape : Shape (Folded (NodePlace → Printer Unit)))
    (place : NodePlace) : Printer Unit := do
  let role ← takeRole
  let parts := shape.placed.map fun (step, part) =>
    (⟨part.node, step :: place, part.result (step :: place)⟩ : Folded PlacedPrinter)
  constructWith (rankAt place ⟨location, shape.map (·.node)⟩) location parts role

end Printer

/-- Print the node at a place. -/
def Node.printAt (node : Node) : NodePlace → Printer Unit :=
  node.fold Printer.constructAt

/-- The role of a whole tree.  No construct around it has asked for its rank. -/
def Role.ofTree : Role → Role
  | .ranked => .plain
  | role => role

/-- Print a whole tree in the role that was set for it.  The ranks of its operators are
remembered until its end. -/
def Node.print (node : Node) : Printer Unit := do
  let known := (← get).ranks
  modify fun state => { state with role := state.role.ofTree, ranks := {} }
  node.printAt []
  modify fun state => { state with ranks := known }

/-- Generated code with the diagnostics raised on the way. -/
structure Generated where
  text : String
  diagnostics : List Diagnostic := []
  deriving DecidableEq, Repr

/-- Whether some diagnostic is an error. -/
def Generated.hasErrors (generated : Generated) : Bool :=
  generated.diagnostics.any Diagnostic.isError

/-- Generate the code of a tree. -/
def Settings.generate (settings : Settings) (tree : Node) : Except Diagnostic Generated :=
  match tree.print.run settings |>.run .start with
  | .error diagnostic => .error diagnostic
  | .ok (_, state) =>
      .ok ⟨state.types.prepend settings.file state.text.toString, state.diagnostics⟩

end ScriptBridge

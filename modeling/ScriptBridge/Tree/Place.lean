import ScriptBridge.Tree.Node

/-!
# Places in a tree

Every part of a construct stands in one of its fields, and fields that hold
several parts number them.  The steps that lead from the root of a tree to a
node are its place.  Two nodes of a tree may look the same, but they never stand
at the same place.
-/

namespace ScriptBridge

/-- Where a part stands in its construct. -/
structure Step where
  field : Nat
  index : Nat
  deriving DecidableEq, Repr

/-- The steps that lead to a node, the last one in front. -/
abbrev NodePlace := List Step

namespace Shape

variable {Part : Type}

/-- The parts of a list, with their steps. -/
def placedList (field : Nat) : Nat → List Part → List (Step × Part)
  | _, [] => []
  | index, part :: rest => (⟨field, index⟩, part) :: placedList field (index + 1) rest

/-- A part that may be absent, with its step. -/
def placedOption (field : Nat) (part : Option Part) : Option (Step × Part) :=
  part.map (⟨field, 0⟩, ·)

/-- The parts of a list with holes, with their steps. -/
def placedElements (field : Nat) : Nat → List (Option Part) → List (Option (Step × Part))
  | _, [] => []
  | index, part :: rest =>
      part.map (⟨field, index⟩, ·) :: placedElements field (index + 1) rest

/-- The step to the expression of a cast. -/
def castStep : Step :=
  ⟨0, 0⟩

/-- Every part with its step. -/
def placed : Shape Part → Shape (Step × Part)
  | .leaf form => .leaf form
  | .keywordType form => .keywordType form
  | .unsupported form => .unsupported form
  | .unknown name fields => .unknown name fields
  | .group form statements => .group form (placedList 0 0 statements)
  | .identifier name declaredType optional =>
      .identifier name (placedOption 0 declaredType) optional
  | .literal raw value => .literal raw value
  | .arrayLiteral elements => .arrayLiteral (placedElements 0 0 elements)
  | .objectLiteral properties => .objectLiteral (placedList 0 0 properties)
  | .entry key value computed shorthand => .entry (⟨0, 0⟩, key) (⟨1, 0⟩, value) computed shorthand
  | .function form marks name params body returnType =>
      .function form marks (placedOption 0 name) (placedList 1 0 params) (placedOption 2 body)
        (placedOption 3 returnType)
  | .classDefinition form marks name superClass implementing body decorators =>
      .classDefinition form marks (placedOption 0 name) (placedOption 1 superClass)
        (placedList 2 0 implementing) (⟨3, 0⟩, body) (placedList 4 0 decorators)
  | .classProperty marks key value declaredType decorators =>
      .classProperty marks (⟨0, 0⟩, key) (placedOption 1 value) (placedOption 2 declaredType)
        (placedList 3 0 decorators)
  | .method form marks key value => .method form marks (⟨0, 0⟩, key) (⟨1, 0⟩, value)
  | .unary form operator leading argument => .unary form operator leading (⟨0, 0⟩, argument)
  | .binary form operator left right => .binary form operator (⟨0, 0⟩, left) (⟨1, 0⟩, right)
  | .conditional test consequent alternate =>
      .conditional (⟨0, 0⟩, test) (⟨1, 0⟩, consequent) (⟨2, 0⟩, alternate)
  | .call form callee arguments optional typeParameters typeArguments =>
      .call form (⟨0, 0⟩, callee) (placedList 1 0 arguments) optional
        (placedOption 2 typeParameters) (placedOption 3 typeArguments)
  | .member object property computed optional =>
      .member (⟨0, 0⟩, object) (⟨1, 0⟩, property) computed optional
  | .sequence expressions => .sequence (placedList 0 0 expressions)
  | .spread form argument declaredType =>
      .spread form (⟨0, 0⟩, argument) (placedOption 1 declaredType)
  | .assignmentPattern left right => .assignmentPattern (⟨0, 0⟩, left) (⟨1, 0⟩, right)
  | .cast expression declaredType => .cast (castStep, expression) (⟨1, 0⟩, declaredType)
  | .expressionStatement expression => .expressionStatement (⟨0, 0⟩, expression)
  | .ifStatement test consequent alternate =>
      .ifStatement (⟨0, 0⟩, test) (⟨1, 0⟩, consequent) (placedOption 2 alternate)
  | .switch discriminant cases => .switch (⟨0, 0⟩, discriminant) (placedList 1 0 cases)
  | .switchCase test consequent => .switchCase (placedOption 0 test) (placedList 1 0 consequent)
  | .forLoop init test update body =>
      .forLoop (placedOption 0 init) (placedOption 1 test) (placedOption 2 update) (⟨3, 0⟩, body)
  | .forEach form left right body => .forEach form (⟨0, 0⟩, left) (⟨1, 0⟩, right) (⟨2, 0⟩, body)
  | .loop form test body => .loop form (⟨0, 0⟩, test) (⟨1, 0⟩, body)
  | .jump form label => .jump form (placedOption 0 label)
  | .exit form argument => .exit form (placedOption 0 argument)
  | .tryStatement block handler finalizer =>
      .tryStatement (⟨0, 0⟩, block) (placedOption 1 handler) (placedOption 2 finalizer)
  | .catchClause param body => .catchClause (placedOption 0 param) (⟨1, 0⟩, body)
  | .variableDeclaration declarations kind =>
      .variableDeclaration (placedList 0 0 declarations) kind
  | .declarator name init => .declarator (⟨0, 0⟩, name) (placedOption 1 init)
  | .importDeclaration specifiers source =>
      .importDeclaration (placedList 0 0 specifiers) (⟨1, 0⟩, source)
  | .importSpecifier imported binding =>
      .importSpecifier (⟨0, 0⟩, imported) (placedOption 1 binding)
  | .importBinding form binding => .importBinding form (⟨0, 0⟩, binding)
  | .exportNamed declaration specifiers source =>
      .exportNamed (placedOption 0 declaration) (placedList 1 0 specifiers) (placedOption 2 source)
  | .exportDefault declaration => .exportDefault (⟨0, 0⟩, declaration)
  | .moduleDeclaration name body => .moduleDeclaration (⟨0, 0⟩, name) (placedOption 1 body)
  | .interface name body extending implementing =>
      .interface (⟨0, 0⟩, name) (⟨1, 0⟩, body) (placedList 2 0 extending)
        (placedList 3 0 implementing)
  | .heritage form expression typeParameters typeArguments =>
      .heritage form (⟨0, 0⟩, expression) (placedOption 1 typeParameters)
        (placedOption 2 typeArguments)
  | .methodSignature marks key params returnType =>
      .methodSignature marks (⟨0, 0⟩, key) (placedList 1 0 params) (placedOption 2 returnType)
  | .propertySignature key declaredType readonly optional computed =>
      .propertySignature (⟨0, 0⟩, key) (placedOption 1 declaredType) readonly optional computed
  | .typeClause declaredType => .typeClause (⟨0, 0⟩, declaredType)
  | .typeReference name typeParameters typeArguments =>
      .typeReference (⟨0, 0⟩, name) (placedOption 1 typeParameters) (placedOption 2 typeArguments)
  | .typeList params => .typeList (placedList 0 0 params)
  | .qualifiedName left right => .qualifiedName (⟨0, 0⟩, left) (⟨1, 0⟩, right)
  | .arrayType element => .arrayType (⟨0, 0⟩, element)

end Shape

/-- The node at a place below a node. -/
def Node.at? (node : Node) : NodePlace → Option Node
  | [] => some node
  | step :: above => (node.at? above).bind fun around => around.shape.placed.parts.lookup step

end ScriptBridge

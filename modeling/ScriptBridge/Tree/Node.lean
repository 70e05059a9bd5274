import ScriptBridge.Tree.Location
import ScriptBridge.Tree.Shape

/-!
# Syntax trees

A node is a shape whose parts are nodes, together with its location.  Every
computation over trees goes through one fold: the result of a node is computed
from its shape, in which each part stands with its own result.
-/

namespace ScriptBridge

/-- A node of a syntax tree. -/
structure Node where
  location : Location
  shape : Shape Node

/-- A part of a node together with what was computed from it. -/
structure Folded (Result : Type) where
  node : Node
  result : Result

namespace Node

mutual

/-- Compute a result from the leaves up. -/
def fold {Result : Type}
    (step : Location → Shape (Folded Result) → Result) : Node → Result
  | ⟨location, shape⟩ => step location (foldShape step shape)

/-- Compute the results of the parts of a shape. -/
def foldShape {Result : Type}
    (step : Location → Shape (Folded Result) → Result) :
    Shape Node → Shape (Folded Result)
  | .leaf form => .leaf form
  | .keywordType form => .keywordType form
  | .unsupported form => .unsupported form
  | .unknown name fields => .unknown name fields
  | .group form statements => .group form (foldList step statements)
  | .identifier name declaredType optional =>
      .identifier name (foldOption step declaredType) optional
  | .literal raw value => .literal raw value
  | .arrayLiteral elements => .arrayLiteral (foldElements step elements)
  | .objectLiteral properties => .objectLiteral (foldList step properties)
  | .entry key value computed shorthand =>
      .entry ⟨key, key.fold step⟩ ⟨value, value.fold step⟩ computed shorthand
  | .function form marks name params body returnType =>
      .function form marks (foldOption step name) (foldList step params)
        (foldOption step body) (foldOption step returnType)
  | .classDefinition form marks name superClass implementing body decorators =>
      .classDefinition form marks (foldOption step name) (foldOption step superClass)
        (foldList step implementing) ⟨body, body.fold step⟩ (foldList step decorators)
  | .classProperty marks key value declaredType decorators =>
      .classProperty marks ⟨key, key.fold step⟩ (foldOption step value)
        (foldOption step declaredType) (foldList step decorators)
  | .method form marks key value =>
      .method form marks ⟨key, key.fold step⟩ ⟨value, value.fold step⟩
  | .unary form operator leading argument =>
      .unary form operator leading ⟨argument, argument.fold step⟩
  | .binary form operator left right =>
      .binary form operator ⟨left, left.fold step⟩ ⟨right, right.fold step⟩
  | .conditional test consequent alternate =>
      .conditional ⟨test, test.fold step⟩ ⟨consequent, consequent.fold step⟩ ⟨alternate,
        alternate.fold step⟩
  | .call form callee arguments optional typeParameters typeArguments =>
      .call form ⟨callee, callee.fold step⟩ (foldList step arguments) optional
        (foldOption step typeParameters) (foldOption step typeArguments)
  | .member object property computed optional =>
      .member ⟨object, object.fold step⟩ ⟨property, property.fold step⟩ computed optional
  | .sequence expressions => .sequence (foldList step expressions)
  | .spread form argument declaredType =>
      .spread form ⟨argument, argument.fold step⟩ (foldOption step declaredType)
  | .assignmentPattern left right =>
      .assignmentPattern ⟨left, left.fold step⟩ ⟨right, right.fold step⟩
  | .cast expression declaredType =>
      .cast ⟨expression, expression.fold step⟩ ⟨declaredType, declaredType.fold step⟩
  | .expressionStatement expression =>
      .expressionStatement ⟨expression, expression.fold step⟩
  | .ifStatement test consequent alternate =>
      .ifStatement ⟨test, test.fold step⟩ ⟨consequent, consequent.fold step⟩
        (foldOption step alternate)
  | .switch discriminant cases =>
      .switch ⟨discriminant, discriminant.fold step⟩ (foldList step cases)
  | .switchCase test consequent =>
      .switchCase (foldOption step test) (foldList step consequent)
  | .forLoop init test update body =>
      .forLoop (foldOption step init) (foldOption step test) (foldOption step update)
        ⟨body, body.fold step⟩
  | .forEach form left right body =>
      .forEach form ⟨left, left.fold step⟩ ⟨right, right.fold step⟩ ⟨body, body.fold step⟩
  | .loop form test body => .loop form ⟨test, test.fold step⟩ ⟨body, body.fold step⟩
  | .jump form label => .jump form (foldOption step label)
  | .exit form argument => .exit form (foldOption step argument)
  | .tryStatement block handler finalizer =>
      .tryStatement ⟨block, block.fold step⟩ (foldOption step handler)
        (foldOption step finalizer)
  | .catchClause param body => .catchClause (foldOption step param) ⟨body, body.fold step⟩
  | .variableDeclaration declarations kind => .variableDeclaration (foldList step declarations) kind
  | .declarator name init => .declarator ⟨name, name.fold step⟩ (foldOption step init)
  | .importDeclaration specifiers source =>
      .importDeclaration (foldList step specifiers) ⟨source, source.fold step⟩
  | .importSpecifier imported binding =>
      .importSpecifier ⟨imported, imported.fold step⟩ (foldOption step binding)
  | .importBinding form binding => .importBinding form ⟨binding, binding.fold step⟩
  | .exportNamed declaration specifiers source =>
      .exportNamed (foldOption step declaration) (foldList step specifiers)
        (foldOption step source)
  | .exportDefault declaration => .exportDefault ⟨declaration, declaration.fold step⟩
  | .moduleDeclaration name body =>
      .moduleDeclaration ⟨name, name.fold step⟩ (foldOption step body)
  | .interface name body extending implementing =>
      .interface ⟨name, name.fold step⟩ ⟨body, body.fold step⟩ (foldList step extending)
        (foldList step implementing)
  | .heritage form expression typeParameters typeArguments =>
      .heritage form ⟨expression, expression.fold step⟩ (foldOption step typeParameters)
        (foldOption step typeArguments)
  | .methodSignature marks key params returnType =>
      .methodSignature marks ⟨key, key.fold step⟩ (foldList step params)
        (foldOption step returnType)
  | .propertySignature key declaredType readonly optional computed =>
      .propertySignature ⟨key, key.fold step⟩ (foldOption step declaredType) readonly
        optional computed
  | .typeClause declaredType => .typeClause ⟨declaredType, declaredType.fold step⟩
  | .typeReference name typeParameters typeArguments =>
      .typeReference ⟨name, name.fold step⟩ (foldOption step typeParameters)
        (foldOption step typeArguments)
  | .typeList params => .typeList (foldList step params)
  | .qualifiedName left right =>
      .qualifiedName ⟨left, left.fold step⟩ ⟨right, right.fold step⟩
  | .arrayType element => .arrayType ⟨element, element.fold step⟩

/-- Compute the results of a list of nodes. -/
def foldList {Result : Type}
    (step : Location → Shape (Folded Result) → Result) :
    List Node → List (Folded Result)
  | [] => []
  | node :: rest => ⟨node, node.fold step⟩ :: foldList step rest

/-- Compute the result of a node that may be absent. -/
def foldOption {Result : Type}
    (step : Location → Shape (Folded Result) → Result) :
    Option Node → Option (Folded Result)
  | none => none
  | some node => some ⟨node, node.fold step⟩

/-- Compute the results of a list of nodes with holes. -/
def foldElements {Result : Type}
    (step : Location → Shape (Folded Result) → Result) :
    List (Option Node) → List (Option (Folded Result))
  | [] => []
  | element :: rest => foldOption step element :: foldElements step rest

end

/-- The tag that names the category of a node. -/
def tag (node : Node) : String :=
  node.shape.tag

/-- The line on which a node starts. -/
def line (node : Node) : Nat :=
  node.location.start.line

/-- The column at which a node starts. -/
def column (node : Node) : Nat :=
  node.location.start.column

/-- The name of an identifier. -/
def identifier? (node : Node) : Option String :=
  match node.shape with
  | .identifier name .. => some name
  | _ => none

/-- The value of a string literal. -/
def stringLiteral? (node : Node) : Option String :=
  match node.shape with
  | .literal _ value => value.text?
  | _ => none

/-- Whether two trees are equal: the same outline and location at every node. -/
def same : Node → Node → Bool :=
  fold fun location shape other =>
    location == other.location &&
      shape.outline == other.shape.outline &&
      (shape.parts.zip other.shape.parts).all fun (part, otherPart) =>
        part.result otherPart

instance : BEq Node := ⟨same⟩

end Node

end ScriptBridge

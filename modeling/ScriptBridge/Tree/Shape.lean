import ScriptBridge.Json.Value
import ScriptBridge.Tree.Form

/-!
# Shapes of syntax

A shape is one level of a syntax tree: the form of a construct, its own words
and marks, and its parts.  What a part is stays open, so the same shapes serve
for whole trees and for any result computed from the parts.
-/

namespace ScriptBridge

/-- Marks on a function. -/
structure FunctionMarks where
  generator : Bool := false
  async : Bool := false
  expression : Bool := false
  declared : Bool := false
  deriving DecidableEq, Repr

/-- Marks on a class. -/
structure ClassMarks where
  declared : Bool := false
  abstract : Bool := false
  deriving DecidableEq, Repr

/-- Marks on a field of a class. -/
structure PropertyMarks where
  accessibility : Option String := none
  static : Bool := false
  readonly : Bool := false
  computed : Bool := false
  optional : Bool := false
  declared : Bool := false
  definite : Bool := false
  deriving DecidableEq, Repr

/-- Marks on a method of a class. -/
structure MethodMarks where
  kind : MethodKind := .method
  static : Bool := false
  computed : Bool := false
  accessibility : Option String := none
  deriving DecidableEq, Repr

/-- Marks on a method of an interface. -/
structure SignatureMarks where
  accessibility : Option String := none
  static : Bool := false
  computed : Bool := false
  optional : Bool := false
  deriving DecidableEq, Repr

/-- One level of a syntax tree over parts of the given type. -/
inductive Shape (Part : Type) where
  /-- An expression or statement without parts. -/
  | leaf (form : Leaf)
  /-- A type named by a keyword. -/
  | keywordType (form : KeywordType)
  /-- A construct that is never converted. -/
  | unsupported (form : Unsupported)
  /-- An object with a tag that names no category, kept as it was written. -/
  | unknown (name : String) (fields : List (String × Json))
  /-- A bare list of statements or members. -/
  | group (form : BodyForm) (statements : List Part)
  /-- A name, possibly with a type. -/
  | identifier (name : String) (declaredType : Option Part) (optional : Bool)
  /-- A literal: its source text and its value. -/
  | literal (raw : String) (value : Json)
  /-- An array literal; an elided element is a hole. -/
  | arrayLiteral (elements : List (Option Part))
  /-- An object literal. -/
  | objectLiteral (properties : List Part)
  /-- An entry of an object literal. -/
  | entry (key value : Part) (computed shorthand : Bool)
  /-- A function. -/
  | function (form : FunctionForm) (marks : FunctionMarks) (name : Option Part)
      (params : List Part) (body returnType : Option Part)
  /-- A class. -/
  | classDefinition (form : ClassForm) (marks : ClassMarks) (name superClass : Option Part)
      (implementing : List Part) (body : Part) (decorators : List Part)
  /-- A field of a class. -/
  | classProperty (marks : PropertyMarks) (key : Part) (value declaredType : Option Part)
      (decorators : List Part)
  /-- A method, accessor or constructor of a class. -/
  | method (form : MethodForm) (marks : MethodMarks) (key value : Part)
  /-- An operator before (`leading`) or after its operand. -/
  | unary (form : UnaryForm) (operator : String) (leading : Bool) (argument : Part)
  /-- An operator between two operands. -/
  | binary (form : BinaryForm) (operator : String) (left right : Part)
  /-- A choice between two expressions. -/
  | conditional (test consequent alternate : Part)
  /-- A callee applied to arguments. -/
  | call (form : CallForm) (callee : Part) (arguments : List Part) (optional : Bool)
      (typeParameters typeArguments : Option Part)
  /-- A part of an object, by name or by key. -/
  | member (object property : Part) (computed optional : Bool)
  /-- Expressions one after the other. -/
  | sequence (expressions : List Part)
  /-- Three dots before an expression or a binding. -/
  | spread (form : SpreadForm) (argument : Part) (declaredType : Option Part)
  /-- A binding with a default. -/
  | assignmentPattern (left right : Part)
  /-- An expression taken at another type. -/
  | cast (expression declaredType : Part)
  /-- An expression as a statement. -/
  | expressionStatement (expression : Part)
  /-- A conditional statement. -/
  | ifStatement (test consequent : Part) (alternate : Option Part)
  /-- A statement that selects one of several cases. -/
  | switch (discriminant : Part) (cases : List Part)
  /-- A case; the default case has no test. -/
  | switchCase (test : Option Part) (consequent : List Part)
  /-- A loop with a counter. -/
  | forLoop (init test update : Option Part) (body : Part)
  /-- A loop over the parts of a collection. -/
  | forEach (form : EachForm) (left right body : Part)
  /-- A loop under a condition. -/
  | loop (form : LoopForm) (test body : Part)
  /-- A jump, possibly to a label. -/
  | jump (form : JumpForm) (label : Option Part)
  /-- A statement that ends a function, possibly with a value. -/
  | exit (form : ExitForm) (argument : Option Part)
  /-- A guarded block. -/
  | tryStatement (block : Part) (handler finalizer : Option Part)
  /-- The handler of a guarded block. -/
  | catchClause (param : Option Part) (body : Part)
  /-- A declaration of variables. -/
  | variableDeclaration (declarations : List Part) (kind : String)
  /-- One declared variable. -/
  | declarator (name : Part) (init : Option Part)
  /-- An import of names from a module. -/
  | importDeclaration (specifiers : List Part) (source : Part)
  /-- An imported name, possibly bound to another. -/
  | importSpecifier (imported : Part) (binding : Option Part)
  /-- A name bound to a whole module or its default. -/
  | importBinding (form : BindingForm) (binding : Part)
  /-- An exported declaration or list of names. -/
  | exportNamed (declaration : Option Part) (specifiers : List Part) (source : Option Part)
  /-- A default export. -/
  | exportDefault (declaration : Part)
  /-- A named module. -/
  | moduleDeclaration (name : Part) (body : Option Part)
  /-- An interface. -/
  | interface (name body : Part) (extending implementing : List Part)
  /-- An entry of an `extends` or `implements` list. -/
  | heritage (form : HeritageForm) (expression : Part)
      (typeParameters typeArguments : Option Part)
  /-- A method of an interface. -/
  | methodSignature (marks : SignatureMarks) (key : Part) (params : List Part)
      (returnType : Option Part)
  /-- A field of an interface. -/
  | propertySignature (key : Part) (declaredType : Option Part)
      (readonly optional computed : Bool)
  /-- A type after a colon. -/
  | typeClause (declaredType : Part)
  /-- A named type, possibly with arguments. -/
  | typeReference (name : Part) (typeParameters typeArguments : Option Part)
  /-- Types between angle brackets. -/
  | typeList (params : List Part)
  /-- Two names joined by a dot. -/
  | qualifiedName (left right : Part)
  /-- An array of an element type. -/
  | arrayType (element : Part)
  deriving BEq

namespace Shape

variable {Part Other : Type}

/-- The tag that names the category of a shape. -/
def tag : Shape Part → String
  | .leaf form => form.tag
  | .keywordType form => form.tag
  | .unsupported form => form.tag
  | .unknown name .. => name
  | .group form .. => form.tag
  | .identifier .. => "Identifier"
  | .literal .. => "Literal"
  | .arrayLiteral .. => "ArrayExpression"
  | .objectLiteral .. => "ObjectExpression"
  | .entry .. => "Property"
  | .function form .. => form.tag
  | .classDefinition form .. => form.tag
  | .classProperty .. => "ClassProperty"
  | .method form .. => form.tag
  | .unary form .. => form.tag
  | .binary form .. => form.tag
  | .conditional .. => "ConditionalExpression"
  | .call form .. => form.tag
  | .member .. => "MemberExpression"
  | .sequence .. => "SequenceExpression"
  | .spread form .. => form.tag
  | .assignmentPattern .. => "AssignmentPattern"
  | .cast .. => "TSAsExpression"
  | .expressionStatement .. => "ExpressionStatement"
  | .ifStatement .. => "IfStatement"
  | .switch .. => "SwitchStatement"
  | .switchCase .. => "SwitchCase"
  | .forLoop .. => "ForStatement"
  | .forEach form .. => form.tag
  | .loop form .. => form.tag
  | .jump form .. => form.tag
  | .exit form .. => form.tag
  | .tryStatement .. => "TryStatement"
  | .catchClause .. => "CatchClause"
  | .variableDeclaration .. => "VariableDeclaration"
  | .declarator .. => "VariableDeclarator"
  | .importDeclaration .. => "ImportDeclaration"
  | .importSpecifier .. => "ImportSpecifier"
  | .importBinding form .. => form.tag
  | .exportNamed .. => "ExportNamedDeclaration"
  | .exportDefault .. => "ExportDefaultDeclaration"
  | .moduleDeclaration .. => "TSModuleDeclaration"
  | .interface .. => "TSInterfaceDeclaration"
  | .heritage form .. => form.tag
  | .methodSignature .. => "TSMethodSignature"
  | .propertySignature .. => "TSPropertySignature"
  | .typeClause .. => "TSTypeAnnotation"
  | .typeReference .. => "TSTypeReference"
  | .typeList .. => "TSTypeParameterInstantiation"
  | .qualifiedName .. => "TSQualifiedName"
  | .arrayType .. => "TSArrayType"

/-- Replace every part. -/
def map (function : Part → Other) : Shape Part → Shape Other
  | .leaf form => .leaf form
  | .keywordType form => .keywordType form
  | .unsupported form => .unsupported form
  | .unknown name fields => .unknown name fields
  | .group form statements => .group form (statements.map function)
  | .identifier name declaredType optional =>
      .identifier name (declaredType.map function) optional
  | .literal raw value => .literal raw value
  | .arrayLiteral elements => .arrayLiteral (elements.map (·.map function))
  | .objectLiteral properties => .objectLiteral (properties.map function)
  | .entry key value computed shorthand =>
      .entry (function key) (function value) computed shorthand
  | .function form marks name params body returnType =>
      .function form marks (name.map function) (params.map function) (body.map function)
        (returnType.map function)
  | .classDefinition form marks name superClass implementing body decorators =>
      .classDefinition form marks (name.map function) (superClass.map function)
        (implementing.map function) (function body) (decorators.map function)
  | .classProperty marks key value declaredType decorators =>
      .classProperty marks (function key) (value.map function) (declaredType.map function)
        (decorators.map function)
  | .method form marks key value => .method form marks (function key) (function value)
  | .unary form operator leading argument =>
      .unary form operator leading (function argument)
  | .binary form operator left right =>
      .binary form operator (function left) (function right)
  | .conditional test consequent alternate =>
      .conditional (function test) (function consequent) (function alternate)
  | .call form callee arguments optional typeParameters typeArguments =>
      .call form (function callee) (arguments.map function) optional
        (typeParameters.map function) (typeArguments.map function)
  | .member object property computed optional =>
      .member (function object) (function property) computed optional
  | .sequence expressions => .sequence (expressions.map function)
  | .spread form argument declaredType =>
      .spread form (function argument) (declaredType.map function)
  | .assignmentPattern left right => .assignmentPattern (function left) (function right)
  | .cast expression declaredType => .cast (function expression) (function declaredType)
  | .expressionStatement expression => .expressionStatement (function expression)
  | .ifStatement test consequent alternate =>
      .ifStatement (function test) (function consequent) (alternate.map function)
  | .switch discriminant cases => .switch (function discriminant) (cases.map function)
  | .switchCase test consequent => .switchCase (test.map function) (consequent.map function)
  | .forLoop init test update body =>
      .forLoop (init.map function) (test.map function) (update.map function) (function body)
  | .forEach form left right body =>
      .forEach form (function left) (function right) (function body)
  | .loop form test body => .loop form (function test) (function body)
  | .jump form label => .jump form (label.map function)
  | .exit form argument => .exit form (argument.map function)
  | .tryStatement block handler finalizer =>
      .tryStatement (function block) (handler.map function) (finalizer.map function)
  | .catchClause param body => .catchClause (param.map function) (function body)
  | .variableDeclaration declarations kind => .variableDeclaration (declarations.map function) kind
  | .declarator name init => .declarator (function name) (init.map function)
  | .importDeclaration specifiers source =>
      .importDeclaration (specifiers.map function) (function source)
  | .importSpecifier imported binding =>
      .importSpecifier (function imported) (binding.map function)
  | .importBinding form binding => .importBinding form (function binding)
  | .exportNamed declaration specifiers source =>
      .exportNamed (declaration.map function) (specifiers.map function)
        (source.map function)
  | .exportDefault declaration => .exportDefault (function declaration)
  | .moduleDeclaration name body => .moduleDeclaration (function name) (body.map function)
  | .interface name body extending implementing =>
      .interface (function name) (function body) (extending.map function)
        (implementing.map function)
  | .heritage form expression typeParameters typeArguments =>
      .heritage form (function expression) (typeParameters.map function)
        (typeArguments.map function)
  | .methodSignature marks key params returnType =>
      .methodSignature marks (function key) (params.map function) (returnType.map function)
  | .propertySignature key declaredType readonly optional computed =>
      .propertySignature (function key) (declaredType.map function) readonly optional
        computed
  | .typeClause declaredType => .typeClause (function declaredType)
  | .typeReference name typeParameters typeArguments =>
      .typeReference (function name) (typeParameters.map function)
        (typeArguments.map function)
  | .typeList params => .typeList (params.map function)
  | .qualifiedName left right => .qualifiedName (function left) (function right)
  | .arrayType element => .arrayType (function element)

/-- Every part, in the order of declaration. -/
def parts : Shape Part → List Part
  | .group _ statements => statements
  | .identifier _ declaredType _ => declaredType.toList
  | .arrayLiteral elements => elements.filterMap id
  | .objectLiteral properties => properties
  | .entry key value _ _ => [key, value]
  | .function _ _ name params body returnType =>
      name.toList ++ params ++ body.toList ++ returnType.toList
  | .classDefinition _ _ name superClass implementing body decorators =>
      name.toList ++ superClass.toList ++ implementing ++ [body] ++ decorators
  | .classProperty _ key value declaredType decorators =>
      [key] ++ value.toList ++ declaredType.toList ++ decorators
  | .method _ _ key value => [key, value]
  | .unary _ _ _ argument => [argument]
  | .binary _ _ left right => [left, right]
  | .conditional test consequent alternate => [test, consequent, alternate]
  | .call _ callee arguments _ typeParameters typeArguments =>
      [callee] ++ arguments ++ typeParameters.toList ++ typeArguments.toList
  | .member object property _ _ => [object, property]
  | .sequence expressions => expressions
  | .spread _ argument declaredType => [argument] ++ declaredType.toList
  | .assignmentPattern left right => [left, right]
  | .cast expression declaredType => [expression, declaredType]
  | .expressionStatement expression => [expression]
  | .ifStatement test consequent alternate => [test, consequent] ++ alternate.toList
  | .switch discriminant cases => [discriminant] ++ cases
  | .switchCase test consequent => test.toList ++ consequent
  | .forLoop init test update body => init.toList ++ test.toList ++ update.toList ++ [body]
  | .forEach _ left right body => [left, right, body]
  | .loop _ test body => [test, body]
  | .jump _ label => label.toList
  | .exit _ argument => argument.toList
  | .tryStatement block handler finalizer => [block] ++ handler.toList ++ finalizer.toList
  | .catchClause param body => param.toList ++ [body]
  | .variableDeclaration declarations _ => declarations
  | .declarator name init => [name] ++ init.toList
  | .importDeclaration specifiers source => specifiers ++ [source]
  | .importSpecifier imported binding => [imported] ++ binding.toList
  | .importBinding _ binding => [binding]
  | .exportNamed declaration specifiers source =>
      declaration.toList ++ specifiers ++ source.toList
  | .exportDefault declaration => [declaration]
  | .moduleDeclaration name body => [name] ++ body.toList
  | .interface name body extending implementing => [name, body] ++ extending ++ implementing
  | .heritage _ expression typeParameters typeArguments =>
      [expression] ++ typeParameters.toList ++ typeArguments.toList
  | .methodSignature _ key params returnType => [key] ++ params ++ returnType.toList
  | .propertySignature key declaredType _ _ _ => [key] ++ declaredType.toList
  | .typeClause declaredType => [declaredType]
  | .typeReference name typeParameters typeArguments =>
      [name] ++ typeParameters.toList ++ typeArguments.toList
  | .typeList params => params
  | .qualifiedName left right => [left, right]
  | .arrayType element => [element]
  | _ => []

/-- The shape with its parts forgotten. -/
def outline (shape : Shape Part) : Shape Unit :=
  shape.map fun _ => ()

end Shape

end ScriptBridge

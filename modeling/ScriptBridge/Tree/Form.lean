/-!
# Forms of syntax

Several categories of syntax share one shape and differ only in their form: a
program and a block are both bodies of statements, a call and a construction
both apply a callee to arguments.  Each form knows the tag that names it.
-/

namespace ScriptBridge

/-- Expressions and statements without parts. -/
inductive Leaf where
  | this
  | super
  | empty
  | debugger
  deriving DecidableEq, Repr

/-- Types named by a keyword. -/
inductive KeywordType where
  | void
  | any
  | number
  | string
  | boolean
  | null
  | undefined
  | all
  deriving DecidableEq, Repr

/-- Constructs that are recognised and never converted. -/
inductive Unsupported where
  | await
  | yield
  | templateLiteral
  | templateElement
  | taggedTemplate
  | metaProperty
  | arrayPattern
  | objectPattern
  | decorator
  | labeledStatement
  | withStatement
  | exportAll
  | exportSpecifier
  | enumeration
  | typeAssertion
  deriving DecidableEq, Repr

/-- Bare lists of statements or members. -/
inductive BodyForm where
  | program
  | block
  | classBody
  | moduleBlock
  | interfaceBody
  deriving DecidableEq, Repr

/-- Function-like constructs. -/
inductive FunctionForm where
  | expression
  | arrow
  | declaration
  | declared
  | emptyBody
  deriving DecidableEq, Repr

/-- Class definitions. -/
inductive ClassForm where
  | expression
  | declaration
  deriving DecidableEq, Repr

/-- Operators with one operand. -/
inductive UnaryForm where
  | unary
  | update
  deriving DecidableEq, Repr

/-- Operators with two operands. -/
inductive BinaryForm where
  | binary
  | logical
  | assignment
  deriving DecidableEq, Repr

/-- Applications to arguments. -/
inductive CallForm where
  | call
  | construction
  deriving DecidableEq, Repr

/-- Constructs written with three dots. -/
inductive SpreadForm where
  | spread
  | rest
  deriving DecidableEq, Repr

/-- Loops over the parts of a collection. -/
inductive EachForm where
  | keys
  | values
  deriving DecidableEq, Repr

/-- Loops under a condition. -/
inductive LoopForm where
  | whileLoop
  | doWhile
  deriving DecidableEq, Repr

/-- Jumps out of or within a loop. -/
inductive JumpForm where
  | breaking
  | continuing
  deriving DecidableEq, Repr

/-- Statements that end a function. -/
inductive ExitForm where
  | returning
  | throwing
  deriving DecidableEq, Repr

/-- Class members with a function. -/
inductive MethodForm where
  | concrete
  | abstract
  deriving DecidableEq, Repr

/-- Imports that bind one name. -/
inductive BindingForm where
  | default
  | namespaced
  deriving DecidableEq, Repr

/-- Entries of an `extends` or `implements` list. -/
inductive HeritageForm where
  | interfaceHeritage
  | classImplements
  deriving DecidableEq, Repr

/-- What a method is for. -/
inductive MethodKind where
  | constructor
  | method
  | get
  | set
  deriving DecidableEq, Repr

namespace Leaf

/-- The tag of a leaf. -/
def tag : Leaf → String
  | .this => "ThisExpression"
  | .super => "Super"
  | .empty => "EmptyStatement"
  | .debugger => "DebuggerStatement"

/-- All leaves. -/
def all : List Leaf := [.this, .super, .empty, .debugger]

end Leaf

namespace KeywordType

/-- The tag of a keyword type. -/
def tag : KeywordType → String
  | .void => "TSVoidKeyword"
  | .any => "TSAnyKeyword"
  | .number => "TSNumberKeyword"
  | .string => "TSStringKeyword"
  | .boolean => "TSBooleanKeyword"
  | .null => "TSNullKeyword"
  | .undefined => "TSUndefinedKeyword"
  | .all => "TSJSDocAllType"

/-- All keyword types. -/
def allTypes : List KeywordType :=
  [.void, .any, .number, .string, .boolean, .null, .undefined, .all]

end KeywordType

namespace Unsupported

/-- The tag of an unsupported construct. -/
def tag : Unsupported → String
  | .await => "AwaitExpression"
  | .yield => "YieldExpression"
  | .templateLiteral => "TemplateLiteral"
  | .templateElement => "TemplateElement"
  | .taggedTemplate => "TaggedTemplateExpression"
  | .metaProperty => "MetaProperty"
  | .arrayPattern => "ArrayPattern"
  | .objectPattern => "ObjectPattern"
  | .decorator => "Decorator"
  | .labeledStatement => "LabeledStatement"
  | .withStatement => "WithStatement"
  | .exportAll => "ExportAllDeclaration"
  | .exportSpecifier => "ExportSpecifier"
  | .enumeration => "TSEnumDeclaration"
  | .typeAssertion => "TSTypeAssertion"

/-- All unsupported constructs. -/
def all : List Unsupported :=
  [.await, .yield, .templateLiteral, .templateElement, .taggedTemplate, .metaProperty,
    .arrayPattern, .objectPattern, .decorator, .labeledStatement, .withStatement, .exportAll,
    .exportSpecifier, .enumeration, .typeAssertion]

end Unsupported

/-- The tag of a body. -/
def BodyForm.tag : BodyForm → String
  | .program => "Program"
  | .block => "BlockStatement"
  | .classBody => "ClassBody"
  | .moduleBlock => "TSModuleBlock"
  | .interfaceBody => "TSInterfaceBody"

/-- The tag of a function. -/
def FunctionForm.tag : FunctionForm → String
  | .expression => "FunctionExpression"
  | .arrow => "ArrowFunctionExpression"
  | .declaration => "FunctionDeclaration"
  | .declared => "TSDeclareFunction"
  | .emptyBody => "TSEmptyBodyFunctionExpression"

/-- The tag of a class definition. -/
def ClassForm.tag : ClassForm → String
  | .expression => "ClassExpression"
  | .declaration => "ClassDeclaration"

/-- The tag of an operator with one operand. -/
def UnaryForm.tag : UnaryForm → String
  | .unary => "UnaryExpression"
  | .update => "UpdateExpression"

/-- The tag of an operator with two operands. -/
def BinaryForm.tag : BinaryForm → String
  | .binary => "BinaryExpression"
  | .logical => "LogicalExpression"
  | .assignment => "AssignmentExpression"

/-- The tag of an application. -/
def CallForm.tag : CallForm → String
  | .call => "CallExpression"
  | .construction => "NewExpression"

/-- The tag of a construct with three dots. -/
def SpreadForm.tag : SpreadForm → String
  | .spread => "SpreadElement"
  | .rest => "RestElement"

/-- The tag of a loop over a collection. -/
def EachForm.tag : EachForm → String
  | .keys => "ForInStatement"
  | .values => "ForOfStatement"

/-- The tag of a loop under a condition. -/
def LoopForm.tag : LoopForm → String
  | .whileLoop => "WhileStatement"
  | .doWhile => "DoWhileStatement"

/-- The tag of a jump. -/
def JumpForm.tag : JumpForm → String
  | .breaking => "BreakStatement"
  | .continuing => "ContinueStatement"

/-- The tag of a statement that ends a function. -/
def ExitForm.tag : ExitForm → String
  | .returning => "ReturnStatement"
  | .throwing => "ThrowStatement"

/-- The tag of a method. -/
def MethodForm.tag : MethodForm → String
  | .concrete => "MethodDefinition"
  | .abstract => "TSAbstractMethodDefinition"

/-- The tag of an import that binds one name. -/
def BindingForm.tag : BindingForm → String
  | .default => "ImportDefaultSpecifier"
  | .namespaced => "ImportNamespaceSpecifier"

/-- The tag of a heritage entry. -/
def HeritageForm.tag : HeritageForm → String
  | .interfaceHeritage => "TSInterfaceHeritage"
  | .classImplements => "TSClassImplements"

namespace MethodKind

/-- The word that names a kind of method. -/
def word : MethodKind → String
  | .constructor => "constructor"
  | .method => "method"
  | .get => "get"
  | .set => "set"

/-- All kinds of methods. -/
def all : List MethodKind := [.constructor, .method, .get, .set]

end MethodKind

end ScriptBridge

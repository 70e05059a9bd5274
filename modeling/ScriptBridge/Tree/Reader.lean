import ScriptBridge.Tree.Node
import ScriptBridge.Json.Record
import ScriptBridge.Json.Reader

/-!
# Reading trees

Every value is read bottom up together with what it is as a node, so that the
fields of a node find their parts already read.  A node is an object with a
tag; its location is looked at first, then its tag, then its fields.  An object
with a tag that names no category is kept as an unknown node.
-/

namespace ScriptBridge

/-- A JSON value, what it is as a node, and what its items are as nodes. -/
structure Reading where
  value : Json
  node : Except DataError Node
  items : List (Json × Except DataError Node)

namespace Reading

/-- A part that may be null. -/
def maybeNode (value : Json) (node : Except DataError Node) :
    Except DataError (Option Node) :=
  match value with
  | .null => .ok none
  | _ => node.map some

/-- Read every item of an array. -/
def itemsWith {Value : Type}
    (read : Json → Except DataError Node → Except DataError Value)
    (reading : Reading) : Except DataError (List Value) :=
  match reading.value with
  | .array _ => reading.items.mapM fun (value, node) => read value node
  | other => .error (.invalidType other "a sequence")

end Reading

namespace Record

/-- A required part. -/
def part (name : String) : Record Reading Node :=
  .required name fun reading => reading.node

/-- A part that may be absent or null. -/
def maybePart (name : String) : Record Reading (Option Node) :=
  .withDefault name none fun reading => Reading.maybeNode reading.value reading.node

/-- A list of parts. -/
def partList (name : String) : Record Reading (List Node) :=
  .withDefault name [] (Reading.itemsWith fun _ node => node)

/-- A list of parts with holes. -/
def partListWithHoles (name : String) : Record Reading (List (Option Node)) :=
  .withDefault name [] (Reading.itemsWith Reading.maybeNode)

/-- A mark that is off unless said otherwise. -/
def mark (name : String) : Record Reading Bool :=
  .withDefault name false fun reading => reading.value.toBool

/-- A required word. -/
def word (name : String) : Record Reading String :=
  .required name fun reading => reading.value.toText

/-- A word that is empty unless given. -/
def optionalWord (name : String) : Record Reading String :=
  .withDefault name "" fun reading => reading.value.toText

/-- A word that may be absent or null. -/
def maybeWord (name : String) : Record Reading (Option String) :=
  .withDefault name none fun reading => reading.value.toMaybeText

end Record

/-- Read the kind of a method: its word, or an object with the word as its only
key and nothing under it. -/
def MethodKind.ofJson (value : Json) : Except DataError MethodKind :=
  let named (word : String) : Except DataError MethodKind :=
    match MethodKind.all.find? (·.word == word) with
    | some kind => .ok kind
    | none => .error (.unknownVariant word (MethodKind.all.map (·.word)))
  match value with
  | .string word => named word
  | .object [(word, content)] =>
      (named word).bind fun kind =>
        match content with
        | .null => .ok kind
        | .object [] => .ok kind
        | other => .error (.invalidType other "unit")
  | .object _ => .error (.invalidValue value "map with a single key")
  | other => .error (.invalidType other "string or map")

namespace Shape

open Record

def groupRecord (form : BodyForm) : Record Reading (Shape Node) :=
  .group form <$> partList "body"

def functionRecord (form : FunctionForm) : Record Reading (Shape Node) :=
  (fun name params body returnType generator async expression declared =>
    .function form ⟨generator, async, expression, declared⟩ name params body returnType) <$>
    maybePart "id" <*> partList "params" <*> maybePart "body" <*> maybePart "returnType" <*>
    mark "generator" <*> mark "async" <*> mark "expression" <*> mark "declare"

def classRecord (form : ClassForm) : Record Reading (Shape Node) :=
  (fun name superClass implementing body decorators declared abstract =>
    .classDefinition form ⟨declared, abstract⟩ name superClass implementing body decorators) <$>
    maybePart "id" <*> maybePart "superClass" <*> partList "implements" <*> part "body" <*>
    partList "decorators" <*> mark "declare" <*> mark "abstract"

def classPropertyRecord : Record Reading (Shape Node) :=
  (fun key value declaredType accessibility static readonly computed optional declared definite
      decorators =>
    .classProperty ⟨accessibility, static, readonly, computed, optional, declared, definite⟩ key
      value declaredType decorators) <$>
    part "key" <*> maybePart "value" <*> maybePart "typeAnnotation" <*>
    maybeWord "accessibility" <*> mark "static" <*> mark "readonly" <*> mark "computed" <*>
    mark "optional" <*> mark "declare" <*> mark "definite" <*> partList "decorators"

def methodRecord (form : MethodForm) : Record Reading (Shape Node) :=
  (fun key value kind static computed accessibility =>
    .method form ⟨kind, static, computed, accessibility⟩ key value) <$>
    part "key" <*> part "value" <*>
    .withDefault "kind" .method (fun reading => MethodKind.ofJson reading.value) <*>
    mark "static" <*> mark "computed" <*> maybeWord "accessibility"

def unaryRecord (form : UnaryForm) : Record Reading (Shape Node) :=
  .unary form <$> word "operator" <*>
    .withDefault "prefix" true (fun reading => reading.value.toBool) <*> part "argument"

def binaryRecord (form : BinaryForm) : Record Reading (Shape Node) :=
  .binary form <$> word "operator" <*> part "left" <*> part "right"

def callRecord (form : CallForm) : Record Reading (Shape Node) :=
  .call form <$> part "callee" <*> partList "arguments" <*> mark "optional" <*>
    maybePart "typeParameters" <*> maybePart "typeArguments"

def spreadRecord (form : SpreadForm) : Record Reading (Shape Node) :=
  .spread form <$> part "argument" <*> maybePart "typeAnnotation"

def forEachRecord (form : EachForm) : Record Reading (Shape Node) :=
  .forEach form <$> part "left" <*> part "right" <*> part "body"

def loopRecord (form : LoopForm) : Record Reading (Shape Node) :=
  .loop form <$> part "test" <*> part "body"

def jumpRecord (form : JumpForm) : Record Reading (Shape Node) :=
  .jump form <$> maybePart "label"

def exitRecord (form : ExitForm) : Record Reading (Shape Node) :=
  .exit form <$> maybePart "argument"

def bindingRecord (form : BindingForm) : Record Reading (Shape Node) :=
  .importBinding form <$> part "local"

def heritageRecord (form : HeritageForm) : Record Reading (Shape Node) :=
  .heritage form <$> part "expression" <*> maybePart "typeParameters" <*>
    maybePart "typeArguments"

def methodSignatureRecord : Record Reading (Shape Node) :=
  (fun key params returnType accessibility static computed optional =>
    .methodSignature ⟨accessibility, static, computed, optional⟩ key params returnType) <$>
    part "key" <*> partList "params" <*> maybePart "returnType" <*> maybeWord "accessibility" <*>
    mark "static" <*> mark "computed" <*> mark "optional"

/-- The categories with parts or words of their own. -/
def structured : List (String × Record Reading (Shape Node)) :=
  [("Program", groupRecord .program),
    ("BlockStatement", groupRecord .block),
    ("ClassBody", groupRecord .classBody),
    ("TSModuleBlock", groupRecord .moduleBlock),
    ("TSInterfaceBody", groupRecord .interfaceBody),
    ("Identifier", .identifier <$> word "name" <*> maybePart "typeAnnotation" <*> mark "optional"),
    ("Literal", .literal <$> optionalWord "raw" <*>
      .withDefault "value" .null (fun reading => .ok reading.value)),
    ("ArrayExpression", .arrayLiteral <$> partListWithHoles "elements"),
    ("ObjectExpression", .objectLiteral <$> partList "properties"),
    ("Property", .entry <$> part "key" <*> part "value" <*> mark "computed" <*> mark "shorthand"),
    ("FunctionExpression", functionRecord .expression),
    ("ArrowFunctionExpression", functionRecord .arrow),
    ("FunctionDeclaration", functionRecord .declaration),
    ("TSDeclareFunction", functionRecord .declared),
    ("TSEmptyBodyFunctionExpression", functionRecord .emptyBody),
    ("ClassExpression", classRecord .expression),
    ("ClassDeclaration", classRecord .declaration),
    ("ClassProperty", classPropertyRecord),
    ("PropertyDefinition", classPropertyRecord),
    ("MethodDefinition", methodRecord .concrete),
    ("TSAbstractMethodDefinition", methodRecord .abstract),
    ("UnaryExpression", unaryRecord .unary),
    ("UpdateExpression", unaryRecord .update),
    ("BinaryExpression", binaryRecord .binary),
    ("LogicalExpression", binaryRecord .logical),
    ("AssignmentExpression", binaryRecord .assignment),
    ("ConditionalExpression",
      .conditional <$> part "test" <*> part "consequent" <*> part "alternate"),
    ("CallExpression", callRecord .call),
    ("NewExpression", callRecord .construction),
    ("MemberExpression",
      .member <$> part "object" <*> part "property" <*> mark "computed" <*> mark "optional"),
    ("SequenceExpression", .sequence <$> partList "expressions"),
    ("SpreadElement", spreadRecord .spread),
    ("RestElement", spreadRecord .rest),
    ("AssignmentPattern", .assignmentPattern <$> part "left" <*> part "right"),
    ("TSAsExpression", .cast <$> part "expression" <*> part "typeAnnotation"),
    ("ExpressionStatement", .expressionStatement <$> part "expression"),
    ("IfStatement", .ifStatement <$> part "test" <*> part "consequent" <*> maybePart "alternate"),
    ("SwitchStatement", .switch <$> part "discriminant" <*> partList "cases"),
    ("SwitchCase", .switchCase <$> maybePart "test" <*> partList "consequent"),
    ("ForStatement",
      .forLoop <$> maybePart "init" <*> maybePart "test" <*> maybePart "update" <*> part "body"),
    ("ForInStatement", forEachRecord .keys),
    ("ForOfStatement", forEachRecord .values),
    ("WhileStatement", loopRecord .whileLoop),
    ("DoWhileStatement", loopRecord .doWhile),
    ("BreakStatement", jumpRecord .breaking),
    ("ContinueStatement", jumpRecord .continuing),
    ("ReturnStatement", exitRecord .returning),
    ("ThrowStatement", exitRecord .throwing),
    ("TryStatement",
      .tryStatement <$> part "block" <*> maybePart "handler" <*> maybePart "finalizer"),
    ("CatchClause", .catchClause <$> maybePart "param" <*> part "body"),
    ("VariableDeclaration",
      .variableDeclaration <$> partList "declarations" <*> optionalWord "kind"),
    ("VariableDeclarator", .declarator <$> part "id" <*> maybePart "init"),
    ("ImportDeclaration", .importDeclaration <$> partList "specifiers" <*> part "source"),
    ("ImportSpecifier", .importSpecifier <$> part "imported" <*> maybePart "local"),
    ("ImportDefaultSpecifier", bindingRecord .default),
    ("ImportNamespaceSpecifier", bindingRecord .namespaced),
    ("ExportNamedDeclaration",
      .exportNamed <$> maybePart "declaration" <*> partList "specifiers" <*> maybePart "source"),
    ("ExportDefaultDeclaration", .exportDefault <$> part "declaration"),
    ("TSModuleDeclaration", .moduleDeclaration <$> part "id" <*> maybePart "body"),
    ("TSInterfaceDeclaration",
      .interface <$> part "id" <*> part "body" <*> partList "extends" <*> partList "implements"),
    ("TSInterfaceHeritage", heritageRecord .interfaceHeritage),
    ("TSClassImplements", heritageRecord .classImplements),
    ("TSMethodSignature", methodSignatureRecord),
    ("TSPropertySignature",
      .propertySignature <$> part "key" <*> maybePart "typeAnnotation" <*> mark "readonly" <*>
        mark "optional" <*> mark "computed"),
    ("TSTypeAnnotation", .typeClause <$> part "typeAnnotation"),
    ("TSTypeReference",
      .typeReference <$> part "typeName" <*> maybePart "typeParameters" <*>
        maybePart "typeArguments"),
    ("TSTypeParameterInstantiation", .typeList <$> partList "params"),
    ("TSQualifiedName", .qualifiedName <$> part "left" <*> part "right"),
    ("TSArrayType", .arrayType <$> part "elementType")]

/-- The categories that consist of their tag alone. -/
def bare : List (String × Shape Node) :=
  Leaf.all.map (fun form => (form.tag, .leaf form)) ++
    KeywordType.allTypes.map (fun form => (form.tag, .keywordType form)) ++
    Unsupported.all.map (fun form => (form.tag, .unsupported form))

/-- How the category with the given tag is read, if there is one. -/
def record? (tag : String) : Option (Record Reading (Shape Node)) :=
  match bare.lookup tag with
  | some shape => some (.constant shape)
  | none => structured.lookup tag

end Shape

namespace Node

/-- The location written in the fields of a node. -/
def readLocation (fields : List (String × Json)) : Except DataError Location :=
  match fields.lookup "loc" with
  | none => .ok {}
  | some .null => .ok {}
  | some value => Location.ofJson value

/-- The fields of an unknown node without the location taken from them. -/
def withoutLocation (fields : List (String × Json)) : List (String × Json) :=
  fields.map fun (name, value) => if name == "loc" then (name, .null) else (name, value)

/-- A node from the fields of an object and their readings. -/
def ofFields (fields : List (String × Json))
    (readings : List (String × Reading)) : Except DataError Node :=
  match readLocation fields with
  | .error error => .error error
  | .ok location =>
      match fields.lookup "type" with
      | some (.string tag) =>
          match Shape.record? tag with
          | some record => (record.ofEntries readings).map fun shape => ⟨location, shape⟩
          | none => .ok ⟨location, .unknown tag (withoutLocation fields)⟩
      | _ => .error (.missingField "type")

mutual

/-- What a value is as a node and as a list of nodes. -/
def reading : Json → Reading
  | .array items => ⟨.array items, .error (.missingField "type"), itemReadings items⟩
  | .object fields => ⟨.object fields, ofFields fields (fieldReadings fields), []⟩
  | other => ⟨other, .error (.missingField "type"), []⟩

/-- What every item of an array is as a node. -/
def itemReadings : List Json → List (Json × Except DataError Node)
  | [] => []
  | item :: rest => (item, (reading item).node) :: itemReadings rest

/-- What every field of an object is. -/
def fieldReadings : List (String × Json) → List (String × Reading)
  | [] => []
  | (name, value) :: rest => (name, reading value) :: fieldReadings rest

end

/-- Read a tree from a value in which no name is repeated. -/
def ofJson (value : Json) : Except DataError Node :=
  (reading value).node

end Node

/-- Why a text does not hold a usable tree. -/
inductive TreeError where
  /-- The text is not JSON. -/
  | notJson
  /-- The JSON value does not describe a tree. -/
  | malformed (error : DataError)
  /-- The tree is not a whole program. -/
  | notAProgram (tag : String)
  deriving Repr

namespace Node

/-- Read a tree from a text.  What is wrong with the tree is reported before
characters that follow it. -/
def read (text : String) : Except TreeError Node :=
  match Json.readFirst text with
  | none => .error .notJson
  | some (value, rest) =>
      match ofJson value.merge with
      | .error error => .error (.malformed error)
      | .ok node => if JsonText.onlyBlanks rest then .ok node else .error .notJson

/-- Read the tree of a whole program from a text. -/
def readProgram (text : String) : Except TreeError Node :=
  match read text with
  | .error error => .error error
  | .ok node =>
      match node.shape with
      | .group .program _ => .ok node
      | _ => .error (.notAProgram node.tag)

end Node

end ScriptBridge

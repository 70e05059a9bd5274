import ScriptBridge.Tree.Node
import ScriptBridge.Json.Printer

/-!
# Writing trees

A node is written as an object: its tag, then every field of its category in
order of declaration, with absent parts as null, and its location at the end.
An unknown node is written as it was read, with its location put in place.
-/

namespace ScriptBridge

namespace Shape

/-- A part that may be absent. -/
def maybe (part : Option Json) : Json :=
  part.getD .null

/-- A text that may be absent. -/
def maybeText (text : Option String) : Json :=
  Json.ofOption .string text

/-- The fields of a shape whose parts are written already. -/
def fields : Shape Json → List (String × Json)
  | .leaf _ => []
  | .keywordType _ => []
  | .unsupported _ => []
  | .unknown _ fields => fields
  | .group _ statements => [("body", .array statements)]
  | .identifier name declaredType optional =>
      [("name", .string name), ("typeAnnotation", maybe declaredType),
        ("optional", .bool optional)]
  | .literal raw value => [("raw", .string raw), ("value", value)]
  | .arrayLiteral elements => [("elements", .array (elements.map maybe))]
  | .objectLiteral properties => [("properties", .array properties)]
  | .entry key value computed shorthand =>
      [("key", key), ("value", value), ("computed", .bool computed),
        ("shorthand", .bool shorthand)]
  | .function _ marks name params body returnType =>
      [("id", maybe name), ("params", .array params), ("body", maybe body),
        ("returnType", maybe returnType), ("generator", .bool marks.generator),
        ("async", .bool marks.async), ("expression", .bool marks.expression),
        ("declare", .bool marks.declared)]
  | .classDefinition _ marks name superClass implementing body decorators =>
      [("id", maybe name), ("superClass", maybe superClass),
        ("implements", .array implementing), ("body", body),
        ("decorators", .array decorators), ("declare", .bool marks.declared),
        ("abstract", .bool marks.abstract)]
  | .classProperty marks key value declaredType decorators =>
      [("key", key), ("value", maybe value), ("typeAnnotation", maybe declaredType),
        ("accessibility", maybeText marks.accessibility), ("static", .bool marks.static),
        ("readonly", .bool marks.readonly), ("computed", .bool marks.computed),
        ("optional", .bool marks.optional), ("declare", .bool marks.declared),
        ("definite", .bool marks.definite), ("decorators", .array decorators)]
  | .method _ marks key value =>
      [("key", key), ("value", value), ("kind", .string marks.kind.word),
        ("static", .bool marks.static), ("computed", .bool marks.computed),
        ("accessibility", maybeText marks.accessibility)]
  | .unary _ operator leading argument =>
      [("operator", .string operator), ("prefix", .bool leading), ("argument", argument)]
  | .binary _ operator left right =>
      [("operator", .string operator), ("left", left), ("right", right)]
  | .conditional test consequent alternate =>
      [("test", test), ("consequent", consequent), ("alternate", alternate)]
  | .call _ callee arguments optional typeParameters typeArguments =>
      [("callee", callee), ("arguments", .array arguments), ("optional", .bool optional),
        ("typeParameters", maybe typeParameters), ("typeArguments", maybe typeArguments)]
  | .member object property computed optional =>
      [("object", object), ("property", property), ("computed", .bool computed),
        ("optional", .bool optional)]
  | .sequence expressions => [("expressions", .array expressions)]
  | .spread _ argument declaredType =>
      [("argument", argument), ("typeAnnotation", maybe declaredType)]
  | .assignmentPattern left right => [("left", left), ("right", right)]
  | .cast expression declaredType =>
      [("expression", expression), ("typeAnnotation", declaredType)]
  | .expressionStatement expression => [("expression", expression)]
  | .ifStatement test consequent alternate =>
      [("test", test), ("consequent", consequent), ("alternate", maybe alternate)]
  | .switch discriminant cases =>
      [("discriminant", discriminant), ("cases", .array cases)]
  | .switchCase test consequent =>
      [("test", maybe test), ("consequent", .array consequent)]
  | .forLoop init test update body =>
      [("init", maybe init), ("test", maybe test), ("update", maybe update), ("body", body)]
  | .forEach _ left right body => [("left", left), ("right", right), ("body", body)]
  | .loop _ test body => [("test", test), ("body", body)]
  | .jump _ label => [("label", maybe label)]
  | .exit _ argument => [("argument", maybe argument)]
  | .tryStatement block handler finalizer =>
      [("block", block), ("handler", maybe handler), ("finalizer", maybe finalizer)]
  | .catchClause param body => [("param", maybe param), ("body", body)]
  | .variableDeclaration declarations kind =>
      [("declarations", .array declarations), ("kind", .string kind)]
  | .declarator name init => [("id", name), ("init", maybe init)]
  | .importDeclaration specifiers source =>
      [("specifiers", .array specifiers), ("source", source)]
  | .importSpecifier imported binding => [("imported", imported), ("local", maybe binding)]
  | .importBinding _ binding => [("local", binding)]
  | .exportNamed declaration specifiers source =>
      [("declaration", maybe declaration), ("specifiers", .array specifiers),
        ("source", maybe source)]
  | .exportDefault declaration => [("declaration", declaration)]
  | .moduleDeclaration name body => [("id", name), ("body", maybe body)]
  | .interface name body extending implementing =>
      [("id", name), ("body", body), ("extends", .array extending),
        ("implements", .array implementing)]
  | .heritage _ expression typeParameters typeArguments =>
      [("expression", expression), ("typeParameters", maybe typeParameters),
        ("typeArguments", maybe typeArguments)]
  | .methodSignature marks key params returnType =>
      [("key", key), ("params", .array params), ("returnType", maybe returnType),
        ("accessibility", maybeText marks.accessibility), ("static", .bool marks.static),
        ("computed", .bool marks.computed), ("optional", .bool marks.optional)]
  | .propertySignature key declaredType readonly optional computed =>
      [("key", key), ("typeAnnotation", maybe declaredType), ("readonly", .bool readonly),
        ("optional", .bool optional), ("computed", .bool computed)]
  | .typeClause declaredType => [("typeAnnotation", declaredType)]
  | .typeReference name typeParameters typeArguments =>
      [("typeName", name), ("typeParameters", maybe typeParameters),
        ("typeArguments", maybe typeArguments)]
  | .typeList params => [("params", .array params)]
  | .qualifiedName left right => [("left", left), ("right", right)]
  | .arrayType element => [("elementType", element)]

/-- A shape whose parts are written already, as an object with its location. -/
def toJson (location : Location) (shape : Shape Json) : Json :=
  match shape with
  | .unknown _ fields =>
      .object (OrderedMap.putEntry "loc" location.toJson fields)
  | _ =>
      .object (("type", .string shape.tag) :: shape.fields ++ [("loc", location.toJson)])

end Shape

namespace Node

/-- A tree as a JSON value. -/
def toJson : Node → Json :=
  fold fun location shape => (shape.map (·.result)).toJson location

/-- A tree as JSON text without blanks. -/
def compact (node : Node) : String :=
  node.toJson.compact

/-- A tree as JSON text with one entry on each line. -/
def pretty (node : Node) : String :=
  node.toJson.pretty

end Node

end ScriptBridge

import ScriptBridge.Proofs.Printing.Congruence

/-!
# Congruences of constructs

A congruence of printers relates the two ways of printing a construct whose
parts are printed by related printers.  For constructs that leave the scopes
alone this needs no more than the congruence; for functions, for members and for
classes the relation also has to hold of what they do to the scopes, and for
types and imports of what they do to the names of types.  A relation with all of
these properties relates every tree with itself.
-/

namespace ScriptBridge

/-- Whether a shape opens a scope, declares a name or refers to one. -/
def Shape.touchesScopes {Part : Type} : Shape Part → Bool
  | .identifier .. => true
  | .function .. => true
  | .classDefinition .. => true
  | .classProperty .. => true
  | .method .. => true
  | .methodSignature .. => true
  | .catchClause .. => true
  | _ => false

/-- Whether a shape refers to a type by its name, or brings in a name by itself. -/
def Shape.touchesTypes {Part : Type} : Shape Part → Bool
  | .identifier .. => true
  | .classDefinition .. => true
  | .interface .. => true
  | .importDeclaration .. => true
  | .importSpecifier .. => true
  | .importBinding .. => true
  | _ => false

/-- Whether the parts of a shape are operands or items of a list. -/
def Shape.printsOperands {Part : Type} : Shape Part → Bool
  | .arrayLiteral .. => true
  | .unary .. => true
  | .binary .. => true
  | .conditional .. => true
  | .call .. => true
  | .member .. => true
  | .sequence .. => true
  | .spread .spread .. => true
  | .declarator .. => true
  | _ => false

/-- Whether a shape declares a class or a member of one. -/
def Shape.declaresMembers {Part : Type} : Shape Part → Bool
  | .classDefinition .. => true
  | .classProperty .. => true
  | .method .. => true
  | _ => false

namespace Printer

namespace TextCongruence

variable {Related : ∀ {Result : Type}, Printer Result → Printer Result → Prop}

/-- Constructs that print operands are printed by related printers if their parts look the
same, and whatever they report at their own place is related. -/
theorem construct_of_printsOperands (closed : TextCongruence Related) {Item : Type}
    {toFirst toSecond : Item → Part}
    (same : ∀ item, SamePart Related (toFirst item) (toSecond item)) {location other : Location}
    (samePlace : SamePlace Related location.start other.start) (role : Role) {shape : Shape Item}
    (operands : shape.printsOperands) :
    Related (construct location (shape.map toFirst) role)
      (construct other (shape.map toSecond) role) := by
  have ranked : Related (Printer.ownRank role location.start (shape.map toFirst))
      (Printer.ownRank role other.start (shape.map toSecond)) :=
    closed.ownRank role samePlace shape
  cases shape with
  | arrayLiteral elements => exact closed.arrayLiteral same elements
  | unary form operator leading argument =>
      exact closed.bind ranked fun rank => closed.unary same rank operator leading argument
  | binary form operator left right =>
      have sameGrouping : ((Shape.binary form operator left right).map
          toFirst).isRightAssociative =
          ((Shape.binary form operator left right).map toSecond).isRightAssociative := by
        cases form <;> rfl
      apply closed.bind ranked
      intro rank
      rw [sameGrouping]
      exact closed.binary same rank _ operator left right
  | conditional test consequent alternate =>
      exact closed.bind ranked fun rank => closed.conditional same rank test consequent alternate
  | call form callee arguments optional typeParameters typeArguments =>
      cases form with
      | call =>
          exact closed.call same ranked callee arguments optional typeParameters typeArguments
      | construction =>
          exact closed.bind ranked fun rank =>
            closed.construction same rank callee arguments typeParameters typeArguments
  | member object property computed optional =>
      exact closed.bind ranked fun rank =>
        closed.member same rank object property computed optional
  | sequence expressions =>
      exact closed.bind ranked fun rank =>
        closed.separated (fun expression => closed.operand .loose rank (same expression))
          expressions
  | spread form argument declaredType =>
      cases form with
      | spread => exact closed.bind ranked fun rank => closed.spread same rank argument
      | rest => cases operands
  | declarator name init => exact closed.declarator same name init
  | _ => cases operands

/-- Constructs that leave the scopes and the types alone are printed by related
printers if their parts are. -/
theorem construct (closed : TextCongruence Related) (location : Location)
    (shape : Shape (Twin Related)) (role : Role) (leaves : shape.touchesScopes = false)
    (typeless : shape.touchesTypes = false) :
    Related (construct location (shape.map Twin.first) role)
      (construct location (shape.map Twin.second) role) := by
  cases shape with
  | identifier => simp [Shape.touchesScopes] at leaves
  | function => simp [Shape.touchesScopes] at leaves
  | classDefinition => simp [Shape.touchesScopes] at leaves
  | classProperty => simp [Shape.touchesScopes] at leaves
  | method => simp [Shape.touchesScopes] at leaves
  | methodSignature => simp [Shape.touchesScopes] at leaves
  | catchClause => simp [Shape.touchesScopes] at leaves
  | leaf form =>
      cases form with
      | empty => exact closed.pure ()
      | _ => exact closed.write _
  | keywordType form => exact closed.write _
  | unsupported form => exact closed.unsupported _ _
  | unknown name fields => exact closed.report _ _ _
  | group form body =>
      cases form with
      | program => exact closed.topLevel body
      | moduleBlock => exact closed.topLevel body
      | block =>
          cases role with
          | block prologue => exact closed.block prologue body
          | _ => exact closed.block none body
      | classBody => exact closed.block none body
      | interfaceBody => exact closed.block none body
  | literal raw value => exact closed.literal raw value
  | objectLiteral properties => exact closed.objectLiteral properties
  | entry key value computed shorthand => exact closed.entry key value computed
  | unary | binary | conditional | call | member | sequence | declarator | arrayLiteral =>
      exact closed.construct_of_printsOperands closed.samePart (closed.samePlace _) role rfl
  | spread form argument declaredType =>
      cases form with
      | spread =>
          exact closed.construct_of_printsOperands closed.samePart (closed.samePlace _) role rfl
      | rest => exact closed.rest role argument declaredType
  | assignmentPattern left right => exact closed.assignmentPattern role left right
  | cast expression declaredType => exact expression.related role.underCast
  | expressionStatement expression => exact expression.related .plain
  | ifStatement test consequent alternate =>
      exact closed.ifStatement test consequent alternate
  | switch discriminant cases => exact closed.switch discriminant cases
  | switchCase test consequent => exact closed.switchCase test consequent
  | forLoop init test update body => exact closed.forLoop init test update body
  | forEach form left right body => exact closed.forEach form left right body
  | loop form test body => exact closed.loop form test body
  | jump form label => exact closed.jump form label
  | exit form argument => exact closed.exit form (closed.samePlace _) argument
  | tryStatement block handler finalizer =>
      exact closed.tryStatement block handler finalizer
  | variableDeclaration declarations kind =>
      exact closed.variableDeclaration role declarations kind
  | importDeclaration => simp [Shape.touchesTypes] at typeless
  | importSpecifier => simp [Shape.touchesTypes] at typeless
  | importBinding => simp [Shape.touchesTypes] at typeless
  | exportNamed declaration specifiers source =>
      exact closed.exportNamed (closed.samePlace _) declaration specifiers
  | exportDefault declaration => exact closed.exportDefault declaration
  | moduleDeclaration name body =>
      exact closed.whenPresent (fun body => body.related .plain) body
  | interface => simp [Shape.touchesTypes] at typeless
  | heritage form expression typeParameters typeArguments =>
      exact closed.namedType expression typeParameters typeArguments
  | propertySignature key declaredType readonly optional computed =>
      exact closed.propertySignature key declaredType readonly optional computed
  | typeClause declaredType => exact closed.typeClause declaredType
  | typeReference name typeParameters typeArguments =>
      exact closed.namedType name typeParameters typeArguments
  | typeList params => exact closed.typeList params
  | qualifiedName left right => exact closed.qualifiedName left right
  | arrayType element => exact closed.arrayType element

end TextCongruence

namespace Congruence

variable {Related : ∀ {Result : Type}, Printer Result → Printer Result → Prop}

/-- Constructs that leave the scopes alone are printed by related printers if
their parts are. -/
theorem construct (closed : Congruence Related) (location : Location)
    (shape : Shape (Twin Related)) (role : Role) (leaves : shape.touchesScopes = false) :
    Related (construct location (shape.map Twin.first) role)
      (construct location (shape.map Twin.second) role) := by
  cases shape with
  | identifier => simp [Shape.touchesScopes] at leaves
  | classDefinition => simp [Shape.touchesScopes] at leaves
  | importDeclaration specifiers source => exact closed.importDeclaration specifiers source
  | importSpecifier imported binding =>
      simp only [Shape.map, Printer.construct, Printer.withOperands, Printer.withoutOperands,
        Option.map_map]
      exact closed.specifier _
  | importBinding form binding => exact closed.specifier _
  | interface name body extending implementing =>
      exact closed.interface (closed.samePlace _) name body extending implementing
  | _ => exact closed.toTextCongruence.construct location _ role leaves rfl

end Congruence

/-- A congruence that also holds of what functions do to the scopes. -/
structure FunctionCongruence
    (Related : ∀ {Result : Type}, Printer Result → Printer Result → Prop) : Prop
    extends TextCongruence Related where
  declaredName (source : String) :
    Related (name .declaredName source) (name .declaredName source)
  declareLocal (name : String) :
    Related (modifyScopes fun scopes => scopes.declareLocal name)
      (modifyScopes fun scopes => scopes.declareLocal name)
  withinFunction (name : String) {first second : Printer Unit} :
    Related first second →
      Related (withinFunction name false false first) (withinFunction name false false second)
  withinMemberBody {first second : Printer Unit} :
    Related first second → Related (withinMemberBody first) (withinMemberBody second)

namespace FunctionCongruence

variable {Related : ∀ {Result : Type}, Printer Result → Printer Result → Prop}
variable (closed : FunctionCongruence Related)

include closed

theorem catchClause (param : Option (Twin Related)) (body : Twin Related) :
    Related (catchClause (param.map Twin.first) body.first)
      (catchClause (param.map Twin.second) body.second) := by
  apply closed.andThen (closed.write "catch")
  have behind := closed.andThen (closed.write " ") (closed.braced none body)
  refine closed.andThen ?_ behind
  apply closed.whenPresent
  intro param
  apply closed.andThen (closed.write " (")
  refine closed.andThen ?_ (closed.write ")")
  simp only [caughtName, Twin.node_first, Twin.node_second]
  split
  · exact closed.declaredName _
  · exact param.related .declaredName

theorem arrow {Item : Type} {toFirst toSecond : Item → Part}
    (same : ∀ item, SamePart Related (toFirst item) (toSecond item)) {place other : Position}
    (samePlace : SamePlace Related place other) (params : List Item)
    (body returnType : Option Item) :
    Related (arrow place (params.map toFirst) (body.map toFirst) (returnType.map toFirst))
      (arrow other (params.map toSecond) (body.map toSecond) (returnType.map toSecond)) := by
  apply closed.withinFunction
  apply closed.andThen
  · exact closed.andThen (closed.write "(")
      (closed.andThen (closed.separated (fun param => (same param).printed .parameter) params)
        (closed.write ")"))
  apply closed.andThen
  · apply closed.whenPresent
    intro type
    exact closed.andThen (closed.write ": ") ((same type).printed .plain)
  apply closed.andThen (closed.write " => ")
  cases body with
  | some body => exact closed.arrowBody same body
  | none => exact samePlace _ _

theorem function (form : FunctionForm) (role : Role) {place other : Position}
    (same : SamePlace Related place other) (marks : FunctionMarks) (name : Option (Twin Related))
    (params : List (Twin Related)) (body returnType : Option (Twin Related)) :
    Related
      (function form role place marks (name.map Twin.first) (params.map Twin.first)
        (body.map Twin.first) (returnType.map Twin.first))
      (function form role other marks (name.map Twin.second) (params.map Twin.second)
        (body.map Twin.second) (returnType.map Twin.second)) := by
  iterate 3 apply closed.andThen (closed.unsupportedIf_of_samePlace same _ _)
  apply closed.options (fun _ _ => rfl) (fun _ _ => rfl)
  intro options
  have sameName : (name.map Twin.first).bind (·.node.identifier?) =
      (name.map Twin.second).bind (·.node.identifier?) := by
    cases name <;> rfl
  rw [sameName]
  dsimp only
  split
  case' isTrue =>
    apply closed.andThen (closed.writeIf _ "export ")
    apply closed.andThen (closed.whenPresent_same (fun _ => closed.declareLocal _) _)
  -- From the word `function` on, declarations and expressions are alike.
  all_goals
    apply closed.andThen (closed.write "function")
    apply closed.andThen
      (closed.whenPresent_same (fun _ => closed.andThen (closed.write " ") (closed.write _)) _)
    apply closed.withinFunction
    apply closed.andThen (closed.parameters params)
    apply closed.andThen (closed.declaredType returnType)
    cases body with
    | some body => exact closed.andThen (closed.write " ") (closed.braced none body)
    | none => exact same _ _

theorem methodFunction {owner other : Position} (same : SamePlace Related owner other)
    (isConstructor isAbstract : Bool)
    (params : List (Twin Related)) (body returnType : Option (Twin Related)) :
    Related
      (methodFunction owner isConstructor isAbstract (params.map Twin.first)
        (body.map Twin.first) (returnType.map Twin.first))
      (methodFunction other isConstructor isAbstract (params.map Twin.second)
        (body.map Twin.second) (returnType.map Twin.second)) := by
  apply closed.andThen (closed.parameters params)
  dsimp only
  split
  case' isTrue => apply closed.andThen (closed.declaredType returnType)
  all_goals
    cases body with
    | some body =>
        apply closed.andThen (closed.write " ")
        exact closed.withinMemberBody (closed.braced _ body)
    | none =>
        dsimp only [Option.map_none]
        split
        · exact closed.write ";"
        · exact same _ _

theorem methodSignature (marks : SignatureMarks) (key : Twin Related)
    (params : List (Twin Related)) (returnType : Option (Twin Related)) :
    Related
      (methodSignature marks key.first (params.map Twin.first) (returnType.map Twin.first))
      (methodSignature marks key.second (params.map Twin.second)
        (returnType.map Twin.second)) := by
  apply closed.andThen (closed.accessibility _)
  apply closed.andThen (closed.writeIf _ "static ")
  apply closed.andThen (closed.entryKey key _)
  apply closed.andThen (closed.writeIf _ "?")
  apply closed.andThen (closed.withinFunction "" (closed.parameters params))
  apply closed.andThen (closed.declaredType returnType)
  exact closed.write ";"

/-- Constructs that leave the types alone and declare no member are printed by related
printers if their parts are. -/
theorem construct (location : Location) (shape : Shape (Twin Related)) (role : Role)
    (typeless : shape.touchesTypes = false) (declares : shape.declaresMembers = false) :
    Related (construct location (shape.map Twin.first) role)
      (construct location (shape.map Twin.second) role) := by
  cases shape with
  | classDefinition => cases declares
  | classProperty => cases declares
  | method => cases declares
  | identifier => cases typeless
  | function form marks name params body returnType =>
      cases form with
      | declared => exact closed.unsupported _ _
      | arrow => exact closed.arrow closed.samePart (closed.samePlace _) params body returnType
      | expression =>
          cases role with
          | method owner isConstructor isAbstract =>
              exact closed.methodFunction (closed.samePlace owner) isConstructor isAbstract params
                body returnType
          | _ => exact closed.function _ _ (closed.samePlace _) marks name params body returnType
      | declaration =>
          cases role with
          | method owner isConstructor isAbstract =>
              exact closed.methodFunction (closed.samePlace owner) isConstructor isAbstract params
                body returnType
          | _ => exact closed.function _ _ (closed.samePlace _) marks name params body returnType
      | emptyBody =>
          cases role with
          | method owner isConstructor isAbstract =>
              exact closed.methodFunction (closed.samePlace owner) isConstructor isAbstract params
                body returnType
          | _ => exact closed.unsupported _ _
  | methodSignature marks key params returnType =>
      exact closed.methodSignature marks key params returnType
  | catchClause param body => exact closed.catchClause param body
  | _ => exact closed.toTextCongruence.construct location _ role rfl typeless

end FunctionCongruence

/-- A congruence that also holds of names. -/
structure LocalCongruence
    (Related : ∀ {Result : Type}, Printer Result → Printer Result → Prop) : Prop
    extends Congruence Related, FunctionCongruence Related where
  name (role : Role) (source : String) : Related (name role source) (name role source)

namespace LocalCongruence

variable {Related : ∀ {Result : Type}, Printer Result → Printer Result → Prop}
variable (closed : LocalCongruence Related)

include closed

theorem identifier (role : Role) (source : String) (type : Option (Twin Related))
    (optional : Bool) :
    Related (identifier role source (type.map Twin.first) optional)
      (identifier role source (type.map Twin.second) optional) :=
  closed.andThen (closed.name role source)
    (closed.andThen (closed.writeIf optional "?") (closed.declaredType type))

/-- Constructs that declare no class and no member are printed by related printers
if their parts are. -/
theorem construct (location : Location) (shape : Shape (Twin Related)) (role : Role)
    (declares : shape.declaresMembers = false) :
    Related (construct location (shape.map Twin.first) role)
      (construct location (shape.map Twin.second) role) := by
  cases shape with
  | classDefinition => cases declares
  | identifier source type optional => exact closed.identifier role source type optional
  | interface => exact closed.toCongruence.construct location _ role rfl
  | importDeclaration => exact closed.toCongruence.construct location _ role rfl
  | importSpecifier => exact closed.toCongruence.construct location _ role rfl
  | importBinding => exact closed.toCongruence.construct location _ role rfl
  | _ => exact closed.toFunctionCongruence.construct location _ role rfl declares

end LocalCongruence

/-- A congruence that also holds of what fields and methods do to the scopes. -/
structure MemberCongruence
    (Related : ∀ {Result : Type}, Printer Result → Printer Result → Prop) : Prop
    extends FunctionCongruence Related where
  declareProperty (name : String) (isStatic : Bool) :
    Related (modifyScopes fun scopes => scopes.declareProperty name isStatic)
      (modifyScopes fun scopes => scopes.declareProperty name isStatic)
  withinMethod (name : String) (isStatic : Bool) {first second : Printer Unit} :
    Related first second →
      Related (Printer.withinFunction name true isStatic first)
        (Printer.withinFunction name true isStatic second)

namespace MemberCongruence

variable {Related : ∀ {Result : Type}, Printer Result → Printer Result → Prop}

/-- A congruence that holds of every change of the scopes. -/
theorem of_modifyScopes (closed : TextCongruence Related)
    (declaredName : ∀ source, Related (name .declaredName source) (name .declaredName source))
    (modifyScopes : ∀ change, Related (modifyScopes change) (Printer.modifyScopes change))
    (withinMemberBody : ∀ {first second : Printer Unit}, Related first second →
      Related (withinMemberBody first) (Printer.withinMemberBody second)) :
    MemberCongruence Related where
  toTextCongruence := closed
  declaredName := declaredName
  declareLocal _ := modifyScopes _
  withinFunction _ _ _ inside :=
    closed.andThen (modifyScopes _) (closed.andThen inside (modifyScopes _))
  withinMemberBody := withinMemberBody
  declareProperty _ _ := modifyScopes _
  withinMethod _ _ _ _ inside :=
    closed.andThen (modifyScopes _) (closed.andThen inside (modifyScopes _))

variable (closed : MemberCongruence Related)

include closed

theorem classProperty {place other : Position} (same : SamePlace Related place other)
    (marks : PropertyMarks) (key : Twin Related) (value type : Option (Twin Related))
    (decorators : List (Twin Related)) :
    Related
      (classProperty place marks key.first (value.map Twin.first) (type.map Twin.first)
        (decorators.map Twin.first))
      (classProperty other marks key.second (value.map Twin.second) (type.map Twin.second)
        (decorators.map Twin.second)) := by
  unfold Printer.classProperty
  simp only [List.isEmpty_map]
  iterate 5 apply closed.andThen (closed.unsupportedIf_of_samePlace same _ _)
  apply closed.andThen (closed.accessibility _)
  apply closed.andThen (closed.writeIf _ "static ")
  apply closed.andThen (closed.writeIf _ "readonly ")
  apply closed.andThen (key.related .key)
  apply closed.bind (closed.partName? key)
  intro name
  apply closed.andThen (closed.whenPresent_same (fun _ => closed.declareProperty _ _) name)
  apply closed.andThen (closed.declaredType type)
  refine closed.andThen ?_ (closed.write ";")
  apply closed.whenPresent
  intro value
  exact closed.andThen (closed.write " = ") (value.related .plain)

theorem method (form : MethodForm) (place : Position) (marks : MethodMarks)
    (key value : Twin Related) :
    Related (method form place marks key.first value.first)
      (method form place marks key.second value.second) := by
  apply closed.andThen (closed.unsupportedIf _ place _)
  have sameMarks : methodMarks? form value.second = methodMarks? form value.first := rfl
  rw [sameMarks]
  split
  · exact closed.unsupported _ _
  · apply closed.andThen (closed.unsupportedIf _ place _)
    apply closed.andThen (closed.unsupportedIf _ place _)
    apply closed.bind
    · unfold methodName?
      split
      · exact closed.pure _
      · exact closed.partName? key
    intro name
    cases name with
    | none => exact closed.missing place _
    | some name =>
        apply closed.andThen (closed.accessibility _)
        apply closed.andThen (closed.writeIf _ "abstract ")
        apply closed.andThen (closed.writeIf _ "static ")
        apply closed.andThen (closed.write _)
        apply closed.andThen (closed.write name)
        exact closed.withinMethod name _ (value.related _)

/-- Constructs that leave the types alone are printed by related printers if their
parts are. -/
theorem construct (location : Location) (shape : Shape (Twin Related)) (role : Role)
    (typeless : shape.touchesTypes = false) :
    Related (construct location (shape.map Twin.first) role)
      (construct location (shape.map Twin.second) role) := by
  cases shape with
  | classDefinition => cases typeless
  | classProperty marks key value declaredType decorators =>
      exact closed.classProperty (closed.samePlace _) marks key value declaredType decorators
  | method form marks key value => exact closed.method form _ marks key value
  | _ => exact closed.toFunctionCongruence.construct location _ role typeless rfl

end MemberCongruence

/-- A class from its first word on, with a printer for what stands behind its heading. -/
def classText {Result : Type} (role : Role) (marks : ClassMarks) (className : String)
    (superClass : Option Part) (implementing : List Part) (inside : Printer Result) :
    Printer Result := do
  writeIf (role = .exported) "export "
  writeIf marks.abstract "abstract "
  write "class "
  write className
  whenPresent superClass fun part => do
    write " extends "
    part.printAs .typeName
  if !implementing.isEmpty then
    write " implements "
    separated Folded.print implementing
  write " "
  inside

/-- Run a printer within a class. -/
def withinClass (name : String) (superClass : Option String) (printer : Printer Unit) :
    Printer Unit := do
  modifyScopes fun scopes => scopes.enterClass name superClass
  printer
  modifyScopes fun scopes => scopes.exitClass.1

theorem Twin.lastName?_first
    {Related : ∀ {Result : Type}, Printer Result → Printer Result → Prop}
    (superClass : Option (Twin Related)) :
    (superClass.map Twin.first).bind (·.node.lastName?) =
      superClass.bind (·.node.lastName?) := by
  cases superClass <;> rfl

theorem Twin.lastName?_second
    {Related : ∀ {Result : Type}, Printer Result → Printer Result → Prop}
    (superClass : Option (Twin Related)) :
    (superClass.map Twin.second).bind (·.node.lastName?) =
      superClass.bind (·.node.lastName?) := by
  cases superClass <;> rfl

namespace TextCongruence

variable {Related : ∀ {Result : Type}, Printer Result → Printer Result → Prop}
variable (closed : TextCongruence Related)

include closed

theorem classText {Result : Type} (role : Role) (marks : ClassMarks) (className : String)
    (superClass : Option (Twin Related)) (implementing : List (Twin Related))
    {firstInside secondInside : Printer Result} (inside : Related firstInside secondInside) :
    Related
      (classText role marks className (superClass.map Twin.first)
        (implementing.map Twin.first) firstInside)
      (classText role marks className (superClass.map Twin.second)
        (implementing.map Twin.second) secondInside) := by
  unfold Printer.classText
  simp only [List.isEmpty_map]
  apply closed.andThen (closed.writeIf _ "export ")
  apply closed.andThen (closed.writeIf _ "abstract ")
  apply closed.andThen (closed.write "class ")
  apply closed.andThen (closed.write _)
  apply closed.andThen
  · apply closed.whenPresent
    intro superClass
    exact closed.andThen (closed.write " extends ") (superClass.related .typeName)
  have behind := closed.andThen (closed.write " ") inside
  split
  · exact closed.andThen (closed.write " implements ")
      (closed.andThen (closed.separated (fun part => part.related .plain) implementing) behind)
  · exact behind

end TextCongruence

/-- A class is printed by related printers if its printed parts are, the body within the
class. -/
theorem Congruence.classDefinition_of_samePlace
    {Related : ∀ {Result : Type}, Printer Result → Printer Result → Prop}
    (closed : Congruence Related) (role : Role) {place other : Position}
    (same : SamePlace Related place other) (marks : ClassMarks)
    {name otherName : Option Part} (superClass : Option (Twin Related))
    (implementing : List (Twin Related)) {body otherBody : Part}
    {decorators otherDecorators : List Part}
    (sameName : name.bind (·.node.identifier?) = otherName.bind (·.node.identifier?))
    (sameEmpty : decorators.isEmpty = otherDecorators.isEmpty)
    (inside : ∀ className, Related
      (withinClass className (superClass.bind (·.node.lastName?)) body.print)
      (withinClass className (superClass.bind (·.node.lastName?)) otherBody.print)) :
    Related
      (classDefinition role place marks name (superClass.map Twin.first)
        (implementing.map Twin.first) body decorators)
      (classDefinition role other marks otherName (superClass.map Twin.second)
        (implementing.map Twin.second) otherBody otherDecorators) := by
  unfold Printer.classDefinition
  rw [sameName, sameEmpty, Twin.lastName?_first, Twin.lastName?_second]
  split
  · exact same _ _
  · iterate 2 apply closed.andThen (closed.unsupportedIf_of_samePlace same _ _)
    apply closed.options (fun _ _ => rfl) (fun _ _ => rfl)
    intro options
    apply closed.andThen (closed.modifyTypes _)
    exact closed.classText role marks _ superClass implementing (inside _)

theorem Congruence.classDefinition
    {Related : ∀ {Result : Type}, Printer Result → Printer Result → Prop}
    (closed : Congruence Related) (role : Role) (place : Position) (marks : ClassMarks)
    {name otherName : Option Part} (superClass : Option (Twin Related))
    (implementing : List (Twin Related)) {body otherBody : Part}
    {decorators otherDecorators : List Part}
    (sameName : name.bind (·.node.identifier?) = otherName.bind (·.node.identifier?))
    (sameEmpty : decorators.isEmpty = otherDecorators.isEmpty)
    (inside : ∀ className, Related
      (withinClass className (superClass.bind (·.node.lastName?)) body.print)
      (withinClass className (superClass.bind (·.node.lastName?)) otherBody.print)) :
    Related
      (classDefinition role place marks name (superClass.map Twin.first)
        (implementing.map Twin.first) body decorators)
      (classDefinition role place marks otherName (superClass.map Twin.second)
        (implementing.map Twin.second) otherBody otherDecorators) :=
  closed.classDefinition_of_samePlace role (closed.samePlace place) marks superClass implementing
    sameName sameEmpty inside

/-- A congruence that also holds of what classes do to the scopes. -/
structure ScopedCongruence
    (Related : ∀ {Result : Type}, Printer Result → Printer Result → Prop) : Prop
    extends LocalCongruence Related, MemberCongruence Related where
  withinClass (name : String) (superClass : Option String) {first second : Printer Unit} :
    Related first second →
      Related (withinClass name superClass first) (withinClass name superClass second)

namespace ScopedCongruence

variable {Related : ∀ {Result : Type}, Printer Result → Printer Result → Prop}

/-- A congruence that holds of every change of the scopes. -/
theorem of_modifyScopes (closed : Congruence Related)
    (name : ∀ role source, Related (name role source) (Printer.name role source))
    (modifyScopes : ∀ change, Related (modifyScopes change) (Printer.modifyScopes change))
    (withinMemberBody : ∀ {first second : Printer Unit}, Related first second →
      Related (withinMemberBody first) (Printer.withinMemberBody second)) :
    ScopedCongruence Related :=
  have members : MemberCongruence Related :=
    .of_modifyScopes closed.toTextCongruence (name .declaredName) modifyScopes withinMemberBody
  { members with
    modifyTypes := closed.modifyTypes
    name := name
    withinClass := fun _ _ _ _ inside =>
      closed.andThen (modifyScopes _) (closed.andThen inside (modifyScopes _)) }

variable (closed : ScopedCongruence Related)

include closed

/-- Every construct is printed by related printers if its parts are. -/
theorem construct (location : Location) (shape : Shape (Twin Related)) (role : Role) :
    Related (construct location (shape.map Twin.first) role)
      (construct location (shape.map Twin.second) role) := by
  cases shape with
  | classDefinition form marks name superClass implementing body decorators =>
      apply closed.classDefinition role _ marks superClass implementing
      · cases name <;> rfl
      · cases decorators <;> rfl
      · exact fun className => closed.withinClass className _ (body.related .plain)
  | classProperty => exact closed.toMemberCongruence.construct location _ role rfl
  | method => exact closed.toMemberCongruence.construct location _ role rfl
  | _ => exact closed.toLocalCongruence.construct location _ role rfl

/-- Two printers of nodes that are related for all parts of a construct. -/
theorem construct_parts {left right : Node → Role → Printer Unit} (location : Location)
    (shape : Shape {node // ∀ role, Related (left node role) (right node role)}) (role : Role) :
    Related (Printer.construct location (shape.map fun part => ⟨part.1, left part.1⟩) role)
      (Printer.construct location (shape.map fun part => ⟨part.1, right part.1⟩) role) := by
  let twins : Shape (Twin Related) :=
    shape.map fun part => ⟨part.1, left part.1, right part.1, part.2⟩
  have related := closed.construct location twins role
  rwa [Shape.map_map, Shape.map_map] at related

/-- Every tree is printed by a printer that is related to itself. -/
theorem printAs (node : Node) (role : Role) :
    Related (node.printAs role) (node.printAs role) := by
  revert role
  refine Node.induction
    (motive := fun node => ∀ role, Related (node.printAs role) (node.printAs role)) ?_ node
  intro location shape role
  rw [Node.printAs_eq, Shape.map_map]
  exact closed.construct_parts location shape role

end ScopedCongruence

end Printer

end ScriptBridge

import ScriptBridge.Tree.Node

/-!
# The law of the fold, and induction over trees

The fold over trees is defined by recursion through lists and options.  Its law
states it at once for every shape: the step sees the shape with each part
replaced by the part and its result.

A property of nodes holds of every tree if it holds of each node whose parts
have it.  The parts are given together with the proofs that they have the
property, so that an argument about a shape finds the hypothesis for each part
in the part itself.
-/

namespace ScriptBridge

namespace Node

theorem foldList_eq_map {Result : Type}
    (step : Location → Shape (Folded Result) → Result) (nodes : List Node) :
    foldList step nodes = nodes.map fun node => ⟨node, node.fold step⟩ := by
  induction nodes with
  | nil => simp [foldList]
  | cons node rest ih => simp [foldList, ih]

theorem foldOption_eq_map {Result : Type}
    (step : Location → Shape (Folded Result) → Result) (node : Option Node) :
    foldOption step node = node.map fun node => ⟨node, node.fold step⟩ := by
  cases node <;> simp [foldOption]

theorem foldElements_eq_map {Result : Type}
    (step : Location → Shape (Folded Result) → Result)
    (elements : List (Option Node)) :
    foldElements step elements =
      elements.map (·.map fun node => ⟨node, node.fold step⟩) := by
  induction elements with
  | nil => simp [foldElements]
  | cons element rest ih => simp [foldElements, foldOption_eq_map, ih]

theorem foldShape_eq_map {Result : Type}
    (step : Location → Shape (Folded Result) → Result) (shape : Shape Node) :
    foldShape step shape = shape.map fun node => ⟨node, node.fold step⟩ := by
  -- both sides compute: the equations of `foldShape` take far longer to derive
  cases shape <;> (conv => lhs; whnf) <;> (conv => rhs; whnf)
  all_goals first
    | rfl
    | simp only [foldList_eq_map, foldOption_eq_map, foldElements_eq_map]

/-- The result of a node is computed from the results of its parts. -/
theorem fold_eq {Result : Type}
    (step : Location → Shape (Folded Result) → Result) (node : Node) :
    node.fold step =
      step node.location (node.shape.map fun part => ⟨part, part.fold step⟩) := by
  cases node
  rw [fold, foldShape_eq_map]

end Node

namespace Node

/-- A property passes from the parts of a node to the node. -/
def Inductive (motive : Node → Prop) : Prop :=
  ∀ location (shape : Shape {node // motive node}), motive ⟨location, shape.map Subtype.val⟩

variable {motive : Node → Prop}

mutual

/-- Induction over trees, with the hypotheses carried by the parts. -/
theorem induction (step : Inductive motive) : ∀ node : Node, motive node
  | ⟨location, shape⟩ => by
      obtain ⟨lifted, rfl⟩ := liftShape step shape
      exact step location lifted

theorem liftShape (step : Inductive motive) : ∀ shape : Shape Node,
    ∃ lifted : Shape {node // motive node}, lifted.map Subtype.val = shape
  | .leaf form => ⟨.leaf form, rfl⟩
  | .keywordType form => ⟨.keywordType form, rfl⟩
  | .unsupported form => ⟨.unsupported form, rfl⟩
  | .unknown name fields => ⟨.unknown name fields, rfl⟩
  | .group form statements => by
      obtain ⟨statements, rfl⟩ := liftList step statements
      exact ⟨.group form statements, rfl⟩
  | .identifier name declaredType optional => by
      obtain ⟨declaredType, rfl⟩ := liftOption step declaredType
      exact ⟨.identifier name declaredType optional, rfl⟩
  | .literal raw value => ⟨.literal raw value, rfl⟩
  | .arrayLiteral elements => by
      obtain ⟨elements, rfl⟩ := liftElements step elements
      exact ⟨.arrayLiteral elements, rfl⟩
  | .objectLiteral properties => by
      obtain ⟨properties, rfl⟩ := liftList step properties
      exact ⟨.objectLiteral properties, rfl⟩
  | .entry key value computed shorthand =>
      ⟨.entry ⟨key, key.induction step⟩ ⟨value, value.induction step⟩ computed shorthand, rfl⟩
  | .function form marks name params body returnType => by
      obtain ⟨name, rfl⟩ := liftOption step name
      obtain ⟨params, rfl⟩ := liftList step params
      obtain ⟨body, rfl⟩ := liftOption step body
      obtain ⟨returnType, rfl⟩ := liftOption step returnType
      exact ⟨.function form marks name params body returnType, rfl⟩
  | .classDefinition form marks name superClass implementing body decorators => by
      obtain ⟨name, rfl⟩ := liftOption step name
      obtain ⟨superClass, rfl⟩ := liftOption step superClass
      obtain ⟨implementing, rfl⟩ := liftList step implementing
      obtain ⟨decorators, rfl⟩ := liftList step decorators
      exact ⟨.classDefinition form marks name superClass implementing
        ⟨body, body.induction step⟩ decorators, rfl⟩
  | .classProperty marks key value declaredType decorators => by
      obtain ⟨value, rfl⟩ := liftOption step value
      obtain ⟨declaredType, rfl⟩ := liftOption step declaredType
      obtain ⟨decorators, rfl⟩ := liftList step decorators
      exact ⟨.classProperty marks ⟨key, key.induction step⟩ value declaredType decorators, rfl⟩
  | .method form marks key value =>
      ⟨.method form marks ⟨key, key.induction step⟩ ⟨value, value.induction step⟩, rfl⟩
  | .unary form operator leading argument =>
      ⟨.unary form operator leading ⟨argument, argument.induction step⟩, rfl⟩
  | .binary form operator left right =>
      ⟨.binary form operator ⟨left, left.induction step⟩ ⟨right, right.induction step⟩, rfl⟩
  | .conditional test consequent alternate =>
      ⟨.conditional ⟨test, test.induction step⟩ ⟨consequent, consequent.induction step⟩
        ⟨alternate, alternate.induction step⟩, rfl⟩
  | .call form callee arguments optional typeParameters typeArguments => by
      obtain ⟨arguments, rfl⟩ := liftList step arguments
      obtain ⟨typeParameters, rfl⟩ := liftOption step typeParameters
      obtain ⟨typeArguments, rfl⟩ := liftOption step typeArguments
      exact ⟨.call form ⟨callee, callee.induction step⟩ arguments optional typeParameters
        typeArguments, rfl⟩
  | .member object property computed optional =>
      ⟨.member ⟨object, object.induction step⟩ ⟨property, property.induction step⟩ computed
        optional, rfl⟩
  | .sequence expressions => by
      obtain ⟨expressions, rfl⟩ := liftList step expressions
      exact ⟨.sequence expressions, rfl⟩
  | .spread form argument declaredType => by
      obtain ⟨declaredType, rfl⟩ := liftOption step declaredType
      exact ⟨.spread form ⟨argument, argument.induction step⟩ declaredType, rfl⟩
  | .assignmentPattern left right =>
      ⟨.assignmentPattern ⟨left, left.induction step⟩ ⟨right, right.induction step⟩, rfl⟩
  | .cast expression declaredType =>
      ⟨.cast ⟨expression, expression.induction step⟩ ⟨declaredType, declaredType.induction step⟩,
        rfl⟩
  | .expressionStatement expression =>
      ⟨.expressionStatement ⟨expression, expression.induction step⟩, rfl⟩
  | .ifStatement test consequent alternate => by
      obtain ⟨alternate, rfl⟩ := liftOption step alternate
      exact ⟨.ifStatement ⟨test, test.induction step⟩ ⟨consequent, consequent.induction step⟩
        alternate, rfl⟩
  | .switch discriminant cases => by
      obtain ⟨cases, rfl⟩ := liftList step cases
      exact ⟨.switch ⟨discriminant, discriminant.induction step⟩ cases, rfl⟩
  | .switchCase test consequent => by
      obtain ⟨test, rfl⟩ := liftOption step test
      obtain ⟨consequent, rfl⟩ := liftList step consequent
      exact ⟨.switchCase test consequent, rfl⟩
  | .forLoop init test update body => by
      obtain ⟨init, rfl⟩ := liftOption step init
      obtain ⟨test, rfl⟩ := liftOption step test
      obtain ⟨update, rfl⟩ := liftOption step update
      exact ⟨.forLoop init test update ⟨body, body.induction step⟩, rfl⟩
  | .forEach form left right body =>
      ⟨.forEach form ⟨left, left.induction step⟩ ⟨right, right.induction step⟩
        ⟨body, body.induction step⟩, rfl⟩
  | .loop form test body =>
      ⟨.loop form ⟨test, test.induction step⟩ ⟨body, body.induction step⟩, rfl⟩
  | .jump form label => by
      obtain ⟨label, rfl⟩ := liftOption step label
      exact ⟨.jump form label, rfl⟩
  | .exit form argument => by
      obtain ⟨argument, rfl⟩ := liftOption step argument
      exact ⟨.exit form argument, rfl⟩
  | .tryStatement block handler finalizer => by
      obtain ⟨handler, rfl⟩ := liftOption step handler
      obtain ⟨finalizer, rfl⟩ := liftOption step finalizer
      exact ⟨.tryStatement ⟨block, block.induction step⟩ handler finalizer, rfl⟩
  | .catchClause param body => by
      obtain ⟨param, rfl⟩ := liftOption step param
      exact ⟨.catchClause param ⟨body, body.induction step⟩, rfl⟩
  | .variableDeclaration declarations kind => by
      obtain ⟨declarations, rfl⟩ := liftList step declarations
      exact ⟨.variableDeclaration declarations kind, rfl⟩
  | .declarator name init => by
      obtain ⟨init, rfl⟩ := liftOption step init
      exact ⟨.declarator ⟨name, name.induction step⟩ init, rfl⟩
  | .importDeclaration specifiers source => by
      obtain ⟨specifiers, rfl⟩ := liftList step specifiers
      exact ⟨.importDeclaration specifiers ⟨source, source.induction step⟩, rfl⟩
  | .importSpecifier imported binding => by
      obtain ⟨binding, rfl⟩ := liftOption step binding
      exact ⟨.importSpecifier ⟨imported, imported.induction step⟩ binding, rfl⟩
  | .importBinding form binding => ⟨.importBinding form ⟨binding, binding.induction step⟩, rfl⟩
  | .exportNamed declaration specifiers source => by
      obtain ⟨declaration, rfl⟩ := liftOption step declaration
      obtain ⟨specifiers, rfl⟩ := liftList step specifiers
      obtain ⟨source, rfl⟩ := liftOption step source
      exact ⟨.exportNamed declaration specifiers source, rfl⟩
  | .exportDefault declaration => ⟨.exportDefault ⟨declaration, declaration.induction step⟩, rfl⟩
  | .moduleDeclaration name body => by
      obtain ⟨body, rfl⟩ := liftOption step body
      exact ⟨.moduleDeclaration ⟨name, name.induction step⟩ body, rfl⟩
  | .interface name body extending implementing => by
      obtain ⟨extending, rfl⟩ := liftList step extending
      obtain ⟨implementing, rfl⟩ := liftList step implementing
      exact ⟨.interface ⟨name, name.induction step⟩ ⟨body, body.induction step⟩ extending
        implementing, rfl⟩
  | .heritage form expression typeParameters typeArguments => by
      obtain ⟨typeParameters, rfl⟩ := liftOption step typeParameters
      obtain ⟨typeArguments, rfl⟩ := liftOption step typeArguments
      exact ⟨.heritage form ⟨expression, expression.induction step⟩ typeParameters typeArguments,
        rfl⟩
  | .methodSignature marks key params returnType => by
      obtain ⟨params, rfl⟩ := liftList step params
      obtain ⟨returnType, rfl⟩ := liftOption step returnType
      exact ⟨.methodSignature marks ⟨key, key.induction step⟩ params returnType, rfl⟩
  | .propertySignature key declaredType readonly optional computed => by
      obtain ⟨declaredType, rfl⟩ := liftOption step declaredType
      exact ⟨.propertySignature ⟨key, key.induction step⟩ declaredType readonly optional
        computed, rfl⟩
  | .typeClause declaredType => ⟨.typeClause ⟨declaredType, declaredType.induction step⟩, rfl⟩
  | .typeReference name typeParameters typeArguments => by
      obtain ⟨typeParameters, rfl⟩ := liftOption step typeParameters
      obtain ⟨typeArguments, rfl⟩ := liftOption step typeArguments
      exact ⟨.typeReference ⟨name, name.induction step⟩ typeParameters typeArguments, rfl⟩
  | .typeList params => by
      obtain ⟨params, rfl⟩ := liftList step params
      exact ⟨.typeList params, rfl⟩
  | .qualifiedName left right =>
      ⟨.qualifiedName ⟨left, left.induction step⟩ ⟨right, right.induction step⟩, rfl⟩
  | .arrayType element => ⟨.arrayType ⟨element, element.induction step⟩, rfl⟩

theorem liftList (step : Inductive motive) : ∀ nodes : List Node,
    ∃ lifted : List {node // motive node}, lifted.map Subtype.val = nodes
  | [] => ⟨[], rfl⟩
  | node :: rest => by
      obtain ⟨rest, rfl⟩ := liftList step rest
      exact ⟨⟨node, node.induction step⟩ :: rest, rfl⟩

theorem liftOption (step : Inductive motive) : ∀ node : Option Node,
    ∃ lifted : Option {node // motive node}, lifted.map Subtype.val = node
  | none => ⟨none, rfl⟩
  | some node => ⟨some ⟨node, node.induction step⟩, rfl⟩

theorem liftElements (step : Inductive motive) : ∀ elements : List (Option Node),
    ∃ lifted : List (Option {node // motive node}),
      lifted.map (·.map Subtype.val) = elements
  | [] => ⟨[], rfl⟩
  | element :: rest => by
      obtain ⟨element, rfl⟩ := liftOption step element
      obtain ⟨rest, rfl⟩ := liftElements step rest
      exact ⟨element :: rest, rfl⟩

end

end Node

namespace Shape

variable {Part Other Third : Type}

/-- Replacing the parts twice is replacing them once. -/
theorem map_map (first : Part → Other) (second : Other → Third) (shape : Shape Part) :
    (shape.map first).map second = shape.map (second ∘ first) := by
  cases shape <;>
    simp only [Shape.map, List.map_map, Option.map_map, Function.comp_def]

/-- Replacing every part by itself changes nothing. -/
theorem map_id (shape : Shape Part) : shape.map id = shape := by
  cases shape <;> simp only [Shape.map, List.map_id, Option.map_id, List.map_id', id_eq]

theorem tag_map (change : Part → Other) (shape : Shape Part) :
    (shape.map change).tag = shape.tag := by
  cases shape <;> rfl

end Shape

end ScriptBridge

import ScriptBridge.Emit.Tree
import ScriptBridge.Proofs.Printing.Congruence

/-!
# What constructs ask of their parts

To print a construct is to print its parts in some roles and, here and there, to
look at what a part is.  `Shape.questions` lists everything that a construct asks
of its parts.  Parts that give the same answers can be exchanged: the construct is
printed by the same printer.
-/

namespace ScriptBridge

/-- Whether a node is the name whose calls write code as it stands. -/
def Node.isRawCodeName (node : Node) : Bool :=
  node.identifier? = some Printer.rawCodeName

/-- Whether a node is a conditional statement. -/
def Node.isIf (node : Node) : Bool :=
  match node.shape with
  | .ifStatement .. => true
  | _ => false

/-- Whether a node is a block of statements. -/
def Node.isBlock (node : Node) : Bool :=
  match node.shape with
  | .group .block _ => true
  | _ => false

/-- Whether a node is an object literal. -/
def Node.isObjectLiteral (node : Node) : Bool :=
  match node.shape with
  | .objectLiteral _ => true
  | _ => false

/-- Whether a node is a block without statements. -/
def Node.isEmptyBlock (node : Node) : Bool :=
  match node.shape with
  | .group .block [] => true
  | _ => false

/-- Something that a construct wants to know of one of its parts. -/
inductive Question where
  /-- How it is printed in a role. -/
  | printed (role : Role)
  /-- How it is printed as an operand. -/
  | operand
  /-- Whether a call of it writes code as it stands. -/
  | rawCodeName
  /-- Its value as a string literal. -/
  | text
  /-- Whether a call occurs along its chain of member accesses. -/
  | callsInChain
  /-- Whether it is a block or an object literal. -/
  | arrowBody
  /-- How it stands among statements. -/
  | statement
  /-- Its name, if it is an identifier. -/
  | name
  /-- Its last name, if it is a type. -/
  | lastName
  /-- Its names with dots between them. -/
  | dottedName
  /-- Whether a call of the superclass occurs in it. -/
  | superCall
  /-- Whether a method may have it as its function. -/
  | methodFunction (form : MethodForm)
  /-- The name that it imports. -/
  | specifier
  deriving DecidableEq

namespace Question

/-- Whether two parts give the same answer to a question. -/
def SameAnswer (first second : Part) : Question → Prop
  | printed role => first.printAs role = second.printAs role
  | operand =>
      Printer.rankOf first = Printer.rankOf second ∧
        first.printAs .ranked = second.printAs .ranked
  | rawCodeName => first.node.isRawCodeName = second.node.isRawCodeName
  | text => first.node.stringLiteral? = second.node.stringLiteral?
  | callsInChain => first.node.callsInChain = second.node.callsInChain
  | arrowBody =>
      first.node.isBlock = second.node.isBlock ∧
        first.node.isObjectLiteral = second.node.isObjectLiteral
  | statement =>
      first.node.isEmptyStatement = second.node.isEmptyStatement ∧
        first.node.endsWithSemicolon = second.node.endsWithSemicolon ∧
        first.node.isBreak = second.node.isBreak ∧
        first.node.isBlock = second.node.isBlock ∧
        first.node.isEmptyBlock = second.node.isEmptyBlock ∧
        first.node.isIf = second.node.isIf
  | name => first.node.identifier? = second.node.identifier?
  | lastName => first.node.lastName? = second.node.lastName?
  | dottedName => first.node.dottedName? = second.node.dottedName?
  | superCall =>
      first.node.hasDescendant Node.isSuperCall = second.node.hasDescendant Node.isSuperCall
  | methodFunction form =>
      Printer.methodMarks? form first = Printer.methodMarks? form second ∧
        first.node.location = second.node.location ∧ first.node.tag = second.node.tag
  | specifier =>
      (∀ options : Options,
        options.importedName? first.node = options.importedName? second.node) ∧
        (∀ (clause : ImportClause) text,
          clause.add first.node text = clause.add second.node text) ∧
        first.node.location = second.node.location ∧ first.node.tag = second.node.tag

end Question

namespace Shape

variable {Part : Type}

/-- A question about a part that may be absent. -/
def askedOf (part : Option Part) (question : Question) : List (Question × Part) :=
  part.toList.map (question, ·)

/-- A question about every part of a list. -/
def askedOfAll (parts : List Part) (question : Question) : List (Question × Part) :=
  parts.map (question, ·)

/-- The questions about a statement in a list of statements. -/
def statementQuestions (statement : Part) : List (Question × Part) :=
  [(.statement, statement), (.printed .plain, statement)]

/-- The questions about a statement that is printed in braces. -/
def bracedQuestions (nodeOf : Part → Node) (prologue : Option String) (statement : Part) :
    List (Question × Part) :=
  [(.statement, statement),
    (.printed (if (nodeOf statement).isBlock then .block prologue else .plain), statement)]

/-- The questions about the body of a method.  Only for a constructor it matters
whether the superclass is called. -/
def methodBodyQuestions (nodeOf : Part → Node) (isConstructor : Bool) (body : Part) :
    List (Question × Part) :=
  if isConstructor then
    (.superCall, body) ::
      bracedQuestions nodeOf
        (if (nodeOf body).hasDescendant Node.isSuperCall then none else some Printer.superCall)
        body
  else bracedQuestions nodeOf none body

/-- The questions about a key, which is printed as it stands if it is computed. -/
def keyQuestions (key : Part) (computed : Bool) : List (Question × Part) :=
  [(.printed (if computed then .plain else .key), key)]

/-- The questions about the arguments of a call that writes code as it stands. -/
def rawCodeQuestions (nodeOf : Part → Node) : List Part → List (Question × Part)
  | [] => []
  | code :: _ =>
      (.text, code) ::
        if (nodeOf code).stringLiteral?.isSome then [] else [(.printed .plain, code)]

/-- The questions about the parts of a function. -/
def functionQuestions (nodeOf : Part → Node) (role : Role) (form : FunctionForm)
    (name : Option Part) (params : List Part) (body returnType : Option Part) :
    List (Question × Part) :=
  let signature :=
    askedOfAll params (.printed .parameter) ++ askedOf returnType (.printed .plain)
  match form, role with
  | .declared, _ => []
  | .arrow, _ =>
      signature ++ askedOf body .arrowBody ++ askedOf body (.printed .plain) ++
        askedOf body .operand
  | _, .method _ isConstructor _ =>
      signature ++ body.toList.flatMap (methodBodyQuestions nodeOf isConstructor)
  | .emptyBody, _ => []
  | _, _ => askedOf name .name ++ signature ++ body.toList.flatMap (bracedQuestions nodeOf none)

/-- Everything that a construct printed in the given role asks of its parts. -/
def questions (nodeOf : Part → Node) (place : Position) (role : Role) :
    Shape Part → List (Question × Part)
  | .group _ statements => statements.flatMap statementQuestions
  | .identifier _ type _ => askedOf type (.printed .plain)
  | .arrayLiteral elements => elements.flatMap fun element => askedOf element .operand
  | .objectLiteral properties => askedOfAll properties (.printed .plain)
  | .entry key value computed _ => keyQuestions key computed ++ [(.printed .plain, value)]
  | .function form _ name params body returnType =>
      functionQuestions nodeOf role form name params body returnType
  | .classDefinition _ _ name superClass implementing body _ =>
      askedOf name .name ++ askedOf superClass .lastName ++
        askedOf superClass (.printed .typeName) ++
        askedOfAll implementing (.printed .plain) ++ [(.printed .plain, body)]
  | .classProperty _ key value type _ =>
      [(.printed .key, key), (.name, key)] ++ askedOf type (.printed .plain) ++
        askedOf value (.printed .plain)
  | .method form marks key value =>
      [(.methodFunction form, value), (.printed (.method place
        (marks.kind = .constructor) (form = .abstract)), value)] ++
        if marks.kind = .constructor then [] else [(.name, key)]
  | .unary _ _ _ argument => [(.operand, argument)]
  | .binary _ _ left right => [(.operand, left), (.operand, right)]
  | .conditional test consequent alternate =>
      [(.operand, test), (.operand, consequent), (.operand, alternate)]
  | .call .call callee arguments _ typeParameters typeArguments =>
      (.rawCodeName, callee) ::
        if (nodeOf callee).isRawCodeName then rawCodeQuestions nodeOf arguments
        else
          (.operand, callee) :: askedOfAll arguments .operand ++
            askedOf (chosenTypeArguments typeParameters typeArguments) (.printed .plain)
  | .call .construction callee arguments _ typeParameters typeArguments =>
      (.callsInChain, callee) ::
        (if (nodeOf callee).callsInChain then .printed .plain else .operand, callee) ::
        askedOfAll arguments .operand ++ askedOfAll arguments (.printed .plain) ++
        askedOf (chosenTypeArguments typeParameters typeArguments) (.printed .plain)
  | .member object property computed _ =>
      [(.operand, object), (.printed (if computed then .plain else .memberName), property)]
  | .sequence expressions => askedOfAll expressions .operand
  | .spread .spread argument _ => [(.operand, argument)]
  | .spread .rest argument type =>
      (.printed role.binding, argument) :: askedOf type (.printed .plain)
  | .assignmentPattern left right =>
      [(.printed role.binding, left), (.printed .plain, right)]
  | .cast expression _ => [(.printed role.underCast, expression)]
  | .expressionStatement expression => [(.printed .plain, expression)]
  | .ifStatement test consequent alternate =>
      (.printed .plain, test) :: bracedQuestions nodeOf none consequent ++
        alternate.toList.flatMap (bracedQuestions nodeOf none)
  | .switch discriminant cases =>
      (.printed .plain, discriminant) :: askedOfAll cases (.printed .plain)
  | .switchCase test consequent =>
      askedOf test (.printed .plain) ++ consequent.flatMap statementQuestions
  | .forLoop init test update body =>
      askedOf init (.printed .plain) ++ askedOf test (.printed .plain) ++
        askedOf update (.printed .plain) ++ bracedQuestions nodeOf none body
  | .forEach _ left right body =>
      [(.printed .plain, left), (.printed .plain, right)] ++ bracedQuestions nodeOf none body
  | .loop _ test body => (.printed .plain, test) :: bracedQuestions nodeOf none body
  | .jump _ label => askedOf label (.printed .memberName)
  | .exit _ argument => askedOf argument (.printed .plain)
  | .tryStatement block handler finalizer =>
      bracedQuestions nodeOf none block ++ askedOf handler (.printed .plain) ++
        finalizer.toList.flatMap (bracedQuestions nodeOf none)
  | .catchClause param body =>
      askedOf param .name ++ askedOf param (.printed .declaredName) ++
        bracedQuestions nodeOf none body
  | .variableDeclaration declarations _ => askedOfAll declarations (.printed .plain)
  | .declarator name init => (.printed .declaredName, name) :: askedOf init .operand
  | .importDeclaration specifiers source =>
      askedOfAll specifiers .specifier ++ [(.text, source), (.printed .plain, source)]
  | .importSpecifier imported binding => (.name, imported) :: askedOf binding .name
  | .importBinding _ binding => [(.name, binding)]
  | .exportNamed declaration _ _ => askedOf declaration (.printed .exported)
  | .exportDefault declaration => [(.printed .plain, declaration)]
  | .moduleDeclaration _ body => askedOf body (.printed .plain)
  | .interface name body extending _ =>
      (.name, name) :: askedOfAll extending (.printed .plain) ++ [(.printed .plain, body)]
  | .heritage _ expression typeParameters typeArguments
  | .typeReference expression typeParameters typeArguments =>
      (.printed .typeName, expression) ::
        askedOf (chosenTypeArguments typeParameters typeArguments) (.printed .plain)
  | .methodSignature marks key params returnType =>
      keyQuestions key marks.computed ++ askedOfAll params (.printed .parameter) ++
        askedOf returnType (.printed .plain)
  | .propertySignature key type _ _ computed =>
      keyQuestions key computed ++ askedOf type (.printed .plain)
  | .typeClause type => [(.printed .plain, type)]
  | .typeList params => askedOfAll params (.printed .typeName)
  | .qualifiedName left right =>
      [(.dottedName, left), (.dottedName, right), (.printed .plain, left),
        (.printed .memberName, right)]
  | .arrayType element => [(.printed .plain, element)]
  | _ => []

section Mapping

variable {Other : Type} (change : Part → Other) (nodeOf : Other → Node)

theorem askedOf_map (part : Option Part) (question : Question) :
    askedOf (part.map change) question = (askedOf part question).map (Prod.map id change) := by
  cases part <;> rfl

theorem askedOfAll_map (parts : List Part) (question : Question) :
    askedOfAll (parts.map change) question =
      (askedOfAll parts question).map (Prod.map id change) := by
  simp [askedOfAll, Function.comp_def]

theorem statementQuestions_map (statements : List Part) :
    (statements.map change).flatMap statementQuestions =
      (statements.flatMap statementQuestions).map (Prod.map id change) := by
  rw [List.flatMap_map, List.map_flatMap]
  rfl

theorem bracedQuestions_map (prologue : Option String) (part : Part) :
    bracedQuestions nodeOf prologue (change part) =
      (bracedQuestions (nodeOf ∘ change) prologue part).map (Prod.map id change) :=
  rfl

theorem flatMap_bracedQuestions_map (prologue : Option String) (part : Option Part) :
    (part.map change).toList.flatMap (bracedQuestions nodeOf prologue) =
      (part.toList.flatMap (bracedQuestions (nodeOf ∘ change) prologue)).map
        (Prod.map id change) := by
  cases part <;> rfl

theorem methodBodyQuestions_map (isConstructor : Bool) (part : Option Part) :
    (part.map change).toList.flatMap (methodBodyQuestions nodeOf isConstructor) =
      (part.toList.flatMap (methodBodyQuestions (nodeOf ∘ change) isConstructor)).map
        (Prod.map id change) := by
  cases part <;> cases isConstructor <;> rfl

theorem rawCodeQuestions_map (arguments : List Part) :
    rawCodeQuestions nodeOf (arguments.map change) =
      (rawCodeQuestions (nodeOf ∘ change) arguments).map (Prod.map id change) := by
  cases arguments with
  | nil => rfl
  | cons code rest =>
      simp only [List.map_cons, rawCodeQuestions, Function.comp_apply]
      split <;> rfl

theorem functionQuestions_map (role : Role) (form : FunctionForm) (name : Option Part)
    (params : List Part) (body returnType : Option Part) :
    functionQuestions nodeOf role form (name.map change) (params.map change)
        (body.map change) (returnType.map change) =
      (functionQuestions (nodeOf ∘ change) role form name params body returnType).map
        (Prod.map id change) := by
  cases form <;> cases role <;>
    simp only [functionQuestions, askedOf_map, askedOfAll_map, flatMap_bracedQuestions_map,
      methodBodyQuestions_map, List.map_append, List.map_nil]

theorem chosenTypeArguments_map (typeParameters typeArguments : Option Part) :
    chosenTypeArguments (typeParameters.map change) (typeArguments.map change) =
      (chosenTypeArguments typeParameters typeArguments).map change := by
  cases typeArguments <;> rfl

/-- A construct asks the same of its parts whatever they are read as. -/
theorem questions_map (place : Position) (role : Role) (shape : Shape Part) :
    (shape.map change).questions nodeOf place role =
      (shape.questions (nodeOf ∘ change) place role).map (Prod.map id change) := by
  cases shape with
  | group form statements =>
      exact statementQuestions_map change statements
  | arrayLiteral elements =>
      simp only [Shape.map, questions, List.flatMap_map, List.map_flatMap, askedOf_map]
  | function form marks name params body returnType =>
      exact functionQuestions_map change nodeOf role form name params body returnType
  | switchCase test consequent =>
      simp only [Shape.map, questions, askedOf_map, statementQuestions_map, List.map_append]
  | call form callee arguments optional typeParameters typeArguments =>
      cases form with
      | call =>
          simp only [Shape.map, questions, chosenTypeArguments_map, Function.comp_apply]
          split <;> simp only [rawCodeQuestions_map, askedOf_map, askedOfAll_map, List.map_cons,
            List.map_append, List.cons_append, Prod.map, id]
      | construction =>
          simp only [Shape.map, questions, chosenTypeArguments_map, askedOf_map, askedOfAll_map,
            Function.comp_apply, List.map_cons, List.map_append, Prod.map, id, List.cons_append]
  | spread form argument type => cases form <;> simp [Shape.map, questions, askedOf_map]
  | method form marks key value =>
      simp only [Shape.map, questions]
      split <;> rfl
  | _ =>
      simp only [Shape.map, questions, askedOf_map, askedOfAll_map, bracedQuestions_map,
        flatMap_bracedQuestions_map, chosenTypeArguments_map, keyQuestions, List.map_cons,
        List.map_append, List.map_nil, List.cons_append, List.nil_append, Prod.map, id]

end Mapping

end Shape

namespace Printer

/-- Whether something holds of every question of a list. -/
def Every {Item : Type} (holds : Question → Item → Prop) (asked : List (Question × Item)) :
    Prop :=
  ∀ entry ∈ asked, holds entry.1 entry.2

/-- Whether two readings of the same parts give the same answers to a list of
questions. -/
abbrev Agree {Item : Type} (first second : Item → Part) (asked : List (Question × Item)) :
    Prop :=
  Every (fun question item => question.SameAnswer (first item) (second item)) asked

section Every

variable {Item : Type} {holds : Question → Item → Prop}

@[simp]
theorem every_nil : Every holds [] := by
  intro entry member
  cases member

@[simp]
theorem every_cons (question : Question) (item : Item) (asked : List (Question × Item)) :
    Every holds ((question, item) :: asked) ↔ holds question item ∧ Every holds asked :=
  List.forall_mem_cons

@[simp]
theorem every_append (asked others : List (Question × Item)) :
    Every holds (asked ++ others) ↔ Every holds asked ∧ Every holds others :=
  List.forall_mem_append

@[simp]
theorem every_askedOfAll (items : List Item) (question : Question) :
    Every holds (Shape.askedOfAll items question) ↔ ∀ item ∈ items, holds question item :=
  List.forall_mem_map

@[simp]
theorem every_askedOf (item : Option Item) (question : Question) :
    Every holds (Shape.askedOf item question) ↔ ∀ present ∈ item, holds question present := by
  unfold Shape.askedOf
  cases item <;> simp

@[simp]
theorem every_flatMap {Source : Type} (items : List Source)
    (asked : Source → List (Question × Item)) :
    Every holds (items.flatMap asked) ↔ ∀ item ∈ items, Every holds (asked item) := by
  simp only [Every, List.mem_flatMap]
  constructor
  · intro all item member entry inside
    exact all entry ⟨item, member, inside⟩
  · rintro all entry ⟨item, member, inside⟩
    exact all item member entry inside

end Every

section Agreement

variable {Item : Type} {first second : Item → Part}

/-! ## Exchanging parts -/

theorem operand_exchange {before after : Part}
    (same : Question.operand.SameAnswer before after) (kind : Operand) (parent : Rank) :
    operand kind parent before = operand kind parent after := by
  simp only [operand, same.1, same.2]

theorem separated_exchange {Before After : Type} {toBefore : Item → Before}
    {toAfter : Item → After} {printBefore : Before → Printer Unit}
    {printAfter : After → Printer Unit} (items : List Item)
    (same : ∀ item ∈ items, printBefore (toBefore item) = printAfter (toAfter item)) :
    separated printBefore (items.map toBefore) = separated printAfter (items.map toAfter) := by
  induction items with
  | nil => rfl
  | cons item rest ih =>
      have tail := ih fun other member => same other (List.mem_cons_of_mem item member)
      have head := same item List.mem_cons_self
      cases rest with
      | nil => exact head
      | cons next rest =>
          simp only [List.map_cons, separated] at tail ⊢
          rw [head, tail]

theorem whenPresent_exchange {Before After : Type} {toBefore : Item → Before}
    {toAfter : Item → After} {printBefore : Before → Printer Unit}
    {printAfter : After → Printer Unit} (item : Option Item)
    (same : ∀ present ∈ item, printBefore (toBefore present) = printAfter (toAfter present)) :
    whenPresent (item.map toBefore) printBefore = whenPresent (item.map toAfter) printAfter := by
  cases item with
  | none => rfl
  | some present => exact same present rfl

/-- A part that may be absent can be exchanged behind a word. -/
theorem introduced_exchange (word : String) (role : Role) (item : Option Item)
    (same : ∀ present ∈ item, (Question.printed role).SameAnswer (first present) (second present)) :
    (whenPresent (item.map first) fun part => (do write word; part.printAs role)) =
      whenPresent (item.map second) fun part => (do write word; part.printAs role) := by
  refine whenPresent_exchange item fun present member => ?_
  rw [same present member]

theorem declaredType_exchange (type : Option Item)
    (same : ∀ present ∈ type,
      (Question.printed .plain).SameAnswer (first present) (second present)) :
    declaredType (type.map first) = declaredType (type.map second) :=
  introduced_exchange ": " .plain type same

theorem parameters_exchange (params : List Item)
    (same : ∀ param ∈ params,
      (Question.printed .parameter).SameAnswer (first param) (second param)) :
    parameters (params.map first) = parameters (params.map second) := by
  have list : separated (Folded.printAs · .parameter) (params.map first) =
      separated (Folded.printAs · .parameter) (params.map second) :=
    separated_exchange params same
  simp only [parameters, list]

theorem statements_exchange (body : List Item)
    (same : ∀ item ∈ body, Agree first second (Shape.statementQuestions item))
    (wroteAny : Bool) :
    statements wroteAny (body.map first) = statements wroteAny (body.map second) := by
  induction body generalizing wroteAny with
  | nil => rfl
  | cons item rest ih =>
      have tail := ih fun other member => same other (List.mem_cons_of_mem item member)
      have head := same item List.mem_cons_self
      simp only [Shape.statementQuestions, every_cons, Question.SameAnswer] at head
      simp only [List.map_cons, statements, Folded.print, head, tail]

theorem block_exchange (prologue : Option String) (body : List Item)
    (same : ∀ item ∈ body, Agree first second (Shape.statementQuestions item)) :
    block prologue (body.map first) = block prologue (body.map second) := by
  simp only [block, statements_exchange body same]

theorem braced_exchange {prologue : Option String} {item : Item}
    (same : Agree first second
      (Shape.bracedQuestions (fun part => (first part).node) prologue item)) :
    braced prologue (first item) = braced prologue (second item) := by
  simp only [Shape.bracedQuestions, every_cons, every_nil, and_true] at same
  obtain ⟨standing, printed⟩ := same
  have sameBlock : (first item).node.isBlock = (second item).node.isBlock :=
    standing.2.2.2.1
  change (if (first item).node.isBlock then _ else _) =
    (if (second item).node.isBlock then _ else _)
  rw [← sameBlock]
  split at printed
  next isBlock => rw [if_pos isBlock, if_pos isBlock, printed]
  next isNoBlock =>
    rw [if_neg isNoBlock, if_neg isNoBlock]
    refine block_exchange prologue [item] fun other member => ?_
    obtain rfl := List.mem_singleton.mp member
    simpa only [Shape.statementQuestions, every_cons, every_nil, and_true]
      using ⟨standing, printed⟩

theorem alternative_eq (statement : Part) :
    alternative statement =
      if statement.node.isIf then (do write " else "; statement.print)
      else if statement.node.isEmptyBlock then pure ()
      else (do write " else "; braced none statement) := by
  unfold alternative Node.isIf Node.isEmptyBlock
  rcases statement with ⟨⟨location, shape⟩, print⟩
  cases shape with
  | group form statements => cases form <;> cases statements <;> rfl
  | _ => rfl

theorem alternative_exchange {item : Item}
    (same : Agree first second
      (Shape.bracedQuestions (fun part => (first part).node) none item)) :
    alternative (first item) = alternative (second item) := by
  have inBraces := braced_exchange same
  simp only [Shape.bracedQuestions, every_cons, every_nil, and_true] at same
  obtain ⟨⟨-, -, -, -, sameEmpty, sameIf⟩, printed⟩ := same
  rw [alternative_eq, alternative_eq, ← sameEmpty, ← sameIf, inBraces]
  split
  next isIf =>
    have isNoBlock : (first item).node.isBlock = false := by
      unfold Node.isIf at isIf
      unfold Node.isBlock
      split at isIf <;> simp_all
    rw [isNoBlock] at printed
    exact congrArg (fun print => (do write " else "; print : Printer Unit)) printed
  next => rfl

theorem entryKey_exchange {key : Item} {computed : Bool}
    (same : Agree first second (Shape.keyQuestions key computed)) :
    entryKey (first key) computed = entryKey (second key) computed := by
  simp only [Shape.keyQuestions, every_cons, every_nil, and_true] at same
  unfold entryKey
  cases computed with
  | false => exact same
  | true => exact congrArg (enclosedIf true "[" "]") same

theorem chosenTypes_exchange (typeParameters typeArguments : Option Item)
    (same : ∀ types ∈ chosenTypeArguments typeParameters typeArguments,
      (Question.printed .plain).SameAnswer (first types) (second types)) :
    whenPresent (chosenTypeArguments (typeParameters.map first) (typeArguments.map first))
        Folded.print =
      whenPresent (chosenTypeArguments (typeParameters.map second) (typeArguments.map second))
        Folded.print := by
  cases typeArguments with
  | none => exact whenPresent_exchange typeParameters same
  | some types => exact same types rfl

theorem ownRank_exchange (first second : Item → Part) (role : Role) (place : Position)
    (shape : Shape Item) :
    ownRank role place (shape.map first) = ownRank role place (shape.map second) := by
  simp only [ownRank, Shape.rank, operatorPattern?_map]

theorem arguments_exchange (arguments : List Item)
    (same : ∀ argument ∈ arguments,
      Question.operand.SameAnswer (first argument) (second argument)) :
    separated listItem (arguments.map first) = separated listItem (arguments.map second) :=
  separated_exchange arguments fun argument member => operand_exchange (same argument member) _ _

theorem rawCode_exchange (arguments : List Item)
    (same : Agree first second
      (Shape.rawCodeQuestions (fun part => (first part).node) arguments)) :
    rawCode (arguments.map first) = rawCode (arguments.map second) := by
  cases arguments with
  | nil => rfl
  | cons code rest =>
      simp only [Shape.rawCodeQuestions, every_cons] at same
      obtain ⟨sameText, printed⟩ := same
      have sameText : (first code).node.stringLiteral? = (second code).node.stringLiteral? :=
        sameText
      simp only [List.map_cons, rawCode, ← sameText]
      cases found : (first code).node.stringLiteral? with
      | some text => rfl
      | none =>
          simp only [found, Option.isSome_none, Bool.false_eq_true, if_false, every_cons]
            at printed
          have printed : (first code).print = (second code).print := printed.1
          rw [printed]

theorem call_exchange (role : Role) (place : Position) (callee : Item) (arguments : List Item)
    (optional : Bool) (typeParameters typeArguments : Option Item)
    (same : Agree first second
      (Shape.questions (fun part => (first part).node) place role
        (.call .call callee arguments optional typeParameters typeArguments))) :
    call (ownRank role place (Shape.map first
          (.call .call callee arguments optional typeParameters typeArguments)))
        (first callee) (arguments.map first) optional
        (chosenTypeArguments (typeParameters.map first) (typeArguments.map first)) =
      call (ownRank role place (Shape.map second
          (.call .call callee arguments optional typeParameters typeArguments)))
        (second callee) (arguments.map second) optional
        (chosenTypeArguments (typeParameters.map second) (typeArguments.map second)) := by
  have rank := ownRank_exchange first second role place
    (.call .call callee arguments optional typeParameters typeArguments)
  simp only [Shape.questions, every_cons] at same
  obtain ⟨sameName, rest⟩ := same
  have sameName : (first callee).node.isRawCodeName = (second callee).node.isRawCodeName :=
    sameName
  have rawFirst : (first callee).node.identifier? = some rawCodeName ↔
      (first callee).node.isRawCodeName := by simp [Node.isRawCodeName]
  have rawSecond : (second callee).node.identifier? = some rawCodeName ↔
      (first callee).node.isRawCodeName := by rw [sameName]; simp [Node.isRawCodeName]
  simp only [call, rawFirst, rawSecond]
  split at rest
  next isRaw => rw [if_pos isRaw, if_pos isRaw, rawCode_exchange arguments rest]
  next isNoRaw =>
    simp only [List.cons_append, every_cons, every_append, every_askedOfAll, every_askedOf]
      at rest
    obtain ⟨sameCallee, sameArguments, sameTypes⟩ := rest
    rw [if_neg isNoRaw, if_neg isNoRaw]
    simp only [rank, applied, operand_exchange sameCallee,
      arguments_exchange arguments sameArguments,
      chosenTypes_exchange typeParameters typeArguments sameTypes]

theorem construction_exchange (rank : Rank) (callee : Item) (arguments : List Item)
    (typeParameters typeArguments : Option Item)
    (sameChain : (first callee).node.callsInChain = (second callee).node.callsInChain)
    (sameCallee : Question.SameAnswer (first callee) (second callee)
      (if (first callee).node.callsInChain then .printed .plain else .operand))
    (sameArguments : ∀ argument ∈ arguments,
      Question.operand.SameAnswer (first argument) (second argument))
    (samePattern : ∀ argument ∈ arguments,
      (Question.printed .plain).SameAnswer (first argument) (second argument))
    (sameTypes : ∀ types ∈ chosenTypeArguments typeParameters typeArguments,
      (Question.printed .plain).SameAnswer (first types) (second types)) :
    construction rank (first callee) (arguments.map first)
        (chosenTypeArguments (typeParameters.map first) (typeArguments.map first)) =
      construction rank (second callee) (arguments.map second)
        (chosenTypeArguments (typeParameters.map second) (typeArguments.map second)) := by
  have built : constructed rank (first callee) = constructed rank (second callee) := by
    unfold constructed
    rw [← sameChain]
    split at sameCallee
    next calls =>
      rw [if_pos calls, if_pos calls]
      exact congrArg (enclosedIf true "(" ")") sameCallee
    next callsNot => rw [if_neg callsNot, if_neg callsNot, operand_exchange sameCallee]
  have pattern : whenPresent (arguments.map first).head? Folded.print =
      whenPresent (arguments.map second).head? Folded.print := by
    cases arguments with
    | nil => rfl
    | cons argument rest => exact samePattern argument List.mem_cons_self
  simp only [construction, applied, built, pattern, arguments_exchange arguments sameArguments,
    chosenTypes_exchange typeParameters typeArguments sameTypes]

theorem arrowBody_exchange {before after : Part}
    (sameBody : Question.arrowBody.SameAnswer before after)
    (sameOperand : Question.operand.SameAnswer before after)
    (samePrinted : (Question.printed .plain).SameAnswer before after) :
    arrowBody before = arrowBody after := by
  obtain ⟨sameBlock, sameObject⟩ := sameBody
  have sameBlock : isBlock before = isBlock after := sameBlock
  have sameObject : isObjectLiteral before = isObjectLiteral after := sameObject
  simp only [arrowBody, Folded.print, sameBlock, sameObject, sameOperand.1, sameOperand.2]
  rw [samePrinted]

theorem arrow_exchange (place : Position) (params : List Item) (body returnType : Option Item)
    (same : Agree first second (Shape.askedOfAll params (.printed .parameter) ++
      Shape.askedOf returnType (.printed .plain) ++ Shape.askedOf body .arrowBody ++
      Shape.askedOf body (.printed .plain) ++ Shape.askedOf body .operand)) :
    arrow place (params.map first) (body.map first) (returnType.map first) =
      arrow place (params.map second) (body.map second) (returnType.map second) := by
  simp only [every_append, every_askedOf, every_askedOfAll] at same
  obtain ⟨⟨⟨⟨sameParams, sameType⟩, sameBody⟩, samePrinted⟩, sameOperand⟩ := same
  simp only [arrow, parameters_exchange params sameParams,
    declaredType_exchange returnType sameType]
  cases body with
  | none => rfl
  | some body =>
      simp only [Option.map_some, arrowBody_exchange (sameBody body rfl) (sameOperand body rfl)
        (samePrinted body rfl)]

theorem function_exchange (form : FunctionForm) (role : Role) (place : Position)
    (marks : FunctionMarks) (name : Option Item) (params : List Item)
    (body returnType : Option Item)
    (same : Agree first second (Shape.askedOf name .name ++
      (Shape.askedOfAll params (.printed .parameter) ++
        Shape.askedOf returnType (.printed .plain)) ++
      body.toList.flatMap (Shape.bracedQuestions (fun part => (first part).node) none))) :
    function form role place marks (name.map first) (params.map first) (body.map first)
        (returnType.map first) =
      function form role place marks (name.map second) (params.map second) (body.map second)
        (returnType.map second) := by
  simp only [every_append, every_askedOf, every_askedOfAll, every_flatMap,
    Option.mem_toList] at same
  obtain ⟨⟨sameName, sameParams, sameType⟩, sameBody⟩ := same
  have names : (name.map first).bind (·.node.identifier?) =
      (name.map second).bind (·.node.identifier?) := by
    cases name with
    | none => rfl
    | some name => exact sameName name rfl
  simp only [function, names, parameters_exchange params sameParams,
    declaredType_exchange returnType sameType]
  cases body with
  | none => rfl
  | some body => simp only [Option.map_some, braced_exchange (sameBody body rfl)]

theorem methodFunction_exchange (owner : Position) (isConstructor isAbstract : Bool)
    (params : List Item) (body returnType : Option Item)
    (same : Agree first second (Shape.askedOfAll params (.printed .parameter) ++
      Shape.askedOf returnType (.printed .plain) ++
      body.toList.flatMap
        (Shape.methodBodyQuestions (fun part => (first part).node) isConstructor))) :
    methodFunction owner isConstructor isAbstract (params.map first) (body.map first)
        (returnType.map first) =
      methodFunction owner isConstructor isAbstract (params.map second) (body.map second)
        (returnType.map second) := by
  simp only [every_append, every_askedOf, every_askedOfAll, every_flatMap,
    Option.mem_toList] at same
  obtain ⟨⟨sameParams, sameType⟩, sameBody⟩ := same
  simp only [methodFunction, parameters_exchange params sameParams,
    declaredType_exchange returnType sameType]
  cases body with
  | none => rfl
  | some body =>
      have same := sameBody body rfl
      cases isConstructor with
      | false =>
          have inBraces : braced none (first body) = braced none (second body) :=
            braced_exchange same
          simp [inBraces]
      | true =>
          simp only [Shape.methodBodyQuestions, if_true, every_cons] at same
          obtain ⟨sameCall, inBraces⟩ := same
          have sameCall : (first body).node.hasDescendant Node.isSuperCall =
              (second body).node.hasDescendant Node.isSuperCall := sameCall
          have inBraces := braced_exchange inBraces
          cases calls : (first body).node.hasDescendant Node.isSuperCall <;>
            simp only [calls, if_true, Bool.false_eq_true, if_false] at inBraces <;>
            simp [← sameCall, calls, inBraces]

theorem classDefinition_exchange (role : Role) (place : Position) (marks : ClassMarks)
    (name superClass : Option Item) (implementing : List Item) (body : Item)
    (decorators : List Item)
    (sameName : ∀ present ∈ name, Question.name.SameAnswer (first present) (second present))
    (sameSuper : ∀ present ∈ superClass,
      Question.lastName.SameAnswer (first present) (second present))
    (samePrinted : ∀ present ∈ superClass,
      (Question.printed .typeName).SameAnswer (first present) (second present))
    (sameImplementing : ∀ item ∈ implementing,
      (Question.printed .plain).SameAnswer (first item) (second item))
    (sameBody : (Question.printed .plain).SameAnswer (first body) (second body)) :
    classDefinition role place marks (name.map first) (superClass.map first)
        (implementing.map first) (first body) (decorators.map first) =
      classDefinition role place marks (name.map second) (superClass.map second)
        (implementing.map second) (second body) (decorators.map second) := by
  have names : (name.map first).bind (·.node.identifier?) =
      (name.map second).bind (·.node.identifier?) := by
    cases name with
    | none => rfl
    | some name => exact sameName name rfl
  have supers : (superClass.map first).bind (·.node.lastName?) =
      (superClass.map second).bind (·.node.lastName?) := by
    cases superClass with
    | none => rfl
    | some superClass => exact sameSuper superClass rfl
  have interfaces : separated Folded.print (implementing.map first) =
      separated Folded.print (implementing.map second) :=
    separated_exchange implementing sameImplementing
  have bodies : (first body).print = (second body).print := sameBody
  simp only [classDefinition, names, supers, introduced_exchange _ _ superClass samePrinted,
    interfaces, bodies, List.isEmpty_map]

theorem classProperty_exchange (place : Position) (marks : PropertyMarks) (key : Item)
    (value type : Option Item) (decorators : List Item)
    (sameKey : (Question.printed .key).SameAnswer (first key) (second key))
    (sameName : Question.name.SameAnswer (first key) (second key))
    (sameType : ∀ present ∈ type,
      (Question.printed .plain).SameAnswer (first present) (second present))
    (sameValue : ∀ present ∈ value,
      (Question.printed .plain).SameAnswer (first present) (second present)) :
    classProperty place marks (first key) (value.map first) (type.map first)
        (decorators.map first) =
      classProperty place marks (second key) (value.map second) (type.map second)
        (decorators.map second) := by
  have sameName : (first key).node.identifier? = (second key).node.identifier? := sameName
  simp only [Question.SameAnswer] at sameKey
  simp only [classProperty, partName?, sameKey, sameName, Folded.print,
    introduced_exchange _ _ value sameValue, declaredType_exchange type sameType,
    List.isEmpty_map]

theorem method_exchange (form : MethodForm) (place : Position) (marks : MethodMarks)
    {key value otherKey otherValue : Part}
    (sameFunction : (Question.methodFunction form).SameAnswer value otherValue)
    (samePrinted : (methodMarks? form value).isSome → (Question.printed (.method place
      (marks.kind = .constructor) (form = .abstract))).SameAnswer value otherValue)
    (sameName : marks.kind ≠ .constructor → Question.name.SameAnswer key otherKey) :
    method form place marks key value = method form place marks otherKey otherValue := by
  obtain ⟨sameMarks, sameLocation, sameTag⟩ := sameFunction
  have names : methodName? marks.kind key = methodName? marks.kind otherKey := by
    unfold methodName?
    by_cases isConstructor : marks.kind = .constructor
    · rw [if_pos isConstructor, if_pos isConstructor]
    · have sameName : key.node.identifier? = otherKey.node.identifier? :=
        sameName isConstructor
      rw [if_neg isConstructor, if_neg isConstructor]
      simp only [partName?, sameName]
  simp only [method, names, sameMarks, sameLocation, sameTag]
  cases found : methodMarks? form otherValue with
  | none => rfl
  | some function =>
      have printed := samePrinted (by rw [sameMarks, found]; rfl)
      simp only [Question.SameAnswer] at printed
      simp only [printed]

theorem importClause_exchange (specifiers : List Item)
    (same : ∀ item ∈ specifiers, Question.specifier.SameAnswer (first item) (second item))
    (clause : ImportClause) :
    importClause clause (specifiers.map first) = importClause clause (specifiers.map second) := by
  induction specifiers generalizing clause with
  | nil => rfl
  | cons item rest ih =>
      have tail := ih fun other member => same other (List.mem_cons_of_mem item member)
      obtain ⟨sameName, sameClause, sameLocation, sameTag⟩ := same item List.mem_cons_self
      simp only [List.map_cons, importClause, importedText, sameName, sameClause,
        sameLocation, sameTag, tail]

theorem specifier_exchange {before after : Node} (sameLocation : before.location = after.location)
    (sameTag : before.tag = after.tag)
    (sameName : ∀ options : Options, options.importedName? before = options.importedName? after) :
    specifier before = specifier after := by
  simp only [specifier, importedText, sameLocation, sameTag, sameName]

theorem switchCases_exchange (cases : List Item)
    (same : ∀ item ∈ cases, (Question.printed .plain).SameAnswer (first item) (second item)) :
    switchCases (cases.map first) = switchCases (cases.map second) := by
  induction cases with
  | nil => rfl
  | cons item rest ih =>
      have tail := ih fun other member => same other (List.mem_cons_of_mem item member)
      have head : (first item).print = (second item).print := same item List.mem_cons_self
      simp only [List.map_cons, switchCases, head, tail]

theorem switchCase_exchange (test : Option Item) (consequent : List Item)
    (sameTest : ∀ present ∈ test,
      (Question.printed .plain).SameAnswer (first present) (second present))
    (sameConsequent : ∀ item ∈ consequent,
      Agree first second (Shape.statementQuestions item)) :
    switchCase (test.map first) (consequent.map first) =
      switchCase (test.map second) (consequent.map second) := by
  have kept : (consequent.map second).filter (fun part => !part.node.isBreak) =
      (consequent.filter fun item => !(first item).node.isBreak).map second := by
    rw [List.filter_map]
    congr 1
    refine List.filter_congr fun item member => ?_
    have standing := sameConsequent item member
    simp only [Shape.statementQuestions, every_cons] at standing
    simp [standing.1.2.2.1]
  have keptFirst : (consequent.map first).filter (fun part => !part.node.isBreak) =
      (consequent.filter fun item => !(first item).node.isBreak).map first :=
    List.filter_map
  have body (wroteAny : Bool) := statements_exchange
    (consequent.filter fun item => !(first item).node.isBreak)
    (fun item member => sameConsequent item ((List.mem_filter.mp member).1)) wroteAny
  simp only [switchCase, kept, keptFirst, body]
  cases test with
  | none => rfl
  | some test =>
      have head : (first test).print = (second test).print := sameTest test rfl
      simp only [Option.map_some, head]

theorem namedType_exchange (name : Item) (typeParameters typeArguments : Option Item)
    (sameName : (Question.printed .typeName).SameAnswer (first name) (second name))
    (sameTypes : ∀ types ∈ chosenTypeArguments typeParameters typeArguments,
      (Question.printed .plain).SameAnswer (first types) (second types)) :
    namedType (first name) (typeParameters.map first) (typeArguments.map first) =
      namedType (second name) (typeParameters.map second) (typeArguments.map second) := by
  simp only [Question.SameAnswer] at sameName
  simp only [namedType, sameName, chosenTypes_exchange typeParameters typeArguments sameTypes]

theorem group_exchange (form : BodyForm) (location : Location) (role : Role)
    (body : List Item)
    (same : ∀ item ∈ body, Agree first second (Shape.statementQuestions item)) :
    construct location (.group form (body.map first)) role =
      construct location (.group form (body.map second)) role := by
  cases form with
  | program =>
      simp only [construct, withOperands, withoutOperands, topLevel, statements_exchange body same]
  | moduleBlock =>
      simp only [construct, withOperands, withoutOperands, topLevel, statements_exchange body same]
  | block =>
      cases role <;>
        simp only [construct, withOperands, withoutOperands, block_exchange _ body same]
  | classBody => simp only [construct, withOperands, withoutOperands, block_exchange _ body same]
  | interfaceBody =>
      simp only [construct, withOperands, withoutOperands, block_exchange _ body same]

theorem functionShape_exchange (form : FunctionForm) (marks : FunctionMarks)
    (location : Location) (role : Role) (name : Option Item) (params : List Item)
    (body returnType : Option Item)
    (same : Agree first second (Shape.functionQuestions (fun part => (first part).node) role form
      name params body returnType)) :
    construct location (.function form marks (name.map first) (params.map first)
        (body.map first) (returnType.map first)) role =
      construct location (.function form marks (name.map second) (params.map second)
        (body.map second) (returnType.map second)) role := by
  cases form with
  | declared => rfl
  | arrow => exact arrow_exchange location.start params body returnType same
  | declaration =>
      cases role with
      | method owner isConstructor isAbstract =>
          exact methodFunction_exchange owner isConstructor isAbstract params body returnType same
      | _ => exact function_exchange _ _ _ marks name params body returnType same
  | expression =>
      cases role with
      | method owner isConstructor isAbstract =>
          exact methodFunction_exchange owner isConstructor isAbstract params body returnType same
      | _ => exact function_exchange _ _ _ marks name params body returnType same
  | emptyBody =>
      cases role with
      | method owner isConstructor isAbstract =>
          exact methodFunction_exchange owner isConstructor isAbstract params body returnType same
      | _ => rfl

/-- Parts with the same answers can be exchanged in every construct. -/
theorem construct_exchange (location : Location) (role : Role) (shape : Shape Item)
    (same : Agree first second
      (shape.questions (fun part => (first part).node) location.start role)) :
    construct location (shape.map first) role = construct location (shape.map second) role := by
  have rank := ownRank_exchange first second role location.start shape
  cases shape with
  | leaf => rfl
  | keywordType => rfl
  | unsupported => rfl
  | unknown => rfl
  | literal => rfl
  | group form statements =>
      simp only [Shape.questions, every_flatMap] at same
      exact group_exchange form location role statements same
  | identifier name type optional =>
      simp only [Shape.questions, every_askedOf] at same
      simp only [Shape.map, construct, withOperands, withoutOperands, identifier,
        declaredType_exchange type same]
  | arrayLiteral elements =>
      simp only [Shape.questions, every_flatMap, every_askedOf] at same
      have list : separated (whenPresent · listItem) (elements.map (·.map first)) =
          separated (whenPresent · listItem) (elements.map (·.map second)) := by
        refine separated_exchange elements fun element member => ?_
        refine whenPresent_exchange element fun present inside => ?_
        exact operand_exchange (same element member present inside) _ _
      simp only [Shape.map, construct, withOperands, arrayLiteral, list]
  | objectLiteral properties =>
      simp only [Shape.questions, every_askedOfAll] at same
      have list : separated Folded.print (properties.map first) =
          separated Folded.print (properties.map second) := separated_exchange properties same
      simp only [Shape.map, construct, withOperands, withoutOperands, objectLiteral, list]
  | entry key value computed shorthand =>
      simp only [Shape.questions, every_append, every_cons] at same
      obtain ⟨sameKey, sameValue, -⟩ := same
      simp only [Question.SameAnswer] at sameValue
      simp only [Shape.map, construct, withOperands, withoutOperands, entry,
        entryKey_exchange sameKey, Folded.print, sameValue]
  | function form marks name params body returnType =>
      exact functionShape_exchange form marks location role name params body returnType same
  | classDefinition form marks name superClass implementing body decorators =>
      simp only [Shape.questions, every_append, every_askedOf, every_askedOfAll, every_cons]
        at same
      obtain ⟨⟨⟨⟨sameName, sameSuper⟩, samePrinted⟩, sameImplementing⟩, sameBody, -⟩ := same
      exact classDefinition_exchange role _ marks name superClass implementing body decorators
        sameName sameSuper samePrinted sameImplementing sameBody
  | classProperty marks key value type decorators =>
      simp only [Shape.questions, every_append, every_askedOf, every_cons] at same
      obtain ⟨⟨⟨sameKey, sameName, -⟩, sameType⟩, sameValue⟩ := same
      exact classProperty_exchange _ marks key value type decorators sameKey sameName sameType
        sameValue
  | method form marks key value =>
      simp only [Shape.questions, every_append, every_cons] at same
      obtain ⟨⟨sameFunction, samePrinted, -⟩, sameName⟩ := same
      refine method_exchange form _ marks sameFunction (fun _ => samePrinted)
        fun isNoConstructor => ?_
      rw [if_neg isNoConstructor, every_cons] at sameName
      exact sameName.1
  | unary form operator leading argument =>
      simp only [Shape.questions, every_cons] at same
      simp only [Shape.map] at rank
      simp only [Shape.map, construct, withOperands, rank, unary, operand_exchange same.1]
  | binary form operator left right =>
      simp only [Shape.questions, every_cons] at same
      obtain ⟨sameLeft, sameRight, -⟩ := same
      have grouping : (Shape.binary form operator (first left) (first right)).isRightAssociative =
          (Shape.binary form operator (second left) (second right)).isRightAssociative := by
        cases form <;> rfl
      simp only [Shape.map] at rank
      simp only [Shape.map, construct, withOperands, rank, grouping]
      simp only [binary, operand_exchange sameLeft, operand_exchange sameRight]
  | conditional test consequent alternate =>
      simp only [Shape.questions, every_cons] at same
      obtain ⟨sameTest, sameConsequent, sameAlternate, -⟩ := same
      simp only [Shape.map] at rank
      simp only [Shape.map, construct, withOperands, rank, conditional, operand_exchange sameTest,
        operand_exchange sameConsequent, operand_exchange sameAlternate]
  | call form callee arguments optional typeParameters typeArguments =>
      cases form with
      | call => exact call_exchange role _ callee arguments optional _ _ same
      | construction =>
          simp only [Shape.questions, List.cons_append, every_cons, every_append,
            every_askedOfAll, every_askedOf] at same
          obtain ⟨sameChain, sameCallee, ⟨sameArguments, samePattern⟩, sameTypes⟩ := same
          simp only [Shape.map] at rank
          simp only [Shape.map, construct, withOperands, rank,
            construction_exchange _ callee arguments typeParameters typeArguments sameChain
              sameCallee sameArguments samePattern sameTypes]
  | member object property computed optional =>
      simp only [Shape.questions, every_cons] at same
      obtain ⟨sameObject, sameProperty, -⟩ := same
      simp only [Question.SameAnswer] at sameProperty
      simp only [Shape.map] at rank
      cases computed with
      | false =>
          simp only [Bool.false_eq_true, if_false] at sameProperty
          simp [Shape.map, construct, withOperands, rank, member, operand_exchange sameObject,
            sameProperty]
      | true =>
          simp only [if_true] at sameProperty
          simp [Shape.map, construct, withOperands, rank, member, operand_exchange sameObject,
            Folded.print, sameProperty]
  | sequence expressions =>
      simp only [Shape.questions, every_askedOfAll] at same
      have list (rank : Rank) : separated (operand .loose rank) (expressions.map first) =
          separated (operand .loose rank) (expressions.map second) :=
        separated_exchange expressions fun item member => operand_exchange (same item member) _ _
      simp only [Shape.map] at rank
      simp only [Shape.map, construct, withOperands, rank, list]
  | spread form argument type =>
      cases form with
      | spread =>
          simp only [Shape.questions, every_cons] at same
          simp only [Shape.map] at rank
          simp only [Shape.map, construct, withOperands, rank, spread, operand_exchange same.1]
      | rest =>
          simp only [Shape.questions, every_cons, every_askedOf] at same
          obtain ⟨sameArgument, sameType⟩ := same
          simp only [Question.SameAnswer] at sameArgument
          simp only [Shape.map, construct, withOperands, withoutOperands, Printer.rest,
            sameArgument, declaredType_exchange type sameType]
  | assignmentPattern left right =>
      simp only [Shape.questions, every_cons] at same
      obtain ⟨sameLeft, sameRight, -⟩ := same
      simp only [Question.SameAnswer] at sameLeft sameRight
      simp only [Shape.map, construct, withOperands, withoutOperands, assignmentPattern, sameLeft,
        Folded.print, sameRight]
  | cast expression type =>
      simp only [Shape.questions, every_cons] at same
      exact same.1
  | expressionStatement expression =>
      simp only [Shape.questions, every_cons] at same
      exact same.1
  | ifStatement test consequent alternate =>
      simp only [Shape.questions, List.cons_append, every_cons, every_append, every_flatMap,
        Option.mem_toList] at same
      obtain ⟨sameTest, sameConsequent, sameAlternate⟩ := same
      simp only [Question.SameAnswer] at sameTest
      have otherwise : whenPresent (alternate.map first) alternative =
          whenPresent (alternate.map second) alternative :=
        whenPresent_exchange alternate fun present member =>
          alternative_exchange (sameAlternate present member)
      simp only [Shape.map, construct, withOperands, withoutOperands, ifStatement, Folded.print,
        sameTest, braced_exchange sameConsequent, otherwise]
  | switch discriminant cases =>
      simp only [Shape.questions, every_cons, every_askedOfAll] at same
      obtain ⟨sameDiscriminant, sameCases⟩ := same
      simp only [Question.SameAnswer] at sameDiscriminant
      simp only [Shape.map, construct, withOperands, withoutOperands, switch, Folded.print,
        sameDiscriminant, switchCases_exchange cases sameCases, List.isEmpty_map]
  | switchCase test consequent =>
      simp only [Shape.questions, every_append, every_askedOf, every_flatMap] at same
      obtain ⟨sameTest, sameConsequent⟩ := same
      exact switchCase_exchange test consequent sameTest sameConsequent
  | forLoop init test update body =>
      simp only [Shape.questions, every_append, every_askedOf] at same
      obtain ⟨⟨⟨sameInit, sameTest⟩, sameUpdate⟩, sameBody⟩ := same
      have starts : whenPresent (init.map first) Folded.print =
          whenPresent (init.map second) Folded.print := whenPresent_exchange init sameInit
      simp only [Shape.map, construct, withOperands, withoutOperands, forLoop, starts,
        braced_exchange sameBody]
      simp only [Folded.print, introduced_exchange _ _ test sameTest,
        introduced_exchange _ _ update sameUpdate]
  | forEach form left right body =>
      simp only [Shape.questions, List.cons_append, List.nil_append, every_cons] at same
      obtain ⟨sameLeft, sameRight, sameBody⟩ := same
      simp only [Question.SameAnswer] at sameLeft sameRight
      simp only [Shape.map, construct, withOperands, withoutOperands, forEach, Folded.print,
        sameLeft, sameRight, braced_exchange sameBody]
  | loop form test body =>
      simp only [Shape.questions, every_cons] at same
      obtain ⟨sameTest, sameBody⟩ := same
      simp only [Question.SameAnswer] at sameTest
      cases form <;>
        simp only [Shape.map, construct, withOperands, withoutOperands, loop, Folded.print,
          sameTest, braced_exchange sameBody]
  | jump form label =>
      simp only [Shape.questions, every_askedOf] at same
      simp only [Shape.map, construct, withOperands, withoutOperands, jump,
        introduced_exchange _ _ label same]
  | exit form argument =>
      simp only [Shape.questions, every_askedOf] at same
      cases argument with
      | none => rfl
      | some value =>
          have sameValue := same value rfl
          simp only [Question.SameAnswer] at sameValue
          cases form <;>
            simp only [Shape.map, construct, withOperands, withoutOperands, exit, Option.map_some,
              Folded.print, sameValue]
  | tryStatement block handler finalizer =>
      simp only [Shape.questions, every_append, every_askedOf, every_flatMap, Option.mem_toList]
        at same
      obtain ⟨⟨sameBlock, sameHandler⟩, sameFinalizer⟩ := same
      have ending : (whenPresent (finalizer.map first) fun part =>
            (do write " finally "; braced none part)) =
          whenPresent (finalizer.map second) fun part =>
            (do write " finally "; braced none part) := by
        refine whenPresent_exchange finalizer fun present member => ?_
        rw [braced_exchange (sameFinalizer present member)]
      simp only [Shape.map, construct, withOperands, withoutOperands, tryStatement, Folded.print,
        braced_exchange sameBlock, introduced_exchange _ _ handler sameHandler, ending]
  | catchClause param body =>
      simp only [Shape.questions, every_append, every_askedOf] at same
      obtain ⟨⟨sameName, samePrinted⟩, sameBody⟩ := same
      have caught : (whenPresent (param.map first) fun part =>
            (do write " ("; caughtName part; write ")")) =
          whenPresent (param.map second) fun part =>
            (do write " ("; caughtName part; write ")") := by
        refine whenPresent_exchange param fun present member => ?_
        have sameName : (first present).node.identifier? = (second present).node.identifier? :=
          sameName present member
        simp only [caughtName, sameName]
        rw [samePrinted present member]
      simp only [Shape.map, construct, withOperands, withoutOperands, catchClause, caught,
        braced_exchange sameBody]
  | variableDeclaration declarations kind =>
      simp only [Shape.questions, every_askedOfAll] at same
      have list : separated Folded.print (declarations.map first) =
          separated Folded.print (declarations.map second) := separated_exchange declarations same
      simp only [Shape.map, construct, withOperands, withoutOperands, variableDeclaration, list]
  | declarator name init =>
      simp only [Shape.questions, every_cons, every_askedOf] at same
      obtain ⟨sameName, sameInit⟩ := same
      simp only [Question.SameAnswer] at sameName
      have value : (whenPresent (init.map first) fun part => (do write " = "; listItem part)) =
          whenPresent (init.map second) fun part => (do write " = "; listItem part) := by
        refine whenPresent_exchange init fun present member => ?_
        simp only [listItem, operand_exchange (sameInit present member)]
      simp only [Shape.map, construct, withOperands, declarator, sameName, value]
  | importDeclaration specifiers source =>
      simp only [Shape.questions, every_append, every_askedOfAll, every_cons] at same
      obtain ⟨sameSpecifiers, sameText, samePrinted, -⟩ := same
      simp only [Question.SameAnswer] at sameText samePrinted
      simp only [Shape.map, construct, withOperands, withoutOperands, importDeclaration,
        importClause_exchange specifiers sameSpecifiers, sameText, Folded.print, samePrinted]
  | importSpecifier imported binding =>
      simp only [Shape.questions, every_cons, every_askedOf] at same
      obtain ⟨sameImported, sameBinding⟩ := same
      simp only [Question.SameAnswer] at sameImported
      have bound : ((binding.map first).map (·.node)).bind Node.identifier? =
          ((binding.map second).map (·.node)).bind Node.identifier? := by
        cases binding with
        | none => rfl
        | some binding => exact sameBinding binding rfl
      refine specifier_exchange rfl rfl fun options => ?_
      simp only [Options.importedName?, sameImported, bound]
  | importBinding form binding =>
      simp only [Shape.questions, every_cons, Question.SameAnswer] at same
      refine specifier_exchange rfl rfl fun options => ?_
      simp only [Options.importedName?, same.1]
  | exportNamed declaration specifiers source =>
      simp only [Shape.questions, every_askedOf] at same
      cases declaration with
      | none =>
          simp only [Shape.map, construct, withOperands, withoutOperands, exportNamed,
            Option.map_none, List.isEmpty_map]
      | some declaration => exact same declaration rfl
  | exportDefault declaration =>
      simp only [Shape.questions, every_cons, Question.SameAnswer] at same
      simp only [Shape.map, construct, withOperands, withoutOperands, exportDefault, Folded.print,
        same.1]
  | moduleDeclaration name body =>
      simp only [Shape.questions, every_askedOf] at same
      exact whenPresent_exchange body same
  | interface name body extending implementing =>
      simp only [Shape.questions, List.cons_append, every_cons, every_append, every_askedOfAll]
        at same
      obtain ⟨sameName, sameExtending, sameBody, -⟩ := same
      simp only [Question.SameAnswer] at sameName sameBody
      have list : separated Folded.print (extending.map first) =
          separated Folded.print (extending.map second) :=
        separated_exchange extending sameExtending
      simp only [Shape.map, construct, withOperands, withoutOperands, interface, partName?,
        sameName, list, Folded.print, sameBody, List.isEmpty_map]
  | heritage form expression typeParameters typeArguments =>
      simp only [Shape.questions, every_cons, every_askedOf] at same
      exact namedType_exchange expression typeParameters typeArguments same.1 same.2
  | methodSignature marks key params returnType =>
      simp only [Shape.questions, every_append, every_askedOfAll, every_askedOf] at same
      obtain ⟨⟨sameKey, sameParams⟩, sameType⟩ := same
      simp only [Shape.map, construct, withOperands, withoutOperands, methodSignature,
        entryKey_exchange sameKey, parameters_exchange params sameParams,
        declaredType_exchange returnType sameType]
  | propertySignature key type readonly optional computed =>
      simp only [Shape.questions, every_append, every_askedOf] at same
      simp only [Shape.map, construct, withOperands, withoutOperands, propertySignature,
        entryKey_exchange same.1, declaredType_exchange type same.2]
  | typeClause type =>
      simp only [Shape.questions, every_cons, Question.SameAnswer] at same
      simp only [Shape.map, construct, withOperands, withoutOperands, typeClause, Folded.print,
        same.1]
  | typeReference name typeParameters typeArguments =>
      simp only [Shape.questions, every_cons, every_askedOf] at same
      exact namedType_exchange name typeParameters typeArguments same.1 same.2
  | typeList params =>
      simp only [Shape.questions, every_askedOfAll] at same
      have list : separated (Folded.printAs · .typeName) (params.map first) =
          separated (Folded.printAs · .typeName) (params.map second) :=
        separated_exchange params same
      simp only [Shape.map, construct, withOperands, withoutOperands, typeList, list]
  | qualifiedName left right =>
      simp only [Shape.questions, every_cons, Question.SameAnswer] at same
      obtain ⟨sameFirst, sameSecond, sameLeft, sameRight, -⟩ := same
      simp only [Shape.map, construct, withOperands, withoutOperands, qualifiedName, Folded.print,
        sameFirst, sameSecond, sameLeft, sameRight]
  | arrayType element =>
      simp only [Shape.questions, every_cons, Question.SameAnswer] at same
      simp only [Shape.map, construct, withOperands, withoutOperands, arrayType, Folded.print,
        same.1]

end Agreement

end Printer

end ScriptBridge

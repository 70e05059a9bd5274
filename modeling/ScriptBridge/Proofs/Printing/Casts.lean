import ScriptBridge.Proofs.Printing.Inspection
import ScriptBridge.Proofs.Printing.Roles

/-!
# Casts in generated code

A cast leaves no trace in generated code: it is printed as the expression under
it.  So a tree and the tree without its casts should be printed alike.  They are,
as long as no construct looks at a part through which it cannot see: every
question of a construct must have the same answer for the part and for the part
without its casts.

The callee of a construction shows that this cannot be left out.  The parentheses
around a callee that calls something are lost if the call stands under a cast.
-/

namespace ScriptBridge

namespace Node

/-- A tree with every cast replaced by the expression under it. -/
def withoutCasts : Node → Node :=
  fold fun location shape =>
    match shape with
    | .cast expression _ => expression.result
    | other => ⟨location, other.map (·.result)⟩

end Node

/-- Whether a role shows in how a shape is printed. -/
def Role.marks {Part : Type} : Role → Shape Part → Bool
  | .typeName, .identifier .. => true
  | .memberName, .identifier .. => true
  | .key, .identifier .. => true
  | .parameter, .identifier .. => true
  | .parameter, .spread .rest .. => true
  | .parameter, .assignmentPattern .. => true
  | .declaredName, .identifier .. => true
  | .declaredName, .spread .rest .. => true
  | .declaredName, .assignmentPattern .. => true
  | .exported, .function .declaration .. => true
  | .exported, .classDefinition .. => true
  | .exported, .variableDeclaration .. => true
  | .block (some _), .group .block _ => true
  | .method .., .function .expression .. => true
  | .method .., .function .declaration .. => true
  | .method .., .function .emptyBody .. => true
  | _, _ => false

/-- Whether a part answers a question as it does without its casts. -/
def Question.seesThrough (part : Folded (Role → Bool)) : Question → Bool
  | .printed role =>
      !(part.node.isCast && role.marks part.node.withoutCasts.shape) && part.result role
  | .operand => part.result .ranked
  | .rawCodeName => part.node.isRawCodeName = part.node.withoutCasts.isRawCodeName
  | .text => part.node.stringLiteral? = part.node.withoutCasts.stringLiteral?
  | .callsInChain => part.node.callsInChain = part.node.withoutCasts.callsInChain
  | .arrowBody =>
      part.node.isBlock = part.node.withoutCasts.isBlock ∧
        part.node.isObjectLiteral = part.node.withoutCasts.isObjectLiteral
  | .statement =>
      part.node.isEmptyStatement = part.node.withoutCasts.isEmptyStatement ∧
        part.node.endsWithSemicolon = part.node.withoutCasts.endsWithSemicolon ∧
        part.node.isBreak = part.node.withoutCasts.isBreak ∧
        part.node.isBlock = part.node.withoutCasts.isBlock ∧
        part.node.isEmptyBlock = part.node.withoutCasts.isEmptyBlock ∧
        part.node.isIf = part.node.withoutCasts.isIf
  | .name => part.node.identifier? = part.node.withoutCasts.identifier?
  | .lastName => part.node.lastName? = part.node.withoutCasts.lastName?
  | .dottedName => part.node.dottedName? = part.node.withoutCasts.dottedName?
  | .superCall =>
      part.node.hasDescendant Node.isSuperCall =
        part.node.withoutCasts.hasDescendant Node.isSuperCall
  | .methodFunction _ => !part.node.isCast
  | .specifier => !part.node.isCast && part.result .plain

/-- Whether no construct that is printed looks at a cast without seeing through it. -/
def Node.castsUnseen (node : Node) (role : Role) : Bool :=
  node.fold (fun location shape role =>
    (shape.questions (·.node) location.start role).all fun (question, part) =>
      question.seesThrough part) role

namespace Node

theorem withoutCasts_cast (location : Location) (expression declaredType : Node) :
    withoutCasts ⟨location, .cast expression declaredType⟩ = expression.withoutCasts := by
  unfold withoutCasts
  rw [fold_eq]
  rfl

theorem withoutCasts_of_not_cast {node : Node} (noCast : node.isCast = false) :
    node.withoutCasts = ⟨node.location, node.shape.map withoutCasts⟩ := by
  rcases node with ⟨location, shape⟩
  unfold withoutCasts
  rw [fold_eq]
  cases shape with
  | cast expression declaredType => cases noCast
  | _ => exact congrArg (Node.mk location) (Shape.map_map _ _ _)

/-- The casts above an expression are dropped one after the other. -/
theorem withoutCasts_underCasts (node : Node) :
    node.underCasts.withoutCasts = node.withoutCasts := by
  fun_induction underCasts node with
  | case1 location expression declaredType ih => rw [ih, withoutCasts_cast]
  | case2 node noCast => rfl

/-- Without its casts, a node is what stood under the casts above it. -/
theorem withoutCasts_eq (node : Node) :
    node.withoutCasts =
      ⟨node.underCasts.location, node.underCasts.shape.map withoutCasts⟩ := by
  rw [← withoutCasts_underCasts, withoutCasts_of_not_cast node.isCast_underCasts]

theorem isCast_withoutCasts (node : Node) : node.withoutCasts.isCast = false := by
  have noCast := node.isCast_underCasts
  rw [withoutCasts_eq]
  unfold isCast at noCast ⊢
  cases found : node.underCasts.shape with
  | cast expression declaredType => rw [found] at noCast; cases noCast
  | _ => rfl

/-- An operand is ranked as it is without its casts. -/
theorem rankOf_withoutCasts (node : Node) (before after : Role → Printer Unit) :
    Printer.rankOf (⟨node, before⟩ : Part) =
      Printer.rankOf (⟨node.withoutCasts, after⟩ : Part) := by
  rw [Printer.rankOf_part, Printer.rankOf_part]
  dsimp only
  rw [underCasts_of_not_cast node.isCast_withoutCasts, withoutCasts_eq,
    Printer.operatorPattern?_map]

theorem castsUnseen_eq (location : Location) (shape : Shape Node) (role : Role) :
    castsUnseen ⟨location, shape⟩ role =
      (shape.questions id location.start role).all fun (question, part) =>
        question.seesThrough ⟨part, part.castsUnseen⟩ := by
  unfold castsUnseen
  rw [fold_eq]
  simp only [Shape.questions_map, List.all_map, Function.comp_def]
  rfl

end Node

namespace Printer

theorem ownRank_underCast (role : Role) (place : Position) (shape : Shape Part) :
    ownRank role place shape = ownRank role.underCast place shape := by
  cases role <;> rfl

/-- A role that does not show is as good as the role under a cast. -/
theorem construct_underCast {Item : Type} (toPart : Item → Part) (location : Location)
    (shape : Shape Item) (role : Role) (unmarked : role.marks shape = false) :
    construct location (shape.map toPart) role =
      construct location (shape.map toPart) role.underCast := by
  have rank (shape : Shape Part) := ownRank_underCast role location.start shape
  cases shape with
  | group form statements =>
      cases form with
      | block =>
          cases role with
          | block prologue =>
              cases prologue with
              | none => rfl
              | some prologue => cases unmarked
          | _ => rfl
      | _ => rfl
  | identifier name type optional =>
      cases role with
      | typeName => cases unmarked
      | memberName => cases unmarked
      | key => cases unmarked
      | parameter => cases unmarked
      | declaredName => cases unmarked
      | _ => rfl
  | function form marks name params body returnType =>
      cases role with
      | method owner isConstructor isAbstract =>
          cases form with
          | declared => rfl
          | arrow => rfl
          | _ => cases unmarked
      | exported =>
          cases form with
          | declaration => cases unmarked
          | _ => rfl
      | _ => cases form <;> rfl
  | classDefinition form marks name superClass implementing body decorators =>
      cases role with
      | exported => cases unmarked
      | _ => rfl
  | unary form operator leading argument => simp only [Shape.map, construct, withOperands, rank]
  | binary form operator left right => simp only [Shape.map, construct, withOperands, rank]
  | conditional test consequent alternate => simp only [Shape.map, construct, withOperands, rank]
  | call form callee arguments optional typeParameters typeArguments =>
      cases form <;> simp only [Shape.map, construct, withOperands, call, rank]
  | member object property computed optional => simp only [Shape.map, construct, withOperands, rank]
  | sequence expressions => simp only [Shape.map, construct, withOperands, rank]
  | spread form argument type =>
      cases form with
      | spread => simp only [Shape.map, construct, withOperands, rank]
      | rest =>
          cases role with
          | parameter => cases unmarked
          | declaredName => cases unmarked
          | _ => rfl
  | assignmentPattern left right =>
      cases role with
      | parameter => cases unmarked
      | declaredName => cases unmarked
      | _ => rfl
  | cast expression type => cases role <;> rfl
  | variableDeclaration declarations kind =>
      cases role with
      | exported => cases unmarked
      | _ => rfl
  | leaf form => cases form <;> rfl
  | _ => rfl

end Printer

namespace Node

/-- The role in which a node without its casts is printed. -/
def strippedRole (node : Node) (role : Role) : Role :=
  if node.isCast then role.underCast else role

/-- A node is printed as it is without its casts, in the role under a cast if it is
one. -/
def PrintsStripped (node : Node) : Prop :=
  ∀ role, node.castsUnseen role = true →
    node.printAs role = node.withoutCasts.printAs (node.strippedRole role)

theorem printAs_of_unmarked {node : Node} (prints : node.PrintsStripped) (role : Role)
    (unmarked : (node.isCast && role.marks node.withoutCasts.shape) = false)
    (unseen : node.castsUnseen role = true) :
    node.printAs role = node.withoutCasts.printAs role := by
  rw [prints role unseen]
  unfold strippedRole
  cases isCast : node.isCast with
  | false => rfl
  | true =>
      rw [isCast, Bool.true_and] at unmarked
      rw [if_pos rfl]
      generalize node.withoutCasts = stripped at unmarked
      rcases stripped with ⟨location, shape⟩
      rw [printAs_eq, printAs_eq]
      exact (Printer.construct_underCast _ location shape role unmarked).symm

theorem methodMarks?_withoutCasts (form : MethodForm) {node : Node}
    (noCast : node.isCast = false) :
    Printer.methodMarks? form node.toPart = Printer.methodMarks? form node.withoutCasts.toPart := by
  rw [withoutCasts_of_not_cast noCast]
  rcases node with ⟨location, shape⟩
  cases shape with
  | function functionForm => cases functionForm <;> cases form <;> rfl
  | _ => rfl

theorem specifier_withoutCasts {node : Node} (noCast : node.isCast = false)
    (unseen : node.castsUnseen .plain = true) :
    Question.specifier.SameAnswer node.toPart node.withoutCasts.toPart := by
  rw [withoutCasts_of_not_cast noCast]
  rcases node with ⟨location, shape⟩
  refine ⟨fun options => ?_, fun clause text => ?_, rfl, (Shape.tag_map _ _).symm⟩
  · rw [castsUnseen_eq] at unseen
    cases shape with
    | importSpecifier imported binding =>
        simp only [Shape.questions, List.all_cons, Question.seesThrough, Bool.and_eq_true,
          decide_eq_true_eq] at unseen
        obtain ⟨sameImported, sameBinding⟩ := unseen
        have bound : binding.bind identifier? =
            (binding.map withoutCasts).bind identifier? := by
          cases binding with
          | none => rfl
          | some binding =>
              simpa [Shape.askedOf, Question.seesThrough] using sameBinding
        simp only [toPart, Shape.map, Options.importedName?, sameImported, bound]
    | importBinding form binding =>
        simp only [Shape.questions, List.all_cons, Question.seesThrough, Bool.and_eq_true,
          decide_eq_true_eq] at unseen
        simp only [toPart, Shape.map, Options.importedName?, unseen.1]
    | _ => rfl
  · cases shape with
    | importBinding form binding => cases form <;> rfl
    | _ => rfl

/-- A part that answers a question through its casts answers it as without them. -/
theorem sameAnswer_of_seesThrough {node : Node} (prints : node.PrintsStripped)
    (question : Question)
    (sees : question.seesThrough ⟨node, node.castsUnseen⟩ = true) :
    question.SameAnswer node.toPart node.withoutCasts.toPart := by
  cases question with
  | printed role =>
      simp only [Question.seesThrough, Bool.and_eq_true, Bool.not_eq_true'] at sees
      exact printAs_of_unmarked prints role sees.1 sees.2
  | operand =>
      refine ⟨rankOf_withoutCasts node _ _, ?_⟩
      refine printAs_of_unmarked prints .ranked ?_ sees
      cases node.isCast <;> rfl
  | methodFunction form =>
      have noCast : node.isCast = false := by simpa [Question.seesThrough] using sees
      refine ⟨methodMarks?_withoutCasts form noCast, ?_⟩
      simp only [toPart, withoutCasts_of_not_cast noCast]
      exact ⟨trivial, (Shape.tag_map _ _).symm⟩
  | specifier =>
      simp only [Question.seesThrough, Bool.and_eq_true, Bool.not_eq_true'] at sees
      exact specifier_withoutCasts sees.1 sees.2
  | _ =>
      simp only [Question.seesThrough, decide_eq_true_eq] at sees
      exact sees

theorem printsStripped (node : Node) : node.PrintsStripped := by
  refine Node.induction (motive := PrintsStripped) ?_ node
  intro location shape role unseen
  rw [castsUnseen_eq, Shape.questions_map, List.all_map, List.all_eq_true] at unseen
  have agree : Printer.Agree (fun part => toPart part.1) (fun part => toPart part.1.withoutCasts)
      (shape.questions Subtype.val location.start role) :=
    fun entry member => sameAnswer_of_seesThrough entry.2.2 entry.1 (unseen entry member)
  have spelled : printAs ⟨location, shape.map Subtype.val⟩ role =
      Printer.construct location (shape.map fun part => toPart part.1) role := by
    rw [printAs_eq, Shape.map_map]
    rfl
  cases isCast : isCast ⟨location, shape.map Subtype.val⟩ with
  | false =>
      rw [strippedRole, isCast, withoutCasts_of_not_cast isCast, Shape.map_map, spelled]
      rw [Printer.construct_exchange location role shape agree, if_neg (by simp), printAs_eq,
        Shape.map_map]
      rfl
  | true =>
      cases shape with
      | cast expression declaredType =>
          -- The cast hands its role on, so only the expression under it is printed.
          have inside := unseen (.printed role.underCast, expression) (by simp [Shape.questions])
          simp only [Function.comp_apply, Prod.map, id, Question.seesThrough,
            Bool.and_eq_true] at inside
          have printed := expression.2 role.underCast inside.2
          have same : expression.1.strippedRole role.underCast = role.underCast := by
            unfold strippedRole
            cases role <;> simp [Role.underCast]
          rw [strippedRole, isCast, if_pos rfl, spelled]
          rw [same] at printed
          simp only [Shape.map, withoutCasts_cast]
          exact printed
      | _ => cases isCast

end Node

/-- Generated code does not change if the casts of a tree are dropped, as long as
no construct looks at a cast without seeing through it. -/
theorem Settings.generate_withoutCasts (settings : Settings) (tree : Node)
    (unseen : tree.castsUnseen .plain = true) :
    settings.generate tree = settings.generate tree.withoutCasts := by
  have printed := tree.printsStripped .plain unseen
  have samePlain : tree.strippedRole .plain = .plain := by
    unfold Node.strippedRole
    split <;> rfl
  rw [generate_eq, generate_eq, printed, samePlain]

/-- A sum taken at another type, as a factor. -/
theorem Settings.generate_withoutCasts_sum :
    Settings.generate {} ⟨{}, .binary .binary "*"
        ⟨{}, .cast ⟨{}, .binary .binary "+" ⟨{}, .identifier "a" none false⟩
          ⟨{}, .identifier "b" none false⟩⟩ ⟨{}, .keywordType .number⟩⟩
        ⟨{}, .identifier "c" none false⟩⟩ =
      Settings.generate {} ⟨{}, .binary .binary "*"
        ⟨{}, .binary .binary "+" ⟨{}, .identifier "a" none false⟩
          ⟨{}, .identifier "b" none false⟩⟩
        ⟨{}, .identifier "c" none false⟩⟩ :=
  Settings.generate_withoutCasts {} _ (by decide)

/-- The construction of what a call gives, taken at another type. -/
def constructedCast : Node :=
  ⟨{}, .call .construction
    ⟨{}, .cast ⟨{}, .call .call ⟨{}, .identifier "f" none false⟩ [] false none none⟩
      ⟨{}, .keywordType .any⟩⟩ [] false none none⟩

/-- Under a cast the called callee of a construction loses its parentheses. -/
theorem Settings.generate_constructedCast :
    Settings.generate {} constructedCast = .ok ⟨"new f()()", []⟩ ∧
      Settings.generate {} constructedCast.withoutCasts = .ok ⟨"new (f())()", []⟩ ∧
      Settings.generate {} constructedCast ≠
        Settings.generate {} constructedCast.withoutCasts := by
  have bare : Settings.generate {} constructedCast = .ok ⟨"new f()()", []⟩ := by rfl
  have enclosed : Settings.generate {} constructedCast.withoutCasts =
      .ok ⟨"new (f())()", []⟩ := by rfl
  refine ⟨bare, enclosed, ?_⟩
  rw [bare, enclosed]
  simp

end ScriptBridge

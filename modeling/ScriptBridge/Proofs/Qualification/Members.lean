import ScriptBridge.Proofs.Balance.Trees
import ScriptBridge.Proofs.Printing.Construct

/-!
# Declared members

A field or a method makes its class know one more member, and nothing else of it
shows in the class: a nested class leaves nothing behind, and other code only
declares names of its functions.  So behind a declaration the class knows what it
knew before, and the new name of the member.
-/

namespace ScriptBridge

/-- At most the innermost function has learned names. -/
structure ScopeStack.KeepsClass (stack later : ScopeStack) : Prop where
  owner : later.top.owner = stack.top.owner
  frames : Frame.Grow stack.top.frames later.top.frames
  inMemberBody : later.top.inMemberBody = stack.top.inMemberBody
  outer : later.outer = stack.outer

namespace ScopeStack.KeepsClass

theorem refl (stack : ScopeStack) : stack.KeepsClass stack :=
  ⟨rfl, .refl _, rfl, rfl⟩

theorem trans {stack middle later : ScopeStack} (before : stack.KeepsClass middle)
    (behind : middle.KeepsClass later) : stack.KeepsClass later :=
  ⟨behind.owner.trans before.owner, before.frames.trans behind.frames,
    behind.inMemberBody.trans before.inMemberBody, behind.outer.trans before.outer⟩

theorem modifyFunction (stack : ScopeStack) {change : FunctionScope → FunctionScope}
    (grows : ∀ function : FunctionScope, function.Grows (change function)) :
    stack.KeepsClass (stack.modifyTop fun scope => scope.modifyFunction change) := by
  obtain ⟨⟨owner, frames, inMemberBody⟩, outer⟩ := stack
  cases frames with
  | nil => exact refl _
  | cons frame rest => exact ⟨rfl, .innermost (grows frame.function), rfl, rfl⟩

theorem declareParam (stack : ScopeStack) (name : String) :
    stack.KeepsClass (stack.declareParam name) :=
  modifyFunction stack fun _ => ⟨rfl, List.prefix_append _ _, List.prefix_rfl⟩

theorem declareLocal (stack : ScopeStack) (name : String) :
    stack.KeepsClass (stack.declareLocal name) :=
  modifyFunction stack fun _ => ⟨rfl, List.prefix_rfl, List.prefix_append _ _⟩

/-- A function that is no method is forgotten when it is left. -/
theorem exitFunction {stack reached : ScopeStack} {name : String}
    (inside : (stack.enterFunction name false false).KeepsClass reached) :
    stack.KeepsClass reached.exitFunction.1 := by
  obtain ⟨⟨owner, frames, inMemberBody⟩, outer⟩ := stack
  obtain ⟨⟨lastOwner, lastFrames, lastMark⟩, lastOuter⟩ := reached
  obtain ⟨sameOwner, grow, sameMark, sameOuter⟩ := inside
  have opened : Frame.Grow (⟨{ name }, false⟩ :: frames) lastFrames := by
    cases owner <;> exact grow
  have keptOwner : lastOwner = owner := by
    cases owner <;> exact sameOwner
  have keptMark : lastMark = inMemberBody := by
    cases owner <;> exact sameMark
  cases opened with
  | innermost => exact ⟨keptOwner, .refl _, keptMark, sameOuter⟩

end ScopeStack.KeepsClass

namespace Printer

variable {settings : Settings} {Result Other : Type}

/-- A printer that leaves the classes around it alone. -/
def KeepsClass (settings : Settings) (printer : Printer Result) : Prop :=
  ∀ state value next, printer.outcome settings state = .ok (value, next) →
    state.scopes.KeepsClass next.scopes

namespace KeepsClass

theorem of_sameScopes {printer : Printer Result}
    (same : ∀ state value next, printer.outcome settings state = .ok (value, next) →
      next.scopes = state.scopes) : KeepsClass settings printer := by
  intro state value next ends
  rw [same state value next ends]
  exact .refl _

theorem pure (value : Result) : KeepsClass settings (Pure.pure value) := by
  apply of_sameScopes
  intro state value next ends
  cases ends
  rfl

theorem bind {printer : Printer Result} {rest : Result → Printer Other}
    (start : KeepsClass settings printer) (behind : ∀ value, KeepsClass settings (rest value)) :
    KeepsClass settings (printer >>= rest) := by
  intro state value next ends
  rw [outcome_bind] at ends
  cases first : printer.outcome settings state with
  | error diagnostic =>
      rw [first] at ends
      cases ends
  | ok reached =>
      rw [first] at ends
      exact (start _ _ _ first).trans (behind reached.1 _ _ _ ends)

theorem modifyScopes {change : ScopeStack → ScopeStack}
    (keeps : ∀ stack : ScopeStack, stack.KeepsClass (change stack)) :
    KeepsClass settings (modifyScopes change) := by
  intro state value next ends
  cases ends
  exact keeps _

theorem textOf {printer : Printer Unit} (inside : KeepsClass settings printer) :
    KeepsClass settings (textOf printer) := by
  intro state value next ends
  rw [outcome_textOf] at ends
  cases inner : printer.outcome settings { state with text := state.text.mark.1 } with
  | error diagnostic =>
      rw [inner] at ends
      cases ends
  | ok reached =>
      rw [inner] at ends
      cases ends
      exact inside { state with text := state.text.mark.1 } reached.1 reached.2 inner

theorem report (problem : Problem) (place : Position) (arguments : List String) :
    KeepsClass settings (report problem place arguments) := by
  apply of_sameScopes
  intro state value next ends
  rw [outcome_report] at ends
  dsimp only at ends
  split at ends
  · cases ends
  · cases ends
    rfl

theorem name (role : Role) (source : String) : KeepsClass settings (name role source) := by
  intro state value next ends
  cases role <;> cases ends
  case parameter => exact .declareParam _ _
  case declaredName => exact .declareLocal _ _
  all_goals exact .refl _

theorem withinFunction (name : String) {printer : Printer Unit}
    (inside : KeepsClass settings printer) :
    KeepsClass settings (withinFunction name false false printer) := by
  intro state value next ends
  simp only [Printer.withinFunction, outcome_bind, outcome_modifyScopes] at ends
  cases inner : printer.outcome settings
      { state with scopes := state.scopes.enterFunction name false false } with
  | error diagnostic =>
      rw [inner] at ends
      cases ends
  | ok reached =>
      rw [inner] at ends
      cases ends
      exact .exitFunction (inside _ _ _ inner)

theorem withinMemberBody {printer : Printer Unit} (inside : KeepsClass settings printer) :
    KeepsClass settings (withinMemberBody printer) := by
  intro state value next ends
  simp only [Printer.withinMemberBody, outcome_bind, outcome_get, outcome_modifyScopes] at ends
  cases inner : printer.outcome settings
      { state with scopes := state.scopes.markMemberBody true } with
  | error diagnostic =>
      rw [inner] at ends
      cases ends
  | ok reached =>
      rw [inner] at ends
      cases ends
      have kept := inside _ _ _ inner
      exact ⟨kept.owner, kept.frames, rfl, kept.outer⟩

/-- A class is forgotten when it is left. -/
theorem withinClass (name : String) (superClass : Option String) {printer : Printer Unit}
    (grows : ∀ state value next, printer.outcome settings state = .ok (value, next) →
      state.scopes.Grows next.scopes) :
    KeepsClass settings (withinClass name superClass printer) := by
  apply of_sameScopes
  intro state value next ends
  simp only [Printer.withinClass, outcome_bind, outcome_modifyScopes] at ends
  cases inner : printer.outcome settings
      { state with scopes := state.scopes.enterClass name superClass } with
  | error diagnostic =>
      rw [inner] at ends
      cases ends
  | ok reached =>
      rw [inner] at ends
      cases ends
      exact (grows _ _ _ inner).exitClass_eq

/-- Leaving classes alone is carried through every construct that declares no class
and no member. -/
theorem isCongruence (settings : Settings) :
    LocalCongruence fun {Result} (printer _ : Printer Result) => KeepsClass settings printer where
  pure := pure
  bind := bind
  modifyText _ := of_sameScopes fun _ _ _ ends => by cases ends; rfl
  modifyTypes _ := of_sameScopes fun _ _ _ ends => by cases ends; rfl
  length := of_sameScopes fun _ _ _ ends => by cases ends; rfl
  textOf := textOf
  report := report
  options _ _ behind := bind (of_sameScopes fun _ _ _ ends => by cases ends; rfl) behind
  name := name
  declaredName := name .declaredName
  declareLocal name := modifyScopes fun stack => .declareLocal stack name
  withinFunction name _ _ := withinFunction name
  withinMemberBody := withinMemberBody

end KeepsClass

end Printer

/-- Whether a shape is a field or a method. -/
def Shape.isMember {Part : Type} : Shape Part → Bool
  | .classProperty .. => true
  | .method .. => true
  | _ => false

/-- The parts of a shape; of a class those that are printed outside of its body. -/
def Shape.outerParts {Part : Type} : Shape Part → List Part
  | .classDefinition _ _ _ superClass implementing _ _ => superClass.toList ++ implementing
  | other => other.parts

theorem Shape.declaresMembers_map {Part Other : Type} (change : Part → Other)
    (shape : Shape Part) : (shape.map change).declaresMembers = shape.declaresMembers := by
  cases shape <;> rfl

theorem Shape.outerParts_map {Part Other : Type} (change : Part → Other) (shape : Shape Part) :
    (shape.map change).outerParts = shape.outerParts.map change := by
  have ofParts := Shape.parts_map change shape
  cases shape
  case classDefinition form marks name superClass implementing body decorators =>
    cases superClass <;> simp [Shape.map, outerParts]
  all_goals exact ofParts

theorem Shape.mem_parts_of_outer {Part : Type} {part : Part} {shape : Shape Part}
    (isOuter : part ∈ shape.outerParts) : part ∈ shape.parts := by
  cases shape
  case classDefinition form marks name superClass implementing body decorators =>
    simp only [outerParts, List.mem_append] at isOuter
    simp only [Shape.parts, List.mem_append]
    tauto
  all_goals exact isOuter

namespace Node

/-- A node and every node that is kept in it outside of the classes in it. -/
def outsideClasses : Node → List Node :=
  fold fun location shape =>
    ⟨location, shape.map (·.node)⟩ :: shape.outerParts.flatMap (·.result)

theorem outsideClasses_eq (node : Node) :
    node.outsideClasses = node :: node.shape.outerParts.flatMap outsideClasses := by
  obtain ⟨location, shape⟩ := node
  have whole : shape.map
      ((·.node) ∘ fun part => (⟨part, part.outsideClasses⟩ : Folded (List Node))) = shape :=
    Shape.map_id shape
  rw [outsideClasses, fold_eq, Shape.map_map, Shape.outerParts_map, List.flatMap_map,
    ← outsideClasses, whole]

/-- Every field and method in a tree stands in a class of the tree. -/
def HidesNoMember (node : Node) : Prop :=
  ∀ part ∈ node.outsideClasses, part.shape.isMember = false

instance (node : Node) : Decidable node.HidesNoMember :=
  List.decidableBAll (fun part : Node => part.shape.isMember = false) node.outsideClasses

theorem hidesNoMember_iff {node : Node} :
    node.HidesNoMember ↔
      node.shape.isMember = false ∧ ∀ part ∈ node.shape.outerParts, part.HidesNoMember := by
  unfold HidesNoMember
  rw [outsideClasses_eq]
  simp only [List.forall_mem_cons, List.forall_mem_flatMap]

/-- No class, field or method stands in a tree. -/
def DeclaresNoMembers (node : Node) : Prop :=
  ∀ part ∈ node.stored, part.shape.declaresMembers = false

instance (node : Node) : Decidable node.DeclaresNoMembers :=
  List.decidableBAll (fun part : Node => part.shape.declaresMembers = false) node.stored

theorem declaresNoMembers_iff {node : Node} :
    node.DeclaresNoMembers ↔
      node.shape.declaresMembers = false ∧ ∀ part ∈ node.shape.parts, part.DeclaresNoMembers := by
  unfold DeclaresNoMembers
  rw [stored_eq]
  simp only [List.forall_mem_cons, List.forall_mem_flatMap]

theorem DeclaresNoMembers.hidesNoMember (node : Node) :
    node.DeclaresNoMembers → node.HidesNoMember := by
  induction node using parts_induction with
  | step node ih =>
      intro declares
      obtain ⟨own, inside⟩ := declaresNoMembers_iff.mp declares
      refine hidesNoMember_iff.mpr ⟨?_, fun part isOuter => ?_⟩
      · cases isShape : node.shape with
        | classProperty => simp [isShape, Shape.declaresMembers] at own
        | method => simp [isShape, Shape.declaresMembers] at own
        | _ => rfl
      · have isPart := Shape.mem_parts_of_outer isOuter
        exact ih part isPart (inside part isPart)

end Node

/-- A printed tree has only made names known in the scopes around it. -/
theorem Node.scopes_grow {settings : Settings} {node : Node} {role : Role}
    {state next : PrinterState} {value : Unit}
    (ends : (node.printAs role).outcome settings state = .ok (value, next)) :
    state.scopes.Grows next.scopes := by
  have balanced : Part.Balanced settings False ⟨node, node.printAs⟩ :=
    node.balanced False.elim False.elim
  have stands : state.Stands False ⟨state.text.level, []⟩ :=
    ⟨rfl, False.elim, False.elim, False.elim⟩
  obtain ⟨later, -⟩ :=
    balanced.leads state _ role False.elim state value next (.refl state) stands ends
  exact later.scopes

/-- A class leaves the classes around it alone if its parts outside of its body do. -/
theorem Printer.KeepsClass.classDefinition {settings : Settings} (role : Role) (place : Position)
    (marks : ClassMarks) (name : Option Node) {superClass : Option Node}
    {implementing : List Node} (body : Node) (decorators : List Node)
    (ofSuper : ∀ part, superClass = some part → ∀ role, KeepsClass settings (part.printAs role))
    (ofImplementing : ∀ part ∈ implementing, ∀ role, KeepsClass settings (part.printAs role)) :
    let toPart (node : Node) : Part := ⟨node, node.printAs⟩
    KeepsClass settings (Printer.classDefinition role place marks (name.map toPart)
      (superClass.map toPart) (implementing.map toPart) (toPart body)
      (decorators.map toPart)) := by
  intro toPart
  have closed := (isCongruence settings).toCongruence
  let twin (node : Node) (kept : ∀ role, KeepsClass settings (node.printAs role)) :
      Twin fun {Result} (printer _ : Printer Result) => KeepsClass settings printer :=
    ⟨node, node.printAs, node.printAs, kept⟩
  have inside (className : String) (superName : Option String) :
      KeepsClass settings (Printer.withinClass className superName (toPart body).print) :=
    withinClass className superName fun _ _ _ => Node.scopes_grow
  have related := @Congruence.classDefinition _ closed role place marks (name.map toPart)
    (name.map toPart) (superClass.pmap twin ofSuper) (implementing.pmap twin ofImplementing)
    (toPart body) (toPart body) (decorators.map toPart) (decorators.map toPart) rfl rfl
    fun className => inside className _
  have sameSuper : (superClass.pmap twin ofSuper).map Twin.first = superClass.map toPart := by
    rw [Option.map_pmap]
    exact Option.pmap_eq_map _ toPart _ _
  have sameImplementing :
      (implementing.pmap twin ofImplementing).map Twin.first = implementing.map toPart := by
    rw [List.map_pmap]
    exact List.pmap_eq_map (f := toPart) ofImplementing
  rw [sameSuper, sameImplementing] at related
  exact related

/-- A tree whose members stand in its own classes is printed by a printer that leaves
the classes around it alone. -/
theorem Node.keepsClass_of_hides (settings : Settings) (node : Node) :
    node.HidesNoMember → ∀ role, Printer.KeepsClass settings (node.printAs role) := by
  induction node using parts_induction with
  | step node ih =>
      intro hides role
      have closed := Printer.KeepsClass.isCongruence settings
      obtain ⟨location, shape⟩ := node
      obtain ⟨own, inside⟩ := hidesNoMember_iff.mp hides
      have kept : ∀ part ∈ shape.outerParts,
          ∀ role, Printer.KeepsClass settings (part.printAs role) := fun part isOuter =>
        ih part (Shape.mem_parts_of_outer isOuter) (inside part isOuter)
      rw [printAs_eq]
      cases isClass : shape.declaresMembers with
      | false =>
          have leaf : ∀ role, Printer.KeepsClass settings
              (Node.printAs ⟨{}, .leaf .empty⟩ role) := fun role => .pure ()
          have allKept : ∀ part ∈ shape.parts,
              ∀ role, Printer.KeepsClass settings (part.printAs role) := by
            cases shape
            case classDefinition => cases isClass
            all_goals exact kept
          obtain ⟨lifted, rfl⟩ := Shape.exists_lift ⟨_, leaf⟩ allKept
          let twins : Shape (Printer.Twin fun {Result} (printer _ : Printer Result) =>
              Printer.KeepsClass settings printer) :=
            lifted.map fun part => ⟨part.1, part.1.printAs, part.1.printAs, part.2⟩
          have related := closed.construct location twins role
            ((Shape.declaresMembers_map _ _).trans
              ((Shape.declaresMembers_map _ _).symm.trans isClass))
          rw [Shape.map_map] at related
          rw [Shape.map_map]
          exact related
      | true =>
          cases shape
          case classDefinition form marks name superClass implementing body decorators =>
            simp only [Shape.outerParts, List.forall_mem_append, Option.mem_toList] at kept
            exact .classDefinition role location.start marks name body decorators kept.1 kept.2
          case classProperty => cases own
          case method => cases own
          all_goals cases isClass

/-- A tree without members is printed by a printer that leaves classes alone. -/
theorem Node.keepsClass (settings : Settings) (node : Node) (declares : node.DeclaresNoMembers) :
    ∀ role, Printer.KeepsClass settings (node.printAs role) :=
  node.keepsClass_of_hides settings declares.hidesNoMember

/-! ## The name of a member -/

namespace ClassScope

variable {known later : ClassScope} {name : String} {isStatic : Bool}

/-- A class knows one more member than before. -/
structure Learned (known later : ClassScope) (added : String) (isStatic : Bool) : Prop where
  name : later.name = known.name
  superClass : later.superClass = known.superClass
  members : ∀ other, later.hasMember other = (known.hasMember other || decide (other = added))
  statics : ∀ other, later.statics.contains other =
    (known.statics.contains other || (isStatic && decide (other = added)))

theorem name_addStatic (known : ClassScope) (name : String) (isStatic : Bool) :
    (known.addStatic name isStatic).name = known.name := by
  unfold addStatic
  split <;> rfl

theorem superClass_addStatic (known : ClassScope) (name : String) (isStatic : Bool) :
    (known.addStatic name isStatic).superClass = known.superClass := by
  unfold addStatic
  split <;> rfl

theorem properties_addStatic (known : ClassScope) (name : String) (isStatic : Bool) :
    (known.addStatic name isStatic).properties = known.properties := by
  unfold addStatic
  split <;> rfl

theorem Learned.addProperty (known : ClassScope) (name : String) (isStatic : Bool) :
    known.Learned (known.addProperty name isStatic) name isStatic where
  name := name_addStatic _ _ _
  superClass := superClass_addStatic _ _ _
  members other := hasMember_addProperty known name other isStatic
  statics other := contains_statics_addStatic _ name other isStatic

/-- A method is known from its function on, and once more behind it. -/
theorem Learned.method (known : ClassScope) (name : String) (isStatic : Bool)
    {function : FunctionScope} (sameName : function.name = name) :
    known.Learned (((known.putMethod { name }).addStatic name isStatic).putMethod function) name
      isStatic where
  name := name_addStatic _ _ _
  superClass := superClass_addStatic _ _ _
  members other := by
    rw [hasMember_putMethod, hasMember_addStatic, hasMember_putMethod, sameName, Bool.or_assoc,
      Bool.or_self]
  statics other := contains_statics_addStatic _ name other isStatic

end ClassScope

/-- What a class knows when a method is left: the method was noted when it was entered,
and is noted again with the names that its function has bound. -/
def ClassScope.GainsMethod (name : String) (isStatic : Bool) (known later : ClassScope) : Prop :=
  ∃ function : FunctionScope, function.name = name ∧
    later = ((known.putMethod { name }).addStatic name isStatic).putMethod function

namespace Printer

variable {settings : Settings} {Result Other : Type}
variable {taught first second : ClassScope → ClassScope → Prop}

/-- Behind the printer the class around it stands in a relation to what it was. -/
def Teaches (settings : Settings) (taught : ClassScope → ClassScope → Prop)
    (printer : Printer Result) : Prop :=
  ∀ state value next known, printer.outcome settings state = .ok (value, next) →
    state.scopes.top.owner = some known →
      ∃ later, next.scopes.top.owner = some later ∧ taught known later

namespace Teaches

theorem mono {printer : Printer Result} (teaches : Teaches settings first printer)
    (weaker : ∀ known later, first known later → second known later) :
    Teaches settings second printer := by
  intro state value next known ends isKnown
  obtain ⟨later, isLater, holds⟩ := teaches state value next known ends isKnown
  exact ⟨later, isLater, weaker known later holds⟩

theorem of_keepsClass {printer : Printer Result} (keeps : KeepsClass settings printer)
    (same : ∀ known, taught known known) : Teaches settings taught printer :=
  fun _ _ _ known ends isKnown =>
    ⟨known, (keeps _ _ _ ends).owner.trans isKnown, same known⟩

theorem bind {printer : Printer Result} {rest : Result → Printer Other}
    (start : Teaches settings first printer)
    (goesOn : ∀ value, Teaches settings second (rest value))
    (joins : ∀ known middle later, first known middle → second middle later →
      taught known later) :
    Teaches settings taught (printer >>= rest) := by
  intro state value next known ends isKnown
  rw [outcome_bind] at ends
  cases reached : printer.outcome settings state with
  | error diagnostic =>
      rw [reached] at ends
      cases ends
  | ok result =>
      rw [reached] at ends
      obtain ⟨middle, isMiddle, before⟩ := start _ _ _ known reached isKnown
      obtain ⟨later, isLater, behind⟩ := goesOn result.1 _ _ _ middle ends isMiddle
      exact ⟨later, isLater, joins known middle later before behind⟩

theorem behind {printer : Printer Result} {rest : Result → Printer Other}
    (start : KeepsClass settings printer)
    (teaches : ∀ value, Teaches settings taught (rest value)) :
    Teaches settings taught (printer >>= rest) := by
  refine bind (of_keepsClass start fun _ => Eq.refl _) teaches ?_
  rintro known _ later rfl holds
  exact holds

theorem before {printer : Printer Result} {rest : Result → Printer Other}
    (teaches : Teaches settings taught printer)
    (goesOn : ∀ value, KeepsClass settings (rest value)) :
    Teaches settings taught (printer >>= rest) := by
  refine bind teaches (fun value => of_keepsClass (goesOn value) fun _ => Eq.refl _) ?_
  rintro known middle _ holds rfl
  exact holds

/-- A question that the settings answer comes first. -/
theorem asking {question : Printer Other} {rest : Other → Printer Result} {answer : Other}
    (asks : ∀ state, question.outcome settings state = .ok (answer, state))
    (teaches : Teaches settings taught (rest answer)) :
    Teaches settings taught (question >>= rest) := by
  intro state value next known ends isKnown
  rw [outcome_bind, asks] at ends
  exact teaches state value next known ends isKnown

/-- A field without a name is not noted. -/
theorem property (name : Option String) (isStatic : Bool) :
    Teaches settings
      (fun known later => later = name.elim known fun name => known.addProperty name isStatic)
      (whenPresent name fun name =>
        modifyScopes fun scopes => scopes.declareProperty name isStatic) := by
  intro state value next known ends isKnown
  cases name with
  | none =>
      cases ends
      exact ⟨known, isKnown, rfl⟩
  | some name =>
      cases ends
      exact ⟨known.addProperty name isStatic, congrArg (Option.map _) isKnown, rfl⟩

theorem withinMethod (name : String) (isStatic : Bool) {printer : Printer Unit}
    (inside : KeepsClass settings printer) :
    Teaches settings (ClassScope.GainsMethod name isStatic)
      (withinFunction name true isStatic printer) := by
  intro state value next known ends isKnown
  have opened : state.scopes.enterFunction name true isStatic = state.scopes.modifyTop
      fun scope => { scope with
        owner := some ((known.putMethod { name }).addStatic name isStatic)
        frames := ⟨{ name }, true⟩ :: scope.frames } := by
    simp only [ScopeStack.enterFunction, ScopeStack.modifyTop, Scope.openFunction, isKnown]
  simp only [Printer.withinFunction, outcome_bind, outcome_modifyScopes, opened] at ends
  cases inner : printer.outcome settings { state with
      scopes := state.scopes.modifyTop fun scope => { scope with
        owner := some ((known.putMethod { name }).addStatic name isStatic)
        frames := ⟨{ name }, true⟩ :: scope.frames } } with
  | error diagnostic =>
      rw [inner] at ends
      cases ends
  | ok reached =>
      rw [inner] at ends
      cases ends
      obtain ⟨sameOwner, grow, -, -⟩ := inside _ _ _ inner
      obtain ⟨value, reached⟩ := reached
      obtain ⟨role, text, ⟨⟨owner, frames, inMemberBody⟩, outer⟩, types, diagnostics⟩ := reached
      cases grow with
      | innermost grows =>
          exact ⟨_, congrArg (Option.map _) sameOwner, _, grows.name, rfl⟩

end Teaches

end Printer

/-- What the class learns of a field. -/
theorem Node.teaches_classProperty (settings : Settings) {location : Location}
    {marks : PropertyMarks} {key : Node} {value type : Option Node} {decorators : List Node}
    (kept : ∀ part ∈ Shape.parts (.classProperty marks key value type decorators), ∀ role,
      Printer.KeepsClass settings (part.printAs role)) (role : Role) :
    Printer.Teaches settings
      (fun known later => later =
        (key.identifier?.map settings.options.renameIdentifier).elim known fun name =>
          known.addProperty name marks.static)
      (Node.printAs ⟨location, .classProperty marks key value type decorators⟩ role) := by
  have closed := Printer.KeepsClass.isCongruence settings
  have typed : Printer.KeepsClass settings
      (Printer.declaredType (type.map fun part => ⟨part, part.printAs⟩)) := by
    cases type with
    | none => exact closed.pure ()
    | some type =>
        exact .bind (closed.write ": ") fun _ => kept type (by simp [Shape.parts]) .plain
  have valued : Printer.KeepsClass settings
      (Printer.whenPresent (value.map fun part => ⟨part, part.printAs⟩) fun part => do
        Printer.write " = "
        Folded.print part) := by
    cases value with
    | none => exact closed.pure ()
    | some value =>
        exact .bind (closed.write " = ") fun _ => kept value (by simp [Shape.parts]) .plain
  rw [printAs_eq]
  change Printer.Teaches settings _ (Printer.classProperty _ _ _ _ _ _)
  unfold Printer.classProperty
  iterate 5 refine .behind (closed.unsupportedIf _ _ _) fun _ => ?_
  refine .behind (closed.accessibility _) fun _ => ?_
  refine .behind (closed.writeIf _ _) fun _ => ?_
  refine .behind (closed.writeIf _ _) fun _ => ?_
  refine .behind (kept key (by simp [Shape.parts]) .key) fun _ => ?_
  refine .asking (Printer.outcome_partName? _) ?_
  refine .before (.property _ _) fun _ => ?_
  exact .bind typed fun _ => .bind valued fun _ => closed.write ";"

/-- What the class learns of a method that is a function. -/
theorem Node.teaches_method (settings : Settings) {location : Location} {form : MethodForm}
    {marks : MethodMarks} {key value : Node}
    (isFunction : Printer.methodMarks? form ⟨value, value.printAs⟩ ≠ none)
    (kept : ∀ role, Printer.KeepsClass settings (value.printAs role)) (role : Role) :
    Printer.Teaches settings
      (fun known later =>
        match Printer.methodNameIn settings marks.kind key with
        | some name => known.GainsMethod name marks.static later
        | none => later = known)
      (Node.printAs ⟨location, .method form marks key value⟩ role) := by
  have closed := Printer.KeepsClass.isCongruence settings
  obtain ⟨function, isMarks⟩ := Option.ne_none_iff_exists'.mp isFunction
  rw [printAs_eq]
  change Printer.Teaches settings _ (Printer.method _ _ _ _ _)
  unfold Printer.method
  refine .behind (closed.unsupportedIf _ _ _) fun _ => ?_
  dsimp only
  rw [isMarks]
  refine .behind (closed.unsupportedIf _ _ _) fun _ => ?_
  refine .behind (closed.unsupportedIf _ _ _) fun _ => ?_
  refine .asking (Printer.outcome_methodName? _ _) ?_
  dsimp only
  cases Printer.methodNameIn settings marks.kind key with
  | none => exact .of_keepsClass (closed.missing _ _) fun _ => rfl
  | some name =>
      refine .behind (closed.accessibility _) fun _ => ?_
      refine .behind (closed.writeIf _ _) fun _ => ?_
      refine .behind (closed.writeIf _ _) fun _ => ?_
      refine .behind (closed.write _) fun _ => ?_
      refine .behind (closed.write _) fun _ => ?_
      exact .withinMethod _ _ (kept _)

/-- The name of a field or method as it is written, and whether the member is static.
A constructor has no name of its own, and no method comes of a value that is not a
function. -/
def Node.memberKey? (member : Node) : Option (String × Bool) :=
  match member.shape with
  | .classProperty marks key _ _ _ => key.identifier?.map fun name => (name, marks.static)
  | .method form marks key value =>
      if marks.kind = .constructor ∨ Printer.methodMarks? form ⟨value, value.printAs⟩ = none then
        none
      else (key.identifier?.filter (· ≠ "constructor")).map fun name => (name, marks.static)
  | _ => none

/-- A field or method without classes inside declares its new name, and no other. -/
theorem Node.declares_member (settings : Settings) {member : Node} {key : String}
    {isStatic : Bool} (named : member.memberKey? = some (key, isStatic))
    (inside : ∀ part ∈ member.shape.parts, part.DeclaresNoMembers) (role : Role) :
    Printer.Teaches settings
      (fun known later =>
        known.Learned later (settings.options.renameIdentifier key) isStatic)
      (member.printAs role) := by
  have kept : ∀ part ∈ member.shape.parts, ∀ role, Printer.KeepsClass settings
      (part.printAs role) := fun part isPart => part.keepsClass settings (inside part isPart)
  obtain ⟨location, shape⟩ := member
  cases shape
  case classProperty marks keyNode value type decorators =>
    obtain ⟨source, isKey, same⟩ := Option.map_eq_some_iff.mp named
    cases same
    refine (Node.teaches_classProperty settings kept role).mono ?_
    rintro known _ rfl
    rw [isKey]
    exact .addProperty known _ _
  case method form marks keyNode value =>
    change (if _ then none else _) = _ at named
    split at named
    · cases named
    · next isDeclared =>
      obtain ⟨notConstructor, isFunction⟩ := not_or.mp isDeclared
      obtain ⟨source, isKey, same⟩ := Option.map_eq_some_iff.mp named
      cases same
      have isName : Printer.methodNameIn settings marks.kind keyNode =
          some (settings.options.renameIdentifier key) := by
        rw [Printer.methodNameIn, if_neg notConstructor, (Option.filter_eq_some_iff.mp isKey).1]
        rfl
      refine (Node.teaches_method settings isFunction
        (kept value (by simp [Shape.parts])) role).mono ?_
      intro known later
      rw [isName]
      rintro ⟨function, sameName, rfl⟩
      exact .method known _ _ sameName
  all_goals cases named

end ScriptBridge

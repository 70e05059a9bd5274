import ScriptBridge.Proofs.Qualification.Ancestors
import ScriptBridge.Proofs.Qualification.Inherited

/-!
# The entry of a class itself

While the code of a class is generated, the index is only asked for the members of its
ancestors.  So the entry of the class itself does not matter, unless the class is met
again among the entries of its ancestors: the index knows classes by their simple names,
and a class may extend one of the same name from another package.
-/

namespace ScriptBridge

/-- The same settings with another index. -/
def Settings.withIndex (settings : Settings) (index : MemberIndex) : Settings :=
  { settings with index := some index }

/-- The superclass of the class around a scope. -/
def Scope.superClass? (scope : Scope) : Option String :=
  scope.owner.bind (·.superClass)

namespace Scope

variable (scope : Scope)

theorem superClass?_of_grows {owner other : Option ClassScope}
    (grows : Option.Rel ClassScope.Grows owner other) :
    other.bind (·.superClass) = owner.bind (·.superClass) := by
  cases grows with
  | none => rfl
  | some grows => exact grows.superClass

theorem superClass?_modifyFunction (change : FunctionScope → FunctionScope) :
    (scope.modifyFunction change).superClass? = scope.superClass? := by
  unfold modifyFunction
  split <;> rfl

theorem superClass?_openFunction (name : String) (isMethod isStatic : Bool) :
    (scope.openFunction name isMethod isStatic).superClass? = scope.superClass? := by
  obtain ⟨owner, isMember, grows, opened⟩ :=
    Scope.Grows.openFunction_eq scope name isMethod isStatic
  rw [opened]
  exact superClass?_of_grows grows

theorem superClass?_closeFunction : scope.closeFunction.superClass? = scope.superClass? := by
  obtain ⟨owner, frames, inMemberBody⟩ := scope
  cases frames with
  | nil => rfl
  | cons frame rest =>
      obtain ⟨function, isMethod⟩ := frame
      cases isMethod with
      | false => rfl
      | true =>
          exact superClass?_of_grows (ClassScope.Grows.map_option owner fun owner =>
            .putMethod owner function)

theorem superClass?_addProperty (name : String) (isStatic : Bool) :
    Scope.superClass? { scope with
      owner := scope.owner.map fun owner => owner.addProperty name isStatic } =
        scope.superClass? :=
  superClass?_of_grows (ClassScope.Grows.map_option scope.owner fun owner =>
    .addProperty owner name isStatic)

/-- The index is only asked for what is inherited from the superclass. -/
theorem qualifier_congr {index other : MemberIndex} {name : String}
    (same : ∀ superClass, scope.superClass? = some superClass →
      index.inherits superClass name = other.inherits superClass name) :
    scope.qualifier (some index) name = scope.qualifier (some other) name := by
  obtain ⟨owner, frames, inMemberBody⟩ := scope
  cases owner with
  | none => rfl
  | some owner =>
      have sameOffers : owner.offers (some index) name = owner.offers (some other) name := by
        unfold ClassScope.offers
        cases isSuper : owner.superClass with
        | none => rfl
        | some superClass => simp only [same superClass isSuper]
      rw [qualifier_eq, qualifier_eq]
      simp only [Option.bind_some, sameOffers]

end Scope

/-- All classes around a place have superclasses of some kind, if they have any. -/
def ScopeStack.Extending (permitted : String → Prop) (stack : ScopeStack) : Prop :=
  ∀ scope ∈ stack.top :: stack.outer, ∀ superClass,
    scope.superClass? = some superClass → permitted superClass

namespace ScopeStack.Extending

variable {permitted : String → Prop} {stack : ScopeStack}

theorem modifyTop (extending : stack.Extending permitted) {change : Scope → Scope}
    (keeps : ∀ scope : Scope, (change scope).superClass? = scope.superClass?) :
    (stack.modifyTop change).Extending permitted := by
  intro scope isScope superClass isSuper
  rcases List.mem_cons.mp isScope with rfl | isOuter
  · have wasSuper : stack.top.superClass? = some superClass := (keeps stack.top).symm.trans isSuper
    exact extending stack.top List.mem_cons_self superClass wasSuper
  · exact extending scope (List.mem_cons_of_mem _ isOuter) superClass isSuper

theorem enterClass (extending : stack.Extending permitted) (name : String)
    {superClass : Option String}
    (isPermitted : ∀ superName, superClass = some superName → permitted superName) :
    (stack.enterClass name superClass).Extending permitted := by
  intro scope isScope superName isSuper
  rcases List.mem_cons.mp isScope with rfl | isOuter
  · exact isPermitted superName isSuper
  · exact extending scope isOuter superName isSuper

theorem exitClass (extending : stack.Extending permitted) :
    stack.exitClass.1.Extending permitted := by
  obtain ⟨top, outer⟩ := stack
  cases outer with
  | nil => exact extending
  | cons below rest => exact fun scope isScope => extending scope (List.mem_cons_of_mem _ isScope)

end ScopeStack.Extending

/-- Equal states within classes whose superclasses are of some kind. -/
def PrinterState.SameExtending (permitted : String → Prop) (state other : PrinterState) : Prop :=
  state = other ∧ state.scopes.Extending permitted

namespace Printer

variable {settings : Settings} {Result : Type} {permitted : String → Prop}
variable {index other : MemberIndex}

/-- A printer that works with another index. -/
def underIndex (index : MemberIndex) (printer : Printer Result) : Printer Result :=
  fun settings => printer (settings.withIndex index)

/-- Two printers come to the same, the first with one index and the second with another. -/
abbrev SameUnder (settings : Settings) (index other : MemberIndex) (permitted : String → Prop)
    (first second : Printer Result) : Prop :=
  Simulates settings (PrinterState.SameExtending permitted)
    (PrinterState.SameExtending permitted) (underIndex index first) (underIndex other second)

theorem options_withIndex (settings : Settings) (index : MemberIndex) :
    (settings.withIndex index).options = settings.options :=
  rfl

theorem outcome_underIndex (printer : Printer Result) (state : PrinterState) :
    (underIndex index printer).outcome settings state =
      printer.outcome (settings.withIndex index) state :=
  rfl

theorem underIndex_report (problem : Problem) (place : Position) (arguments : List String) :
    underIndex index (report problem place arguments) = report problem place arguments := by
  apply ext_outcome
  intro settings state
  change (report problem place arguments).outcome (settings.withIndex index) state = _
  rw [outcome_report, outcome_report]
  rfl

namespace SameUnder

theorem tolerant (permitted : String → Prop) :
    Tolerant (PrinterState.SameExtending permitted) where
  sameText := by
    rintro state _ ⟨rfl, extending⟩
    rfl
  withText := by
    rintro state _ text ⟨rfl, extending⟩
    exact ⟨rfl, extending⟩
  withProblem := by
    rintro state _ diagnostic isProblem ⟨rfl, extending⟩
    exact ⟨rfl, extending⟩

theorem modifyScopes {change : ScopeStack → ScopeStack}
    (keeps : ∀ stack : ScopeStack, stack.Extending permitted →
      (change stack).Extending permitted) :
    SameUnder settings index other permitted (modifyScopes change) (modifyScopes change) :=
  Simulates.ofChanges _ _ fun state _ same => by
    obtain ⟨rfl, extending⟩ := same
    exact ⟨rfl, keeps _ extending⟩

theorem congruence (settings : Settings) (index other : MemberIndex)
    (permitted : String → Prop) :
    Congruence fun {Result} (first second : Printer Result) =>
      SameUnder settings index other permitted first second :=
  have base : TextCongruence fun {Result} (first second : Printer Result) =>
      Simulates settings (PrinterState.SameExtending permitted)
        (PrinterState.SameExtending permitted) first second :=
    Simulates.textCongruence (tolerant permitted)
  { pure := fun value => base.pure value
    bind := fun start rest => base.bind start rest
    modifyText := base.modifyText
    length := base.length
    textOf := fun inside => base.textOf inside
    report := fun problem place arguments => by
      unfold SameUnder
      rw [underIndex_report, underIndex_report]
      exact base.report problem place arguments
    options := fun _ _ rest => fun state other same => rest settings.options state other same
    modifyTypes := fun change => Simulates.ofChanges _ _ fun state _ same => by
      obtain ⟨rfl, extending⟩ := same
      exact ⟨rfl, extending⟩ }

theorem between {opened closed : ScopeStack → ScopeStack} {first second : Printer Unit}
    (opens : ∀ stack : ScopeStack, stack.Extending permitted → (opened stack).Extending permitted)
    (inside : SameUnder settings index other permitted first second)
    (closes : ∀ stack : ScopeStack, stack.Extending permitted →
      (closed stack).Extending permitted) :
    SameUnder settings index other permitted
      (do Printer.modifyScopes opened; first; Printer.modifyScopes closed)
      (do Printer.modifyScopes opened; second; Printer.modifyScopes closed) :=
  have linked := congruence settings index other permitted
  linked.andThen (modifyScopes opens) (linked.andThen inside (modifyScopes closes))

theorem withinFunction (name : String) (isMethod isStatic : Bool) {first second : Printer Unit}
    (inside : SameUnder settings index other permitted first second) :
    SameUnder settings index other permitted (withinFunction name isMethod isStatic first)
      (withinFunction name isMethod isStatic second) :=
  between
    (fun _ extending => extending.modifyTop fun scope =>
      scope.superClass?_openFunction name isMethod isStatic)
    inside (fun _ extending => extending.modifyTop Scope.superClass?_closeFunction)

theorem withinMemberBody {first second : Printer Unit}
    (inside : SameUnder settings index other permitted first second) :
    SameUnder settings index other permitted (withinMemberBody first)
      (withinMemberBody second) := by
  have marking (active : Bool) (stack : ScopeStack) (extending : stack.Extending permitted) :
      (stack.markMemberBody active).Extending permitted :=
    extending.modifyTop fun _ => rfl
  rintro state _ ⟨rfl, extending⟩
  exact between (marking true) inside (marking state.scopes.top.inMemberBody) state state
    ⟨rfl, extending⟩

/-- Names are printed alike if both indices know the same of the superclasses. -/
theorem name
    (agree : ∀ superClass, permitted superClass → ∀ source,
      index.inherits superClass (settings.options.renameIdentifier source) =
        other.inherits superClass (settings.options.renameIdentifier source))
    (role : Role) (source : String) :
    SameUnder settings index other permitted (name role source) (name role source) := by
  have linked := congruence settings index other permitted
  let renamed := settings.options.renameIdentifier source
  let type := settings.options.renameType renamed
  have declaring (change : FunctionScope → FunctionScope) :=
    linked.andThen
      (modifyScopes fun _ extending =>
        extending.modifyTop fun scope => scope.superClass?_modifyFunction change)
      (linked.write renamed)
  rintro state _ ⟨rfl, extending⟩
  rw [outcome_underIndex, outcome_underIndex]
  by_cases bare : role.isBare
  · have sameReceiver : state.scopes.qualifier (settings.withIndex index).index renamed =
        state.scopes.qualifier (settings.withIndex other).index renamed :=
      state.scopes.top.qualifier_congr fun superClass isSuper =>
        agree superClass (extending _ List.mem_cons_self superClass isSuper) source
    rw [outcome_name bare, outcome_name bare, options_withIndex, options_withIndex, sameReceiver]
    exact linked.andThen (linked.write _) (linked.write renamed) state state ⟨rfl, extending⟩
  · cases role
    case typeName =>
        rw [outcome_name_typeName, outcome_name_typeName, options_withIndex, options_withIndex]
        exact linked.andThen (linked.modifyTypes fun types => types.record type)
          (linked.write type) state state ⟨rfl, extending⟩
    case parameter =>
        rw [outcome_name_parameter, outcome_name_parameter, options_withIndex, options_withIndex]
        exact declaring (fun function => { function with params := function.params ++ [renamed] })
          state state ⟨rfl, extending⟩
    case declaredName =>
        rw [outcome_name_declaredName, outcome_name_declaredName, options_withIndex,
          options_withIndex]
        exact declaring (fun function => { function with locals := function.locals ++ [renamed] })
          state state ⟨rfl, extending⟩
    case memberName =>
        rw [outcome_name_label (.inl rfl), outcome_name_label (.inl rfl), options_withIndex,
          options_withIndex]
        exact linked.write renamed state state ⟨rfl, extending⟩
    case key =>
        rw [outcome_name_label (.inr rfl), outcome_name_label (.inr rfl), options_withIndex,
          options_withIndex]
        exact linked.write renamed state state ⟨rfl, extending⟩
    all_goals exact absurd rfl bare

theorem memberCongruence
    (agree : ∀ superClass, permitted superClass → ∀ source,
      index.inherits superClass (settings.options.renameIdentifier source) =
        other.inherits superClass (settings.options.renameIdentifier source)) :
    MemberCongruence fun {Result} (first second : Printer Result) =>
      SameUnder settings index other permitted first second :=
  { congruence settings index other permitted with
    declaredName := name agree .declaredName
    declareLocal := fun _ => modifyScopes fun _ extending =>
      extending.modifyTop fun scope => scope.superClass?_modifyFunction _
    withinFunction := fun text _ _ inside => withinFunction text false false inside
    withinMemberBody := withinMemberBody
    declareProperty := fun text isStatic => modifyScopes fun _ extending =>
      extending.modifyTop fun scope => scope.superClass?_addProperty text isStatic
    withinMethod := fun text isStatic _ _ inside => withinFunction text true isStatic inside }

theorem withinClass (className : String) {superClass : Option String}
    (isPermitted : ∀ superName, superClass = some superName → permitted superName)
    {first second : Printer Unit} (inside : SameUnder settings index other permitted first second) :
    SameUnder settings index other permitted (withinClass className superClass first)
      (withinClass className superClass second) :=
  between (fun _ extending => extending.enterClass className isPermitted) inside
    fun _ extending => extending.exitClass

theorem localCongruence
    (agree : ∀ superClass, permitted superClass → ∀ source,
      index.inherits superClass (settings.options.renameIdentifier source) =
        other.inherits superClass (settings.options.renameIdentifier source)) :
    LocalCongruence fun {Result} (first second : Printer Result) =>
      SameUnder settings index other permitted first second :=
  { congruence settings index other permitted, memberCongruence agree with
    name := name agree }

end SameUnder

end Printer

/-- The names of a class and of its superclass. -/
def Node.classHead? (node : Node) : Option (Option String × Option String) :=
  match node.shape with
  | .classDefinition _ _ name superClass _ _ _ =>
      some (name.bind Node.identifier?, superClass.bind Node.lastName?)
  | _ => none

/-- Every class in a tree that has a superclass has one of some kind. -/
def Node.Extending (permitted : String → Prop) (node : Node) : Prop :=
  ∀ part ∈ node.stored, ∀ head, part.classHead? = some head →
    ∀ superClass, head.2 = some superClass → permitted superClass

theorem Node.Extending.own {permitted : String → Prop} {node : Node}
    {head : Option String × Option String} (extending : node.Extending permitted)
    (isHead : node.classHead? = some head) {superClass : String}
    (isSuper : head.2 = some superClass) : permitted superClass := by
  have isStored : node ∈ node.stored := by
    rw [stored_eq]
    exact List.mem_cons_self
  exact extending node isStored head isHead superClass isSuper

theorem Node.Extending.part {permitted : String → Prop} {node part : Node}
    (extending : node.Extending permitted) (isPart : part ∈ node.shape.parts) :
    part.Extending permitted := by
  intro inner isInner
  apply extending inner
  rw [stored_eq]
  exact List.mem_cons_of_mem _ (List.mem_flatMap.mpr ⟨part, isPart, isInner⟩)

/-- A tree comes to the same with two indices that know the same of the superclasses of
all classes in the tree. -/
theorem Node.sameUnder {settings : Settings} {index other : MemberIndex}
    {permitted : String → Prop}
    (agree : ∀ superClass, permitted superClass → ∀ source,
      index.inherits superClass (settings.options.renameIdentifier source) =
        other.inherits superClass (settings.options.renameIdentifier source))
    (node : Node) :
    node.Extending permitted → ∀ role,
      Printer.SameUnder settings index other permitted (node.printAs role)
        (node.printAs role) := by
  induction node using parts_induction with
  | step node ih =>
      intro extending role
      obtain ⟨location, shape⟩ := node
      have same : ∀ part ∈ shape.parts, ∀ role, Printer.SameUnder settings index other permitted
          (part.printAs role) (part.printAs role) :=
        fun part isPart => ih part isPart (extending.part isPart)
      have leaf : ∀ role, Printer.SameUnder settings index other permitted
          (Node.printAs ⟨{}, .leaf .empty⟩ role) (Node.printAs ⟨{}, .leaf .empty⟩ role) :=
        fun role => (Printer.SameUnder.congruence settings index other permitted).pure ()
      obtain ⟨lifted, rfl⟩ := Shape.exists_lift ⟨_, leaf⟩ same
      let twins : Shape (Printer.Twin fun {Result} (first second : Printer Result) =>
          Printer.SameUnder settings index other permitted first second) :=
        lifted.map fun part => ⟨part.1, part.1.printAs, part.1.printAs, part.2⟩
      have related : Printer.SameUnder settings index other permitted
          (Printer.construct location (twins.map Printer.Twin.first) role)
          (Printer.construct location (twins.map Printer.Twin.second) role) := by
        cases lifted with
        | classDefinition form marks name superClass implementing body decorators =>
            have isPermitted (superName : String)
                (isSuper : (superClass.map Subtype.val).bind Node.lastName? = some superName) :
                permitted superName :=
              extending.own rfl isSuper
            apply (Printer.SameUnder.congruence settings index other permitted).classDefinition
            · cases name <;> rfl
            · cases decorators <;> rfl
            · intro className
              apply Printer.SameUnder.withinClass className
              · cases superClass <;> exact isPermitted
              · exact body.2 .plain
        | classProperty =>
            exact (Printer.SameUnder.memberCongruence agree).construct location _ role rfl
        | method =>
            exact (Printer.SameUnder.memberCongruence agree).construct location _ role rfl
        | _ => exact (Printer.SameUnder.localCongruence agree).construct location _ role rfl
      rw [Shape.map_map, Shape.map_map] at related
      rw [printAs_eq, Shape.map_map]
      exact related

/-- The same code is generated with two indices that know the same of the superclasses of all
classes in a tree. -/
theorem Settings.generate_congr_index (settings : Settings) {index other : MemberIndex}
    {tree : Node}
    (agree : tree.Extending fun superClass =>
      ∀ member, index.inherits superClass member = other.inherits superClass member) :
    (settings.withIndex index).generate tree = (settings.withIndex other).generate tree := by
  have started : PrinterState.SameExtending (fun superClass =>
      ∀ member, index.inherits superClass member = other.inherits superClass member) {} {} := by
    refine ⟨rfl, fun scope isScope superName isSuper => ?_⟩
    obtain rfl := List.mem_singleton.mp isScope
    cases isSuper
  rw [generate_eq, generate_eq]
  rcases tree.sameUnder (fun _ same source => same _) agree .plain {} {} started with
    ⟨diagnostic, stops, alsoStops⟩ | ⟨value, next, _, ends, alsoEnds, ⟨rfl, -⟩⟩
  · rw [Printer.outcome_underIndex] at stops alsoStops
    rw [stops, alsoStops]
  · rw [Printer.outcome_underIndex] at ends alsoEnds
    rw [ends, alsoEnds]
    rfl

/-- In a file with exactly one class the entry of that class does not matter, unless the
class is met among the ancestors that the index knows of it. -/
theorem Settings.generate_erase_own (settings : Settings) (index : MemberIndex) (tree : Node)
    (className : String) (superClass : Option String)
    (onlyClass : tree.stored.filterMap Node.classHead? = [(some className, superClass)])
    (notAbove : ∀ superName, superClass = some superName →
      ¬index.HasAncestor superName className) :
    (settings.withIndex index).generate tree =
      (settings.withIndex (index.erase className)).generate tree := by
  refine settings.generate_congr_index fun part isPart head isHead superName isSuper member => ?_
  have isFound : head ∈ tree.stored.filterMap Node.classHead? :=
    List.mem_filterMap.mpr ⟨part, isPart, isHead⟩
  rw [onlyClass, List.mem_singleton] at isFound
  rw [isFound] at isSuper
  exact (MemberIndex.inherits_erase_of_not (notAbove superName isSuper) member).symm

/-! ## A class that extends one of the same name -/

/-- A class with a method that refers to a field, which is declared behind the method. -/
def button (superClass : Node) : Node :=
  let name (text : String) : Node := ⟨{}, .identifier text none false⟩
  let press : Node := ⟨{}, .method .concrete {} (name "press") ⟨{}, .function .expression {} none []
    (some ⟨{}, .group .block [⟨{}, .expressionStatement (name "size")⟩]⟩) none⟩⟩
  ⟨{}, .group .program [⟨{}, .classDefinition .declaration {} (some (name "Button"))
    (some superClass) []
    ⟨{}, .group .classBody [press, ⟨{}, .classProperty {} (name "size") none none []⟩]⟩ []⟩]⟩

/-- A class of the same name in a package. -/
def packagedButton : Node :=
  ⟨{}, .member ⟨{}, .identifier "ui" none false⟩ ⟨{}, .identifier "Button" none false⟩ false false⟩

def buttonText (superClass receiver : String) : String :=
  "class Button extends " ++ superClass ++ " \x7b\n    press() \x7b\n        " ++ receiver ++
    "size;\n    \x7d\n    size;\n\x7d"

/-- A field of a class that extends one of the same name from a package has a receiver in
front of its declaration, which comes from the entry of the class itself. -/
theorem Settings.generate_own_supplied :
    let tree := button packagedButton
    let index := MemberIndex.collect {} tree "Button.as"
    let settings : Settings := { file := "Button.as" }
    tree.stored.filterMap Node.classHead? = [(some "Button", some "Button")] ∧
    ((settings.withIndex index).generate tree).toOption =
      some ⟨buttonText "ui.Button" "this.", []⟩ ∧
    ((settings.withIndex (index.erase "Button")).generate tree).toOption =
      some ⟨buttonText "ui.Button" "", []⟩ := by
  decide +kernel

theorem Settings.generate_erase_own_widget :
    let tree := button ⟨{}, .identifier "Widget" none false⟩
    let widget : ClassEntry := { name := "Widget", file := "Widget.as", properties := ["size"] }
    let index := (MemberIndex.collect {} tree "Button.as").insert widget
    let settings : Settings := { file := "Button.as" }
    (index.find? "Button").map ClassEntry.properties = some ["size"] ∧
    ((settings.withIndex index).generate tree).toOption.map Generated.text =
      some ("import \x7bWidget\x7d from \"./Widget\";\n" ++ buttonText "Widget" "this.") ∧
    (settings.withIndex index).generate tree =
      (settings.withIndex (index.erase "Button")).generate tree := by
  intro tree widget index settings
  have isWidget : index.find? "Widget" = some widget := by decide
  have notAbove (superName : String) (isSuper : some "Widget" = some superName) :
      ¬index.HasAncestor superName "Button" := by
    obtain rfl := Option.some.inj isSuper
    intro above
    generalize isTop : "Button" = top at above
    cases above with
    | self => exact absurd isTop (by decide)
    | above found isSuper =>
        rw [isWidget] at found
        obtain rfl := Option.some.inj found
        cases isSuper
  refine ⟨by decide +kernel, by decide +kernel, ?_⟩
  exact Settings.generate_erase_own settings index tree "Button" (some "Widget")
    (by decide +kernel) notAbove

end ScriptBridge

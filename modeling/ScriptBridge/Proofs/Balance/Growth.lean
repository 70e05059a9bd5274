import ScriptBridge.Proofs.Qualification.Fit

/-!
# Growth of scopes

While the code of a construct is printed, the scope around it only learns names:
the innermost function binds more of them and the class has more members.  What
the construct opens, it closes again.
-/

namespace ScriptBridge

/-- The function has bound more names behind those that it had. -/
structure FunctionScope.Grows (function later : FunctionScope) : Prop where
  name : later.name = function.name
  params : function.params <+: later.params
  locals : function.locals <+: later.locals

/-- The class has more members: properties behind those that it had, and methods
and static names beside them. -/
structure ClassScope.Grows (owner later : ClassScope) : Prop where
  name : later.name = owner.name
  superClass : later.superClass = owner.superClass
  properties : owner.properties <+: later.properties
  methods : ∀ name, owner.methods.contains name → later.methods.contains name
  statics : owner.statics ⊆ later.statics

/-- The innermost function grows, and the others are as they were. -/
inductive Frame.Grow : List Frame → List Frame → Prop where
  | outside : Grow [] []
  | innermost {function later : FunctionScope} {isMethod : Bool} {rest : List Frame} :
      function.Grows later → Grow (⟨function, isMethod⟩ :: rest) (⟨later, isMethod⟩ :: rest)

/-- The scope has learned names. -/
structure Scope.Grows (scope later : Scope) : Prop where
  owner : Option.Rel ClassScope.Grows scope.owner later.owner
  frames : Frame.Grow scope.frames later.frames
  inMemberBody : later.inMemberBody = scope.inMemberBody

/-- The innermost scope has learned names, and the others are as they were. -/
structure ScopeStack.Grows (stack later : ScopeStack) : Prop where
  top : stack.top.Grows later.top
  outer : later.outer = stack.outer

theorem FunctionScope.Grows.refl (function : FunctionScope) : function.Grows function :=
  ⟨rfl, List.prefix_rfl, List.prefix_rfl⟩

theorem FunctionScope.Grows.trans {function middle later : FunctionScope}
    (before : function.Grows middle) (behind : middle.Grows later) : function.Grows later :=
  ⟨behind.name.trans before.name, before.params.trans behind.params,
    before.locals.trans behind.locals⟩

namespace ClassScope.Grows

variable {owner middle later : ClassScope}

theorem refl (owner : ClassScope) : owner.Grows owner :=
  ⟨rfl, rfl, List.prefix_rfl, fun _ => id, List.Subset.refl _⟩

theorem trans (before : owner.Grows middle) (behind : middle.Grows later) : owner.Grows later :=
  ⟨behind.name.trans before.name, behind.superClass.trans before.superClass,
    before.properties.trans behind.properties,
    fun name known => behind.methods name (before.methods name known),
    List.Subset.trans before.statics behind.statics⟩

theorem refl_option (owner : Option ClassScope) : Option.Rel ClassScope.Grows owner owner := by
  cases owner with
  | none => exact .none
  | some owner => exact .some (.refl owner)

theorem trans_option {owner middle later : Option ClassScope}
    (before : Option.Rel ClassScope.Grows owner middle)
    (behind : Option.Rel ClassScope.Grows middle later) :
    Option.Rel ClassScope.Grows owner later := by
  cases before with
  | none => exact behind
  | some grows =>
      cases behind with
      | some goesOn => exact .some (grows.trans goesOn)

theorem map_option (owner : Option ClassScope) {change : ClassScope → ClassScope}
    (grows : ∀ owner : ClassScope, owner.Grows (change owner)) :
    Option.Rel ClassScope.Grows owner (owner.map change) := by
  cases owner with
  | none => exact .none
  | some owner => exact .some (grows owner)

theorem addStatic (owner : ClassScope) (name : String) (isStatic : Bool) :
    owner.Grows (owner.addStatic name isStatic) := by
  unfold ClassScope.addStatic
  split
  · exact ⟨rfl, rfl, List.prefix_rfl, fun _ => id, List.subset_append_left _ _⟩
  · exact refl owner

theorem addProperty (owner : ClassScope) (name : String) (isStatic : Bool) :
    owner.Grows (owner.addProperty name isStatic) := by
  have listed : owner.Grows { owner with properties := owner.properties ++ [name] } :=
    ⟨rfl, rfl, List.prefix_append _ _, fun _ => id, List.Subset.refl _⟩
  exact listed.trans (addStatic _ name isStatic)

theorem putMethod (owner : ClassScope) (function : FunctionScope) :
    owner.Grows (owner.putMethod function) := by
  refine ⟨rfl, rfl, List.prefix_rfl, fun name known => ?_, List.Subset.refl _⟩
  simp only [ClassScope.putMethod, OrderedMap.contains, OrderedMap.find?_insert]
  split
  · rfl
  · exact known

end ClassScope.Grows

theorem Frame.Grow.refl (frames : List Frame) : Frame.Grow frames frames := by
  cases frames with
  | nil => exact .outside
  | cons frame rest => exact .innermost (.refl frame.function)

theorem Frame.Grow.trans {frames middle later : List Frame} (before : Frame.Grow frames middle)
    (behind : Frame.Grow middle later) : Frame.Grow frames later := by
  cases before with
  | outside => exact behind
  | innermost grows =>
      cases behind with
      | innermost goesOn => exact .innermost (grows.trans goesOn)

namespace Scope.Grows

variable {scope middle later : Scope}

theorem refl (scope : Scope) : scope.Grows scope :=
  ⟨ClassScope.Grows.refl_option _, .refl _, rfl⟩

theorem trans (before : scope.Grows middle) (behind : middle.Grows later) :
    scope.Grows later :=
  ⟨ClassScope.Grows.trans_option before.owner behind.owner,
    before.frames.trans behind.frames, behind.inMemberBody.trans before.inMemberBody⟩

theorem modifyFunction (scope : Scope) (change : FunctionScope → FunctionScope)
    (grows : ∀ function : FunctionScope, function.Grows (change function)) :
    scope.Grows (scope.modifyFunction change) := by
  unfold Scope.modifyFunction
  split
  · exact refl scope
  · next frame rest isFrames =>
      refine ⟨ClassScope.Grows.refl_option _, ?_, rfl⟩
      rw [isFrames]
      exact .innermost (grows frame.function)

/-- Opening a function puts it in front of the others; the class may come to know it. -/
theorem openFunction_eq (scope : Scope) (name : String) (isMethod isStatic : Bool) :
    ∃ owner isMember, Option.Rel ClassScope.Grows scope.owner owner ∧
      scope.openFunction name isMethod isStatic =
        { scope with owner, frames := ⟨{ name }, isMember⟩ :: scope.frames } := by
  obtain ⟨owner, frames, inMemberBody⟩ := scope
  have unchanged := ClassScope.Grows.refl_option owner
  cases owner with
  | none => exact ⟨_, false, unchanged, rfl⟩
  | some known =>
      cases isMethod with
      | false => exact ⟨_, false, unchanged, rfl⟩
      | true =>
          have declared := (ClassScope.Grows.putMethod known { name }).trans
            (.addStatic _ name isStatic)
          exact ⟨_, true, .some declared, rfl⟩

/-- What a function that was opened came to, the scope has learned when the
function is closed. -/
theorem closeFunction {name : String} {isMethod isStatic : Bool}
    (grows : (scope.openFunction name isMethod isStatic).Grows later) :
    scope.Grows later.closeFunction := by
  obtain ⟨opened, isMember, declared, isOpened⟩ := openFunction_eq scope name isMethod isStatic
  rw [isOpened] at grows
  obtain ⟨laterOwner, laterFrames, laterBody⟩ := later
  obtain ⟨ownerGrows, framesGrow, sameBody⟩ := grows
  have known := ClassScope.Grows.trans_option declared ownerGrows
  cases framesGrow with
  | innermost =>
      refine ⟨?_, .refl _, sameBody⟩
      cases isMember with
      | false => exact known
      | true =>
          exact ClassScope.Grows.trans_option known
            (ClassScope.Grows.map_option laterOwner fun owner => .putMethod owner _)

end Scope.Grows

namespace ScopeStack.Grows

variable {stack middle later : ScopeStack}

theorem refl (stack : ScopeStack) : stack.Grows stack :=
  ⟨.refl _, rfl⟩

theorem trans (before : stack.Grows middle) (behind : middle.Grows later) : stack.Grows later :=
  ⟨before.top.trans behind.top, behind.outer.trans before.outer⟩

theorem declareParam (stack : ScopeStack) (name : String) :
    stack.Grows (stack.declareParam name) := by
  refine ⟨Scope.Grows.modifyFunction _ (fun function =>
    { function with params := function.params ++ [name] }) ?_, rfl⟩
  intro function
  exact ⟨rfl, List.prefix_append _ _, List.prefix_rfl⟩

theorem declareLocal (stack : ScopeStack) (name : String) :
    stack.Grows (stack.declareLocal name) := by
  refine ⟨Scope.Grows.modifyFunction _ (fun function =>
    { function with locals := function.locals ++ [name] }) ?_, rfl⟩
  intro function
  exact ⟨rfl, List.prefix_rfl, List.prefix_append _ _⟩

theorem declareProperty (stack : ScopeStack) (name : String) (isStatic : Bool) :
    stack.Grows (stack.declareProperty name isStatic) :=
  ⟨⟨ClassScope.Grows.map_option _ fun owner => .addProperty owner name isStatic, .refl _, rfl⟩,
    rfl⟩

/-- A function leaves nothing behind but what it made known. -/
theorem exitFunction {name : String} {isMethod isStatic : Bool}
    (grows : (stack.enterFunction name isMethod isStatic).Grows later) :
    stack.Grows later.exitFunction.1 :=
  ⟨grows.top.closeFunction, grows.outer⟩

/-- Behind the body of a member the place is what it was in front of it. -/
theorem markMemberBody (grows : (stack.markMemberBody true).Grows later) :
    stack.Grows (later.markMemberBody stack.top.inMemberBody) :=
  ⟨⟨grows.top.owner, grows.top.frames, rfl⟩, grows.outer⟩

/-- A class leaves nothing behind. -/
theorem exitClass_eq {name : String} {superClass : Option String}
    (grows : (stack.enterClass name superClass).Grows later) : later.exitClass.1 = stack := by
  have outer : later.outer = stack.top :: stack.outer := grows.outer
  rw [ScopeStack.exitClass, outer]

end ScopeStack.Grows

end ScriptBridge

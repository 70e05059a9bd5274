import ScriptBridge.Proofs.Balance.Growth

/-!
# Sequences of scope operations

Scopes are opened, filled, asked and closed in any order, also where nothing is open.
Whatever the order, one scope outside all classes remains at the bottom, every scope above
it belongs to a class, and a class knows its static names and its open methods as members.
What happens between the entrance of a class and the exit that belongs to it leaves no
trace behind the exit.
-/

namespace ScriptBridge

namespace ClassScope

variable {owner : ClassScope}

/-- Every static name is the name of a member. -/
def KnowsStatics (owner : ClassScope) : Prop :=
  ∀ name ∈ owner.statics, owner.hasMember name

theorem KnowsStatics.addStatic (knows : owner.KnowsStatics) {name : String}
    (isMember : owner.hasMember name) (isStatic : Bool) :
    (owner.addStatic name isStatic).KnowsStatics := by
  intro other listed
  rw [hasMember_addStatic]
  unfold ClassScope.addStatic at listed
  split at listed
  · rcases List.mem_append.mp listed with old | new
    · exact knows other old
    · rwa [List.mem_singleton.mp new]
  · exact knows other listed

theorem KnowsStatics.putMethod (knows : owner.KnowsStatics) (function : FunctionScope) :
    (owner.putMethod function).KnowsStatics := by
  intro name listed
  rw [hasMember_putMethod, knows name listed, Bool.true_or]

theorem KnowsStatics.addProperty (knows : owner.KnowsStatics) (name : String)
    (isStatic : Bool) : (owner.addProperty name isStatic).KnowsStatics := by
  have listed : { owner with properties := owner.properties ++ [name] }.KnowsStatics := by
    intro other isListed
    have old := knows other isListed
    unfold hasMember at old ⊢
    rcases Bool.or_eq_true_iff.mp old with method | property
    · rw [method, Bool.true_or]
    · simp only [List.contains_append, property, Bool.true_or, Bool.or_true]
  exact listed.addStatic (by simp [hasMember]) isStatic

theorem contains_putMethod (owner : ClassScope) (function : FunctionScope) :
    (owner.putMethod function).methods.contains function.name := by
  simp [putMethod, OrderedMap.contains]

end ClassScope

namespace Scope

variable {scope : Scope}

/-- The class of the scope knows its static names and the open methods as members. -/
structure Sound (scope : Scope) : Prop where
  statics : ∀ owner ∈ scope.owner, owner.KnowsStatics
  methods : ∀ frame ∈ scope.frames, frame.isMethod →
    ∃ owner ∈ scope.owner, owner.methods.contains frame.function.name

namespace Sound

theorem outside : ({} : Scope).Sound :=
  ⟨fun _ isOwner => absurd isOwner (Option.not_mem_none _), fun _ isFrame => nomatch isFrame⟩

theorem ofClass (name : String) (superClass : Option String) :
    ({ owner := some { name, superClass } } : Scope).Sound := by
  refine ⟨?_, fun _ isFrame => nomatch isFrame⟩
  rintro owner ⟨⟩ static ⟨⟩

/-- The class learns something, and the functions stay as they are. -/
theorem mapOwner (sound : scope.Sound) {change : ClassScope → ClassScope}
    (grows : ∀ owner : ClassScope, owner.Grows (change owner))
    (knows : ∀ owner : ClassScope, owner.KnowsStatics → (change owner).KnowsStatics) :
    Sound { scope with owner := scope.owner.map change } := by
  refine ⟨fun later isLater => ?_, fun frame isFrame isMethod => ?_⟩
  · obtain ⟨owner, isOwner, rfl⟩ := Option.map_eq_some_iff.mp isLater
    exact knows owner (sound.statics owner isOwner)
  · obtain ⟨owner, isOwner, contains⟩ := sound.methods frame isFrame isMethod
    exact ⟨change owner, Option.mem_map_of_mem change isOwner, (grows owner).methods _ contains⟩

theorem declareProperty (sound : scope.Sound) (name : String) (isStatic : Bool) :
    Sound { scope with owner := scope.owner.map fun owner => owner.addProperty name isStatic } :=
  sound.mapOwner (fun owner => .addProperty owner name isStatic)
    fun _ knows => knows.addProperty name isStatic

/-- Without new methods only the names of the open functions count. -/
theorem withFrames (sound : scope.Sound) {frames : List Frame}
    (known : ∀ frame ∈ frames, frame.isMethod → ∃ old ∈ scope.frames,
      old.isMethod ∧ old.function.name = frame.function.name) :
    Sound { scope with frames } := by
  refine ⟨sound.statics, fun frame isFrame isMethod => ?_⟩
  obtain ⟨old, isOld, wasMethod, sameName⟩ := known frame isFrame isMethod
  rw [← sameName]
  exact sound.methods old isOld wasMethod

theorem modifyFunction (sound : scope.Sound) {change : FunctionScope → FunctionScope}
    (sameName : ∀ function : FunctionScope, (change function).name = function.name) :
    (scope.modifyFunction change).Sound := by
  unfold Scope.modifyFunction
  split
  · exact sound
  · next first rest isFrames =>
      refine sound.withFrames fun frame isFrame isMethod => ?_
      rw [isFrames]
      rcases List.mem_cons.mp isFrame with rfl | isFrame
      · exact ⟨first, List.mem_cons_self, isMethod, (sameName first.function).symm⟩
      · exact ⟨frame, List.mem_cons_of_mem _ isFrame, isMethod, rfl⟩

theorem openFunction (sound : scope.Sound) (name : String) (isMethod isStatic : Bool) :
    (scope.openFunction name isMethod isStatic).Sound := by
  have openOther : Sound { scope with frames := ⟨{ name }, false⟩ :: scope.frames } := by
    refine sound.withFrames fun frame isFrame isMethod => ?_
    rcases List.mem_cons.mp isFrame with rfl | isFrame
    · cases isMethod
    · exact ⟨frame, isFrame, isMethod, rfl⟩
  unfold Scope.openFunction
  split
  · next owner isOwner =>
      have declares := owner.contains_putMethod { name }
      have grows := ClassScope.Grows.addStatic (owner.putMethod { name }) name isStatic
      refine ⟨?_, fun frame isFrame wasMethod => ⟨_, rfl, ?_⟩⟩
      · rintro later ⟨⟩
        refine ((sound.statics owner isOwner).putMethod _).addStatic ?_ isStatic
        rw [ClassScope.hasMember, declares, Bool.true_or]
      · apply grows.methods
        rcases List.mem_cons.mp isFrame with rfl | isFrame
        · exact declares
        · obtain ⟨known, isKnown, contains⟩ := sound.methods frame isFrame wasMethod
          obtain rfl := Option.some.inj (isOwner.symm.trans isKnown)
          exact (ClassScope.Grows.putMethod owner _).methods _ contains
  · exact openOther

theorem closeFunction (sound : scope.Sound) : scope.closeFunction.Sound := by
  unfold Scope.closeFunction
  split
  · exact sound
  · next frame rest isFrames =>
      have others : Sound { scope with frames := rest } :=
        sound.withFrames fun other isOther isMethod =>
          ⟨other, isFrames ▸ List.mem_cons_of_mem _ isOther, isMethod, rfl⟩
      split
      · exact others.mapOwner (fun owner => .putMethod owner _) fun _ knows => knows.putMethod _
      · exact others

end Sound

/-- Opening and closing functions leaves the scope with its class, or without one. -/
theorem isSome_openFunction (scope : Scope) (name : String) (isMethod isStatic : Bool) :
    (scope.openFunction name isMethod isStatic).owner.isSome = scope.owner.isSome := by
  unfold openFunction
  split
  · next isOwner => rw [isOwner]; rfl
  · rfl

theorem isSome_closeFunction (scope : Scope) :
    scope.closeFunction.owner.isSome = scope.owner.isSome := by
  unfold closeFunction
  split
  · rfl
  · dsimp only
    split
    · exact Option.isSome_map
    · rfl

theorem owner_modifyFunction (scope : Scope) (change : FunctionScope → FunctionScope) :
    (scope.modifyFunction change).owner = scope.owner := by
  unfold modifyFunction
  split <;> rfl

/-- A name gets a receiver only in the body of a member. -/
theorem inMemberBody_of_qualifier {index : Option MemberIndex} {name receiver : String}
    (answers : scope.qualifier index name = some receiver) :
    scope.inMemberBody ∧ scope.owner.isSome ∧ scope.frames ≠ [] := by
  unfold qualifier at answers
  split at answers
  · cases answers
  · next isOwner =>
      split at answers
      · cases answers
      · next inside =>
          simp only [Bool.or_eq_true, not_or, Bool.not_eq_true, Bool.not_eq_false',
            List.isEmpty_eq_false_iff] at inside
          exact ⟨inside.1.1, by rw [isOwner]; rfl, inside.1.2⟩

end Scope

namespace ScopeStack

/-- The scopes of the stack, the innermost first. -/
def scopes (stack : ScopeStack) : List Scope :=
  stack.top :: stack.outer

/-- Sound scopes around one another; only the outermost belongs to no class. -/
structure Sound (stack : ScopeStack) : Prop where
  scopes : ∀ scope ∈ stack.scopes, scope.Sound
  owners : ∃ inner base, stack.scopes = inner ++ [base] ∧ base.owner = none ∧
    ∀ scope ∈ inner, scope.owner.isSome

namespace Sound

variable {stack : ScopeStack}

theorem start : ({} : ScopeStack).Sound :=
  ⟨by simpa [ScopeStack.scopes] using Scope.Sound.outside,
    [], {}, rfl, rfl, fun _ isInner => nomatch isInner⟩

theorem ofTop (sound : stack.Sound) : stack.top.Sound :=
  sound.scopes _ List.mem_cons_self

/-- The innermost scope may be exchanged for a sound one that has a class if it had one. -/
theorem withTop (sound : stack.Sound) {top : Scope} (ofTop : top.Sound)
    (sameOwner : top.owner.isSome = stack.top.owner.isSome) :
    Sound ⟨top, stack.outer⟩ := by
  obtain ⟨scopes, inner, base, isStack, isBase, isInner⟩ := sound
  refine ⟨List.forall_mem_cons.mpr ⟨ofTop, (List.forall_mem_cons.mp scopes).2⟩, ?_⟩
  cases inner with
  | nil =>
      obtain ⟨rfl, isOuter⟩ := List.cons.inj isStack
      refine ⟨[], top, congrArg _ isOuter, ?_, isInner⟩
      rwa [isBase, Option.isSome_none, Option.isSome_eq_false_iff, Option.isNone_iff_eq_none]
        at sameOwner
  | cons first rest =>
      obtain ⟨rfl, isOuter⟩ := List.cons.inj isStack
      obtain ⟨ofFirst, ofRest⟩ := List.forall_mem_cons.mp isInner
      exact ⟨top :: rest, base, congrArg _ isOuter, isBase,
        List.forall_mem_cons.mpr ⟨sameOwner.trans ofFirst, ofRest⟩⟩

/-- Changing the names that the innermost function binds is harmless. -/
theorem modifyFunction (sound : stack.Sound) {change : FunctionScope → FunctionScope}
    (sameName : ∀ function : FunctionScope, (change function).name = function.name) :
    Sound ⟨stack.top.modifyFunction change, stack.outer⟩ :=
  sound.withTop (sound.ofTop.modifyFunction sameName)
    (congrArg Option.isSome (Scope.owner_modifyFunction stack.top change))

theorem enterClass (sound : stack.Sound) (name : String) (superClass : Option String) :
    (stack.enterClass name superClass).Sound := by
  obtain ⟨scopes, inner, base, isStack, isBase, isInner⟩ := sound
  exact ⟨List.forall_mem_cons.mpr ⟨.ofClass name superClass, scopes⟩, _ :: inner, base,
    congrArg _ isStack, isBase, List.forall_mem_cons.mpr ⟨rfl, isInner⟩⟩

theorem exitClass (sound : stack.Sound) : stack.exitClass.1.Sound := by
  unfold ScopeStack.exitClass
  split
  · exact sound
  · next below rest isOuter =>
      obtain ⟨scopes, inner, base, isStack, isBase, isInner⟩ := sound
      have isScopes : stack.scopes = stack.top :: below :: rest := congrArg _ isOuter
      rw [isScopes] at scopes isStack
      refine ⟨(List.forall_mem_cons.mp scopes).2, ?_⟩
      -- The bottom scope is not the one that is left, as another one is below.
      cases inner with
      | nil => cases isStack
      | cons first others =>
          exact ⟨others, base, (List.cons.inj isStack).2, isBase,
            (List.forall_mem_cons.mp isInner).2⟩

end Sound

/-- One operation on the scopes; the questions change nothing. -/
inductive Operation where
  | enterClass (name : String) (superClass : Option String)
  | exitClass
  | enterFunction (name : String) (isMethod isStatic : Bool)
  | exitFunction
  | declareProperty (name : String) (isStatic : Bool)
  | declareParam (name : String)
  | declareLocal (name : String)
  | markMemberBody (active : Bool)
  | currentClass
  | currentFunction
  | inMemberBody
  | qualifier (index : Option MemberIndex) (name : String)

namespace Operation

/-- The scopes after an operation. -/
def apply (stack : ScopeStack) : Operation → ScopeStack
  | .enterClass name superClass => stack.enterClass name superClass
  | .exitClass => stack.exitClass.1
  | .enterFunction name isMethod isStatic => stack.enterFunction name isMethod isStatic
  | .exitFunction => stack.exitFunction.1
  | .declareProperty name isStatic => stack.declareProperty name isStatic
  | .declareParam name => stack.declareParam name
  | .declareLocal name => stack.declareLocal name
  | .markMemberBody active => stack.markMemberBody active
  | .currentClass | .currentFunction | .inMemberBody | .qualifier _ _ => stack

/-- How many classes are open behind an operation; an exit without a class is ignored. -/
def depthBehind (depth : Nat) : Operation → Nat
  | .enterClass _ _ => depth + 1
  | .exitClass => depth - 1
  | _ => depth

/-- Whether operations leave every class that they enter, and no other one, when so many
of the classes that they entered are still open. -/
def areMatched : Nat → List Operation → Bool
  | depth, [] => depth = 0
  | 0, .exitClass :: _ => false
  | depth, operation :: rest => areMatched (operation.depthBehind depth) rest

theorem areMatched_cons {depth : Nat} {operation : Operation} (rest : List Operation)
    (stays : operation = .exitClass → depth ≠ 0) :
    areMatched depth (operation :: rest) = areMatched (operation.depthBehind depth) rest := by
  cases operation with
  | exitClass =>
      cases depth with
      | zero => exact absurd rfl (stays rfl)
      | succ depth => rfl
  | _ => cases depth <;> rfl

end Operation

/-- What one operation preserves. -/
theorem Sound.apply {stack : ScopeStack} (sound : stack.Sound) (operation : Operation) :
    (operation.apply stack).Sound := by
  cases operation with
  | enterClass name superClass => exact sound.enterClass name superClass
  | exitClass => exact sound.exitClass
  | enterFunction name isMethod isStatic =>
      exact sound.withTop (sound.ofTop.openFunction name isMethod isStatic)
        (Scope.isSome_openFunction _ _ _ _)
  | exitFunction =>
      exact sound.withTop sound.ofTop.closeFunction (Scope.isSome_closeFunction _)
  | declareProperty name isStatic =>
      exact sound.withTop (sound.ofTop.declareProperty name isStatic) Option.isSome_map
  | declareParam name => exact sound.modifyFunction fun _ => rfl
  | declareLocal name => exact sound.modifyFunction fun _ => rfl
  | markMemberBody active =>
      exact sound.withTop ⟨sound.ofTop.statics, sound.ofTop.methods⟩ rfl
  | currentClass | currentFunction | inMemberBody | qualifier => exact sound

/-- The scopes after a sequence of operations. -/
def after (stack : ScopeStack) (operations : List Operation) : ScopeStack :=
  operations.foldl Operation.apply stack

/-- What a sequence of operations preserves. -/
theorem Sound.after {stack : ScopeStack} (sound : stack.Sound) (operations : List Operation) :
    (stack.after operations).Sound := by
  induction operations generalizing stack with
  | nil => exact sound
  | cons operation rest ih => exact ih (sound.apply operation)

theorem length_outer_apply (stack : ScopeStack) (operation : Operation) :
    (operation.apply stack).outer.length = operation.depthBehind stack.outer.length := by
  cases operation with
  | exitClass =>
      obtain ⟨top, outer⟩ := stack
      cases outer <;> rfl
  | _ => rfl

theorem length_outer_after (stack : ScopeStack) (operations : List Operation) :
    (stack.after operations).outer.length =
      operations.foldl Operation.depthBehind stack.outer.length := by
  induction operations generalizing stack with
  | nil => rfl
  | cons operation rest ih =>
      rw [List.foldl_cons, ← length_outer_apply]
      exact ih (operation.apply stack)

/-- An operation does not touch the scopes around the classes that are open. -/
theorem outer_apply {stack : ScopeStack} {opened below : List Scope} {operation : Operation}
    (isOuter : stack.outer = opened ++ below)
    (stays : operation = .exitClass → opened ≠ []) :
    ∃ later, (operation.apply stack).outer = later ++ below ∧
      later.length = operation.depthBehind opened.length := by
  cases operation with
  | enterClass name superClass =>
      exact ⟨stack.top :: opened, congrArg _ isOuter, rfl⟩
  | exitClass =>
      cases opened with
      | nil => exact absurd rfl (stays rfl)
      | cons first rest =>
          refine ⟨rest, ?_, rfl⟩
          simp only [Operation.apply, ScopeStack.exitClass, isOuter, List.cons_append]
  | _ => exact ⟨opened, isOuter, rfl⟩

/-- Matched operations leave the scopes below as they were. -/
theorem outer_after {opened below : List Scope} (operations : List Operation)
    {stack : ScopeStack} (isOuter : stack.outer = opened ++ below)
    (matched : Operation.areMatched opened.length operations) :
    (stack.after operations).outer = below := by
  induction operations generalizing stack opened with
  | nil =>
      obtain rfl : opened = [] := by
        simpa [Operation.areMatched] using matched
      exact isOuter
  | cons operation rest ih =>
      have stays : operation = .exitClass → opened ≠ [] := by
        rintro rfl rfl
        cases matched
      obtain ⟨later, isLater, length⟩ := outer_apply isOuter stays
      refine ih isLater ?_
      rw [length]
      rwa [Operation.areMatched_cons _ fun isExit => mt List.length_eq_zero_iff.mp (stays isExit)]
        at matched

/-- Entering a class and leaving it again is seen by nobody outside. -/
theorem exit_after_enter (stack : ScopeStack) (name : String) (superClass : Option String)
    {inner : List Operation} (matched : Operation.areMatched 0 inner) :
    (((stack.enterClass name superClass).after inner).exitClass).1 = stack := by
  have isOuter : (stack.enterClass name superClass).outer = [] ++ stack.scopes := rfl
  have below : ((stack.enterClass name superClass).after inner).outer = stack.scopes :=
    outer_after inner isOuter matched
  unfold ScopeStack.exitClass
  rw [below]
  rfl

/-- What holds after every sequence of operations, in any order: as many scopes as open
classes above the one at the bottom, which alone belongs to no class; static names and open
methods that are members; receivers only in the body of a member of a class; and no trace
of a class that was entered and left. -/
theorem after_invariant (operations : List Operation) :
    let stack := ({} : ScopeStack).after operations
    stack.scopes.length = operations.foldl Operation.depthBehind 0 + 1 ∧
    (∃ inner base, stack.scopes = inner ++ [base] ∧ base.owner = none ∧
      ∀ scope ∈ inner, scope.owner.isSome) ∧
    (∀ scope ∈ stack.scopes, ∀ owner ∈ scope.owner, ∀ name ∈ owner.statics,
      name ∈ owner.properties ∨ owner.methods.contains name) ∧
    (∀ scope ∈ stack.scopes, ∀ frame ∈ scope.frames, frame.isMethod →
      ∃ owner ∈ scope.owner, owner.methods.contains frame.function.name) ∧
    (∀ index name receiver, stack.qualifier index name = some receiver →
      stack.top.inMemberBody ∧ stack.currentClass?.isSome ∧ stack.currentFunction?.isSome) ∧
    ∀ name superClass inner, Operation.areMatched 0 inner →
      stack.after (.enterClass name superClass :: inner ++ [.exitClass]) = stack := by
  intro stack
  have sound : stack.Sound := Sound.start.after operations
  refine ⟨?_, sound.owners, ?_, fun scope isScope => (sound.scopes scope isScope).methods, ?_, ?_⟩
  · exact congrArg Nat.succ (length_outer_after {} operations)
  · intro scope isScope owner isOwner name isStatic
    have isMember := (sound.scopes scope isScope).statics owner isOwner name isStatic
    simpa [ClassScope.hasMember, or_comm] using isMember
  · intro index name receiver answers
    obtain ⟨inBody, isClass, isOpen⟩ := Scope.inMemberBody_of_qualifier answers
    refine ⟨inBody, isClass, ?_⟩
    rwa [currentFunction?, Option.isSome_map, List.isSome_head?]
  · intro name superClass inner matched
    have left := exit_after_enter stack name superClass matched
    simpa [after, Operation.apply] using left

/-- A class in the middle of a method, entered and left behind an exit too many. -/
theorem after_invariant_nested :
    let stack := ({} : ScopeStack).after [.exitClass, .declareProperty "lost" true,
      .enterClass "Hive" none, .enterFunction "grow" true true, .markMemberBody true]
    let inner : List Operation :=
      [.enterClass "Cell" none, .exitFunction, .exitClass, .declareProperty "wax" false]
    stack.scopes.length = 2 ∧ stack.qualifier none "grow" = some "Hive." ∧
    stack.top.inMemberBody ∧ Operation.areMatched 0 inner ∧
    stack.after (.enterClass "Comb" (some "Hive") :: inner ++ [.exitClass]) = stack := by
  intro stack inner
  have matched : Operation.areMatched 0 inner := by
    decide
  obtain ⟨length, -, -, -, answers, leaves⟩ := after_invariant [.exitClass,
    .declareProperty "lost" true, .enterClass "Hive" none, .enterFunction "grow" true true,
    .markMemberBody true]
  have isStatic : stack.qualifier none "grow" = some "Hive." := by
    decide
  exact ⟨length, isStatic, (answers none "grow" "Hive." isStatic).1, matched,
    leaves "Comb" (some "Hive") inner matched⟩

end ScopeStack

end ScriptBridge

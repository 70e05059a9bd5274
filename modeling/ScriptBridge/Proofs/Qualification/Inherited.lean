import Mathlib.Data.List.Forall2
import ScriptBridge.Proofs.Printing.PlainText
import ScriptBridge.Proofs.Qualification.Members
import ScriptBridge.Proofs.Qualification.Simulation

/-!
# Inherited members

A member that a class inherits gets a receiver like a member that the class declares.
The index knows inherited members by the names that are written, and does not know
which of them are static; declared members are known by their new names.  So both get
the same receiver if the member belongs to instances and its new name is written for
some member of an ancestor, and only then.

Two classes that offer the same names, by declaring or by inheriting them, lead to the
same code.
-/

namespace ScriptBridge

/-! ## Classes that offer the same -/

/-- Whether a class has a member or inherits it. -/
def ClassScope.offers (owner : ClassScope) (index : Option MemberIndex) (name : String) : Bool :=
  owner.hasMember name ||
    match index, owner.superClass with
    | some index, some superClass => index.inherits superClass name
    | _, _ => false

/-- The receiver of a name in terms of what its class offers. -/
theorem Scope.qualifier_eq (scope : Scope) (index : Option MemberIndex) (name : String) :
    scope.qualifier index name =
      scope.owner.bind fun owner =>
        if !scope.inMemberBody || scope.frames.isEmpty || scope.bindsName name then none
        else if owner.statics.contains name then some (owner.name ++ ".")
        else if owner.offers index name then some "this."
        else none := by
  unfold qualifier ClassScope.offers
  cases scope.owner with
  | none => rfl
  | some owner =>
      dsimp only [Option.bind_some]
      cases owner.hasMember name
      · cases index <;> cases owner.superClass <;> rfl
      · rfl

/-- Two classes of one name with the same static members, which offer the same. -/
structure ClassScope.Alike (index : Option MemberIndex) (owner other : ClassScope) : Prop where
  name : owner.name = other.name
  superClass : owner.superClass = other.superClass
  statics : ∀ name, owner.statics.contains name = other.statics.contains name
  offers : ∀ name, owner.offers index name = other.offers index name

namespace ClassScope

variable {index : Option MemberIndex} {owner other : ClassScope}

theorem Alike.refl (owner : ClassScope) : Alike index owner owner :=
  ⟨rfl, rfl, fun _ => rfl, fun _ => rfl⟩

/-- Classes stay alike if both learn the same member. -/
theorem Alike.learned {owner' other' : ClassScope} {added : String} {isStatic : Bool}
    (alike : Alike index owner other) (learned : owner.Learned owner' added isStatic)
    (otherLearned : other.Learned other' added isStatic) : Alike index owner' other' where
  name := by rw [learned.name, otherLearned.name, alike.name]
  superClass := by rw [learned.superClass, otherLearned.superClass, alike.superClass]
  statics name := by rw [learned.statics, otherLearned.statics, alike.statics]
  offers name := by
    have same := alike.offers name
    unfold ClassScope.offers at same ⊢
    rw [learned.members, otherLearned.members, learned.superClass, otherLearned.superClass,
      Bool.or_right_comm, same, Bool.or_right_comm]

theorem Learned.putMethod (known : ClassScope) (function : FunctionScope) :
    known.Learned (known.putMethod function) function.name false where
  name := rfl
  superClass := rfl
  members := hasMember_putMethod known function
  statics _ := (Bool.or_false _).symm

theorem Learned.openMethod (known : ClassScope) (name : String) (isStatic : Bool) :
    known.Learned ((known.putMethod { name }).addStatic name isStatic) name isStatic where
  name := name_addStatic _ _ _
  superClass := superClass_addStatic _ _ _
  members other := by rw [hasMember_addStatic, hasMember_putMethod]
  statics other := contains_statics_addStatic _ name other isStatic

end ClassScope

/-- Scopes that differ in their classes alone, which are alike. -/
structure Scope.Alike (index : Option MemberIndex) (scope other : Scope) : Prop where
  owner : Option.Rel (ClassScope.Alike index) scope.owner other.owner
  frames : scope.frames = other.frames
  inMemberBody : scope.inMemberBody = other.inMemberBody

namespace Scope.Alike

variable {index : Option MemberIndex} {scope other : Scope}

theorem refl (scope : Scope) : Scope.Alike index scope scope := by
  refine ⟨?_, rfl, rfl⟩
  cases scope.owner with
  | none => exact .none
  | some owner => exact .some (.refl owner)

/-- Alike scopes ask for the same receivers. -/
theorem qualifier (alike : Scope.Alike index scope other) (name : String) :
    scope.qualifier index name = other.qualifier index name := by
  obtain ⟨owner, frames, inMemberBody⟩ := scope
  obtain ⟨otherOwner, otherFrames, otherMark⟩ := other
  obtain ⟨owners, sameFrames, sameMark⟩ := alike
  cases sameFrames
  cases sameMark
  rw [qualifier_eq, qualifier_eq]
  cases owners with
  | none => rfl
  | some owners =>
      dsimp only [Option.bind_some]
      rw [owners.name, owners.statics, owners.offers]
      rfl

theorem modifyFunction (alike : Scope.Alike index scope other)
    (change : FunctionScope → FunctionScope) :
    Scope.Alike index (scope.modifyFunction change) (other.modifyFunction change) := by
  obtain ⟨owner, frames, inMemberBody⟩ := scope
  obtain ⟨otherOwner, otherFrames, otherMark⟩ := other
  obtain ⟨owners, sameFrames, sameMark⟩ := alike
  cases sameFrames
  cases frames with
  | nil => exact ⟨owners, rfl, sameMark⟩
  | cons frame rest => exact ⟨owners, rfl, sameMark⟩

theorem addProperty (alike : Scope.Alike index scope other) (name : String) (isStatic : Bool) :
    Scope.Alike index
      { scope with owner := scope.owner.map fun owner => owner.addProperty name isStatic }
      { other with owner := other.owner.map fun owner => owner.addProperty name isStatic } := by
  obtain ⟨owner, frames, inMemberBody⟩ := scope
  obtain ⟨otherOwner, otherFrames, otherMark⟩ := other
  obtain ⟨owners, sameFrames, sameMark⟩ := alike
  cases owners with
  | none => exact ⟨.none, sameFrames, sameMark⟩
  | some owners =>
      exact ⟨.some (owners.learned (.addProperty _ _ _) (.addProperty _ _ _)), sameFrames, sameMark⟩

theorem openFunction (alike : Scope.Alike index scope other) (name : String)
    (isMethod isStatic : Bool) :
    Scope.Alike index (scope.openFunction name isMethod isStatic)
      (other.openFunction name isMethod isStatic) := by
  obtain ⟨owner, frames, inMemberBody⟩ := scope
  obtain ⟨otherOwner, otherFrames, otherMark⟩ := other
  obtain ⟨owners, sameFrames, sameMark⟩ := alike
  cases sameFrames
  cases owners with
  | none => cases isMethod <;> exact ⟨.none, rfl, sameMark⟩
  | some owners =>
      cases isMethod with
      | false => exact ⟨.some owners, rfl, sameMark⟩
      | true =>
          exact ⟨.some (owners.learned (.openMethod _ _ _) (.openMethod _ _ _)), rfl, sameMark⟩

theorem closeFunction (alike : Scope.Alike index scope other) :
    Scope.Alike index scope.closeFunction other.closeFunction := by
  obtain ⟨owner, frames, inMemberBody⟩ := scope
  obtain ⟨otherOwner, otherFrames, otherMark⟩ := other
  obtain ⟨owners, sameFrames, sameMark⟩ := alike
  cases sameFrames
  cases frames with
  | nil => exact ⟨owners, rfl, sameMark⟩
  | cons frame rest =>
      obtain ⟨function, isMethod⟩ := frame
      cases isMethod with
      | false => exact ⟨owners, rfl, sameMark⟩
      | true =>
          cases owners with
          | none => exact ⟨.none, rfl, sameMark⟩
          | some owners =>
              exact ⟨.some (owners.learned (.putMethod _ _) (.putMethod _ _)), rfl, sameMark⟩

end Scope.Alike

/-- Stacks that differ in their classes alone, which are alike. -/
structure ScopeStack.Alike (index : Option MemberIndex) (stack other : ScopeStack) : Prop where
  top : stack.top.Alike index other.top
  outer : List.Forall₂ (Scope.Alike index) stack.outer other.outer

namespace ScopeStack.Alike

variable {index : Option MemberIndex} {stack other : ScopeStack}

theorem declareParam (alike : stack.Alike index other) (name : String) :
    (stack.declareParam name).Alike index (other.declareParam name) :=
  ⟨alike.top.modifyFunction fun function => { function with params := function.params ++ [name] },
    alike.outer⟩

theorem declareLocal (alike : stack.Alike index other) (name : String) :
    (stack.declareLocal name).Alike index (other.declareLocal name) :=
  ⟨alike.top.modifyFunction fun function => { function with locals := function.locals ++ [name] },
    alike.outer⟩

theorem declareProperty (alike : stack.Alike index other) (name : String) (isStatic : Bool) :
    (stack.declareProperty name isStatic).Alike index (other.declareProperty name isStatic) :=
  ⟨alike.top.addProperty name isStatic, alike.outer⟩

theorem enterFunction (alike : stack.Alike index other) (name : String)
    (isMethod isStatic : Bool) :
    (stack.enterFunction name isMethod isStatic).Alike index
      (other.enterFunction name isMethod isStatic) :=
  ⟨alike.top.openFunction name isMethod isStatic, alike.outer⟩

theorem exitFunction (alike : stack.Alike index other) :
    stack.exitFunction.1.Alike index other.exitFunction.1 :=
  ⟨alike.top.closeFunction, alike.outer⟩

theorem markMemberBody (alike : stack.Alike index other) (active : Bool) :
    (stack.markMemberBody active).Alike index (other.markMemberBody active) :=
  ⟨⟨alike.top.owner, alike.top.frames, rfl⟩, alike.outer⟩

theorem enterClass (alike : stack.Alike index other) (name : String)
    (superClass : Option String) :
    (stack.enterClass name superClass).Alike index (other.enterClass name superClass) :=
  ⟨.refl _, .cons alike.top alike.outer⟩

theorem exitClass (alike : stack.Alike index other) :
    stack.exitClass.1.Alike index other.exitClass.1 := by
  obtain ⟨top, outer⟩ := stack
  obtain ⟨otherTop, otherOuter⟩ := other
  obtain ⟨tops, outers⟩ := alike
  cases outers with
  | nil => exact ⟨tops, .nil⟩
  | cons below rest => exact ⟨below, rest⟩

end ScopeStack.Alike

/-! ## Printing in alike classes -/

/-- A state that differs from another in its scopes alone, which are alike. -/
def PrinterState.Alike (index : Option MemberIndex) (state other : PrinterState) : Prop :=
  ∃ scopes : ScopeStack, state.scopes.Alike index scopes ∧ other = { state with scopes }

namespace Printer

variable {settings : Settings} {Result : Type}

/-- Printers that come to the same in alike states. -/
abbrev ActsAlike (settings : Settings) (first second : Printer Result) : Prop :=
  Simulates settings (PrinterState.Alike settings.index) (PrinterState.Alike settings.index)
    first second

namespace ActsAlike

theorem tolerant (index : Option MemberIndex) : Tolerant (PrinterState.Alike index) where
  sameText := by
    rintro state _ ⟨scopes, alike, rfl⟩
    rfl
  withText := by
    rintro state _ text ⟨scopes, alike, rfl⟩
    exact ⟨scopes, alike, rfl⟩
  withProblem := by
    rintro state _ diagnostic isProblem ⟨scopes, alike, rfl⟩
    exact ⟨scopes, alike, rfl⟩

theorem modifyScopes {change : ScopeStack → ScopeStack}
    (keeps : ∀ stack other : ScopeStack, stack.Alike settings.index other →
      (change stack).Alike settings.index (change other)) :
    ActsAlike settings (modifyScopes change) (modifyScopes change) :=
  Simulates.ofChanges _ _ fun _ _ alike => by
    obtain ⟨scopes, alike, rfl⟩ := alike
    exact ⟨change scopes, keeps _ _ alike, rfl⟩

theorem name (role : Role) (source : String) :
    ActsAlike settings (name role source) (name role source) := by
  rintro state _ ⟨scopes, alike, rfl⟩
  have sameReceiver (renamed : String) : scopes.qualifier settings.index renamed =
      state.scopes.qualifier settings.index renamed := (alike.top.qualifier renamed).symm
  by_cases bare : role.isBare
  · rw [outcome_name bare, outcome_name bare, sameReceiver]
    exact .inr ⟨_, _, _, rfl, rfl, scopes, alike, rfl⟩
  · cases role
    case parameter => exact .inr ⟨_, _, _, rfl, rfl, _, alike.declareParam _, rfl⟩
    case declaredName => exact .inr ⟨_, _, _, rfl, rfl, _, alike.declareLocal _, rfl⟩
    case typeName | memberName | key => exact .inr ⟨_, _, _, rfl, rfl, scopes, alike, rfl⟩
    all_goals exact absurd rfl bare

/-- A printer between two changes of the scopes. -/
theorem between {opened closed : ScopeStack → ScopeStack} {first second : Printer Unit}
    (opens : ∀ stack other : ScopeStack, stack.Alike settings.index other →
      (opened stack).Alike settings.index (opened other))
    (inside : ActsAlike settings first second)
    (closes : ∀ stack other : ScopeStack, stack.Alike settings.index other →
      (closed stack).Alike settings.index (closed other)) :
    ActsAlike settings
      (do Printer.modifyScopes opened; first; Printer.modifyScopes closed)
      (do Printer.modifyScopes opened; second; Printer.modifyScopes closed) :=
  (modifyScopes opens).andThen (inside.andThen (modifyScopes closes))

theorem withinFunction (name : String) (isMethod isStatic : Bool) {first second : Printer Unit}
    (inside : ActsAlike settings first second) :
    ActsAlike settings (withinFunction name isMethod isStatic first)
      (withinFunction name isMethod isStatic second) :=
  between (fun _ _ alike => alike.enterFunction name isMethod isStatic) inside
    fun _ _ alike => alike.exitFunction

theorem withinMemberBody {first second : Printer Unit} (inside : ActsAlike settings first second) :
    ActsAlike settings (withinMemberBody first) (withinMemberBody second) := by
  rintro state _ ⟨scopes, alike, rfl⟩
  have sameMark : scopes.top.inMemberBody = state.scopes.top.inMemberBody :=
    alike.top.inMemberBody.symm
  have marked := between (fun _ _ alike => alike.markMemberBody true) inside
    (fun _ _ alike => alike.markMemberBody state.scopes.top.inMemberBody) state _
    ⟨scopes, alike, rfl⟩
  simp only [Printer.withinMemberBody, outcome_bind, outcome_get, sameMark] at marked ⊢
  exact marked

theorem withinClass (name : String) (superClass : Option String) {first second : Printer Unit}
    (inside : ActsAlike settings first second) :
    ActsAlike settings
      (do Printer.modifyScopes fun scopes => scopes.enterClass name superClass
          first
          Printer.modifyScopes fun scopes => scopes.exitClass.1)
      (do Printer.modifyScopes fun scopes => scopes.enterClass name superClass
          second
          Printer.modifyScopes fun scopes => scopes.exitClass.1) :=
  between (fun _ _ alike => alike.enterClass name superClass) inside
    fun _ _ alike => alike.exitClass

theorem isCongruence (settings : Settings) :
    ScopedCongruence fun {Result} (first second : Printer Result) =>
      ActsAlike settings first second where
  __ := Simulates.textCongruence (tolerant settings.index)
  modifyTypes _ := Simulates.ofChanges _ _ fun _ _ alike => by
    obtain ⟨scopes, alike, rfl⟩ := alike
    exact ⟨scopes, alike, rfl⟩
  name := name
  declaredName := name .declaredName
  declareLocal name := modifyScopes fun _ _ alike => alike.declareLocal name
  withinFunction name _ _ := withinFunction name false false
  withinMemberBody := withinMemberBody
  declareProperty name isStatic :=
    modifyScopes fun _ _ alike => alike.declareProperty name isStatic
  withinMethod name isStatic _ _ := withinFunction name true isStatic
  withinClass name superClass _ _ := withinClass name superClass

end ActsAlike

end Printer

/-! ## Members of a superclass -/

/-- What stands in the body of a class. -/
def Node.classMembers (node : Node) : List Node :=
  match node.shape with
  | .classDefinition _ _ _ _ _ body _ => body.children
  | _ => []

namespace ClassEntry

theorem hasMember_addProperty (entry : ClassEntry) (added name : String) :
    (entry.addProperty added).hasMember name = (entry.hasMember name || decide (name = added)) := by
  simp [hasMember, addProperty, Bool.or_right_comm]

theorem hasMember_addMethod (entry : ClassEntry) {added : String} (plain : added ≠ "constructor")
    (name : String) :
    (entry.addMethod added).hasMember name = (entry.hasMember name || decide (name = added)) := by
  unfold addMethod
  by_cases known : added ∈ entry.methods
  · rw [if_pos (.inr known)]
    by_cases same : name = added
    · simp [hasMember, same, known]
    · simp [same]
  · rw [if_neg (not_or.mpr ⟨plain, known⟩)]
    simp [hasMember, Bool.or_assoc]

/-- No member is forgotten. -/
theorem hasMember_addMember {entry : ClassEntry} {name : String}
    (has : entry.hasMember name = true) (member : Node) :
    (entry.addMember member).hasMember name = true := by
  unfold addMember
  split
  · split
    · rw [hasMember_addProperty, has]
      rfl
    · exact has
  · split
    · next key _ =>
        by_cases plain : key = "constructor"
        · rw [addMethod, if_pos (.inl plain)]
          exact has
        · rw [hasMember_addMethod _ plain, has]
          rfl
    · exact has
  · exact has

theorem hasMember_addMember_self (entry : ClassEntry) {member : Node} {key : String}
    {isStatic : Bool} (named : member.memberKey? = some (key, isStatic)) :
    (entry.addMember member).hasMember key = true := by
  obtain ⟨location, shape⟩ := member
  cases shape
  case classProperty marks keyNode value type decorators =>
    obtain ⟨source, isKey, same⟩ := Option.map_eq_some_iff.mp named
    cases same
    simp [addMember, isKey, hasMember_addProperty]
  case method form marks keyNode value =>
    change (if _ then none else _) = _ at named
    split at named
    · cases named
    · obtain ⟨source, isKey, same⟩ := Option.map_eq_some_iff.mp named
      cases same
      obtain ⟨isName, plain⟩ := Option.filter_eq_some_iff.mp isKey
      simp [addMember, isName, hasMember_addMethod entry (of_decide_eq_true plain)]
  all_goals cases named

/-- The entry of a class has the names that its members are written with. -/
theorem hasMember_of_memberKey {file : String} {base member : Node} {entry : ClassEntry}
    {key : String} {isStatic : Bool} (isEntry : ofNode? file base = some entry)
    (isMember : member ∈ base.classMembers) (named : member.memberKey? = some (key, isStatic)) :
    entry.hasMember key = true := by
  have folded : ∀ (members : List Node) (start : ClassEntry),
      (start.hasMember key = true ∨ member ∈ members) →
        (members.foldl addMember start).hasMember key = true := by
    intro members
    induction members with
    | nil =>
        rintro start (has | absent)
        · exact has
        · cases absent
    | cons other rest ih =>
        rintro start (has | place)
        · exact ih _ (.inl (hasMember_addMember has other))
        · rcases List.mem_cons.mp place with rfl | place
          · exact ih _ (.inl (start.hasMember_addMember_self named))
          · exact ih _ (.inr place)
  obtain ⟨location, shape⟩ := base
  cases shape
  case classDefinition form marks name superClass implementing body decorators =>
    cases form with
    | declaration =>
        obtain ⟨className, -, rfl⟩ := Option.map_eq_some_iff.mp isEntry
        exact folded _ _ (.inr isMember)
    | expression => cases isEntry
  all_goals cases isEntry

end ClassEntry

/-- A class inherits from the class that is known under the name of its superclass. -/
theorem MemberIndex.inherits_of_find {index : MemberIndex} {name member : String}
    {entry : ClassEntry} (kept : index.find? name = some entry)
    (has : entry.hasMember member = true) : index.inherits name member = true := by
  have nonempty : index.size ≠ 0 := by
    intro empty
    have none : index.classes.entries = [] := List.length_eq_zero_iff.mp empty
    unfold find? OrderedMap.find? at kept
    rw [none] at kept
    cases kept
  obtain ⟨bound, isSize⟩ := Nat.exists_eq_succ_of_ne_zero nonempty
  unfold inherits
  rw [isSize, lineage, kept]
  exact List.any_eq_true.mpr ⟨entry, List.mem_cons_self, has⟩

/-! ## Declared and inherited -/

/-- The body of a member of a class, where nothing is bound. -/
def Scope.inBody (owner : Option ClassScope) : Scope :=
  { owner, frames := [⟨{ name := "" }, false⟩], inMemberBody := true }

theorem Scope.qualifier_inBody (owner : ClassScope) (index : Option MemberIndex) (name : String) :
    (Scope.inBody (some owner)).qualifier index name =
      if owner.statics.contains name then some (owner.name ++ ".")
      else if owner.offers index name then some "this."
      else none :=
  qualifier_eq _ index name

namespace ClassScope.Learned

variable {index : Option MemberIndex} {known later : ClassScope} {added : String}

/-- A class does not change by declaring a member that it offers already. -/
theorem alike (learned : known.Learned later added false)
    (offered : known.offers index added = true) : Alike index known later where
  name := learned.name.symm
  superClass := learned.superClass.symm
  statics name := by
    rw [learned.statics, Bool.false_and, Bool.or_false]
  offers name := by
    by_cases same : name = added
    · rw [same, offered]
      unfold ClassScope.offers
      simp [learned.members]
    · unfold ClassScope.offers
      rw [learned.members, learned.superClass, decide_eq_false same, Bool.or_false]

/-- The receiver of a static member is its class, and that of others is `this`. -/
theorem qualifier {isStatic : Bool} (learned : known.Learned later added isStatic)
    (fresh : known.statics.contains added = false) :
    (Scope.inBody (some later)).qualifier index added =
      some (if isStatic then known.name ++ "." else "this.") := by
  have offered : later.offers index added = true := by
    unfold ClassScope.offers
    simp [learned.members]
  rw [Scope.qualifier_inBody, learned.statics, learned.name, fresh, offered]
  cases isStatic <;> simp

/-- A member that is declared and one that is offered already have the same receiver
only if the member belongs to instances. -/
theorem offered_of_qualifier {isStatic : Bool} (learned : known.Learned later added isStatic)
    (fresh : known.statics.contains added = false) (notThis : known.name ≠ "this")
    (same : ((Scope.inBody (some known)).qualifier index added).getD "" =
      ((Scope.inBody (some later)).qualifier index added).getD "") :
    isStatic = false ∧ known.offers index added = true := by
  rw [learned.qualifier fresh, Scope.qualifier_inBody, fresh] at same
  have nonempty : (if isStatic then known.name ++ "." else "this.") ≠ "" := by
    intro empty
    have noCharacters := congrArg String.toList empty
    cases isStatic <;> simp [String.toList_append] at noCharacters
  cases offered : known.offers index added with
  | false =>
      rw [offered] at same
      exact absurd same.symm nonempty
  | true =>
      rw [offered] at same
      cases isStatic with
      | false => exact ⟨rfl, rfl⟩
      | true =>
          have isThis : "this".toList ++ ".".toList = known.name.toList ++ ".".toList := by
            rw [← String.toList_append, ← String.toList_append]
            exact congrArg String.toList same
          exact absurd (String.toList_injective (List.append_cancel_right isThis)).symm notThis

end ClassScope.Learned

/-- The state with the class that another state is in. -/
def PrinterState.inClassOf (state other : PrinterState) : PrinterState :=
  { state with
    scopes := state.scopes.modifyTop fun scope => { scope with owner := other.scopes.top.owner } }

/-- What shows of a state in generated code. -/
def PrinterState.code (state : PrinterState) : IndentedText × TypeImports × List Diagnostic :=
  (state.text, state.types, state.diagnostics)

/-- Whether a printer comes to the same code from two states, or stops alike. -/
def Printer.SameCode (printer : Printer Unit) (settings : Settings) (state other : PrinterState) :
    Prop :=
  (printer.outcome settings state).map (fun reached => reached.2.code) =
    (printer.outcome settings other).map fun reached => reached.2.code

/-- A tree is printed alike in alike classes. -/
theorem Node.sameCode_of_alike {settings : Settings} {state other : PrinterState}
    (alike : state.Alike settings.index other) (node : Node) :
    node.print.SameCode settings state other := by
  obtain ⟨scopes, alike, rfl⟩ := alike
  unfold Printer.SameCode
  rw [(node.outcome_print settings _).1, (node.outcome_print settings _).1]
  rcases (Printer.ActsAlike.isCongruence settings).printAs node state.role.ofTree
    { state with role := .plain } _ ⟨scopes, alike, rfl⟩ with
    ⟨diagnostic, stops, alsoStops⟩ | ⟨value, next, _, ends, alsoEnds, ⟨reached, -, rfl⟩⟩
  · rw [stops, alsoStops]
  · rw [ends, alsoEnds]
    rfl

/-- Without indentation nothing but the text itself is written. -/
theorem IndentedText.characters_write_of_flat (text : IndentedText) (flat : text.level = 0)
    (added : String) :
    (text.write added).characters = text.characters ++ added.toList ∧
      (text.write added).level = 0 := by
  have continues : text.Continues added.toList (text.write added) :=
    continues_write (.inl flat) (.inl flat)
  refine ⟨?_, continues.level.trans flat⟩
  rw [characters, continues.reversed flat, List.reverse_append, List.reverse_reverse]
  rfl

/-- A reference by a bare name is the name behind its receiver. -/
theorem Node.code_reference (settings : Settings) (owner : Option ClassScope) (key : String) :
    ∃ next, (Node.print ⟨{}, .identifier key none false⟩).outcome settings
        { scopes := { top := .inBody owner } } = .ok ((), next) ∧
      next.text.characters =
        (((Scope.inBody owner).qualifier settings.index
          (settings.options.renameIdentifier key)).getD "").toList ++
        (settings.options.renameIdentifier key).toList := by
  let receiver := ((Scope.inBody owner).qualifier settings.index
    (settings.options.renameIdentifier key)).getD ""
  obtain ⟨written, flat⟩ :=
    IndentedText.characters_write_of_flat PrinterState.start.text rfl receiver
  obtain ⟨all, -⟩ :=
    IndentedText.characters_write_of_flat _ flat (settings.options.renameIdentifier key)
  refine ⟨_, rfl, ?_⟩
  exact all.trans (congrArg (· ++ _) written)

/-- A member that a class inherits and the same member, declared at the top of the
class, lead to the same code wherever the class is referred to, if and only if the
member belongs to instances and its new name is written for some member of an
ancestor. -/
theorem Node.print_inherited {settings : Settings} {index : MemberIndex} {base member : Node}
    {file superName className key : String} {isStatic : Bool} {entry : ClassEntry}
    {start declared : PrinterState} (indexed : settings.index = some index)
    (isEntry : ClassEntry.ofNode? file base = some entry)
    (kept : index.find? superName = some entry) (isMember : member ∈ base.classMembers)
    (named : member.memberKey? = some (key, isStatic))
    (inside : ∀ part ∈ member.shape.parts, part.DeclaresNoMembers)
    (notThis : className ≠ "this")
    (atTop : start.scopes.top.owner = some { name := className, superClass := some superName })
    (ends : member.print.outcome settings start = .ok ((), declared)) :
    index.inherits superName key = true ∧
    ((∀ (node : Node) (state : PrinterState),
        node.print.SameCode settings (state.inClassOf start) (state.inClassOf declared)) ↔
      isStatic = false ∧
        index.inherits superName (settings.options.renameIdentifier key) = true) := by
  refine ⟨MemberIndex.inherits_of_find kept
    (ClassEntry.hasMember_of_memberKey isEntry isMember named), ?_⟩
  rw [(member.outcome_print settings start).1] at ends
  obtain ⟨later, isLater, learned⟩ :=
    member.declares_member settings named inside start.role.ofTree _ _ _ _ ends atTop
  have offers : ClassScope.offers { name := className, superClass := some superName } settings.index
      (settings.options.renameIdentifier key) =
        index.inherits superName (settings.options.renameIdentifier key) := by
    rw [indexed]
    rfl
  rw [← offers]
  constructor
  · intro same
    obtain ⟨first, prints, firstText⟩ := Node.code_reference settings start.scopes.top.owner key
    obtain ⟨second, alsoPrints, secondText⟩ :=
      Node.code_reference settings declared.scopes.top.owner key
    have sameCode := same ⟨{}, .identifier key none false⟩ { scopes := { top := .inBody none } }
    change (Except.map _ ((Node.print _).outcome settings
      { scopes := { top := Scope.inBody start.scopes.top.owner } })) = Except.map _
      ((Node.print _).outcome settings
        { scopes := { top := Scope.inBody declared.scopes.top.owner } }) at sameCode
    rw [prints, alsoPrints] at sameCode
    have sameText : first.text = second.text := congrArg Prod.fst (Except.ok.inj sameCode)
    rw [sameText, secondText, atTop, isLater] at firstText
    have sameReceiver := String.toList_injective (List.append_cancel_right firstText)
    exact learned.offered_of_qualifier rfl notThis sameReceiver.symm
  · rintro ⟨rfl, offered⟩ node state
    apply node.sameCode_of_alike
    refine ⟨(state.inClassOf declared).scopes, ⟨⟨?_, rfl, rfl⟩, ?_⟩, rfl⟩
    · change Option.Rel _ start.scopes.top.owner declared.scopes.top.owner
      rw [atTop, isLater]
      exact .some (learned.alike offered)
    · exact List.forall₂_same.mpr fun scope _ => .refl scope

/-! ## A field of a superclass -/

/-- The declaration of a field. -/
def wings (isStatic : Bool) : Node :=
  ⟨{}, .classProperty { static := isStatic } ⟨{}, .identifier "wings" none false⟩ none none []⟩

/-- A class with some members. -/
def bee (members : List Node) : Node :=
  ⟨{}, .classDefinition .declaration {} (some ⟨{}, .identifier "Bee" none false⟩) none []
    ⟨{}, .group .classBody members⟩ []⟩

/-- A subclass with some members, and with a method that refers to the field. -/
def drone (members : List Node) : Node :=
  let name (text : String) : Node := ⟨{}, .identifier text none false⟩
  let fly : Node := ⟨{}, .method .concrete {} (name "fly") ⟨{}, .function .expression {} none []
    (some ⟨{}, .group .block [⟨{}, .expressionStatement (name "wings")⟩]⟩) none⟩⟩
  ⟨{}, .classDefinition .declaration {} (some (name "Drone")) (some (name "Bee")) []
    ⟨{}, .group .classBody (members ++ [fly])⟩ []⟩

/-- Settings with the class in the index and with some new names. -/
def apiary (members : List Node) (identifiers : Renaming) : Settings where
  options := { identifiers }
  index := some (MemberIndex.collect {} ⟨{}, .group .program [bee members]⟩ "Bee.as")

/-- The code of the subclass. -/
def droneText (members receiver : String) : String :=
  "import \x7bBee\x7d from \"./Bee\";\nclass Drone extends Bee \x7b\n" ++ members ++
    "    fly() \x7b\n        " ++ receiver ++ ";\n    \x7d\n\x7d"

/-- A field with a new name has no receiver if it is inherited, and a static field has
another one, than if the field is declared at the top of the subclass. -/
theorem Settings.generate_inherited_apart :
    (let settings := apiary [wings false] ⟨[("wings", "sails")]⟩
    (settings.generate (drone [])).toOption.map Generated.text =
        some (droneText "" "sails") ∧
      (settings.generate (drone [wings false])).toOption.map Generated.text =
        some (droneText "    sails;\n" "this.sails")) ∧
    (let settings := apiary [wings true] {}
    (settings.generate (drone [])).toOption.map Generated.text =
        some (droneText "" "this.wings") ∧
      (settings.generate (drone [wings true])).toOption.map Generated.text =
        some (droneText "    static wings;\n" "Drone.wings")) := by
  decide +kernel

/-- At the top of the subclass. -/
def atDrone : PrinterState where
  text := PrinterState.start.text
  scopes := ⟨{ owner := some { name := "Drone", superClass := some "Bee" } }, [{}]⟩

theorem Node.print_inherited_wings :
    let settings := apiary [wings false] ⟨[("fly", "hum")]⟩
    ∃ declared, (wings false).print.outcome settings atDrone = .ok ((), declared) ∧
      declared.text.toString = "wings;" ∧
      ∀ (node : Node) (state : PrinterState),
        node.print.SameCode settings (state.inClassOf atDrone) (state.inClassOf declared) := by
  intro settings
  have printed : ((wings false).print.outcome settings atDrone).toOption.map
      (fun reached => reached.2.text.toString) = some "wings;" := by
    decide
  have kept : (MemberIndex.collect {} ⟨{}, .group .program [bee [wings false]]⟩ "Bee.as").find?
      "Bee" = some { name := "Bee", file := "Bee.as", properties := ["wings"] } := by
    decide
  have isEntry : ClassEntry.ofNode? "Bee.as" (bee [wings false]) =
      some { name := "Bee", file := "Bee.as", properties := ["wings"] } := by
    decide
  cases ends : (wings false).print.outcome settings atDrone with
  | error diagnostic =>
      rw [ends] at printed
      cases printed
  | ok reached =>
      rw [ends] at printed
      have named : (wings false).memberKey? = some ("wings", false) := rfl
      obtain ⟨offered, iff⟩ := Node.print_inherited rfl isEntry kept List.mem_cons_self named
        (by decide) (by decide) rfl ends
      exact ⟨reached.2, rfl, Option.some.inj printed, iff.mpr ⟨rfl, offered⟩⟩

end ScriptBridge

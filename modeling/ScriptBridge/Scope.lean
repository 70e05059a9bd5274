import ScriptBridge.MemberIndex

/-!
# Scopes

While code is generated, a stack of scopes knows the class and the functions
that enclose the current place.  Members become known when their declaration is
met.  A bare name that stands for a member needs a receiver in front of it.
-/

namespace ScriptBridge

/-- A function, with the names that it binds in the order of their declaration. -/
structure FunctionScope where
  name : String
  params : List String := []
  locals : List String := []
  deriving DecidableEq, Repr

/-- Whether a function binds a name by itself. -/
def FunctionScope.binds (function : FunctionScope) (name : String) : Bool :=
  function.params.contains name || function.locals.contains name

/-- A class, with the members declared so far. -/
structure ClassScope where
  name : String
  superClass : Option String := none
  properties : List String := []
  methods : OrderedMap String FunctionScope := {}
  statics : List String := []
  deriving DecidableEq, Repr

namespace ClassScope

/-- Whether a member has been declared. -/
def hasMember (owner : ClassScope) (name : String) : Bool :=
  owner.methods.contains name || owner.properties.contains name

/-- Note once that a member belongs to the class itself. -/
def addStatic (owner : ClassScope) (name : String) (isStatic : Bool) : ClassScope :=
  if isStatic && !owner.statics.contains name then
    { owner with statics := owner.statics ++ [name] }
  else owner

/-- Declare a property. -/
def addProperty (owner : ClassScope) (name : String) (isStatic : Bool) : ClassScope :=
  { owner with properties := owner.properties ++ [name] }.addStatic name isStatic

/-- Declare a method, or renew what is known of it. -/
def putMethod (owner : ClassScope) (function : FunctionScope) : ClassScope :=
  { owner with methods := owner.methods.insert function.name function }

end ClassScope

/-- An open function; a method is known to its class. -/
structure Frame where
  function : FunctionScope
  isMethod : Bool
  deriving DecidableEq, Repr

/-- A scope: its class, the open functions with the innermost first, and whether
the current place is in the body of a member. -/
structure Scope where
  owner : Option ClassScope := none
  frames : List Frame := []
  inMemberBody : Bool := false
  deriving DecidableEq, Repr

namespace Scope

/-- Change the innermost function. -/
def modifyFunction (scope : Scope) (change : FunctionScope → FunctionScope) : Scope :=
  match scope.frames with
  | [] => scope
  | frame :: rest =>
      { scope with frames := { frame with function := change frame.function } :: rest }

/-- Open a function.  A method is declared at once, so that its own body knows
it; outside classes there are no methods. -/
def openFunction (scope : Scope) (name : String) (isMethod isStatic : Bool) : Scope :=
  match scope.owner, isMethod with
  | some owner, true =>
      { scope with
        owner := some ((owner.putMethod { name }).addStatic name isStatic)
        frames := ⟨{ name }, true⟩ :: scope.frames }
  | _, _ => { scope with frames := ⟨{ name }, false⟩ :: scope.frames }

/-- Close the innermost function.  The class keeps what a method bound. -/
def closeFunction (scope : Scope) : Scope :=
  match scope.frames with
  | [] => scope
  | frame :: rest =>
      { scope with
        owner :=
          if frame.isMethod then scope.owner.map fun owner => owner.putMethod frame.function
          else scope.owner
        frames := rest }

/-- Whether one of the open functions binds a name. -/
def bindsName (scope : Scope) (name : String) : Bool :=
  scope.frames.any fun frame => frame.function.binds name

/-- What stands in front of a bare name: the class for its static members,
`this` for its other members and for inherited ones, and nothing for names bound
by a function or used outside the body of a member. -/
def qualifier (scope : Scope) (index : Option MemberIndex) (name : String) : Option String :=
  match scope.owner with
  | none => none
  | some owner =>
      if !scope.inMemberBody || scope.frames.isEmpty || scope.bindsName name then none
      else if owner.statics.contains name then some (owner.name ++ ".")
      else if owner.hasMember name then some "this."
      else
        match index, owner.superClass with
        | some index, some superClass =>
            if index.inherits superClass name then some "this." else none
        | _, _ => none

end Scope

/-- The scopes of the enclosing classes, around one scope outside all classes. -/
structure ScopeStack where
  top : Scope := {}
  outer : List Scope := []
  deriving DecidableEq, Repr

namespace ScopeStack

/-- Change the innermost scope. -/
def modifyTop (stack : ScopeStack) (change : Scope → Scope) : ScopeStack :=
  { stack with top := change stack.top }

/-- The class around the current place. -/
def currentClass? (stack : ScopeStack) : Option ClassScope :=
  stack.top.owner

/-- The innermost function around the current place, within its class. -/
def currentFunction? (stack : ScopeStack) : Option FunctionScope :=
  stack.top.frames.head?.map Frame.function

/-- Enter a class. -/
def enterClass (stack : ScopeStack) (name : String) (superClass : Option String) :
    ScopeStack :=
  ⟨{ owner := some { name, superClass } }, stack.top :: stack.outer⟩

/-- Leave a class; gives the class that was left. -/
def exitClass (stack : ScopeStack) : ScopeStack × Option ClassScope :=
  match stack.outer with
  | [] => (stack, none)
  | below :: rest => (⟨below, rest⟩, stack.top.owner)

/-- Enter a function. -/
def enterFunction (stack : ScopeStack) (name : String) (isMethod isStatic : Bool) :
    ScopeStack :=
  stack.modifyTop fun scope => scope.openFunction name isMethod isStatic

/-- Leave a function; gives the function that was left. -/
def exitFunction (stack : ScopeStack) : ScopeStack × Option FunctionScope :=
  (stack.modifyTop Scope.closeFunction, stack.currentFunction?)

/-- Declare a property of the class. -/
def declareProperty (stack : ScopeStack) (name : String) (isStatic : Bool) : ScopeStack :=
  stack.modifyTop fun scope =>
    { scope with owner := scope.owner.map fun owner => owner.addProperty name isStatic }

/-- Declare a parameter of the innermost function. -/
def declareParam (stack : ScopeStack) (name : String) : ScopeStack :=
  stack.modifyTop fun scope =>
    scope.modifyFunction fun function => { function with params := function.params ++ [name] }

/-- Declare a local name of the innermost function. -/
def declareLocal (stack : ScopeStack) (name : String) : ScopeStack :=
  stack.modifyTop fun scope =>
    scope.modifyFunction fun function => { function with locals := function.locals ++ [name] }

/-- Set whether the current place is in the body of a member. -/
def markMemberBody (stack : ScopeStack) (active : Bool) : ScopeStack :=
  stack.modifyTop fun scope => { scope with inMemberBody := active }

/-- What stands in front of a bare name. -/
def qualifier (stack : ScopeStack) (index : Option MemberIndex) (name : String) :
    Option String :=
  stack.top.qualifier index name

end ScopeStack

end ScriptBridge

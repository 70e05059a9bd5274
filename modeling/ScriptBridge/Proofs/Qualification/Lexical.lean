import ScriptBridge.Proofs.Printing.Outcome

/-!
# Lexical qualification

A bare name that stands for a member gets a receiver.  Here the receiver is
decided by the place of the name in the tree: by the classes, functions and
member bodies that enclose it, and by what was declared in them earlier.

Trees are printed once more, with the enclosing regions handed down from each
construct to its parts.  No scope is looked at.  What is declared on the way is
noted: functions note the names that they bind, and classes note their members.
A note refers to a function or a class by the number that it got when it was
entered.  The notes are kept among the diagnostics, as messages, and are dropped
at the end.
-/

namespace ScriptBridge

/-- Something that was declared, or a region that was entered. -/
inductive Note where
  | entered
  | bound (function : Nat) (name : String)
  | member (owner : Nat) (name : String) (isStatic : Bool)
  deriving DecidableEq

/-- The form in which a note is kept.  No problem is a mere message. -/
def Note.toDiagnostic : Note → Diagnostic
  | .entered => ⟨"", 0, 0, "", .message, 0⟩
  | .bound function name => ⟨"", function, 0, name, .message, 1⟩
  | .member owner name isStatic =>
      ⟨"", owner, if isStatic then 1 else 0, name, .message, 2⟩

def Diagnostic.isNote (diagnostic : Diagnostic) : Bool :=
  diagnostic.severity = .message

/-- Whether something was noted. -/
def noted (log : List Diagnostic) (note : Note) : Bool :=
  log.contains note.toDiagnostic

/-- A class around the current place. -/
structure Owner where
  number : Nat
  name : String
  superClass : Option String

/-- A part of a tree in which names have a meaning of their own. -/
inductive Region where
  | function (number : Nat)
  | memberBody
  | owner (owner : Owner)

/-- The regions around a place, the innermost first. -/
abbrev Address := List Region

namespace Address

/-- The innermost class. -/
def owner? : Address → Option Owner
  | [] => none
  | .owner owner :: _ => some owner
  | _ :: rest => owner? rest

/-- The functions inside the innermost class. -/
def functions : Address → List Nat
  | [] => []
  | .function number :: rest => number :: functions rest
  | .memberBody :: rest => functions rest
  | .owner _ :: _ => []

/-- Whether the place lies in the body of a member of the innermost class. -/
def inMemberBody : Address → Bool
  | [] => false
  | .function _ :: rest => inMemberBody rest
  | .memberBody :: _ => true
  | .owner _ :: _ => false

/-- What stands in front of a bare name: nothing outside the bodies of members
and for names bound by a function around it, the class for its static members,
and `this` for its other members and for those of its ancestors. -/
def receiver? (address : Address) (log : List Diagnostic) (index : Option MemberIndex)
    (name : String) : Option String :=
  match address.owner? with
  | none => none
  | some owner =>
      if !address.inMemberBody ||
          address.functions.any (fun function => noted log (.bound function name)) then none
      else if noted log (.member owner.number name true) then some (owner.name ++ ".")
      else if noted log (.member owner.number name false) then some "this."
      else
        match index, owner.superClass with
        | some index, some superClass =>
            if index.inherits superClass name then some "this." else none
        | _, _ => none

end Address

/-- A part whose printer is told where the part stands. -/
abbrev Placed := Folded (Address → Role → Printer Unit)

/-- The part as it is printed at an address. -/
def Placed.within (part : Placed) (address : Address) : Part :=
  ⟨part.node, part.result address⟩

namespace Printer

def note (added : Note) : Printer Unit :=
  modify fun state => { state with diagnostics := state.diagnostics ++ [added.toDiagnostic] }

/-- Enter a function or a class; gives its number. -/
def enter : Printer Nat := do
  let number := (← get).diagnostics.length
  note .entered
  return number

/-- Note a name that is bound in the innermost function. -/
def noteBound (address : Address) (name : String) : Printer Unit :=
  whenPresent address.functions.head? fun function => note (.bound function name)

/-- Note a member of the innermost class. -/
def noteMember (address : Address) (isStatic : Bool) (name : String) : Printer Unit :=
  whenPresent address.owner? fun owner => note (.member owner.number name isStatic)

/-- A name at an address: bindings are noted, and bare names get a receiver. -/
def nameLexically (address : Address) (role : Role) (source : String) : Printer Unit := do
  let settings ← read
  let renamed := settings.options.renameIdentifier source
  match role with
  | .typeName | .memberName | .key => name role source
  | .parameter | .declaredName =>
      noteBound address renamed
      write renamed
  | _ =>
      let receiver := address.receiver? (← get).diagnostics settings.index renamed
      write (receiver.getD "")
      write renamed

/-- The part as it is printed in a region that is entered for it. -/
def entering (part : Placed) (inner : Nat → Address) : Part :=
  ⟨part.node, fun role => do
    let number ← enter
    part.result (inner number) role⟩

/-- Parameters without a body are a function of their own. -/
def parametersLexically (params : List Placed) (address : Address) : Printer Unit := do
  let number ← enter
  parameters (params.map (·.within (.function number :: address)))

/-- A function with its parts and its body at the given addresses. -/
def functionWithin (location : Location) (form : FunctionForm) (marks : FunctionMarks)
    (functionName : Option Placed) (params : List Placed) (body returnType : Option Placed)
    (address bodyAddress : Address) (role : Role) : Printer Unit :=
  construct location
    (.function form marks (functionName.map (·.within address)) (params.map (·.within address))
      (body.map (·.within bodyAddress)) (returnType.map (·.within address)))
    role

/-- A function.  A declared function is bound outside of itself.  The function of
a method has been entered already, and its body is the body of a member. -/
def functionLexically (location : Location) (form : FunctionForm) (marks : FunctionMarks)
    (functionName : Option Placed) (params : List Placed) (body returnType : Option Placed)
    (address : Address) (role : Role) : Printer Unit :=
  match form, role with
  | .expression, .method .. | .declaration, .method .. | .emptyBody, .method .. =>
      functionWithin location form marks functionName params body returnType address
        (.memberBody :: address) role
  | _, _ => do
      let options ← options
      if form = .declaration then
        whenPresent (functionName.bind (·.node.identifier?)) fun source =>
          noteBound address (options.renameIdentifier source)
      let number ← enter
      let inner := .function number :: address
      functionWithin location form marks functionName params body returnType inner inner role

/-- The key of a property, which is a member from its key on. -/
def propertyKey (isStatic : Bool) (key : Placed) (address : Address) : Part :=
  ⟨key.node, fun role => do
    key.result address role
    whenPresent (← partName? (key.within address)) (noteMember address isStatic)⟩

/-- The function of a method, which is a member already in its own function. -/
def methodValue (kind : MethodKind) (isStatic : Bool) (key : Part) (value : Placed)
    (address : Address) : Part :=
  ⟨value.node, fun role => do
    whenPresent (← methodName? kind key) (noteMember address isStatic)
    (entering value fun number => .function number :: address).printAs role⟩

/-- Print one construct at an address. -/
def constructLexically (location : Location) (shape : Shape Placed) (address : Address)
    (role : Role) : Printer Unit :=
  match shape with
  | .identifier source type optional => do
      nameLexically address role source
      writeIf optional "?"
      declaredType (type.map (·.within address))
  | .function form marks functionName params body returnType =>
      functionLexically location form marks functionName params body returnType address role
  | .classDefinition form marks className superClass implementing body decorators => do
      let options ← options
      let owner (number : Nat) : Owner :=
        ⟨number, ((className.bind (·.node.identifier?)).map options.renameIdentifier).getD "",
          superClass.bind (·.node.lastName?)⟩
      construct location
        (.classDefinition form marks (className.map (·.within address))
          (superClass.map (·.within address)) (implementing.map (·.within address))
          (entering body fun number => .owner (owner number) :: address)
          (decorators.map (·.within address)))
        role
  | .classProperty marks key value type decorators =>
      construct location
        (.classProperty marks (propertyKey marks.static key address)
          (value.map (·.within address)) (type.map (·.within address))
          (decorators.map (·.within address)))
        role
  | .method form marks key value =>
      construct location
        (.method form marks (key.within address)
          (methodValue marks.kind marks.static (key.within address) value address))
        role
  | .methodSignature marks key params returnType => do
      accessibility marks.accessibility
      writeIf marks.static "static "
      entryKey (key.within address) marks.computed
      writeIf marks.optional "?"
      parametersLexically params address
      declaredType (returnType.map (·.within address))
      write ";"
  | .catchClause param body => do
      let options ← options
      whenPresent (param.bind (·.node.identifier?)) fun source =>
        noteBound address (options.renameIdentifier source)
      construct location
        (.catchClause (param.map (·.within address)) (body.within address)) role
  | other => construct location (other.map (·.within address)) role

end Printer

/-- Print a node at an address in the given role. -/
def Node.printLexically (node : Node) (address : Address) (role : Role) : Printer Unit :=
  node.fold Printer.constructLexically address role

/-- Generate the code of a tree, with receivers decided by the place in the tree. -/
def Settings.generateLexically (settings : Settings) (tree : Node) :
    Except Diagnostic Generated :=
  match (tree.printLexically [] .plain).run settings |>.run .start with
  | .error diagnostic => .error diagnostic
  | .ok (_, state) =>
      .ok ⟨state.types.prepend settings.file state.text.toString,
        state.diagnostics.filter (!·.isNote)⟩

end ScriptBridge

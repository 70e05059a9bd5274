import ScriptBridge.Emit.Statement

/-!
# Printing declarations

Functions, classes and interfaces open the scopes in which their parts are
printed.  A constructor that never calls its superclass gets such a call as its
first statement.
-/

namespace ScriptBridge

/-- Whether a node calls the constructor of the superclass. -/
def Node.isSuperCall (node : Node) : Bool :=
  match node.shape with
  | .call .call ⟨_, .leaf .super⟩ _ _ _ _ => true
  | _ => false

namespace Printer

/-- The renamed name of a part that is an identifier. -/
def partName? (part : Part) : Printer (Option String) := do
  let options ← options
  return part.node.identifier?.map options.renameIdentifier

/-- A function declaration or expression. -/
def function (form : FunctionForm) (role : Role) (place : Position) (marks : FunctionMarks)
    (nameNode : Option Part) (params : List Part) (body returnType : Option Part) :
    Printer Unit := do
  unsupportedIf marks.generator place "generator function"
  unsupportedIf marks.async place "async function"
  unsupportedIf marks.declared place "declare function"
  let options ← options
  let functionName := (nameNode.bind (·.node.identifier?)).map options.renameIdentifier
  if form = .declaration then
    writeIf (role = .exported) "export "
    whenPresent functionName fun name => modifyScopes fun scopes => scopes.declareLocal name
  write "function"
  whenPresent functionName fun name => do
    write " "
    write name
  withinFunction (functionName.getD "") false false do
    parameters params
    declaredType returnType
    match body with
    | some body => do
        write " "
        braced none body
    | none => missing place "Function body"

/-- The statement put in front of a constructor that does not call the
constructor of its superclass. -/
def superCall : String :=
  "super();"

/-- Run a printer in the body of a member. -/
def withinMemberBody (printer : Printer Unit) : Printer Unit := do
  let before := (← get).scopes.top.inMemberBody
  modifyScopes fun scopes => scopes.markMemberBody true
  printer
  modifyScopes fun scopes => scopes.markMemberBody before

/-- The parameters, type and body of a method. -/
def methodFunction (owner : Position) (isConstructor isAbstract : Bool)
    (params : List Part) (body returnType : Option Part) : Printer Unit := do
  parameters params
  if !isConstructor then declaredType returnType
  match body with
  | some body =>
      write " "
      let needsCall := isConstructor && !body.node.hasDescendant Node.isSuperCall
      withinMemberBody (braced (if needsCall then some superCall else none) body)
  | none => if isAbstract then write ";" else missing owner "Method body"

/-- A class. -/
def classDefinition (role : Role) (place : Position) (marks : ClassMarks)
    (nameNode superClass : Option Part) (implementing : List Part) (body : Part)
    (decorators : List Part) : Printer Unit := do
  match nameNode.bind (·.node.identifier?) with
  | none => missing place "Class name"
  | some source =>
      unsupportedIf (!decorators.isEmpty) place "Decorator"
      unsupportedIf marks.declared place "declare class"
      let className := (← options).renameIdentifier source
      modifyTypes fun types => types.noteImported className
      writeIf (role = .exported) "export "
      writeIf marks.abstract "abstract "
      write "class "
      write className
      whenPresent superClass fun part => do
        write " extends "
        part.printAs .typeName
      if !implementing.isEmpty then
        write " implements "
        separated Folded.print implementing
      write " "
      modifyScopes fun scopes =>
        scopes.enterClass className (superClass.bind (·.node.lastName?))
      body.print
      modifyScopes fun scopes => scopes.exitClass.1

/-- A word such as `public`, with a space behind it. -/
def accessibility (word : Option String) : Printer Unit :=
  whenPresent word fun text => do
    write text
    write " "

/-- A field of a class. -/
def classProperty (place : Position) (marks : PropertyMarks) (key : Part)
    (value type : Option Part) (decorators : List Part) : Printer Unit := do
  unsupportedIf (!decorators.isEmpty) place "Decorator"
  unsupportedIf marks.optional place "optional property"
  unsupportedIf marks.computed place "computed property"
  unsupportedIf marks.definite place "definite assignment"
  unsupportedIf marks.declared place "declare property"
  accessibility marks.accessibility
  writeIf marks.static "static "
  writeIf marks.readonly "readonly "
  key.printAs .key
  whenPresent (← partName? key) fun name =>
    modifyScopes fun scopes => scopes.declareProperty name marks.static
  declaredType type
  whenPresent value fun part => do
    write " = "
    part.print
  write ";"

/-- The word in front of an accessor. -/
def methodWord : MethodKind → String
  | .get => "get "
  | .set => "set "
  | .method | .constructor => ""

/-- The name of a method; a constructor has a fixed one. -/
def methodName? (kind : MethodKind) (key : Part) : Printer (Option String) :=
  if kind = .constructor then pure (some "constructor") else partName? key

/-- The marks of the function of a method, if it is one that the method may have:
a function, or one without a body if the method is abstract. -/
def methodMarks? (form : MethodForm) (value : Part) : Option FunctionMarks :=
  match value.node.shape, form with
  | .function .expression marks .., _ => some marks
  | .function .emptyBody marks .., .abstract => some marks
  | _, _ => none

/-- A method, accessor or constructor. -/
def method (form : MethodForm) (place : Position) (marks : MethodMarks)
    (key value : Part) : Printer Unit := do
  unsupportedIf marks.computed place "computed method name"
  match methodMarks? form value with
  | none => unsupported value.node.location.start value.node.tag
  | some function =>
      unsupportedIf function.generator place "generator function"
      unsupportedIf function.async place "async function"
      match ← methodName? marks.kind key with
      | none => missing place "Method name"
      | some name =>
          accessibility marks.accessibility
          writeIf (form = .abstract) "abstract "
          writeIf marks.static "static "
          write (methodWord marks.kind)
          write name
          withinFunction name true marks.static
            (value.printAs (.method place (marks.kind = .constructor) (form = .abstract)))

/-- An interface, which is always exported. -/
def interface (place : Position) (nameNode body : Part)
    (extending implementing : List Part) : Printer Unit := do
  unsupportedIf (!implementing.isEmpty) place "interface implements"
  match ← partName? nameNode with
  | none => missing place "Interface name"
  | some name =>
      modifyTypes fun types => types.noteImported name
      write "export interface "
      write name
      if !extending.isEmpty then
        write " extends "
        separated Folded.print extending
      write " "
      body.print

/-- A method of an interface. -/
def methodSignature (marks : SignatureMarks) (key : Part) (params : List Part)
    (returnType : Option Part) : Printer Unit := do
  accessibility marks.accessibility
  writeIf marks.static "static "
  entryKey key marks.computed
  writeIf marks.optional "?"
  withinFunction "" false false (parameters params)
  declaredType returnType
  write ";"

/-- A field of an interface. -/
def propertySignature (key : Part) (type : Option Part)
    (readonly optional computed : Bool) : Printer Unit := do
  writeIf readonly "readonly "
  entryKey key computed
  writeIf optional "?"
  declaredType type
  write ";"

end Printer

end ScriptBridge

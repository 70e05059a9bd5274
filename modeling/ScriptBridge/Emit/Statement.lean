import ScriptBridge.Emit.Expression

/-!
# Printing statements

Statements stand one on a line.  One that comes out empty leaves no line, and an
empty block is two braces.  Branches and loop bodies always get braces.
-/

namespace ScriptBridge

/-- Whether a node, as a statement, is followed by a semicolon. -/
def Node.endsWithSemicolon : Node → Bool
  | ⟨_, .expressionStatement _⟩ => true
  | ⟨_, .variableDeclaration _ _⟩ => true
  | ⟨_, .exit _ _⟩ => true
  | ⟨_, .jump _ _⟩ => true
  | ⟨_, .loop .doWhile _ _⟩ => true
  | ⟨_, .leaf .debugger⟩ => true
  | ⟨_, .importDeclaration _ _⟩ => true
  | ⟨_, .exportNamed none _ _⟩ => true
  | ⟨_, .exportNamed (some declaration) _ _⟩ => declaration.endsWithSemicolon
  | ⟨_, .exportDefault ⟨_, .function .declaration _ _ _ _ _⟩⟩ => false
  | ⟨_, .exportDefault ⟨_, .classDefinition .declaration _ _ _ _ _ _⟩⟩ => false
  | ⟨_, .exportDefault ⟨_, .interface _ _ _ _⟩⟩ => false
  | ⟨_, .exportDefault _⟩ => true
  | _ => false

/-- Whether a node is the empty statement. -/
def Node.isEmptyStatement (node : Node) : Bool :=
  match node.shape with
  | .leaf .empty => true
  | _ => false

/-- Whether a node is a break. -/
def Node.isBreak (node : Node) : Bool :=
  match node.shape with
  | .jump .breaking _ => true
  | _ => false

namespace Printer

/-- Statements, one on a line.  `wroteAny` says whether the line already holds a
statement; the result says so for the line behind the list. -/
def statements (wroteAny : Bool) : List Part → Printer Bool
  | [] => pure wroteAny
  | statement :: rest =>
      if statement.node.isEmptyStatement then statements wroteAny rest
      else do
        let before ← length
        if wroteAny then newLine
        let start ← length
        statement.print
        if (← length) = start then
          truncate before
          statements wroteAny rest
        else
          writeIf statement.node.endsWithSemicolon ";"
          statements true rest

/-- The statements of a file or module. -/
def topLevel (body : List Part) : Printer Unit := do
  let _ ← statements false body

/-- Statements between braces, indented, behind a statement put in front of them. -/
def block (prologue : Option String) (body : List Part) : Printer Unit := do
  write "\x7b"
  let opened ← length
  indent
  newLine
  write (prologue.getD "")
  let wroteAny ← statements prologue.isSome body
  dedent
  if wroteAny then newLine else truncate opened
  write "\x7d"

/-- A statement in braces: a block as it is, anything else in a block of its own. -/
def braced (prologue : Option String) (statement : Part) : Printer Unit :=
  if isBlock statement then statement.printAs (.block prologue)
  else block prologue [statement]

/-- The role of the alternative of a conditional statement. -/
def alternative (statement : Part) : Printer Unit :=
  match statement.node.shape with
  | .ifStatement .. => do
      write " else "
      statement.print
  | .group .block [] => pure ()
  | _ => do
      write " else "
      braced none statement

/-- A conditional statement. -/
def ifStatement (test consequent : Part) (alternate : Option Part) : Printer Unit := do
  write "if ("
  test.print
  write ") "
  braced none consequent
  whenPresent alternate alternative

/-- Cases, one on a line. -/
def switchCases : List Part → Printer Unit
  | [] => pure ()
  | branch :: rest => do
      newLine
      branch.print
      switchCases rest

/-- A statement that selects one of several cases. -/
def switch (discriminant : Part) (cases : List Part) : Printer Unit := do
  write "switch ("
  discriminant.print
  write ") \x7b"
  indent
  switchCases cases
  dedent
  if !cases.isEmpty then newLine
  write "\x7d"

/-- A case.  Its statements stand in a block, and every case ends with one break
of its own, so that the breaks of the source are dropped. -/
def switchCase (test : Option Part) (consequent : List Part) : Printer Unit := do
  match test with
  | some test =>
      write "case "
      test.print
      write ":"
  | none => write "default:"
  indent
  newLine
  let start ← length
  write "\x7b"
  indent
  newLine
  let wroteAny ← statements false (consequent.filter fun part => !part.node.isBreak)
  dedent
  if wroteAny then
    newLine
    write "\x7d"
    newLine
  else truncate start
  write "break;"
  dedent

/-- A loop with a counter. -/
def forLoop (init test update : Option Part) (body : Part) : Printer Unit := do
  write "for ("
  whenPresent init Folded.print
  write ";"
  whenPresent test fun part => do
    write " "
    part.print
  write ";"
  whenPresent update fun part => do
    write " "
    part.print
  write ") "
  braced none body

/-- The word between the variable and the collection of a loop. -/
def eachWord : EachForm → String
  | .keys => "in"
  | .values => "of"

/-- A loop over the parts of a collection. -/
def forEach (form : EachForm) (left right body : Part) : Printer Unit := do
  write "for ("
  left.print
  write " "
  write (eachWord form)
  write " "
  right.print
  write ") "
  braced none body

/-- A loop under a condition. -/
def loop (form : LoopForm) (test body : Part) : Printer Unit :=
  match form with
  | .whileLoop => do
      write "while ("
      test.print
      write ") "
      braced none body
  | .doWhile => do
      write "do "
      braced none body
      write " while ("
      test.print
      write ")"

/-- The word for a jump. -/
def jumpWord : JumpForm → String
  | .breaking => "break"
  | .continuing => "continue"

/-- A jump, possibly to a label. -/
def jump (form : JumpForm) (label : Option Part) : Printer Unit := do
  write (jumpWord form)
  whenPresent label fun part => do
    write " "
    part.printAs .memberName

/-- A statement that ends a function.  Only a returned value may be absent. -/
def exit (form : ExitForm) (place : Position) (argument : Option Part) : Printer Unit :=
  match form, argument with
  | .returning, none => write "return"
  | .returning, some value => do
      write "return "
      value.print
  | .throwing, none => missing place "Thrown value"
  | .throwing, some value => do
      write "throw "
      value.print

/-- A guarded block. -/
def tryStatement (body : Part) (handler finalizer : Option Part) : Printer Unit := do
  write "try "
  braced none body
  whenPresent handler fun part => do
    write " "
    part.print
  whenPresent finalizer fun part => do
    write " finally "
    braced none part

/-- The name bound by a handler, without its type. -/
def caughtName (param : Part) : Printer Unit :=
  match param.node.identifier? with
  | some source => name .declaredName source
  | none => param.printAs .declaredName

/-- The handler of a guarded block. -/
def catchClause (param : Option Part) (body : Part) : Printer Unit := do
  write "catch"
  whenPresent param fun part => do
    write " ("
    caughtName part
    write ")"
  write " "
  braced none body

/-- A declaration of variables. -/
def variableDeclaration (role : Role) (declarations : List Part) (kind : String) :
    Printer Unit := do
  writeIf (role = .exported) "export "
  write (if kind = "const" then "const " else "let ")
  separated Folded.print declarations

/-- One declared variable. -/
def declarator {Access : Type} [Printable Access] (variableName : Folded Access)
    (init : Option (Folded Access)) : Printer Unit := do
  variableName.printAs .declaredName
  whenPresent init fun value => do
    write " = "
    listItem value

end Printer

end ScriptBridge

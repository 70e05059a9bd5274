import ScriptBridge.Tree.Location

/-!
# Diagnostics

A diagnostic is one problem met while code is generated, at a line and column
of one file.  Problems are of a few kinds, each with a code, a severity and a
message with numbered gaps.  A gap is filled by putting a text out for another
wherever it occurs, from left to right and without overlaps.
-/

namespace ScriptBridge

namespace Text

/-- Put `replacement` in the place of every occurrence of `wanted`.  The first
`covered` characters belong to the occurrence before; `written` is the result
so far in reverse. -/
def substituteFrom (wanted replacement : List Char) (covered : Nat)
    (written : List Char) : List Char → List Char
  | [] => written.reverse
  | character :: rest =>
      match covered with
      | left + 1 => substituteFrom wanted replacement left written rest
      | 0 =>
          if !wanted.isEmpty && wanted.isPrefixOf (character :: rest) then
            substituteFrom wanted replacement (wanted.length - 1)
              (replacement.reverse ++ written) rest
          else substituteFrom wanted replacement 0 (character :: written) rest

/-- Put `replacement` in the place of every occurrence of `wanted`. -/
def substitute (wanted replacement text : String) : String :=
  String.ofList (substituteFrom wanted.toList replacement.toList 0 [] text.toList)

end Text

/-- How much a diagnostic weighs. -/
inductive Severity where
  | warning
  | error
  | message
  deriving DecidableEq, Repr

/-- The word for a severity. -/
def Severity.word : Severity → String
  | .warning => "warning"
  | .error => "error"
  | .message => "message"

/-- The kinds of problems. -/
inductive Problem where
  /-- A construct that is not converted. -/
  | unsupportedConstruct
  /-- A part without which a construct has no meaning. -/
  | missingPart
  /-- An operator without a rank. -/
  | unrankedOperator
  /-- A tag that names no category. -/
  | unrecognizedTag
  deriving DecidableEq, Repr

namespace Problem

/-- The code of a kind of problem. -/
def code : Problem → Nat
  | .unsupportedConstruct => 9001
  | .missingPart => 9002
  | .unrankedOperator => 9003
  | .unrecognizedTag => 9004

/-- The severity of a kind of problem. -/
def severity : Problem → Severity
  | .unrankedOperator => .warning
  | _ => .error

/-- The message of a kind of problem, with gaps for what it is about. -/
def template : Problem → String
  | .unsupportedConstruct => "Not support \x7b0\x7d yet!"
  | .missingPart => "\x7b0\x7d is necessary!"
  | .unrankedOperator => "No priority for operator pattern '\x7b0\x7d'."
  | .unrecognizedTag => "Unrecognized node type '\x7b0\x7d'."

/-- All kinds of problems. -/
def all : List Problem :=
  [.unsupportedConstruct, .missingPart, .unrankedOperator, .unrecognizedTag]

/-- The kind of problem with the given code. -/
def ofCode? (code : Nat) : Option Problem :=
  all.find? fun problem => problem.code == code

theorem ofCode?_code (problem : Problem) : ofCode? problem.code = some problem := by
  cases problem <;> decide

end Problem

/-- The gap of a message with the given number. -/
def messageGap (number : Nat) : String :=
  "\x7b" ++ toString number ++ "\x7d"

/-- Fill the gaps of a message from the given number on, one after the other. -/
def fillMessageFrom (number : Nat) (message : String) : List String → String
  | [] => message
  | argument :: rest =>
      fillMessageFrom (number + 1) (Text.substitute (messageGap number) argument message) rest

/-- Fill the gaps of a message.  A gap inside an argument is filled by the
arguments after it. -/
def fillMessage (message : String) (arguments : List String) : String :=
  fillMessageFrom 0 message arguments

/-- A problem at a place of a file. -/
structure Diagnostic where
  file : String
  line : Nat
  column : Nat
  text : String
  severity : Severity
  code : Nat
  deriving DecidableEq, Repr

namespace Diagnostic

/-- A problem with a message of its own. -/
def withText (problem : Problem) (file : String) (place : Position) (text : String) :
    Diagnostic :=
  ⟨file, place.line, place.column, text, problem.severity, problem.code⟩

/-- A problem with the message of its kind. -/
def about (problem : Problem) (file : String) (place : Position)
    (arguments : List String) : Diagnostic :=
  withText problem file place (fillMessage problem.template arguments)

/-- The kind of problem that a diagnostic is about. -/
def problem? (diagnostic : Diagnostic) : Option Problem :=
  Problem.ofCode? diagnostic.code

/-- The line of an error that ends the generation of a file. -/
def stopLine (diagnostic : Diagnostic) : String :=
  diagnostic.file ++ "(" ++ toString diagnostic.line ++ ":" ++ toString diagnostic.column ++
    ") - error AS" ++ toString diagnostic.code ++ ": " ++ diagnostic.text

/-- Whether a diagnostic is an error. -/
def isError (diagnostic : Diagnostic) : Bool :=
  diagnostic.severity == .error

end Diagnostic

end ScriptBridge

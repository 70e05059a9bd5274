import ScriptBridge.FileSystem
import ScriptBridge.Text.CodeTable
import ScriptBridge.Text.Utf8

/-!
# Parsers

A parser turns the normalized text of a file into the JSON text of its syntax
tree.  The usual one runs a command: the text is its input, the tree its output,
and a command that does not succeed refuses the text with its complaints.  A
command may look at the files around it and change them; what a program comes to
is not decided here.
-/

namespace ScriptBridge

/-- The names of the signals, from the first on. -/
def signalNames : List String :=
  ["HUP", "INT", "QUIT", "ILL", "TRAP", "ABRT", "BUS", "FPE", "KILL", "USR1", "SEGV", "USR2",
    "PIPE", "ALRM", "TERM", "STKFLT", "CHLD", "CONT", "STOP", "TSTP", "TTIN", "TTOU", "URG",
    "XCPU", "XFSZ", "VTALRM", "PROF", "WINCH", "IO", "PWR", "SYS"]

/-- The name of a signal. -/
def signalName? : Nat → Option String
  | 0 => none
  | number + 1 => signalNames[number]?

/-- How a program ends: by itself with a status, or by a signal. -/
inductive ProgramEnding where
  | exited (status : Nat)
  | killed (signal : Nat)
  deriving DecidableEq, Repr

namespace ProgramEnding

/-- Whether a program has done what it was asked for. -/
def isSuccess (ending : ProgramEnding) : Bool :=
  ending = .exited 0

/-- The words that say how a program ended. -/
def describe : ProgramEnding → String
  | .exited status => "exit status: " ++ toString status
  | .killed signal =>
      "signal: " ++ toString signal ++
        match signalName? signal with
        | some name => " (SIG" ++ name ++ ")"
        | none => ""

end ProgramEnding

/-- What a program came to: how it ended, what it wrote, its complaints, and the files
it left. -/
structure ProgramResult where
  ending : ProgramEnding
  output : Bytes
  complaints : Bytes
  files : FileSystem

/-- What programs come to, given the files around them, their name, their arguments and
their input; otherwise the reason why they do not start. -/
abbrev Programs :=
  FileSystem → String → List String → Bytes → Except FileError ProgramResult

/-- Why a parser gives no tree. -/
inductive ParseFailure where
  | notConfigured
  | notStarted (program : String) (cause : FileError)
  | failed (file : String) (ending : ProgramEnding) (complaints : String)
  | notText (file : String) (fault : Utf8.Fault)
  | rejected (reason : String)
  deriving DecidableEq, Repr

/-- The message of a parser that gives no tree. -/
def ParseFailure.message : ParseFailure → String
  | .notConfigured => "no parser configured: set \"parserCommand\" in the configuration"
  | .notStarted program cause =>
      "failed to start parser `" ++ program ++ "`: " ++ cause.message
  | .failed file ending complaints =>
      "parser failed on " ++ file ++ " (" ++ ending.describe ++ "): " ++ complaints
  | .notText file fault => "parser output for " ++ file ++ " is not UTF-8: " ++ fault.message
  | .rejected reason => reason

/-- A parser takes a text and the relative path of its file, among the files of a
run. -/
abbrev Parsing := String → String → EStateM ParseFailure FileSystem String

namespace Parsing

/-- A parser that only looks at the text and the path. -/
def ofFunction (parse : String → String → Except ParseFailure String) : Parsing :=
  fun text file => MonadExcept.ofExcept (parse text file)

/-- The parser of a run that has none. -/
def missing : Parsing :=
  ofFunction fun _ _ => .error .notConfigured

end Parsing

/-- A parser that runs a command. -/
structure ParserCommand where
  program : String
  arguments : List String
  deriving DecidableEq, Repr

namespace ParserCommand

/-- The command given by its words. -/
def ofWords : List String → Except ParseFailure ParserCommand
  | [] => .error .notConfigured
  | program :: arguments => .ok ⟨program, arguments⟩

/-- What a command complained about, without the blanks around it. -/
def trimmed (complaints : Bytes) : String :=
  String.ofList (Text.trim (Utf8.repair complaints).toList)

/-- The tree that a command has written. -/
def treeText (file : String) (result : ProgramResult) : Except ParseFailure String :=
  if result.ending.isSuccess then (Utf8.decode result.output).mapError (.notText file)
  else .error (.failed file result.ending (trimmed result.complaints))

/-- Run the command on a text. -/
def parseWith (programs : Programs) (command : ParserCommand) : Parsing :=
  fun text file => do
    let files ← get
    match programs files command.program command.arguments (Utf8.encode text) with
    | .error cause => throw (.notStarted command.program cause)
    | .ok result =>
        set result.files
        MonadExcept.ofExcept (treeText file result)

end ParserCommand

end ScriptBridge

import ScriptBridge.Configuration
import ScriptBridge.Diagnostic.Basic
import ScriptBridge.FileSystem
import ScriptBridge.Json.Reader
import ScriptBridge.Parsing
import ScriptBridge.Tree.Reader

/-!
# Steps over a file system

A step works on a file system and may fail.  Files that were written before a
failure stay written.  A step fails for one of the causes below.  The message of a
failure leads from what was attempted to what went wrong, with colons between them.
-/

namespace ScriptBridge

/-- What a run does with its sources. -/
inductive Phase where
  | analyse
  | make
  deriving DecidableEq, Repr

/-- The name of a phase. -/
def Phase.name : Phase → String
  | .analyse => "analyse"
  | .make => "make"

/-- Why a kept index is unusable: what is wrong with it, and where it ends. -/
structure IndexFailure where
  cause : DataError
  place : TextPlace
  deriving Repr

/-- Why a run or the work on a file fails. -/
inductive BatchError where
  | unreadableInput (input : Path) (cause : FileError)
  | unreadableFile (path : Path) (cause : FileError)
  | noDirectory (path : Path) (cause : FileError)
  | unwritableFile (path : Path) (cause : FileError)
  | notParsed (cause : ParseFailure)
  | unusableParse (file : String) (cause : TreeError)
  | noKeptTree (path : Path) (cause : FileError)
  | unusableTree (file : String) (cause : TreeError)
  | unusableIndex (path : Path) (cause : IndexFailure)
  | stopped (diagnostic : Diagnostic)
  | abandoned (phase : Phase) (file : String) (cause : BatchError)
  deriving Repr

/-- The message of a text that holds no usable tree. -/
def TreeError.message : TreeError → String
  | .notJson => "malformed syntax tree JSON"
  | .malformed error =>
      "malformed syntax tree JSON: " ++ error.message ++ ": " ++ error.message
  | .notAProgram tag => "expected a Program node at the root, found " ++ tag

/-- The message of an unusable index. -/
def IndexFailure.message (failure : IndexFailure) : String :=
  failure.cause.message ++ " at " ++ failure.place.describe

/-- The message of a file that cannot be read. -/
def unreadableMessage (path : Path) (cause : FileError) : String :=
  "failed to read " ++ path.text ++ ": " ++ cause.message

/-- The message of a failure. -/
def BatchError.message : BatchError → String
  | .unreadableInput input cause =>
      "failed to read input " ++ input.text ++ ": " ++ cause.message
  | .unreadableFile path cause => unreadableMessage path cause
  | .noDirectory path cause =>
      "failed to create directory " ++ path.text ++ ": " ++ cause.message
  | .unwritableFile path cause => "failed to write " ++ path.text ++ ": " ++ cause.message
  | .notParsed cause => cause.message
  | .unusableParse file cause =>
      "parser returned an unusable tree for " ++ file ++ ": " ++ cause.message
  | .noKeptTree path cause =>
      "no persisted tree, run analyse first: " ++ unreadableMessage path cause
  | .unusableTree file cause =>
      "persisted tree for " ++ file ++ " is unusable: " ++ cause.message
  | .unusableIndex path cause =>
      "failed to parse member index " ++ path.text ++ ": " ++ cause.message
  | .stopped diagnostic => diagnostic.stopLine
  | .abandoned phase file cause =>
      phase.name ++ " failed for " ++ file ++ ": " ++ cause.message

/-- A step over a file system. -/
abbrev Run := EStateM BatchError FileSystem

namespace Run

/-- The value of a result, or the failure of its cause. -/
def ofExcept {Cause Value : Type} (failure : Cause → BatchError) :
    Except Cause Value → Run Value
  | .ok value => pure value
  | .error cause => throw (failure cause)

/-- Run a parser. -/
def parsed (step : EStateM ParseFailure FileSystem String) : Run String :=
  fun files =>
    match step files with
    | .ok value after => .ok value after
    | .error cause after => .error (.notParsed cause) after

/-- Change the file system. -/
def change (failure : FileError → BatchError)
    (step : FileSystem → Except FileError FileSystem) : Run Unit := do
  set (← ofExcept failure (step (← get)))

/-- Read a file. -/
def load (path : Path) : Run String := do
  ofExcept (.unreadableFile path) ((← get).read path)

/-- Make the directory of a path, if the path names one. -/
def makeParent (path : Path) : Run Unit :=
  match path.parent? with
  | none => pure ()
  | some parent =>
      if parent.isEmpty then pure ()
      else do
        let (made, result) := (← get).makeDirectories parent
        set made
        ofExcept (.noDirectory parent) result

/-- Write a file in a directory that is made if it is missing. -/
def store (path : Path) (text : String) : Run Unit := do
  makeParent path
  change (.unwritableFile path) fun files => files.write path text

/-- Run a step and look at its result; a failure is part of the result. -/
def attempt {Value : Type} (step : Run Value) : Run (Except BatchError Value) :=
  fun files =>
    match step files with
    | .ok value after => .ok (.ok value) after
    | .error cause after => .ok (.error cause) after

end Run

end ScriptBridge

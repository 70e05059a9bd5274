import ScriptBridge.Path

/-!
# Commands

The program is asked for one of four commands, together with a few options that
hold for all of them.
-/

namespace ScriptBridge

/-- What the program is asked to do. -/
inductive Command where
  /-- Both phases, from an input to an output. -/
  | convert (input output : Path)
  /-- The first phase. -/
  | analyse (input output : Path)
  /-- The second phase. -/
  | make (input output : Path)
  /-- Print the normalized text of a file. -/
  | normalize (file : Path)
  deriving DecidableEq, Repr

/-- The kinds of commands. -/
inductive CommandKind where
  | convert
  | analyse
  | make
  | normalize
  deriving DecidableEq, Repr

namespace CommandKind

/-- All kinds of commands. -/
def all : List CommandKind :=
  [.convert, .analyse, .make, .normalize]

/-- The word that asks for a command. -/
def word : CommandKind → String
  | .convert => "translate"
  | .analyse => "analyse"
  | .make => "make"
  | .normalize => "normalize"

/-- The kind of command that a word asks for. -/
def ofWord? (word : String) : Option CommandKind :=
  all.find? fun kind => kind.word == word

/-- How many paths a command takes. -/
def pathCount : CommandKind → Nat
  | .normalize => 1
  | _ => 2

/-- The command on the given paths, if there are enough of them. -/
def command? : CommandKind → List Path → Option Command
  | .convert, [input, output] => some (.convert input output)
  | .analyse, [input, output] => some (.analyse input output)
  | .make, [input, output] => some (.make input output)
  | .normalize, [file] => some (.normalize file)
  | _, _ => none

end CommandKind

namespace Command

/-- The kind of a command. -/
def kind : Command → CommandKind
  | .convert _ _ => .convert
  | .analyse _ _ => .analyse
  | .make _ _ => .make
  | .normalize _ => .normalize

/-- The paths of a command. -/
def paths : Command → List Path
  | .convert input output => [input, output]
  | .analyse input output => [input, output]
  | .make input output => [input, output]
  | .normalize file => [file]

/-- A command is determined by its kind and its paths. -/
@[simp]
theorem command?_kind_paths (command : Command) :
    command.kind.command? command.paths = some command := by
  cases command <;> rfl

end Command

/-- A command with the options given for it. -/
structure Arguments where
  config : Option Path := none
  parallel : Bool := false
  noColor : Bool := false
  command : Command
  deriving DecidableEq, Repr

/-- Why words ask for no command. -/
inductive ArgumentError where
  | helpAsked
  | versionAsked
  | nothingAsked
  | missingCommand
  | unknownCommand
  | unknownArgument
  | missingPath
  | badValue
  | repeatedOption
  | surplusValue
  deriving DecidableEq, Repr

end ScriptBridge

import ScriptBridge.CommandLine.Arguments

/-!
# Reading commands

The words of a command line are read at two levels: in front of the name of the
command and behind it.  The options of both levels are the same, but for the one
that asks for the version.  A value is looked at only when the word after it is
read, so that an unknown word is reported before a bad value in front of it.
-/

namespace ScriptBridge

/-- The options. -/
inductive Switch where
  | config
  | parallel
  | noColor
  | help
  | version
  deriving DecidableEq, Repr

/-- Where a word stands: in front of the name of a command, or behind it. -/
inductive Level where
  | outer
  | inner (kind : CommandKind)
  deriving DecidableEq, Repr

namespace Level

/-- The option with the given long name. -/
def ofName? : Level → String → Option Switch
  | _, "config" => some .config
  | _, "parallel" => some .parallel
  | _, "no-color" => some .noColor
  | _, "help" => some .help
  | .outer, "version" => some .version
  | _, _ => none

/-- The option with the given letter. -/
def ofLetter? : Level → Char → Option Switch
  | _, 'c' => some .config
  | _, 'h' => some .help
  | .outer, 'V' => some .version
  | _, _ => none

end Level

/-- A word that is an option, several options, or neither. -/
inductive ArgumentWord where
  | divider
  | long (name : String) (value : Option String)
  | short (letters : List Char)
  | plain
  deriving DecidableEq, Repr

/-- A name and the value behind an equals sign. -/
def splitAtEquals (text : List Char) : String × Option String :=
  (String.ofList (text.takeWhile (· ≠ '=')),
    match text.dropWhile (· ≠ '=') with
    | _ :: value => some (String.ofList value)
    | [] => none)

/-- What a word is by its hyphens. -/
def ArgumentWord.ofText (word : String) : ArgumentWord :=
  match word.toList with
  | ['-', '-'] => .divider
  | '-' :: '-' :: text =>
      let (name, value) := splitAtEquals text
      .long name value
  | '-' :: letter :: letters => .short (letter :: letters)
  | _ => .plain

/-- What was read last and is not looked at yet. -/
inductive PendingValue where
  | nothing
  /-- The option for a configuration, with or without its value. -/
  | config (value : Option String)
  /-- A path of the command. -/
  | path (text : String)
  deriving DecidableEq, Repr

/-- What was given at a level so far. -/
structure Given where
  config : Option Path := none
  parallel : Bool := false
  noColor : Bool := false
  paths : List Path := []
  pending : PendingValue := .nothing
  deriving DecidableEq, Repr

namespace Given

/-- Whether the value of an option is still to come. -/
def awaitsValue (given : Given) : Bool :=
  given.pending == .config none

/-- How many paths were given. -/
def pathCount (given : Given) : Nat :=
  match given.pending with
  | .path _ => given.paths.length + 1
  | _ => given.paths.length

/-- Whether an option was given. -/
def hasOption (given : Given) : Bool :=
  given.config.isSome || given.parallel || given.noColor

/-- A path must not be empty. -/
def toPath (text : String) : Except ArgumentError Path :=
  if text.isEmpty then .error .badValue else .ok ⟨text⟩

/-- Take the value of the option for a configuration. -/
def setConfig (given : Given) (value : String) : Except ArgumentError Given := do
  if given.config.isSome then throw .repeatedOption
  return { given with config := some (← toPath value) }

/-- Look at what is pending. -/
def settled (given : Given) : Except ArgumentError Given :=
  let before := { given with pending := .nothing }
  match given.pending with
  | .nothing => .ok given
  | .config none => .error .badValue
  | .config (some value) => before.setConfig value
  | .path text => do
      return { before with paths := before.paths ++ [← toPath text] }

/-- Take an option, perhaps with a value attached to it. -/
def take (given : Given) (attached : Option String) :
    Switch → Except ArgumentError Given
  | .config => do
      let before ← given.settled
      match attached with
      | some value => before.setConfig value
      | none => return { before with pending := .config none }
  | .parallel => do
      let before ← given.settled
      if before.parallel then throw .repeatedOption
      return { before with parallel := true }
  | .noColor => do
      let before ← given.settled
      if before.noColor then throw .repeatedOption
      return { before with noColor := true }
  | .help => do
      let _ ← given.settled
      throw .helpAsked
  | .version => do
      let _ ← given.settled
      throw .versionAsked

/-- Read an option with a long name.  Only the configuration takes a value. -/
def readLong (given : Given) (level : Level) (name : String) (value : Option String) :
    Except ArgumentError Given :=
  match level.ofName? name with
  | none => .error .unknownArgument
  | some switch =>
      if switch ≠ .config ∧ value.isSome then .error .surplusValue
      else given.take value switch

/-- The value that letters behind an option stand for. -/
def attachedValue? : List Char → Option String
  | [] => none
  | '=' :: value => some (String.ofList value)
  | value => some (String.ofList value)

/-- Read options given by letters. -/
def readShort (level : Level) : Given → List Char → Except ArgumentError Given
  | given, [] => .ok given
  | given, letter :: letters =>
      match level.ofLetter? letter with
      | none => .error .unknownArgument
      | some .config => given.take (attachedValue? letters) .config
      | some switch => do readShort level (← given.take none switch) letters

/-- Take a word as the value of the option in front of it. -/
def takeValue (given : Given) (word : String) : Given :=
  { given with pending := .config (some word) }

/-- Take a word as a path of the command. -/
def takePath (given : Given) (kind : CommandKind) (word : String) :
    Except ArgumentError Given := do
  if given.pathCount ≥ kind.pathCount then throw .unknownArgument
  return { ← given.settled with pending := .path word }

/-- Read paths only. -/
def readPaths (kind : CommandKind) : Given → List String → Except ArgumentError Given
  | given, [] => given.settled
  | given, word :: words => do readPaths kind (← given.takePath kind word) words

/-- Read the words behind the name of a command. -/
def readInner (kind : CommandKind) : Given → List String → Except ArgumentError Given
  | given, [] => given.settled
  | given, word :: words =>
      match ArgumentWord.ofText word with
      | .divider => readPaths kind given words
      | .long name value => do
          readInner kind (← given.readLong (.inner kind) name value) words
      | .short letters => do readInner kind (← readShort (.inner kind) given letters) words
      | .plain =>
          if given.awaitsValue then readInner kind (given.takeValue word) words
          else do readInner kind (← given.takePath kind word) words

end Given

namespace Arguments

/-- What is wrong when no command was given. -/
def withoutCommand (given : Given) : ArgumentError :=
  if given.hasOption then .missingCommand else .nothingAsked

/-- The word that asks for help on a command. -/
def helpWord : String :=
  "help"

/-- Whether a word may stand in the place of a command. -/
def isCommandWord (word : String) : Bool :=
  word == helpWord || (CommandKind.ofWord? word).isSome

/-- What the words behind the one that asks for help come to. -/
def helpOn : List String → ArgumentError
  | [] => .helpAsked
  | [word] => if isCommandWord word then .helpAsked else .unknownCommand
  | _ => .unknownCommand

/-- What a word behind two hyphens comes to: no command is looked for there. -/
def behindDivider (word : String) : ArgumentError :=
  if isCommandWord word then .unknownArgument else .unknownCommand

/-- Options given at both levels: the inner configuration is preferred. -/
def combine (outer inner : Given) (command : Command) : Arguments where
  config := inner.config <|> outer.config
  parallel := outer.parallel || inner.parallel
  noColor := outer.noColor || inner.noColor
  command := command

/-- Read a command and the words behind it.  What is pending in front of it is
looked at last. -/
def readCommand (outer : Given) (kind : CommandKind) (words : List String) :
    Except ArgumentError Arguments := do
  let inner ← Given.readInner kind {} words
  match kind.command? inner.paths with
  | none => throw .missingPath
  | some command => return combine (← outer.settled) inner command

/-- What is read from nothing: options alone ask for no command. -/
def finish (given : Given) : ArgumentError :=
  match given.settled with
  | .ok settled => withoutCommand settled
  | .error error => error

/-- Read a word in the place of a command, with the words behind it. -/
def readNamed (outer : Given) (word : String) (words : List String) :
    Except ArgumentError Arguments :=
  if word = helpWord then .error (helpOn words)
  else
    match CommandKind.ofWord? word with
    | some kind => readCommand outer kind words
    | none => .error .unknownCommand

/-- Read the words up to the name of a command, and what stands behind it. -/
def readOuter : Given → List String → Except ArgumentError Arguments
  | given, [] => .error (finish given)
  | given, word :: words =>
      match ArgumentWord.ofText word with
      | .divider => .error ((words.head?.map behindDivider).getD (finish given))
      | .long name value => do readOuter (← given.readLong .outer name value) words
      | .short letters => do readOuter (← Given.readShort .outer given letters) words
      | .plain =>
          if given.awaitsValue then readOuter (given.takeValue word) words
          else readNamed given word words

/-- Read the words of a command line. -/
def read (words : List String) : Except ArgumentError Arguments :=
  readOuter {} words

end Arguments

end ScriptBridge

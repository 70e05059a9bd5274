import ScriptBridge.Filter.Command
import ScriptBridge.Filter.Transliteration
import ScriptBridge.Parsing

/-!
# Running scripts

A script runs its commands one after the other, each reading what those before it
left unread.  What the commands write goes to streams and to files; a script ends
when it has run its last command, when it is told to exit, or by a signal that it
sends to itself.
-/

namespace ScriptBridge

/-- The status that stands for an ending. -/
def ProgramEnding.status : ProgramEnding → Nat
  | .exited status => status
  | .killed signal => 128 + signal

namespace Filter

/-- Where an output goes. -/
inductive Sink where
  | stream (index : Nat)
  | file (location : FileLocation)
  | nowhere
  deriving DecidableEq, Repr

/-- Where the two outputs of a command go. -/
structure Wiring where
  output : Sink := .stream 0
  complaints : Sink := .stream 1

/-- A script under way: its name and arguments, the files around it, its variables,
what is unread, what was written to each stream, the last status, and how it ended. -/
structure Shell where
  name : String := "sh"
  arguments : List String := []
  files : FileSystem := {}
  bindings : OrderedMap String String := {}
  unread : Bytes := []
  streams : List Bytes := [[], []]
  status : Nat := 0
  ending : Option ProgramEnding := none

namespace Shell

/-- What was written to a stream. -/
def written (shell : Shell) (index : Nat) : Bytes :=
  (shell.streams[index]?).getD []

/-- Write to a sink. -/
def emit (shell : Shell) (sink : Sink) (bytes : Bytes) : Shell :=
  match sink with
  | .nowhere => shell
  | .stream index => { shell with streams := shell.streams.modify index (· ++ bytes) }
  | .file location =>
      let before := match shell.files.entry? location with
        | some (.file text) => text
        | _ => ""
      { shell with
        files := shell.files.put location (.file (before ++ Utf8.repair bytes)) }

/-- Open a stream; gives its number. -/
def openStream (shell : Shell) : Nat × Shell :=
  (shell.streams.length, { shell with streams := shell.streams ++ [[]] })

/-- Write a complaint of the script itself, with its line, and set the status. -/
def complain (shell : Shell) (wiring : Wiring) (line status : Nat) (message : String) : Shell :=
  let text := shell.name ++ ": " ++ toString line ++ ": " ++ message ++ "\n"
  { shell.emit wiring.complaints (Utf8.encode text) with status }

/-- What is left of a script that ran apart from another one: variables and an exit do
not count outside, a signal does. -/
def rejoin (before after : Shell) : Shell :=
  let joined := { after with bindings := before.bindings }
  match after.ending with
  | some (.exited status) => { joined with status, ending := none }
  | _ => joined

/-- The number of the process that runs the script. -/
def processNumber : String := "2"

/-- The text that is put in for a parameter. -/
def parameter (shell : Shell) : Parameter → String
  | .status => toString shell.status
  | .process => processNumber
  | .count => toString shell.arguments.length
  | .argument index => (shell.name :: shell.arguments).getD index ""
  | .variable name => (shell.bindings.find? name).getD ""

end Shell

/-- Fields under way: those that are complete, in reverse, and the last one. -/
structure Fields where
  complete : List String := []
  last : Option String := none

namespace Fields

/-- Put a text to the last field. -/
def add (fields : Fields) (text : String) : Fields :=
  { fields with last := some (fields.last.getD "" ++ text) }

/-- Complete the last field. -/
def close (fields : Fields) : Fields :=
  match fields.last with
  | some field => ⟨field :: fields.complete, none⟩
  | none => fields

/-- Put in a text that falls into several fields at its blanks. -/
def addSplit (fields : Fields) (text : String) : Fields :=
  text.toList.foldl (fun before character =>
    if [' ', '\t', '\n'].contains character then before.close
    else before.add (String.singleton character)) fields

/-- All fields. -/
def toList (fields : Fields) : List String :=
  fields.close.complete.reverse

end Fields

/-- The output of an inner script as text: line ends at its end do not count. -/
def substituted (bytes : Bytes) : String :=
  let text := Utf8.repair (bytes.filter (· ≠ 0))
  String.ofList (text.toList.reverse.dropWhile (· = '\n')).reverse

/-- The signal with the given number or name, in any case. -/
def signalNumber? (word : String) : Option Nat :=
  match word.toNat? with
  | some number => if number ≤ 64 then some number else none
  | none => (signalNames.findIdx? (· == word.map Char.toUpper)).map (· + 1)

/-- Whether a signal ends a program that does not expect it. -/
def isFatal (signal : Nat) : Bool :=
  signal ≠ 0 && !(["CHLD", "CONT", "STOP", "TSTP", "TTIN", "TTOU", "URG", "WINCH"].any fun name =>
    signalName? signal == some name)

/-- Send a signal to processes.  Only the script itself is known. -/
def sendSignal (shell : Shell) (wiring : Wiring) (line signal : Nat) : List String → Shell
  | [] => { shell with status := 0 }
  | process :: rest =>
      if process = Shell.processNumber then
        if isFatal signal then { shell with ending := some (.killed signal) }
        else sendSignal shell wiring line signal rest
      else if process.isInt then shell.complain wiring line 1 "kill: No such process"
      else shell.complain wiring line 2 ("kill: Illegal number: " ++ process)

/-- The command that sends signals. -/
def kill (shell : Shell) (wiring : Wiring) (line : Nat) : List String → Shell
  | [] =>
      shell.complain wiring line 2
        ("kill: Usage: kill [-s sigspec | -signum | -sigspec] [pid | job]... or\n" ++
          "kill -l [exitstatus]")
  | "-s" :: name :: processes => named name processes
  | "--" :: processes => sendSignal shell wiring line 15 processes
  | word :: processes =>
      match word.toList with
      | '-' :: letter :: letters =>
          match signalNumber? (String.ofList (letter :: letters)) with
          | some signal => sendSignal shell wiring line signal processes
          | none =>
              if letter = 's' then named (String.ofList letters) processes
              else
                shell.complain wiring line 2 ("kill: Illegal option -" ++ String.singleton letter)
      | _ => sendSignal shell wiring line 15 (word :: processes)
where
  /-- Send the signal with the given name. -/
  named (name : String) (processes : List String) : Shell :=
    match signalNumber? name with
    | some signal => sendSignal shell wiring line signal processes
    | none =>
        shell.complain wiring line 2 ("kill: invalid signal number or name: " ++ name)

/-- The command that ends a script. -/
def exit (shell : Shell) (wiring : Wiring) (line : Nat) : List String → Shell
  | [] => { shell with ending := some (.exited shell.status) }
  | word :: _ =>
      match word.toNat? with
      | some status => { shell with ending := some (.exited (status % 256)) }
      | none =>
          { shell.complain wiring line 2 ("exit: Illegal number: " ++ word) with
            ending := some (.exited 2) }

/-- Take over what a filter came to. -/
def Shell.take (shell : Shell) (wiring : Wiring) (outcome : Outcome) : Shell :=
  let written := (shell.emit wiring.output outcome.output).emit wiring.complaints outcome.complaints
  { written with unread := outcome.unread, status := outcome.status }

/-- The directories in which programs are kept. -/
def programDirectories : List String :=
  ["/bin/", "/usr/bin/"]

/-- The name of a program, which may be given with its directory. -/
def programName (word : String) : String :=
  match programDirectories.find? fun directory => directory.isPrefixOf word with
  | some directory => (word.drop directory.length).toString
  | none => word

/-- The filters that are programs of their own. -/
def filter? (files : FileSystem) (program : String) (arguments : List String)
    (input : Bytes) : Option Outcome :=
  match programName program with
  | "cat" => some (copy files arguments input)
  | "tr" => some (transliterate arguments input)
  | "echo" => some (echoProgram false true arguments input)
  | "printf" =>
      match arguments with
      | layout :: values => some (format layout values input)
      | [] =>
          some (complain 1
            "printf: missing operand\nTry 'printf --help' for more information." input)
  | "true" => some { unread := input }
  | "false" => some { status := 1, unread := input }
  | _ => none

/-- Why a command that is no known program cannot be run: its status and the reason. -/
def missingProgram (files : FileSystem) (word : String) : Nat × String :=
  if word.contains '/' && files.pathExists ⟨word⟩ then (126, "Permission denied")
  else (127, "not found")

/-- The redirections of a command as far as they are made: the script, its outputs, and
the input if it is another one. -/
structure Redirected where
  shell : Shell
  wiring : Wiring
  input : Option Bytes := none

/-- The reason why a file cannot be opened or created by a script. -/
def openingReason (missing : String) : FileError → String
  | .notFound => missing
  | .notADirectory => missing
  | error => error.reason

/-- Make a redirection to the given target; otherwise the reason why not. -/
def Redirected.redirect (before : Redirected) (source : Nat) (kind : RedirectionKind)
    (target : String) : Except String Redirected :=
  let shell := before.shell
  let wiring := before.wiring
  let sending (sink : Sink) (shell : Shell) : Redirected :=
    { before with
      shell
      wiring := if source = 1 then { wiring with output := sink }
        else { wiring with complaints := sink } }
  match kind with
  | .read =>
      match readNamed shell.files target (before.input.getD shell.unread) with
      | .ok (bytes, _) => .ok { before with input := some bytes }
      | .error .isADirectory => .ok { before with input := some [] }
      | .error error =>
          .error ("cannot open " ++ target ++ ": " ++ openingReason "No such file" error)
  | .duplicate =>
      if source = 0 then .ok before
      else if target = "1" then .ok (sending wiring.output shell)
      else if target = "2" then .ok (sending wiring.complaints shell)
      else if target = "-" then .ok (sending .nowhere shell)
      else .error (target ++ ": Bad file descriptor")
  | _ =>
      if target = "/dev/null" then .ok (sending .nowhere shell)
      else if target = "/dev/stdout" then .ok (sending wiring.output shell)
      else if target = "/dev/stderr" then .ok (sending wiring.complaints shell)
      else
        let kept := if kind = .append then (shell.files.read ⟨target⟩).toOption.getD "" else ""
        match shell.files.write ⟨target⟩ kept, shell.files.locate ⟨target⟩ with
        | .ok files, .ok location => .ok (sending (.file location) { shell with files })
        | .error error, _ =>
            .error ("cannot create " ++ target ++ ": " ++
              openingReason "Directory nonexistent" error)
        | _, .error error =>
            .error ("cannot create " ++ target ++ ": " ++
              openingReason "Directory nonexistent" error)

mutual

/-- Run the steps of a script until it ends.  Every call uses up fuel. -/
def runScript (fuel : Nat) (script : Script) (wiring : Wiring) (shell : Shell) : Shell :=
  match fuel with
  | 0 => shell
  | fuel + 1 =>
      script.foldl (fun current (connective, negated, commands) =>
        if current.ending.isNone && connective.admits current.status then
          let after := runPipeline fuel commands wiring current
          if negated then { after with status := if after.status = 0 then 1 else 0 } else after
        else current) shell

/-- Run commands that read each other's output, all of them apart if there are
several. -/
def runPipeline (fuel : Nat) (commands : List Command) (wiring : Wiring) (shell : Shell) :
    Shell :=
  match fuel, commands with
  | fuel + 1, [command] => runCommand fuel command wiring shell
  | fuel + 1, command :: rest =>
      let (pipe, opened) := shell.openStream
      let first := shell.rejoin
        (runCommand fuel command { wiring with output := .stream pipe } opened)
      let fed := { first with unread := first.written pipe }
      let last := shell.rejoin (runPipeline fuel rest wiring fed)
      { last with unread := first.unread }
  | _, _ => shell

/-- Run a command. -/
def runCommand (fuel : Nat) (command : Command) (wiring : Wiring) (shell : Shell) : Shell :=
  match fuel with
  | 0 => shell
  | fuel + 1 =>
      match command with
      | .simple line words redirections =>
          let (fields, assigned) := expandWords fuel words wiring shell
          runRedirected fuel line redirections wiring assigned fun inner shell =>
            runWords fuel line fields inner shell
      | .group line apart steps redirections =>
          runRedirected fuel line redirections wiring shell fun inner before =>
            let after := runScript fuel steps inner before
            if apart then before.rejoin after else after

/-- Run something with its redirections made. -/
def runRedirected (fuel line : Nat) (redirections : List Redirection) (wiring : Wiring)
    (shell : Shell) (body : Wiring → Shell → Shell) : Shell :=
  match fuel with
  | 0 => shell
  | fuel + 1 =>
      let start : Redirected × Option String := (⟨shell, wiring, none⟩, none)
      let (made, failure) := redirections.foldl (fun (before, failure) redirection =>
        if failure.isSome then (before, failure)
        else
          let (target, after) :=
            expandWord fuel redirection.target.quoted before.wiring (({} : Fields), before.shell)
          let text := String.intercalate " " target.toList
          match { before with shell := after }.redirect redirection.source redirection.kind text
            with
          | .ok next => (next, none)
          | .error reason => (before, some reason)) start
      match failure with
      | some reason => made.shell.complain made.wiring line 2 reason
      | none =>
          match made.input with
          | none => body made.wiring made.shell
          | some input =>
              let after := body made.wiring { made.shell with unread := input }
              { after with unread := made.shell.unread }

/-- Put in what the words of a command stand for.  Assignments in front of the command
are made. -/
def expandWords (fuel : Nat) (words : List Word) (wiring : Wiring) (shell : Shell) :
    List String × Shell :=
  match fuel with
  | 0 => ([], shell)
  | fuel + 1 =>
      words.foldl (fun (fields, before) word =>
        match (if fields.isEmpty then Word.assignment? "" word else none) with
        | some (name, value) =>
            let (parts, after) := expandWord fuel value.quoted wiring (({} : Fields), before)
            let text := String.intercalate " " parts.toList
            ([], { after with bindings := after.bindings.insert name text })
        | none =>
            let (parts, after) := expandWord fuel word wiring (({} : Fields), before)
            (fields ++ parts.toList, after)) ([], shell)

/-- Put in what the pieces of a word stand for. -/
def expandWord (fuel : Nat) (pieces : Word) (wiring : Wiring) (start : Fields × Shell) :
    Fields × Shell :=
  match fuel with
  | 0 => start
  | fuel + 1 =>
      pieces.foldl (fun (fields, before) piece =>
        match piece with
        | .text value _ => (fields.add value, before)
        | .parameter meant true => (fields.add (before.parameter meant), before)
        | .parameter meant false => (fields.addSplit (before.parameter meant), before)
        | .script source quoted =>
            let (text, after) := runInner fuel source wiring before
            (if quoted then fields.add text else fields.addSplit text, after)) start

/-- Run an inner script for its output. -/
def runInner (fuel : Nat) (source : String) (wiring : Wiring) (shell : Shell) : String × Shell :=
  match fuel with
  | 0 => ("", shell)
  | fuel + 1 =>
      let (pipe, opened) := shell.openStream
      let inner : Wiring := { wiring with output := .stream pipe }
      let after := match readScript source with
        | .ok script => shell.rejoin (runScript fuel script inner opened)
        | .error fault =>
            opened.complain inner fault.line 2 ("Syntax error: " ++ fault.reason)
      (substituted (after.written pipe), after)

/-- Run a command by its name. -/
def runWords (fuel line : Nat) (words : List String) (wiring : Wiring) (shell : Shell) : Shell :=
  match fuel, words with
  | 0, _ => shell
  | _, [] => { shell with status := 0 }
  | fuel + 1, name :: arguments =>
      match name with
      | "true" => { shell with status := 0 }
      | ":" => { shell with status := 0 }
      | "false" => { shell with status := 1 }
      | "echo" => shell.take wiring (echo arguments shell.unread)
      | "printf" =>
          match arguments with
          | layout :: values => shell.take wiring (format layout values shell.unread)
          | [] => shell.complain wiring line 2 "printf: usage: printf format [arg ...]"
      | "kill" => kill shell wiring line arguments
      | "exit" => exit shell wiring line arguments
      | "exec" =>
          if arguments.isEmpty then shell
          else
            let after := runWords fuel line arguments wiring shell
            { after with ending := some (after.ending.getD (.exited after.status)) }
      | _ =>
          match filter? shell.files name arguments shell.unread with
          | some outcome => shell.take wiring outcome
          | none =>
              if programName name = "sh" then
                let (ending, after) := runShell fuel arguments wiring shell
                { after with status := ending.status }
              else
                let (status, reason) := missingProgram shell.files name
                shell.complain wiring line status (name ++ ": " ++ reason)

/-- Run a script in a shell of its own, given the arguments of that shell. -/
def runShell (fuel : Nat) (arguments : List String) (wiring : Wiring) (shell : Shell) :
    ProgramEnding × Shell :=
  match fuel with
  | 0 => (.exited 2, shell)
  | fuel + 1 =>
      let run (name source : String) (values : List String) (unread : Bytes) :
          ProgramEnding × Shell :=
        let inner : Shell :=
          { shell with name, unread, arguments := values, bindings := {}, status := 0 }
        match readScript source with
        | .error fault =>
            (.exited 2, inner.complain wiring fault.line 2 ("Syntax error: " ++ fault.reason))
        | .ok script =>
            let after := runScript fuel script wiring inner
            (after.ending.getD (.exited after.status), after)
      let (ending, after) := match arguments with
        | [] => run "sh" (Utf8.repair shell.unread) [] []
        | ["-c"] =>
            (.exited 2, { shell with name := "sh" }.complain wiring 0 2 "-c requires an argument")
        | "-c" :: source :: [] => run "sh" source [] shell.unread
        | "-c" :: source :: name :: values => run name source values shell.unread
        | file :: values =>
            match shell.files.read ⟨file⟩ with
            | .ok source => run file source values shell.unread
            | .error error =>
                (.exited 2, { shell with name := "sh" }.complain wiring 0 2
                  ("cannot open " ++ file ++ ": " ++ openingReason "No such file" error))
      (ending, { shell with
        files := after.files
        unread := after.unread
        streams := after.streams })

end

/-- Run a program by its name; otherwise the reason why it does not start. -/
def runProgram : Programs := fun files program arguments input =>
  match filter? files program arguments input with
  | some outcome => .ok ⟨.exited outcome.status, outcome.output, outcome.complaints, files⟩
  | none =>
      if programName program = "sh" then
        let size := arguments.foldl (fun size word => size + word.length) input.length
        let (ending, after) :=
          runShell (8 * size + 16) arguments {} { files, unread := input }
        .ok ⟨ending, after.written 0, after.written 1, after.files⟩
      else if program.contains '/' then
        match files.lookUp ⟨program⟩ with
        | .ok _ => .error .notPermitted
        | .error error => .error error
      else .error .notFound

end Filter

/-- Run the command on a text, with the filters as the programs there are. -/
def ParserCommand.parse : ParserCommand → Parsing :=
  parseWith Filter.runProgram

end ScriptBridge

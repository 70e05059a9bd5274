import ScriptBridge.Batch.Make
import ScriptBridge.CommandLine.Reader
import ScriptBridge.Configuration
import ScriptBridge.Diagnostic.Report
import ScriptBridge.Filter.Script

/-!
# The program

The program reads its words, works on the file system, prints a report, and ends
with a code: zero if all is well, one if something failed, two if the words make
no sense.
-/

namespace ScriptBridge

/-- What the program comes to: its code, what it prints, and its complaints. -/
structure Exit where
  code : Nat := 0
  output : String := ""
  complaints : String := ""
  deriving DecidableEq, Repr

namespace Exit

/-- An end with a complaint. -/
def failure (message : String) : Exit :=
  { code := 1, complaints := "Error: " ++ message ++ "\n" }

/-- An end because of the words that were given. -/
def ofArgumentError : ArgumentError → Exit
  | .helpAsked => {}
  | .versionAsked => { output := "as2ts 0.1.0\n" }
  | _ => { code := 2 }

/-- The complaint about a source that was given up. -/
def complaint (failure : String × BatchError) : String :=
  "failed: " ++ failure.1 ++ ": " ++ failure.2.message ++ "\n"

/-- The end of a run with a report. -/
def ofReport (coloured : Bool) (report : RunReport) : Exit where
  code := if report.hasErrors then 1 else 0
  output :=
    if report.diagnostics.isEmpty then ""
    else
      Report.render coloured report.diagnostics ++ "\n\n" ++
        Report.summary report.diagnostics ++ "\n"
  complaints := String.join (report.failures.map complaint)

end Exit

namespace Program

/-- The configuration that is used when none is named and the file is there. -/
def defaultConfigurationFile : Path :=
  ⟨"as2ts.json"⟩

/-- The configuration of a command. -/
def configuration (files : FileSystem) (named : Option Path) :
    Except ConfigurationFileError Configuration := do
  match named with
  | some path => (← files.readConfiguration path).load
  | none =>
      if files.isFile defaultConfigurationFile then
        (← files.readConfiguration defaultConfigurationFile).load
      else WrittenConfiguration.load {}

/-- Run a job and report on it. -/
def runJob (coloured : Bool) (job : Run RunReport) (files : FileSystem) :
    Exit × FileSystem :=
  match job files with
  | .ok report after => (Exit.ofReport coloured report, after)
  | .error cause after => (Exit.failure cause.message, after)

/-- Run a phase with its configuration and, where it parses, with a parser. -/
def runPhase (terminal : Bool) (arguments : Arguments) (files : FileSystem)
    (input output : Path) (parses : Bool) (phase : Job → Run RunReport) :
    Exit × FileSystem :=
  let coloured := terminal && !arguments.noColor
  match configuration files arguments.config with
  | .error cause => (Exit.failure cause.message, files)
  | .ok configuration =>
      let job : Job := { configuration, input, output, parallel := arguments.parallel }
      if parses then
        match ParserCommand.ofWords configuration.parserCommand with
        | .error cause => (Exit.failure cause.message, files)
        | .ok command => runJob coloured (phase { job with parsing := command.parse }) files
      else runJob coloured (phase job) files

/-- Run a command. -/
def runCommand (terminal : Bool) (arguments : Arguments) (files : FileSystem) :
    Exit × FileSystem :=
  match arguments.command with
  | .normalize file =>
      match files.read file with
      | .ok text => ({ output := Normalize.normalize text }, files)
      | .error cause => (Exit.failure (unreadableMessage file cause), files)
  | .convert input output =>
      runPhase terminal arguments files input output true Job.convert
  | .analyse input output =>
      runPhase terminal arguments files input output true fun job =>
        (·.2) <$> job.analyse
  | .make input output => runPhase terminal arguments files input output false Job.make

/-- Run the program on the words given to it; `terminal` says whether its output
goes to a terminal. -/
def run (terminal : Bool) (words : List String) (files : FileSystem) : Exit × FileSystem :=
  match Arguments.read words with
  | .error error => (Exit.ofArgumentError error, files)
  | .ok arguments => runCommand terminal arguments files

end Program

end ScriptBridge

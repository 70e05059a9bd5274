import ScriptBridge.Batch.Run
import ScriptBridge.Checkpoint
import ScriptBridge.WorkArea

/-!
# Jobs

A job says what a run works on: its configuration, its parser, its input and its
output.  Its sources are taken from the input; when it is to go on with an
earlier run, those in front of the checkpoint are passed over.
-/

namespace ScriptBridge

/-- What a run works on. -/
structure Job where
  configuration : Configuration := {}
  parsing : Parsing := Parsing.missing
  input : Path
  output : Path
  parallel : Bool := false

/-- What a run did: how many files it analysed, the files it wrote, the
diagnostics it met, and the files it gave up with the cause. -/
structure RunReport where
  analysed : Nat := 0
  emitted : List Path := []
  diagnostics : List Diagnostic := []
  failures : List (String × BatchError) := []

/-- Whether a run gave up a file or met an error. -/
def RunReport.hasErrors (report : RunReport) : Bool :=
  !report.failures.isEmpty || report.diagnostics.any Diagnostic.isError

namespace Run

/-- The checkpoint at a path, if there is a well-formed one. -/
def lastCheckpoint (path : Path) : Run (Option Checkpoint) := do
  if (← get).pathExists path then
    return Checkpoint.read? (← Run.load path)
  else return none

/-- Where a run goes on; the checkpoint counts only when the run is to go on with
an earlier one. -/
def resumption (continueLast : Bool) (checkpoint : Path) (input output : String) :
    Run Resumption := do
  if continueLast then
    return Resumption.ofCheckpoint (← lastCheckpoint checkpoint) input output
  else return Resumption.everything

end Run

namespace Job

/-- The work area of a job. -/
def area (job : Job) : WorkArea :=
  ⟨⟨job.configuration.temporaryRoot⟩⟩

/-- All sources of a job. -/
def sources (job : Job) : Run (List SourceFile) := do
  Run.ofExcept (.unreadableInput job.input)
    ((← get).sources job.configuration.skip job.input)

/-- Where a job goes on. -/
def resumption (job : Job) : Run Resumption :=
  Run.resumption job.configuration.continueLast job.area.checkpoint job.input.text
    job.output.text

/-- The sources that a job works on. -/
def selected (job : Job) : Run (List SourceFile) := do
  let found ← job.sources
  return (← job.resumption).admitted SourceFile.relative found

/-- Note where a job stands. -/
def noteProgress (job : Job) (source : SourceFile) : Run Unit :=
  Run.store job.area.checkpoint
    (Checkpoint.mk job.input.text job.output.text source.relative).render

/-- Decide on the result for one source: a failure ends the run, or it is noted
in the report and the run goes on. -/
def applyPolicy {Value : Type} (job : Job) (phase : Phase) (source : SourceFile)
    (report : RunReport) (result : Except BatchError Value) :
    Run (Option Value × RunReport) :=
  match result with
  | .ok value => pure (some value, report)
  | .error cause =>
      if job.configuration.options.stopAtError then
        throw (.abandoned phase source.relative cause)
      else
        pure (none,
          { report with failures := report.failures ++ [(source.relative, cause)] })

end Job

end ScriptBridge

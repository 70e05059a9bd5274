import ScriptBridge.Batch.Job
import ScriptBridge.Emit.Tree
import ScriptBridge.MemberIndex
import ScriptBridge.Normalize.Pipeline

/-!
# The two phases

In the first phase every source is normalized and parsed, and its tree is kept.  The
classes of all trees make up the index, which is kept as well.  In the second phase
the code of every source is generated from its kept tree and written to the output.
The two phases may follow each other in one run, or in two runs that share a work
area.
-/

namespace ScriptBridge

namespace Job

/-- Normalize and parse a source, and keep its normalized text and its tree. -/
def analyseSource (job : Job) (source : SourceFile) : Run Node := do
  let text ← Run.load source.path
  let normalized := Normalize.normalize text
  Run.store (job.area.text source.relative) normalized
  let written ← Run.parsed (job.parsing normalized source.relative)
  let tree ← Run.ofExcept (.unusableParse source.relative) (Node.readProgram written)
  Run.store (job.area.tree source.relative) written
  return tree

/-- Analyse the next source and put its classes into the index. -/
def analyseNext (job : Job) (before : MemberIndex × RunReport) (source : SourceFile) :
    Run (MemberIndex × RunReport) := do
  job.noteProgress source
  let result ← Run.attempt (job.analyseSource source)
  match ← job.applyPolicy .analyse source before.2 result with
  | (some tree, report) =>
      return (before.1.collect tree source.relative,
        { report with analysed := report.analysed + 1 })
  | (none, report) => return (before.1, report)

/-- Keep the index for reading by eye and for the next phase. -/
def keepIndex (job : Job) (index : MemberIndex) : Run Unit := do
  Run.store job.area.indexDump index.render
  Run.store job.area.index index.pretty

/-- Analyse sources in turn. -/
def analyseAll (job : Job) (sources : List SourceFile) : Run (MemberIndex × RunReport) := do
  let (index, report) ← sources.foldlM job.analyseNext ({}, {})
  job.keepIndex index
  return (index, report)

/-- The first phase on its own. -/
def analyse (job : Job) : Run (MemberIndex × RunReport) := do
  job.analyseAll (← job.selected)

/-- Generate the code of a source: where it is written, and the diagnostics. -/
def makeSource (job : Job) (index : MemberIndex) (source : SourceFile) :
    Run (Path × List Diagnostic) := do
  let files ← get
  let target := files.targetPath job.input job.output source.relative
  let treePath := job.area.tree source.relative
  let written ← Run.ofExcept (.noKeptTree treePath) (files.read treePath)
  let tree ← Run.ofExcept (.unusableTree source.relative) (Node.readProgram written)
  let settings : Settings := ⟨job.configuration.options, some index, source.relative⟩
  let generated ← Run.ofExcept .stopped (settings.generate tree)
  Run.store target generated.text
  return (target, generated.diagnostics)

/-- Put the result for a source into the report. -/
def recordMade (job : Job) (report : RunReport) (source : SourceFile)
    (result : Except BatchError (Path × List Diagnostic)) : Run RunReport := do
  match ← job.applyPolicy .make source report result with
  | (some (target, diagnostics), settled) =>
      return { settled with
        emitted := settled.emitted ++ [target]
        diagnostics := settled.diagnostics ++ diagnostics }
  | (none, settled) => return settled

/-- Make the next source, with a checkpoint in front of it. -/
def makeNext (job : Job) (index : MemberIndex) (report : RunReport)
    (source : SourceFile) : Run RunReport := do
  job.noteProgress source
  let result ← Run.attempt (job.makeSource index source)
  job.recordMade report source result

/-- Make all sources before looking at any result, without checkpoints. -/
def makeAtOnce (job : Job) (index : MemberIndex) (report : RunReport)
    (sources : List SourceFile) : Run RunReport := do
  let results ← sources.mapM fun source => do
    return (source, ← Run.attempt (job.makeSource index source))
  results.foldlM (fun before (source, result) => job.recordMade before source result) report

/-- Make sources in turn or all at once. -/
def makeAll (job : Job) (index : MemberIndex) (report : RunReport)
    (sources : List SourceFile) : Run RunReport :=
  if job.parallel then job.makeAtOnce index report sources
  else sources.foldlM (job.makeNext index) report

/-- The kept index; an empty one if none was kept. -/
def keptIndex (job : Job) : Run MemberIndex := do
  let path := job.area.index
  if (← get).pathExists path then
    let text ← Run.load path
    Run.ofExcept (fun cause => .unusableIndex path ⟨cause, JsonText.endOfFirst text⟩)
      (MemberIndex.read text)
  else return {}

/-- The second phase on its own. -/
def make (job : Job) : Run RunReport := do
  let sources ← job.selected
  let index ← job.keptIndex
  job.makeAll index {} sources

/-- Both phases, over the same sources. -/
def convert (job : Job) : Run RunReport := do
  let sources ← job.selected
  let (index, report) ← job.analyseAll sources
  job.makeAll index report sources

end Job

end ScriptBridge

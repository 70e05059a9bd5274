import ScriptBridge.Proofs.Batch.KeptTree
import ScriptBridge.Proofs.Files.Targets

/-!
# The account of a run

A gate in front of each phase lets sources through: all of them, or those from the first
source on that the run goes on with.  In front of the second phase the gate is closed
again, so that both phases get the same sources.  What a phase tries it tries once, and the
report tells what came of it: a source is analysed or noted as a failure, and then it is
made or noted once more.
-/

namespace ScriptBridge

theorem RunReport.combine_assoc (first second third : RunReport) :
    (first.combine second).combine third = first.combine (second.combine third) := by
  simp only [combine, Nat.add_assoc, List.append_assoc]

theorem RunReport.empty_combine (report : RunReport) : combine {} report = report := by
  simp [combine]

/-! ## Gates -/

namespace Resumption

/-- A gate that has seen some files. -/
def past (gate : Resumption) (files : List String) : Resumption :=
  files.foldl (fun gate file => (gate.admits file).1) gate

theorem rewound_admits (gate : Resumption) (file : String) :
    (gate.admits file).1.rewound = gate.rewound := by
  obtain ⟨_ | target, reached⟩ := gate <;> rfl

theorem rewound_past (gate : Resumption) (files : List String) :
    (gate.past files).rewound = gate.rewound := by
  induction files generalizing gate with
  | nil => rfl
  | cons file rest ih => exact (ih (gate.admits file).1).trans (gate.rewound_admits file)

/-- A gate that has seen no file. -/
inductive IsFresh : Resumption → Prop where
  | everything : IsFresh .everything
  | startingAt (target : String) : IsFresh (.startingAt target)

theorem IsFresh.rewound {gate : Resumption} (fresh : gate.IsFresh) : gate.rewound = gate := by
  cases fresh <;> rfl

theorem isFresh_ofCheckpoint (checkpoint : Option Checkpoint) (input output : String) :
    (ofCheckpoint checkpoint input output).IsFresh := by
  unfold ofCheckpoint
  split
  · split
    · exact .startingAt _
    · exact .everything
  · exact .everything

end Resumption

namespace Job

variable {job : Job}

theorem isFresh_resumption {files after : FileSystem} {gate : Resumption}
    (known : job.resumption files = .ok gate after) : gate.IsFresh ∧ after = files := by
  unfold resumption Run.resumption at known
  split at known
  · obtain ⟨noted, middle, last, returned⟩ := Run.bind_eq_ok.mp known
    cases returned
    refine ⟨Resumption.isFresh_ofCheckpoint noted _ _, ?_⟩
    unfold Run.lastCheckpoint at last
    rw [Run.get_bind_apply] at last
    split at last
    · obtain ⟨text, later, loaded, returned⟩ := Run.bind_eq_ok.mp last
      cases returned
      unfold Run.load at loaded
      rw [Run.get_bind_apply] at loaded
      cases read : files.read job.area.checkpoint with
      | ok text =>
          rw [read] at loaded
          cases loaded
          rfl
      | error cause =>
          rw [read] at loaded
          cases loaded
    · cases last
      rfl
  · cases known
    exact ⟨.everything, rfl⟩

/-- Analyse the next source if the gate lets it through. -/
def analyseThrough (job : Job) (before : Resumption × (MemberIndex × RunReport))
    (source : SourceFile) : Run (Resumption × (MemberIndex × RunReport)) := do
  let asked := before.1.admits source.relative
  if asked.2 then return (asked.1, ← job.analyseNext before.2 source)
  else return (asked.1, before.2)

/-- Both phases over all sources, each with a gate of its own: the first asks it in front
of every source, the second for all sources before the first of them is made. -/
def convertThrough (job : Job) : Run RunReport := do
  let found ← job.sources
  let gate ← job.resumption
  let analysed ← found.foldlM job.analyseThrough (gate.rewound, ({}, {}))
  job.keepIndex analysed.2.1
  job.makeAll analysed.2.1 analysed.2.2 (gate.rewound.admitted SourceFile.relative found)

theorem foldlM_analyseThrough (gate : Resumption) (sources : List SourceFile)
    (before : MemberIndex × RunReport) :
    sources.foldlM job.analyseThrough (gate, before) =
      (fun after => (gate.past (sources.map SourceFile.relative), after)) <$>
        (gate.admitted SourceFile.relative sources).foldlM job.analyseNext before := by
  induction sources generalizing gate before with
  | nil => rfl
  | cons source rest ih =>
      rw [List.foldlM_cons, analyseThrough, Resumption.admitted]
      dsimp only
      split
      · simp only [bind_assoc, pure_bind, ih, List.foldlM_cons, map_bind]
        rfl
      · rw [pure_bind, ih]
        rfl

theorem convertThrough_eq (job : Job) : job.convertThrough = job.convert := by
  funext files
  cases listed : job.sources files with
  | error cause after =>
      rw [convertThrough, Run.bind_of_error listed, convert, selected]
      exact (Run.bind_of_error (Run.bind_of_error listed)).symm
  | ok found middle =>
      cases known : job.resumption middle with
      | error cause after =>
          rw [convertThrough, Run.bind_of_ok listed, Run.bind_of_error known, convert, selected]
          exact (Run.bind_of_error
            ((Run.bind_of_ok listed).trans (Run.bind_of_error known))).symm
      | ok gate after =>
          have chosen : job.selected files =
              .ok (gate.admitted SourceFile.relative found) after := by
            rw [selected, Run.bind_of_ok listed, Run.bind_of_ok known]
            rfl
          rw [convertThrough, Run.bind_of_ok listed, Run.bind_of_ok known, convert,
            Run.bind_of_ok chosen, (isFresh_resumption known).1.rewound, foldlM_analyseThrough,
            analyseAll]
          simp only [bind_map_left, bind_assoc, pure_bind]

/-! ## What came of sources -/

/-- What came of the sources that did not fail. -/
def valuesIn {Value : Type} (outcomes : List (SourceFile × Except BatchError Value)) :
    List Value :=
  outcomes.filterMap fun entry => entry.2.toOption

/-- The sources that failed, with the causes. -/
def failuresIn {Value : Type} (outcomes : List (SourceFile × Except BatchError Value)) :
    List (String × BatchError) :=
  outcomes.flatMap fun entry => failuresOf entry.1 entry.2

@[simp]
theorem valuesIn_nil (Value : Type) :
    valuesIn ([] : List (SourceFile × Except BatchError Value)) = [] :=
  rfl

@[simp]
theorem failuresIn_nil (Value : Type) :
    failuresIn ([] : List (SourceFile × Except BatchError Value)) = [] :=
  rfl

@[simp]
theorem valuesIn_cons {Value : Type} (entry : SourceFile × Except BatchError Value)
    (rest : List (SourceFile × Except BatchError Value)) :
    valuesIn (entry :: rest) = entry.2.toOption.toList ++ valuesIn rest := by
  obtain ⟨source, value | cause⟩ := entry <;> rfl

@[simp]
theorem failuresIn_cons {Value : Type} (entry : SourceFile × Except BatchError Value)
    (rest : List (SourceFile × Except BatchError Value)) :
    failuresIn (entry :: rest) = failuresOf entry.1 entry.2 ++ failuresIn rest :=
  rfl

/-- Each source has a value or is a failure. -/
theorem length_valuesIn_add_failuresIn {Value : Type}
    (outcomes : List (SourceFile × Except BatchError Value)) :
    (valuesIn outcomes).length + (failuresIn outcomes).length = outcomes.length := by
  induction outcomes with
  | nil => rfl
  | cons entry rest ih =>
      have one : entry.2.toOption.toList.length + (failuresOf entry.1 entry.2).length = 1 := by
        obtain ⟨source, value | cause⟩ := entry <;> rfl
      rw [valuesIn_cons, failuresIn_cons, List.length_append, List.length_append,
        List.length_cons]
      omega

/-- The report on the outcomes of both phases. -/
def reportOn (analysed : List (SourceFile × Except BatchError Node))
    (made : List (SourceFile × Except BatchError (Path × List Diagnostic))) : RunReport where
  analysed := (valuesIn analysed).length
  emitted := (valuesIn made).map Prod.fst
  diagnostics := (valuesIn made).flatMap Prod.snd
  failures := failuresIn analysed ++ failuresIn made

theorem reportOn_cons_nil (entry : SourceFile × Except BatchError Node)
    (rest : List (SourceFile × Except BatchError Node)) :
    reportOn (entry :: rest) [] = (reportOn [entry] []).combine (reportOn rest []) := by
  simp [reportOn, RunReport.combine]

theorem reportOn_nil_cons (entry : SourceFile × Except BatchError (Path × List Diagnostic))
    (rest : List (SourceFile × Except BatchError (Path × List Diagnostic))) :
    reportOn [] (entry :: rest) = (reportOn [] [entry]).combine (reportOn [] rest) := by
  simp [reportOn, RunReport.combine]

theorem reportOn_combine (analysed : List (SourceFile × Except BatchError Node))
    (made : List (SourceFile × Except BatchError (Path × List Diagnostic))) :
    (reportOn analysed []).combine (reportOn [] made) = reportOn analysed made := by
  simp [reportOn, RunReport.combine]

/-- Each source was tried once, in order. -/
structure Tried {Value : Type} (step : SourceFile → Run Value) (sources : List SourceFile)
    (outcomes : List (SourceFile × Except BatchError Value)) : Prop where
  sources : outcomes.map Prod.fst = sources
  attempted : ∀ entry ∈ outcomes, ∃ before after,
    Run.attempt (step entry.1) before = .ok entry.2 after

theorem Tried.nil {Value : Type} (step : SourceFile → Run Value) : Tried step [] [] :=
  ⟨rfl, List.forall_mem_nil _⟩

theorem Tried.cons {Value : Type} {step : SourceFile → Run Value} {sources : List SourceFile}
    {outcomes : List (SourceFile × Except BatchError Value)} {source : SourceFile}
    {outcome : Except BatchError Value} {before after : FileSystem}
    (first : Run.attempt (step source) before = .ok outcome after)
    (others : Tried step sources outcomes) :
    Tried step (source :: sources) ((source, outcome) :: outcomes) :=
  ⟨congrArg (source :: ·) others.sources,
    List.forall_mem_cons.mpr ⟨⟨before, after, first⟩, others.attempted⟩⟩

/-! ### One source -/

section

variable {source : SourceFile} {files after : FileSystem}

theorem decided_of_applyPolicy {Value : Type} {phase : Phase} {report : RunReport}
    {outcome : Except BatchError Value} {decided : Option Value × RunReport}
    (applied : job.applyPolicy phase source report outcome files = .ok decided after) :
    decided = (outcome.toOption, report.combine { failures := failuresOf source outcome }) ∧
      after = files := by
  cases outcome with
  | ok value =>
      cases applied
      exact ⟨congrArg (some value, ·) (RunReport.combine_empty report).symm, rfl⟩
  | error cause =>
      unfold applyPolicy at applied
      dsimp only at applied
      split at applied
      · cases applied
      · cases applied
        simp [RunReport.combine, failuresOf, Except.toOption]

theorem report_of_analyseNext {before next : MemberIndex × RunReport}
    (analysed : job.analyseNext before source files = .ok next after) :
    ∃ noted outcome, Run.attempt (job.analyseSource source) noted = .ok outcome after ∧
      next.2 = before.2.combine (reportOn [(source, outcome)] []) := by
  obtain ⟨_, noted, -, trying⟩ := Run.bind_eq_ok.mp analysed
  obtain ⟨outcome, tried, attempted, deciding⟩ := Run.bind_eq_ok.mp trying
  obtain ⟨decided, settled, applied, counting⟩ := Run.bind_eq_ok.mp deciding
  obtain ⟨isDecided, rfl⟩ := decided_of_applyPolicy applied
  refine ⟨noted, outcome, ?_⟩
  cases outcome with
  | ok tree =>
      rw [isDecided] at counting
      obtain ⟨rfl, rfl⟩ := EStateM.Result.ok.inj counting
      exact ⟨attempted, rfl⟩
  | error cause =>
      rw [isDecided] at counting
      obtain ⟨rfl, rfl⟩ := EStateM.Result.ok.inj counting
      exact ⟨attempted, rfl⟩

theorem report_of_recordMade {report next : RunReport}
    {outcome : Except BatchError (Path × List Diagnostic)}
    (recorded : job.recordMade report source outcome files = .ok next after) :
    next = report.combine (reportOn [] [(source, outcome)]) ∧ after = files := by
  obtain ⟨decided, settled, applied, rest⟩ := Run.bind_eq_ok.mp recorded
  obtain ⟨rfl, rfl⟩ := decided_of_applyPolicy applied
  cases outcome with
  | ok made =>
      obtain ⟨target, diagnostics⟩ := made
      obtain ⟨rfl, rfl⟩ := EStateM.Result.ok.inj rest
      refine ⟨?_, rfl⟩
      simp [RunReport.combine, reportOn, failuresOf, failuresIn, valuesIn, Except.toOption]
  | error cause =>
      obtain ⟨rfl, rfl⟩ := EStateM.Result.ok.inj rest
      exact ⟨rfl, rfl⟩

theorem targetPath_of_attempt {index : MemberIndex} {target : Path}
    {diagnostics : List Diagnostic}
    (made : Run.attempt (job.makeSource index source) files =
      .ok (.ok (target, diagnostics)) after) :
    target = files.targetPath job.input job.output source.relative := by
  unfold Run.attempt at made
  split at made
  · next value middle ran =>
    cases made
    unfold makeSource at ran
    rw [Run.get_bind_apply] at ran
    obtain ⟨written, _, -, ran⟩ := Run.bind_eq_ok.mp ran
    obtain ⟨tree, _, -, ran⟩ := Run.bind_eq_ok.mp ran
    obtain ⟨generated, _, -, ran⟩ := Run.bind_eq_ok.mp ran
    obtain ⟨_, _, -, returned⟩ := Run.bind_eq_ok.mp ran
    cases returned
    rfl
  · cases made

end

/-! ### All sources of a phase -/

section

variable {sources : List SourceFile} {files after : FileSystem}

theorem account_of_analysed {before final : MemberIndex × RunReport}
    (ran : sources.foldlM job.analyseNext before files = .ok final after) :
    ∃ analysed, Tried job.analyseSource sources analysed ∧
      final.2 = before.2.combine (reportOn analysed []) := by
  induction sources generalizing before files with
  | nil =>
      cases ran
      exact ⟨[], .nil _, (RunReport.combine_empty _).symm⟩
  | cons source rest ih =>
      rw [List.foldlM_cons] at ran
      obtain ⟨next, middle, first, others⟩ := Run.bind_eq_ok.mp ran
      obtain ⟨noted, outcome, attempted, reported⟩ := report_of_analyseNext first
      obtain ⟨analysed, tried, final⟩ := ih others
      refine ⟨(source, outcome) :: analysed, tried.cons attempted, ?_⟩
      rw [final, reported, RunReport.combine_assoc, ← reportOn_cons_nil]

theorem account_of_made {index : MemberIndex} {report final : RunReport}
    (ran : sources.foldlM (job.makeNext index) report files = .ok final after) :
    ∃ made, Tried (job.makeSource index) sources made ∧
      final = report.combine (reportOn [] made) := by
  induction sources generalizing report files with
  | nil =>
      cases ran
      exact ⟨[], .nil _, (RunReport.combine_empty _).symm⟩
  | cons source rest ih =>
      rw [List.foldlM_cons] at ran
      obtain ⟨next, middle, first, others⟩ := Run.bind_eq_ok.mp ran
      obtain ⟨_, noted, -, trying⟩ := Run.bind_eq_ok.mp first
      obtain ⟨outcome, tried, attempted, recorded⟩ := Run.bind_eq_ok.mp trying
      obtain ⟨reported, rfl⟩ := report_of_recordMade recorded
      obtain ⟨made, triedOthers, final⟩ := ih others
      refine ⟨(source, outcome) :: made, triedOthers.cons attempted, ?_⟩
      rw [final, reported, RunReport.combine_assoc,
        ← reportOn_nil_cons]

theorem tried_of_mapM {index : MemberIndex}
    {made : List (SourceFile × Except BatchError (Path × List Diagnostic))}
    (ran : sources.mapM (m := Run) (fun source => do
      return (source, ← Run.attempt (job.makeSource index source))) files = .ok made after) :
    Tried (job.makeSource index) sources made := by
  induction sources generalizing files made with
  | nil =>
      cases ran
      exact .nil _
  | cons source rest ih =>
      rw [List.mapM_cons] at ran
      obtain ⟨entry, middle, first, following⟩ := Run.bind_eq_ok.mp ran
      obtain ⟨outcome, left, attempted, returned⟩ := Run.bind_eq_ok.mp first
      obtain ⟨rfl, rfl⟩ := EStateM.Result.ok.inj returned
      obtain ⟨others, last, mapped, listed⟩ := Run.bind_eq_ok.mp following
      obtain ⟨rfl, rfl⟩ := EStateM.Result.ok.inj listed
      exact (ih mapped).cons attempted

theorem report_of_recorded {report final : RunReport}
    {made : List (SourceFile × Except BatchError (Path × List Diagnostic))}
    (recorded : made.foldlM (m := Run) (fun before entry =>
      job.recordMade before entry.1 entry.2) report files = .ok final after) :
    final = report.combine (reportOn [] made) := by
  induction made generalizing report files with
  | nil =>
      cases recorded
      exact (RunReport.combine_empty _).symm
  | cons entry rest ih =>
      rw [List.foldlM_cons] at recorded
      obtain ⟨next, middle, first, others⟩ := Run.bind_eq_ok.mp recorded
      rw [ih others, (report_of_recordMade first).1, RunReport.combine_assoc,
        ← reportOn_nil_cons]

/-- In turn or all at once, each source is made once. -/
theorem account_of_makeAll {index : MemberIndex} {report final : RunReport}
    (ran : job.makeAll index report sources files = .ok final after) :
    ∃ made, Tried (job.makeSource index) sources made ∧
      final = report.combine (reportOn [] made) := by
  unfold makeAll at ran
  split at ran
  · obtain ⟨made, middle, mapped, recorded⟩ := Run.bind_eq_ok.mp ran
    exact ⟨made, tried_of_mapM mapped, report_of_recorded recorded⟩
  · exact account_of_made ran

theorem account_of_analyseAll {index : MemberIndex} {report : RunReport}
    (ran : job.analyseAll sources files = .ok (index, report) after) :
    ∃ analysed, Tried job.analyseSource sources analysed ∧ report = reportOn analysed [] := by
  obtain ⟨found, middle, folded, kept⟩ := Run.bind_eq_ok.mp ran
  obtain ⟨_, last, -, returned⟩ := Run.bind_eq_ok.mp kept
  cases returned
  obtain ⟨analysed, tried, reported⟩ := account_of_analysed folded
  exact ⟨analysed, tried, reported.trans (RunReport.empty_combine _)⟩

end

/-! ## Runs -/

/-- The sources that a run tries: those below its input that its gate lets through. -/
def Admits (job : Job) (files : FileSystem) (admitted : List SourceFile) : Prop :=
  ∃ found gate, job.sources files = .ok found files ∧ job.resumption files = .ok gate files ∧
    gate.IsFresh ∧ admitted = gate.admitted SourceFile.relative found

theorem admits_of_selected {files after : FileSystem} {chosen : List SourceFile}
    (selects : job.selected files = .ok chosen after) :
    job.Admits files chosen ∧ after = files := by
  obtain ⟨found, middle, listed, rest⟩ := Run.bind_eq_ok.mp selects
  obtain ⟨-, rfl⟩ := sources_eq_ok.mp listed
  obtain ⟨gate, last, known, returned⟩ := Run.bind_eq_ok.mp rest
  obtain ⟨fresh, rfl⟩ := isFresh_resumption known
  obtain ⟨rfl, rfl⟩ := EStateM.Result.ok.inj returned
  exact ⟨⟨found, gate, listed, known, fresh, rfl⟩, rfl⟩

/-- Each of some sources was analysed once, or it is a failure. -/
structure AnalysedOnce (job : Job) (admitted : List SourceFile)
    (analysed : List (SourceFile × Except BatchError Node)) : Prop where
  tried : Tried job.analyseSource admitted analysed
  complete : (valuesIn analysed).length + (failuresIn analysed).length = admitted.length

/-- Each of some sources was made once, at its target, or it is a failure. -/
structure MadeOnce (job : Job) (admitted : List SourceFile)
    (made : List (SourceFile × Except BatchError (Path × List Diagnostic))) : Prop where
  tried : ∃ index, Tried (job.makeSource index) admitted made
  complete : (valuesIn made).length + (failuresIn made).length = admitted.length
  targets : ∀ source target diagnostics, (source, .ok (target, diagnostics)) ∈ made →
    ∃ files : FileSystem, target = files.targetPath job.input job.output source.relative

theorem Tried.length {Value : Type} {step : SourceFile → Run Value} {sources : List SourceFile}
    {outcomes : List (SourceFile × Except BatchError Value)}
    (tried : Tried step sources outcomes) :
    (valuesIn outcomes).length + (failuresIn outcomes).length = sources.length := by
  rw [length_valuesIn_add_failuresIn, ← tried.sources, List.length_map]

theorem Tried.analysedOnce {sources : List SourceFile}
    {analysed : List (SourceFile × Except BatchError Node)}
    (tried : Tried job.analyseSource sources analysed) : job.AnalysedOnce sources analysed :=
  ⟨tried, tried.length⟩

theorem Tried.madeOnce {sources : List SourceFile} {index : MemberIndex}
    {made : List (SourceFile × Except BatchError (Path × List Diagnostic))}
    (tried : Tried (job.makeSource index) sources made) : job.MadeOnce sources made := by
  refine ⟨⟨index, tried⟩, tried.length, fun source target diagnostics isMade => ?_⟩
  obtain ⟨before, after, attempted⟩ := tried.attempted _ isMade
  exact ⟨before, targetPath_of_attempt attempted⟩

/-- A phase tries all sources, or those from the first one on that a run goes on with, and
none if that one is not there; both phases of one run try the same.  The report of a run
tells of each of them, in each phase and in their order: it is counted as analysed or noted
as a failure, and the path of its code is listed or it is noted as a failure. -/
theorem report_accounts (job : Job) :
    (∀ (sources : List SourceFile) (target : String),
      Resumption.everything.admitted SourceFile.relative sources = sources ∧
        (Resumption.startingAt target).admitted SourceFile.relative sources =
          sources.dropWhile (·.relative ≠ target)) ∧
      (∀ (gate : Resumption) (seen : List String), (gate.past seen).rewound = gate.rewound) ∧
      job.convertThrough = job.convert ∧
      (∀ files report after, job.convert files = .ok report after →
        ∃ admitted analysed made, job.Admits files admitted ∧
          job.AnalysedOnce admitted analysed ∧ job.MadeOnce admitted made ∧
          report = reportOn analysed made) ∧
      (∀ files index report after, job.analyse files = .ok (index, report) after →
        ∃ admitted analysed, job.Admits files admitted ∧
          job.AnalysedOnce admitted analysed ∧ report = reportOn analysed []) ∧
      ∀ files report after, job.make files = .ok report after →
        ∃ admitted made, job.Admits files admitted ∧ job.MadeOnce admitted made ∧
          report = reportOn [] made := by
  refine ⟨fun sources target => ⟨admitted_everything _ sources,
    Resumption.admitted_startingAt _ target sources⟩, Resumption.rewound_past,
    job.convertThrough_eq, ?_, ?_, ?_⟩
  · intro files report after ran
    obtain ⟨admitted, start, selects, phases⟩ := Run.bind_eq_ok.mp ran
    obtain ⟨admits, rfl⟩ := admits_of_selected selects
    obtain ⟨⟨index, counted⟩, middle, analyses, makes⟩ := Run.bind_eq_ok.mp phases
    obtain ⟨analysed, first, rfl⟩ := account_of_analyseAll analyses
    obtain ⟨made, second, rfl⟩ := account_of_makeAll makes
    exact ⟨admitted, analysed, made, admits, first.analysedOnce, second.madeOnce,
      reportOn_combine analysed made⟩
  · intro files index report after ran
    obtain ⟨admitted, start, selects, analyses⟩ := Run.bind_eq_ok.mp ran
    obtain ⟨admits, rfl⟩ := admits_of_selected selects
    obtain ⟨analysed, tried, reported⟩ := account_of_analyseAll analyses
    exact ⟨admitted, analysed, admits, tried.analysedOnce, reported⟩
  · intro files report after ran
    obtain ⟨admitted, start, selects, known⟩ := Run.bind_eq_ok.mp ran
    obtain ⟨admits, rfl⟩ := admits_of_selected selects
    obtain ⟨index, middle, -, makes⟩ := Run.bind_eq_ok.mp known
    obtain ⟨made, tried, reported⟩ := account_of_makeAll makes
    exact ⟨admitted, made, admits, tried.madeOnce,
      reported.trans (RunReport.empty_combine _)⟩

/-! ### Three sources -/

/-- Three sources, and a checkpoint in front of the second. -/
def tripleFiles : FileSystem :=
  { entries := ⟨[(["src"], .directory), (["src", "A.as"], .file ""), (["src", "B.as"], .file ""),
    (["src", "C.as"], .file ""), (["tmp"], .directory),
    (["tmp", "last.txt"], .file "src|out|B.as")]⟩ }

def tripleSources : List SourceFile :=
  pairSources ++ [⟨⟨"src/C.as"⟩, "C.as"⟩]

/-- A job that goes on with an earlier run and behind failures; its parser accepts the
third source. -/
def tripleJob : Job :=
  { pairJob ["C.as"] true with
    parallel := true
    configuration := { options := { stopAtError := false }, continueLast := true } }

theorem tripleFiles_sources : tripleFiles.sources {} ⟨"src"⟩ = .ok tripleSources := by
  have start : tripleFiles.locate ⟨"src"⟩ = .ok ["src"] := by decide
  have stands : tripleFiles.entry? ["src"] = some .directory := by decide
  have depth : tripleFiles.depth = 2 := by decide
  have children : tripleFiles.children ["src"] =
      [("A.as", .file ""), ("B.as", .file ""), ("C.as", .file "")] :=
    FileSystem.children_of_sorted (by decide) (by decide)
  unfold FileSystem.sources
  simp only [start, stands, FileSystem.filesBelow, depth, FileSystem.visit, List.append_nil,
    children, List.flatMap_cons, List.flatMap_nil, List.nil_append, List.cons_append]
  decide

/-- The first source is passed over, the second fails in both phases, and the third is
made. -/
theorem report_accounts_triple :
    ∃ report after admitted analysed made,
      tripleJob.convert tripleFiles = .ok report after ∧
      (report.analysed = 1 ∧ report.emitted = [⟨"out/C.ts"⟩] ∧
        report.failures.map Prod.fst = ["B.as", "B.as"]) ∧
      tripleJob.Admits tripleFiles admitted ∧ tripleJob.AnalysedOnce admitted analysed ∧
      tripleJob.MadeOnce admitted made ∧ report = reportOn analysed made := by
  have keeps : Checkpoint.KeepsName "B.as" := keepsName_pair
  have noted : tripleFiles.read tripleJob.area.checkpoint =
      .ok (Checkpoint.render ⟨tripleJob.input.text, tripleJob.output.text, "B.as"⟩) := by
    decide
  have resumed := @convert_of_checkpoint tripleJob rfl _ _ _ keeps tripleFiles_sources noted
  have reports : (value? (tripleJob.convertOnly (tripleJob.resumedSources "B.as" tripleSources)
      tripleFiles)).map (fun report =>
        (report.analysed, report.emitted, report.failures.map Prod.fst)) =
      some (1, [⟨"out/C.ts"⟩], ["B.as", "B.as"]) := by
    decide +kernel
  rw [← resumed] at reports
  cases ran : tripleJob.convert tripleFiles with
  | error cause after =>
      rw [ran] at reports
      cases reports
  | ok report after =>
      rw [ran] at reports
      obtain ⟨counted, listed⟩ := Prod.mk.inj (Option.some.inj reports)
      obtain ⟨emitted, failed⟩ := Prod.mk.inj listed
      obtain ⟨admitted, analysed, made, admits, first, second, told⟩ :=
        (report_accounts tripleJob).2.2.2.1 tripleFiles report after ran
      exact ⟨report, after, admitted, analysed, made, rfl, ⟨counted, emitted, failed⟩,
        admits, first, second, told⟩

end Job

end ScriptBridge

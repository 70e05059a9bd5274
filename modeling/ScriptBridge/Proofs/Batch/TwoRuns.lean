import ScriptBridge.Proofs.Batch.Growth

/-!
# Both phases in one run or in two

A run over both phases hands its index over in memory; two runs hand it over in
the work area, and the second looks for the sources again.  It makes no
difference: the files, the report and the failure are the same.
-/

namespace ScriptBridge

/-- What two runs did, one after the other. -/
def RunReport.combine (first second : RunReport) : RunReport where
  analysed := first.analysed + second.analysed
  emitted := first.emitted ++ second.emitted
  diagnostics := first.diagnostics ++ second.diagnostics
  failures := first.failures ++ second.failures

theorem RunReport.combine_empty (report : RunReport) : report.combine {} = report := by
  simp [combine]

/-- A fold whose steps respect a change of the value respects it as a whole. -/
theorem Run.foldlM_map {Item Value : Type} {step : Value → Item → Run Value}
    {change : Value → Value}
    (respects : ∀ value item, step (change value) item = change <$> step value item)
    (items : List Item) (start : Value) :
    items.foldlM step (change start) = change <$> items.foldlM step start := by
  induction items generalizing start with
  | nil => rfl
  | cons item rest ih =>
      simp only [List.foldlM_cons, respects, bind_map_left, map_bind, ih]

namespace Job

variable {job : Job}

theorem applyPolicy_combine {Value : Type} (phase : Phase) (source : SourceFile)
    (earlier report : RunReport) (outcome : Except BatchError Value) :
    job.applyPolicy phase source (earlier.combine report) outcome =
      (fun decided => (decided.1, earlier.combine decided.2)) <$>
        job.applyPolicy phase source report outcome := by
  unfold applyPolicy
  split
  · rfl
  · split
    · rfl
    · simp [RunReport.combine]

theorem recordMade_combine (earlier report : RunReport) (source : SourceFile)
    (outcome : Except BatchError (Path × List Diagnostic)) :
    job.recordMade (earlier.combine report) source outcome =
      earlier.combine <$> job.recordMade report source outcome := by
  unfold recordMade
  simp only [applyPolicy_combine, bind_map_left, map_bind]
  congr 1
  funext decided
  obtain ⟨_ | ⟨target, diagnostics⟩, settled⟩ := decided
  · rfl
  · simp [RunReport.combine]

/-- What was reported earlier is only carried along while sources are made. -/
theorem makeAll_combine (index : MemberIndex) (earlier report : RunReport)
    (sources : List SourceFile) :
    job.makeAll index (earlier.combine report) sources =
      earlier.combine <$> job.makeAll index report sources := by
  unfold makeAll
  split
  · unfold makeAtOnce
    simp only [map_bind]
    congr 1
    funext results
    exact Run.foldlM_map (fun before made => recordMade_combine earlier before made.1 made.2) _ _
  · refine Run.foldlM_map (fun before source => ?_) _ _
    unfold makeNext
    simp only [recordMade_combine, map_bind]

/-- Both phases in runs of their own; the second has a parser of its own. -/
def convertInTwo (job : Job) (parsing : Parsing) : Run RunReport := do
  let (_, report) ← job.analyse
  let made ← { job with parsing }.make
  return report.combine made

theorem admitted_everything {Item : Type} (file : Item → String) (items : List Item) :
    Resumption.everything.admitted file items = items := by
  induction items with
  | nil => rfl
  | cons item rest ih =>
      simp only [Resumption.admitted]
      exact congrArg (item :: ·) ih

/-- A run that does not go on with an earlier one works on all sources. -/
theorem selected_apply (afresh : job.configuration.continueLast = false) (files : FileSystem) :
    job.selected files = job.sources files := by
  unfold selected
  have all : job.resumption = pure Resumption.everything := by
    unfold resumption Run.resumption
    rw [afresh]
    rfl
  simp only [all, pure_bind, admitted_everything, bind_pure]

theorem sources_eq_ok {files after : FileSystem} {found : List SourceFile} :
    job.sources files = .ok found after ↔
      files.sources job.configuration.skip job.input = .ok found ∧ after = files := by
  unfold sources
  rw [Run.get_bind_apply]
  cases files.sources job.configuration.skip job.input with
  | error cause => exact ⟨nofun, fun ⟨equal, _⟩ => nomatch equal⟩
  | ok sources =>
      constructor
      · intro equal
        cases equal
        exact ⟨rfl, rfl⟩
      · rintro ⟨equal, rfl⟩
        cases equal
        rfl

variable {parse : String → String → Except ParseFailure String}

/-- The index that was kept last is the one that is found. -/
theorem keptIndex_of_analyseAll (function : job.parsing = Parsing.ofFunction parse)
    {files after : FileSystem} (tree : files.IsTree) {sources : List SourceFile}
    {index : MemberIndex} {report : RunReport}
    (analysed : job.analyseAll sources files = .ok (index, report) after) :
    job.keptIndex after = .ok index after := by
  obtain ⟨⟨found, reported⟩, middle, folded, kept⟩ := Run.bind_eq_ok.mp analysed
  obtain ⟨grown, proper⟩ := (growsTo_analysed function sources).succeeds _ _ _ tree folded
  obtain ⟨_, final, stored, returned⟩ := Run.bind_eq_ok.mp kept
  cases returned
  obtain ⟨_, dumped, dump, stored⟩ := Run.bind_eq_ok.mp stored
  have further := ((growsTo_store_inArea _ _
    ⟨"txt", by decide, "analysor".toList, by decide⟩).succeeds _ _ _ grown.tree dump).1
  have text : after.read job.area.index = .ok index.pretty :=
    Run.read_of_store further.tree stored
  unfold keptIndex
  rw [Run.get_bind_apply, if_pos (FileSystem.pathExists_of_read text)]
  refine Run.bind_eq_ok.mpr ⟨_, _, Run.load_of_read text, ?_⟩
  rw [MemberIndex.read_pretty proper]
  rfl

/-- The second phase needs no parser. -/
theorem make_parsing (parsing : Parsing) : { job with parsing }.make = job.make := rfl

/-- A run over both phases does what two runs do, the second with any parser: it
leaves the same files, fails with the same cause, and reports what the two report
together.  The index that the first run keeps is found by the second as it was
built. -/
theorem convert_eq_convertInTwo (afresh : job.configuration.continueLast = false)
    (function : job.parsing = Parsing.ofFunction parse) {files : FileSystem}
    (tree : files.IsTree) (parsing : Parsing) :
    job.convert files = job.convertInTwo parsing files ∧
      ∀ index report after, job.analyse files = .ok (index, report) after →
        { job with parsing }.keptIndex after = .ok index after := by
  cases discovered : job.sources files with
  | error cause after =>
      have nothing : job.selected files = .error cause after := by
        rw [selected_apply afresh, discovered]
      have failed : job.analyse files = .error cause after := Run.bind_of_error nothing
      rw [convert, Run.bind_of_error nothing, convertInTwo, Run.bind_of_error failed, failed]
      exact ⟨rfl, nofun⟩
  | ok found after =>
      obtain ⟨listed, rfl⟩ := sources_eq_ok.mp discovered
      have chosen : job.selected after = .ok found after := by
        rw [selected_apply afresh, discovered]
      have analyse : job.analyse after = job.analyseAll found after := Run.bind_of_ok chosen
      rw [convert, Run.bind_of_ok chosen, convertInTwo, analyse]
      cases analysed : job.analyseAll found after with
      | error cause failed =>
          rw [Run.bind_of_error analysed, Run.bind_of_error (analyse.trans analysed)]
          exact ⟨rfl, nofun⟩
      | ok result middle =>
          obtain ⟨index, report⟩ := result
          have kept := keptIndex_of_analyseAll function tree analysed
          have grown := ((growsTo_analyseAll function found).succeeds _ _ _ tree analysed).1
          have again : job.selected middle = .ok found middle := by
            rw [selected_apply afresh]
            exact sources_eq_ok.mpr ⟨FileSystem.sources_of_grows tree grown
              (fun name written => Path.isSource_join_of_written written) listed, rfl⟩
          have make : job.make middle = job.makeAll index {} found middle := by
            rw [make, Run.bind_of_ok again, Run.bind_of_ok kept]
          rw [Run.bind_of_ok analysed, Run.bind_of_ok (analyse.trans analysed)]
          refine ⟨?_, fun _ _ _ equal => ?_⟩
          · have carried : job.makeAll index report found =
                job.makeAll index {} found >>= fun made => pure (report.combine made) := by
              rw [← map_eq_pure_bind, ← makeAll_combine, RunReport.combine_empty]
            simp only [make_parsing, carried]
            cases made : job.makeAll index {} found middle with
            | ok result final => rw [Run.bind_of_ok made, Run.bind_of_ok (make.trans made)]
            | error cause final => rw [Run.bind_of_error made, Run.bind_of_error (make.trans made)]
          · cases equal
            exact kept

/-- Two sources, one of them in a package, and a file that is none. -/
def smallProject : FileSystem :=
  .ofFiles [("src/Main.as", "class Main extends Base \x7b\x7d"),
    ("src/model/Base.as", "class Base \x7b\x7d"), ("src/notes.txt", "")]

/-- An empty program for every text. -/
def parseNothing (_text _file : String) : Except ParseFailure String :=
  .ok "\x7b\"type\":\"Program\",\"body\":[]\x7d"

def smallJob : Job where
  parsing := .ofFunction parseNothing
  input := ⟨"src"⟩
  output := ⟨"out"⟩

theorem convert_eq_convertInTwo_small :
    smallProject.IsTree ∧
      smallJob.convert smallProject = smallJob.convertInTwo .missing smallProject ∧
      ∀ index report after, smallJob.analyse smallProject = .ok (index, report) after →
        { smallJob with parsing := .missing }.keptIndex after = .ok index after := by
  have tree : smallProject.IsTree := FileSystem.isTree_ofFiles _
  have function : smallJob.parsing = .ofFunction parseNothing := rfl
  exact ⟨tree, convert_eq_convertInTwo rfl function tree .missing⟩

end Job

end ScriptBridge

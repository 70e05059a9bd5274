import ScriptBridge.Proofs.Batch.TwoRuns

/-!
# Going on with an earlier run

A run that gives up leaves a checkpoint with the source at which it stood.  A run
that goes on with it works on that source and those behind it, in both phases.
What stands in front is neither analysed again nor made, and is not in the index.
-/

namespace ScriptBridge

namespace Checkpoint

theorem splitAtBar_append {front : List Char} (whole : '|' ∉ front) (rest : List Char) :
    splitAtBar (front ++ '|' :: rest) = some (front, rest) := by
  have passes : ∀ character ∈ front, decide (character ≠ '|') = true := fun character member => by
    simpa using ne_of_mem_of_not_mem member whole
  unfold splitAtBar
  rw [List.dropWhile_append_of_pos passes, List.takeWhile_append_of_pos passes]
  simp

theorem notMem_of_splitAtBar {text front rest : List Char}
    (split : splitAtBar text = some (front, rest)) : '|' ∉ front := by
  unfold splitAtBar at split
  split at split
  · obtain ⟨rfl, -⟩ := Prod.mk.inj (Option.some.inj split)
    intro member
    simpa using List.mem_takeWhile_imp member
  · cases split

/-- Line ends are only taken from behind a bar. -/
theorem withoutLineEnds_append (front file : List Char) :
    withoutLineEnds (front ++ '|' :: file) = front ++ '|' :: withoutLineEnds file := by
  unfold withoutLineEnds
  rw [List.reverse_append, List.reverse_cons, List.append_assoc]
  generalize file.reverse = reversed
  induction reversed with
  | nil => simp
  | cons character rest ih =>
      rw [List.cons_append, List.dropWhile_cons, List.dropWhile_cons]
      split
      · exact ih
      · simp

/-- A name that a checkpoint keeps: it does not end with a line end. -/
def KeepsName (file : String) : Prop :=
  withoutLineEnds file.toList = file.toList

theorem ofCheckpoint_render {input output file : String} (keeps : KeepsName file) :
    Resumption.ofCheckpoint (read? (render ⟨input, output, file⟩)) input output =
      if '|' ∈ input.toList ∨ '|' ∈ output.toList then .everything
      else .startingAt file := by
  have trimmed : withoutLineEnds (render ⟨input, output, file⟩).toList =
      input.toList ++ '|' :: (output.toList ++ '|' :: file.toList) := by
    have text : (render ⟨input, output, file⟩).toList =
        (input.toList ++ '|' :: output.toList) ++ '|' :: file.toList := by
      simp [render]
    rw [text, withoutLineEnds_append, keeps, List.append_assoc, List.cons_append]
  split
  · next barred =>
    unfold Resumption.ofCheckpoint
    split
    · next noted found =>
      -- neither part in front of a bar holds one
      have ⟨⟨front, afterInput⟩, splitInput, rest⟩ := Option.bind_eq_some_iff.mp found
      have ⟨⟨middle, last⟩, splitOutput, built⟩ := Option.bind_eq_some_iff.mp rest
      obtain rfl := Option.some.inj built
      refine if_neg fun ⟨sameInput, sameOutput⟩ => ?_
      rcases barred with bar | bar
      · rw [← sameInput, String.toList_ofList] at bar
        exact notMem_of_splitAtBar splitInput bar
      · rw [← sameOutput, String.toList_ofList] at bar
        exact notMem_of_splitAtBar splitOutput bar
    · rfl
  · next plain =>
    rw [not_or] at plain
    have found : read? (render ⟨input, output, file⟩) = some ⟨input, output, file⟩ := by
      simp only [read?, trimmed, splitAtBar_append plain.1, splitAtBar_append plain.2,
        Option.bind_eq_bind, Option.bind_some, String.ofList_toList]
      rfl
    rw [found, Resumption.ofCheckpoint, if_pos ⟨rfl, rfl⟩]

end Checkpoint

theorem Resumption.admitted_reached {Item : Type} (file : Item → String) (target : Option String)
    (items : List Item) : Resumption.admitted file ⟨target, true⟩ items = items := by
  induction items with
  | nil => rfl
  | cons item rest ih =>
      cases target with
      | none => simpa [admitted, admits] using ih
      | some target => simpa [admitted, admits] using ih

theorem Resumption.admitted_startingAt {Item : Type} (file : Item → String) (target : String)
    (items : List Item) :
    (startingAt target).admitted file items = items.dropWhile (file · ≠ target) := by
  induction items with
  | nil => rfl
  | cons item rest ih =>
      by_cases same : target = file item
      · simp [admitted, admits, startingAt, same, admitted_reached]
      · have other : (target == file item) = false := beq_eq_false_iff_ne.mpr same
        simpa [admitted, admits, startingAt, other, Ne.symm same] using ih

namespace Run

/-- A fold that fails has failed at an item, after it had gone over those in front. -/
theorem foldlM_eq_error {Item Value : Type} {step : Value → Item → Run Value} {items : List Item}
    {start : Value} {files after : FileSystem} {cause : BatchError}
    (failed : items.foldlM step start files = .error cause after) :
    ∃ (before : List Item) (item : Item) (behind : List Item) (value : Value)
        (middle : FileSystem), items = before ++ item :: behind ∧
      before.foldlM step start files = .ok value middle ∧
      step value item middle = .error cause after := by
  induction items generalizing start files with
  | nil => cases failed
  | cons item rest ih =>
      rw [List.foldlM_cons] at failed
      rcases bind_eq_error.mp failed with stepped | ⟨value, middle, stepped, later⟩
      · exact ⟨[], item, rest, start, files, rfl, rfl, stepped⟩
      · obtain ⟨before, other, behind, reached, further, rfl, folded, stopped⟩ := ih later
        refine ⟨item :: before, other, behind, reached, further, rfl, ?_, stopped⟩
        rw [List.foldlM_cons, bind_of_ok stepped]
        exact folded

/-- A step that does not give up a source. -/
def NeverAbandons {Value : Type} (step : Run Value) : Prop :=
  ∀ files phase file cause after, step files ≠ .error (.abandoned phase file cause) after

theorem neverAbandons_store (path : Path) (text : String) :
    NeverAbandons (Run.store path text) := by
  intro files phase file cause after failed
  rcases bind_eq_error.mp failed with parent | ⟨_, middle, -, changed⟩
  · cases named : path.parent? with
    | none =>
        simp only [Run.makeParent, named] at parent
        cases parent
    | some above =>
        cases inner : above.isEmpty with
        | true =>
            simp only [Run.makeParent, named, inner] at parent
            cases parent
        | false =>
            rw [makeParent_apply named inner] at parent
            split at parent <;> cases parent
  · rw [change_write_apply] at changed
    split at changed <;> cases changed

end Run

namespace Job

variable {job : Job}

/-- Both phases over given sources. -/
def convertOnly (job : Job) (sources : List SourceFile) : Run RunReport := do
  let (index, report) ← job.analyseAll sources
  job.makeAll index report sources

/-- Where a run over both phases gives up: at a source, with the sources in front of it
done in the same phase, and with all sources analysed if it makes them already. -/
inductive GivesUp (job : Job) (files : FileSystem) (before : List SourceFile)
    (source : SourceFile) (behind : List SourceFile) (cause : BatchError) (left : FileSystem) :
    Phase → Prop where
  | analyse {state middle noted}
      (done : before.foldlM job.analyseNext ({}, {}) files = .ok state middle)
      (notes : job.noteProgress source middle = .ok () noted)
      (fails : job.analyseSource source noted = .error cause left) :
      GivesUp job files before source behind cause left .analyse
  | make {index report analysed made middle noted}
      (known : job.analyseAll (before ++ source :: behind) files = .ok (index, report) analysed)
      (done : before.foldlM (job.makeNext index) report analysed = .ok made middle)
      (notes : job.noteProgress source middle = .ok () noted)
      (fails : job.makeSource index source noted = .error cause left) :
      GivesUp job files before source behind cause left .make

theorem error_of_applyPolicy {Value : Type} {phase : Phase} {source : SourceFile}
    {report : RunReport} {outcome : Except BatchError Value} {files left : FileSystem}
    {given : BatchError}
    (failed : job.applyPolicy phase source report outcome files = .error given left) :
    ∃ cause, outcome = .error cause ∧ given = .abandoned phase source.relative cause ∧
      left = files := by
  unfold applyPolicy at failed
  split at failed
  · cases failed
  · next cause =>
    split at failed
    · cases failed
      exact ⟨cause, rfl, rfl, rfl⟩
    · cases failed

/-- A source is given up because the step on it fails, behind its checkpoint. -/
theorem step_of_abandoned {Value Final : Type} {phase stage : Phase} {source : SourceFile}
    {report : RunReport} {step : Run Value} {finish : Option Value × RunReport → Run Final}
    (finishes : ∀ decided, Run.NeverAbandons (finish decided)) {files left : FileSystem}
    {file : String} {cause : BatchError}
    (failed : (do
      job.noteProgress source
      let outcome ← Run.attempt step
      finish (← job.applyPolicy phase source report outcome)) files =
        .error (.abandoned stage file cause) left) :
    stage = phase ∧ file = source.relative ∧
      ∃ noted, job.noteProgress source files = .ok () noted ∧ step noted = .error cause left := by
  rcases Run.bind_eq_error.mp failed with noting | ⟨_, noted, notes, rest⟩
  · exact absurd noting (Run.neverAbandons_store _ _ _ _ _ _ _)
  · obtain trying | ⟨outcome, tried, attempted, rest⟩ := Run.bind_eq_error.mp rest
    · unfold Run.attempt at trying
      split at trying <;> cases trying
    · rcases Run.bind_eq_error.mp rest with decided | ⟨decided, settled, -, finished⟩
      · obtain ⟨inner, rfl, equal, rfl⟩ := error_of_applyPolicy decided
        cases equal
        refine ⟨rfl, rfl, noted, notes, ?_⟩
        unfold Run.attempt at attempted
        split at attempted
        · cases attempted
        · next failed =>
          cases attempted
          exact failed
      · exact absurd finished (finishes _ _ _ _ _ _)

theorem analyseNext_abandoned {before : MemberIndex × RunReport} {source : SourceFile}
    {files left : FileSystem} {phase : Phase} {file : String} {cause : BatchError}
    (failed : job.analyseNext before source files = .error (.abandoned phase file cause) left) :
    phase = .analyse ∧ file = source.relative ∧
      ∃ noted, job.noteProgress source files = .ok () noted ∧
        job.analyseSource source noted = .error cause left := by
  refine step_of_abandoned (fun decided => ?_) failed
  obtain ⟨_ | tree, report⟩ := decided <;> intro files phase file cause after equal <;> cases equal

theorem makeNext_abandoned {index : MemberIndex} {report : RunReport} {source : SourceFile}
    {files left : FileSystem} {phase : Phase} {file : String} {cause : BatchError}
    (failed : job.makeNext index report source files = .error (.abandoned phase file cause) left) :
    phase = .make ∧ file = source.relative ∧
      ∃ noted, job.noteProgress source files = .ok () noted ∧
        job.makeSource index source noted = .error cause left := by
  refine step_of_abandoned (fun decided => ?_) failed
  obtain ⟨_ | made, report⟩ := decided <;> intro files phase file cause after equal <;> cases equal

theorem neverAbandons_keepIndex (index : MemberIndex) :
    Run.NeverAbandons (job.keepIndex index) := by
  intro files phase file cause after failed
  rcases Run.bind_eq_error.mp failed with dumping | ⟨_, _, -, keeping⟩
  · exact Run.neverAbandons_store _ _ _ _ _ _ _ dumping
  · exact Run.neverAbandons_store _ _ _ _ _ _ _ keeping

/-- A run that gives up has stood at a source of its input. -/
theorem givesUp_of_abandoned (afresh : job.configuration.continueLast = false)
    (sequential : job.parallel = false) {files left : FileSystem} {phase : Phase} {file : String}
    {cause : BatchError} (failed : job.convert files = .error (.abandoned phase file cause) left) :
    ∃ before source behind,
      files.sources job.configuration.skip job.input = .ok (before ++ source :: behind) ∧
        source.relative = file ∧ job.GivesUp files before source behind cause left phase := by
  rcases Run.bind_eq_error.mp failed with choosing | ⟨found, start, chosen, rest⟩
  · rw [selected_apply afresh, Job.sources, Run.get_bind_apply] at choosing
    cases listed : files.sources job.configuration.skip job.input with
    | ok found => rw [listed] at choosing; cases choosing
    | error cause => rw [listed] at choosing; cases choosing
  · rw [selected_apply afresh] at chosen
    obtain ⟨listed, rfl⟩ := sources_eq_ok.mp chosen
    rcases Run.bind_eq_error.mp rest with analysing | ⟨⟨index, report⟩, analysed, known, making⟩
    · rcases Run.bind_eq_error.mp analysing with folding | ⟨state, middle, -, keeping⟩
      · obtain ⟨before, source, behind, state, middle, rfl, done, stopped⟩ :=
          Run.foldlM_eq_error folding
        obtain ⟨rfl, rfl, noted, notes, fails⟩ := analyseNext_abandoned stopped
        exact ⟨before, source, behind, listed, rfl, .analyse done notes fails⟩
      · rcases Run.bind_eq_error.mp keeping with keeping | ⟨_, _, -, returned⟩
        · exact absurd keeping (neverAbandons_keepIndex _ _ _ _ _ _)
        · cases returned
    · simp only [makeAll, sequential] at making
      obtain ⟨before, source, behind, made, middle, rfl, done, stopped⟩ :=
        Run.foldlM_eq_error making
      obtain ⟨rfl, rfl, noted, notes, fails⟩ := makeNext_abandoned stopped
      exact ⟨before, source, behind, listed, rfl, .make known done notes fails⟩

variable {parse : String → String → Except ParseFailure String}

/-- The checkpoint of a run that gives up is that of the source it gives up. -/
theorem GivesUp.checkpoint (function : job.parsing = Parsing.ofFunction parse)
    {files left : FileSystem} (tree : files.IsTree) {before behind : List SourceFile}
    {source : SourceFile} {cause : BatchError} {phase : Phase}
    (gives : job.GivesUp files before source behind cause left phase) :
    left.read job.area.checkpoint =
      .ok (Checkpoint.render ⟨job.input.text, job.output.text, source.relative⟩) := by
  have stays : ∀ middle noted, middle.IsTree → job.noteProgress source middle = .ok () noted →
      FileSystem.Grows (Path.HasOneOf sourceExtensions) noted left →
      left.read job.area.checkpoint =
        .ok (Checkpoint.render ⟨job.input.text, job.output.text, source.relative⟩) := by
    intro middle noted middleTree notes grows
    have notedTree := ((growsTo_noteProgress source).succeeds _ _ _ middleTree notes).1.tree
    refine FileSystem.read_of_grows notedTree grows ?_ (Run.read_of_store middleTree notes)
    rw [WorkArea.checkpoint, Path.lastPiece_join]
    rintro ⟨extension, listed, stem, ends⟩
    have last := congrArg List.getLast? ends
    simp only [sourceExtensions, List.mem_cons, List.not_mem_nil, or_false] at listed
    rcases listed with rfl | rfl
    · simp [targetExtension, Path.lastPiece] at last
    · simp [Path.lastPiece] at last
  have grown : ∀ middle noted, middle.IsTree → job.noteProgress source middle = .ok () noted →
      noted.IsTree := fun middle noted middleTree notes =>
    ((growsTo_noteProgress source).succeeds _ _ _ middleTree notes).1.tree
  cases gives with
  | analyse done notes fails =>
      have middleTree := ((growsTo_analysed function before).succeeds _ _ _ tree done).1.tree
      exact stays _ _ middleTree notes
        ((growsTo_analyseSource function source).fails _ _ _ (grown _ _ middleTree notes) fails)
  | make known done notes fails =>
      have analysedTree := ((growsTo_analyseAll function _).succeeds _ _ _ tree known).1.tree
      have middleTree := ((Run.Evolves.foldlM (fun report source _ _ =>
        growsTo_makeNext _ report source) trivial).succeeds _ _ _ analysedTree done).1.tree
      exact stays _ _ middleTree notes
        ((growsTo_makeSource _ source).fails _ _ _ (grown _ _ middleTree notes) fails)

/-- The sources that are gone over from a checkpoint on.  A checkpoint whose input or
output holds a bar is that of no run. -/
def resumedSources (job : Job) (file : String) (sources : List SourceFile) : List SourceFile :=
  if '|' ∈ job.input.text.toList ∨ '|' ∈ job.output.text.toList then sources
  else sources.dropWhile (·.relative ≠ file)

theorem convert_of_checkpoint (resumes : job.configuration.continueLast = true)
    {files : FileSystem} {file : String} {sources : List SourceFile}
    (keeps : Checkpoint.KeepsName file)
    (listed : files.sources job.configuration.skip job.input = .ok sources)
    (noted : files.read job.area.checkpoint =
      .ok (Checkpoint.render ⟨job.input.text, job.output.text, file⟩)) :
    job.convert files = job.convertOnly (job.resumedSources file sources) files := by
  have last : Run.lastCheckpoint job.area.checkpoint files =
      .ok (Checkpoint.read? (Checkpoint.render ⟨job.input.text, job.output.text, file⟩)) files := by
    unfold Run.lastCheckpoint
    rw [Run.get_bind_apply, if_pos (FileSystem.pathExists_of_read noted),
      Run.bind_of_ok (Run.load_of_read noted)]
    rfl
  have resumption : job.resumption files =
      .ok (if '|' ∈ job.input.text.toList ∨ '|' ∈ job.output.text.toList then .everything
        else .startingAt file) files := by
    unfold Job.resumption Run.resumption
    rw [resumes, if_pos rfl, Run.bind_of_ok last, Checkpoint.ofCheckpoint_render keeps]
    rfl
  have chosen : job.selected files = .ok (job.resumedSources file sources) files := by
    unfold selected
    rw [Run.bind_of_ok (sources_eq_ok.mpr ⟨listed, rfl⟩), Run.bind_of_ok resumption, resumedSources]
    split
    · rw [admitted_everything]
      rfl
    · rw [Resumption.admitted_startingAt]
      rfl
  exact Run.bind_of_ok chosen

/-- The same job, but started over. -/
def afresh (job : Job) : Job :=
  { job with configuration := { job.configuration with continueLast := false } }

theorem convert_afresh {files : FileSystem} {sources : List SourceFile}
    (listed : files.sources job.configuration.skip job.input = .ok sources) :
    job.afresh.convert files = job.convertOnly sources files := by
  have chosen : job.afresh.selected files = .ok sources files := by
    rw [selected_apply rfl]
    exact sources_eq_ok.mpr ⟨listed, rfl⟩
  exact Run.bind_of_ok chosen

/-! ### Two sources -/

def pairFiles : FileSystem :=
  .ofFiles [("src/A.as", ""), ("src/B.as", "")]

theorem pairFiles_eq : pairFiles = { entries :=
    ⟨[(["src"], .directory), (["src", "A.as"], .file ""), (["src", "B.as"], .file "")]⟩ } := by
  decide +kernel

def pairSources : List SourceFile :=
  [⟨⟨"src/A.as"⟩, "A.as"⟩, ⟨⟨"src/B.as"⟩, "B.as"⟩]

/-- A job whose parser accepts only some files, as empty programs. -/
def pairParse (accepted : List String) (_text file : String) : Except ParseFailure String :=
  if accepted.contains file then .ok "\x7b\"type\":\"Program\"\x7d" else .error (.rejected file)

def pairJob (accepted : List String) (continueLast : Bool) : Job where
  configuration := { continueLast }
  parsing := .ofFunction (pairParse accepted)
  input := ⟨"src"⟩
  output := ⟨"out"⟩

/-- What stands below the input, in the order in which it is listed. -/
def HoldsPair (files : FileSystem) : Prop :=
  files.locate ⟨"src"⟩ = .ok ["src"] ∧ files.entry? ["src"] = some .directory ∧
    (files.entries.entries.filterMap fun (location, entry) =>
      (FileSystem.nameIn? ["src"] location).map fun name => (name, entry)) =
        [("A.as", .file ""), ("B.as", .file "")]

instance (files : FileSystem) : Decidable (HoldsPair files) :=
  inferInstanceAs (Decidable (_ ∧ _ ∧ _))

theorem HoldsPair.sources {files : FileSystem} (holds : HoldsPair files) :
    files.sources {} ⟨"src"⟩ = .ok pairSources := by
  obtain ⟨start, stands, found⟩ := holds
  have children : files.children ["src"] = [("A.as", .file ""), ("B.as", .file "")] := by
    unfold FileSystem.children
    simp only [found]
    exact List.mergeSort_of_pairwise (by decide)
  unfold FileSystem.sources
  simp only [start, stands, FileSystem.filesBelow, FileSystem.visit, List.append_nil, children,
    List.flatMap_cons, List.flatMap_nil, List.nil_append, List.singleton_append]
  decide

/-- The files that a run leaves. -/
def filesAfter {Value : Type} : EStateM.Result BatchError FileSystem Value → FileSystem
  | .ok _ files => files
  | .error _ files => files

/-- Whether a run gave up, and where. -/
def givenUp? {Value : Type} : EStateM.Result BatchError FileSystem Value → Option (Phase × String)
  | .error (.abandoned phase file _) _ => some (phase, file)
  | _ => none

theorem givenUp?_eq_some {Value : Type} {result : EStateM.Result BatchError FileSystem Value}
    {phase : Phase} {file : String} (gave : givenUp? result = some (phase, file)) :
    ∃ cause, result = .error (.abandoned phase file cause) (filesAfter result) := by
  unfold givenUp? at gave
  split at gave
  · cases gave
    exact ⟨_, rfl⟩
  · cases gave

/-- The files that are left when the second source is not parsed. -/
def pairLeft : FileSystem :=
  filesAfter ((pairJob ["A.as"] true).convertOnly pairSources pairFiles)

theorem pairLeft_run :
    givenUp? ((pairJob ["A.as"] true).convertOnly pairSources pairFiles) =
        some (.analyse, "B.as") ∧
      pairLeft = { entries :=
        ⟨[(["src"], .directory), (["src", "A.as"], .file ""), (["src", "B.as"], .file ""),
          (["tmp"], .directory), (["tmp", "last.txt"], .file "src|out|B.as"),
          (["tmp", "ts"], .directory), (["tmp", "ts", "A.ts"], .file ""),
          (["tmp", "ast"], .directory),
          (["tmp", "ast", "A.json"], .file "\x7b\"type\":\"Program\"\x7d"),
          (["tmp", "ts", "B.ts"], .file "")]⟩ } := by
  rw [pairLeft, pairFiles_eq]
  decide +kernel

theorem pairFiles_holds : HoldsPair pairFiles := by
  rw [pairFiles_eq]
  decide

theorem pairFiles_sources : pairFiles.sources {} ⟨"src"⟩ = .ok pairSources :=
  pairFiles_holds.sources

theorem pairLeft_holds :
    HoldsPair pairLeft ∧ pairLeft.read (pairJob ["A.as", "B.as"] true).area.checkpoint =
      .ok (Checkpoint.render ⟨"src", "out", "B.as"⟩) := by
  rw [pairLeft_run.2]
  decide

theorem pairJob_convert (accepted : List String) :
    (pairJob accepted false).convert pairFiles =
      (pairJob accepted true).convertOnly pairSources pairFiles :=
  @convert_afresh (pairJob accepted true) _ _ pairFiles_sources

theorem pairJob_gaveUp :
    ∃ cause, (pairJob ["A.as"] false).convert pairFiles =
      .error (.abandoned .analyse "B.as" cause) pairLeft := by
  rw [pairJob_convert]
  exact givenUp?_eq_some pairLeft_run.1

theorem pairJob_resumed :
    (pairJob ["A.as", "B.as"] true).resumedSources "B.as" pairSources =
      [⟨⟨"src/B.as"⟩, "B.as"⟩] := by
  decide

-- a checkpoint of a file that is not there leaves nothing to do
example : (pairJob [] true).resumedSources "C.as" pairSources = [] := by
  decide

theorem keepsName_pair : Checkpoint.KeepsName "B.as" := by
  unfold Checkpoint.KeepsName
  decide

end Job

end ScriptBridge

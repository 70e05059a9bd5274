import ScriptBridge.Proofs.Batch.AnyOrder

/-!
# The first source that cannot be made

A run that ends at failures makes separate sources one after another up to the first one
that cannot be made.  The code of the sources in front of it is written, nothing is written
for it or for those behind it, and the checkpoint names it.
-/

namespace ScriptBridge

/-- What is read at a plain path is the text of the file there, unless a file is in the way. -/
theorem FileSystem.read_eq_ok_iff {files : FileSystem} {path : Path} {text : String}
    (tree : files.IsTree) (plain : files.IsPlain path) :
    files.read path = .ok text ↔
      files.isBarred path = false ∧ files.textAt? (files.spelled path) = some text := by
  constructor
  · intro read
    obtain ⟨place, located, stands⟩ := place_of_read read
    rw [locate_plain tree plain, approachTo] at located
    cases barred : files.isBarred path with
    | true =>
        rw [barred] at located
        cases located
    | false =>
        rw [barred, if_neg Bool.false_ne_true] at located
        cases approached : files.approach (files.spelled path).dropLast with
        | error cause =>
            rw [approached] at located
            cases located
        | ok done =>
            rw [approached] at located
            cases located
            exact ⟨rfl, stands⟩
  · rintro ⟨unbarred, stands⟩
    rw [textAt?_eq_some] at stands
    have room := tree.rooted _ (entry?_eq_some plain.spelled_ne_nil stands)
    rw [read_plain tree plain, approachTo, unbarred, if_neg Bool.false_ne_true,
      approach_of_directory room]
    dsimp only
    rw [stands]

/-- What is read at a plain path in a later tree. -/
theorem FileSystem.IsPlain.read_later_iff {files after : FileSystem} {path : Path} {text : String}
    {fresh : String → Prop} (plain : files.IsPlain path) (tree : files.IsTree)
    (grown : Grows fresh files after) :
    after.read path = .ok text ↔
      files.isBarred path = false ∧ after.textAt? (files.spelled path) = some text := by
  obtain ⟨laterPlain, sameBar⟩ := plain.later tree grown
  rw [read_eq_ok_iff grown.tree laterPlain, sameBar, spelled_of_grows grown]

namespace Job

variable {job : Job} {index : MemberIndex} {files after : FileSystem}
variable {before behind sources : List SourceFile} {source : SourceFile} {cause : BatchError}

/-! ### The sources in front -/

/-- Fewer separate sources are separate. -/
theorem Separate.sublist (separate : job.Separate files sources) (fewer : before.Sublist sources) :
    job.Separate files before where
  tree := separate.tree
  input := separate.input
  area := separate.area
  stored := separate.stored
  below source isSource := separate.below source (fewer.subset isSource)
  targets source isSource := separate.targets source (fewer.subset isSource)
  outside source isSource := separate.outside source (fewer.subset isSource)
  apart := separate.apart.sublist fewer

theorem delivers_of_outcome (made : (job.outcome index files source).isOk) :
    ∃ code, job.Delivers index files source code := by
  unfold outcome at made
  cases generated : job.codeOf index files source with
  | error cause =>
      rw [generated] at made
      cases made
  | ok code =>
      rw [generated] at made
      dsimp only at made
      cases clearance : files.clearanceTo (job.target files source) with
      | error cause =>
          rw [clearance] at made
          cases made
      | ok done =>
          rw [clearance] at made
          dsimp only at made
          refine ⟨code, generated, clearance, fun stands => ?_⟩
          rw [if_pos stands] at made
          cases made

/-- There is a report on sources that can all be made. -/
theorem summary_of_made (made : ∀ source ∈ sources, (job.outcome index files source).isOk)
    (report : RunReport) :
    ∃ whole, job.summary report (job.outcomes index files sources) = .ok whole := by
  induction sources generalizing report with
  | nil => exact ⟨report, rfl⟩
  | cons source rest ih =>
      obtain ⟨code, delivers⟩ := delivers_of_outcome (made source List.mem_cons_self)
      rw [outcomes, List.map_cons, summary, outcome_of_delivers delivers]
      exact ih (fun other isOther => made other (List.mem_cons_of_mem _ isOther)) _

/-- Sources that can all be made are made. -/
theorem made_of_outcomes (separate : job.Separate files sources)
    (made : ∀ source ∈ sources, (job.outcome index files source).isOk) (report : RunReport) :
    ∃ whole later, sources.foldlM (job.makeNext index) report files = .ok whole later ∧
      job.Made index files sources later := by
  have ends := @ends_foldlM_makeNext job index files files sources [] sources separate rfl
    (.begin separate.tree) report
  obtain ⟨whole, summarized⟩ := summary_of_made made report
  rw [summarized] at ends
  generalize List.foldlM (job.makeNext index) report sources files = ended at *
  cases ends with
  | reports done => exact ⟨whole, _, rfl, done⟩

/-! ### The one that fails -/

/-- What is left behind when a run ends at a source: the code of the sources in front of it
is written, where the code of the others goes stands what stood there, nothing else is written
but the checkpoint, and that names the source. -/
structure EndsAt (job : Job) (index : MemberIndex) (files : FileSystem)
    (before : List SourceFile) (source : SourceFile) (behind : List SourceFile)
    (after : FileSystem) : Prop where
  written : ∀ earlier ∈ before, ∃ code, job.codeOf index files earlier = .ok code ∧
    after.read (job.target files earlier) = .ok code.text
  untouched : ∀ other ∈ source :: behind, ∀ text,
    after.read (job.target files other) = .ok text ↔ files.read (job.target files other) = .ok text
  elsewhere : ∀ location ≠ files.spelled job.area.checkpoint,
    (∀ earlier ∈ before, location ≠ files.spelled (job.target files earlier)) →
      after.textAt? location = files.textAt? location
  checkpoint : after.read job.area.checkpoint =
    .ok (Checkpoint.render ⟨job.input.text, job.output.text, source.relative⟩)

/-- Where no code has been written stands what stood there. -/
theorem Made.textAt?_elsewhere {done : List SourceFile} (made : job.Made index files done after)
    {location : FileLocation} (isOther : location ≠ files.spelled job.area.checkpoint)
    (apart : ∀ source ∈ done, ∀ code, job.Delivers index files source code →
      location ≠ files.spelled (job.target files source)) :
    after.textAt? location = files.textAt? location := by
  have onlyOld (text : String) (found : after.textAt? location = some text) :
      files.textAt? location = some text := by
    rcases made.amid.texts location text found with
      old | isCheckpoint | ⟨source, isDone, code, delivers, isTarget, -⟩
    · exact old
    · exact absurd isCheckpoint isOther
    · exact absurd isTarget (apart source isDone code delivers)
  refine Option.ext fun text => ⟨onlyOld text, fun stands => ?_⟩
  obtain ⟨later, kept⟩ := made.amid.grown.file location
    ⟨text, FileSystem.textAt?_eq_some.mp stands⟩
  have found := FileSystem.textAt?_eq_some.mpr kept
  rw [found, ← onlyOld later found, stands]

/-- A run that ends at failures fails at a source that cannot be made. -/
theorem makeNext_of_failed (stops : job.configuration.options.stopAtError = true)
    (report : RunReport) {noted later : FileSystem}
    (notes : job.noteProgress source after = .ok () noted)
    (tries : Run.attempt (job.makeSource index source) noted = .ok (.error cause) later) :
    job.makeNext index report source after =
      .error (.abandoned .make source.relative cause) later := by
  unfold makeNext
  rw [Run.bind_of_ok notes, Run.bind_of_ok tries, recordMade_apply, settled, if_pos stops]

/-- What is left behind when the sources in front have been made and the next one fails. -/
theorem Made.endsAt (separate : job.Separate files (before ++ source :: behind))
    (made : job.Made index files before after)
    (reached : ∀ earlier ∈ before, (job.outcome index files earlier).isOk)
    (failed : job.outcome index files source = .error cause) :
    ∃ noted later, job.noteProgress source after = .ok () noted ∧
      Run.attempt (job.makeSource index source) noted = .ok (.error cause) later ∧
      job.EndsAt index files before source behind later := by
  have isSource : source ∈ before ++ source :: behind := by simp
  have isEarlier (earlier : SourceFile) (isBefore : earlier ∈ before) :
      earlier ∈ before ++ source :: behind :=
    List.mem_append_left _ isBefore
  have fresh := separate.fresh rfl
  obtain ⟨noted, notes, notedMade⟩ := made.note separate rfl source
  obtain ⟨later, tries, turned⟩ :=
    attempt_amid separate isEarlier notedMade.amid isSource fresh
  rw [failed] at tries
  have laterMade : job.Made index files (before ++ [source]) later := by
    obtain ⟨_, again, known⟩ := notedMade.next separate rfl
    rw [failed, tries] at again
    cases again
    exact known
  have onlyBefore (other : SourceFile) (isMade : other ∈ before ++ [source]) (code : Generated)
      (delivers : job.Delivers index files other code) : other ∈ before := by
    rcases List.mem_append.mp isMade with isBefore | isLast
    · exact isBefore
    · obtain rfl := List.mem_singleton.mp isLast
      rw [outcome_of_delivers delivers] at failed
      cases failed
  have elsewhere (location : FileLocation) (isOther : location ≠ files.spelled job.area.checkpoint)
      (apart : ∀ earlier ∈ before, location ≠ files.spelled (job.target files earlier)) :
      later.textAt? location = files.textAt? location :=
    laterMade.textAt?_elsewhere isOther fun other isMade code delivers =>
      apart other (onlyBefore other isMade code delivers)
  refine ⟨noted, later, notes, tries, ?_, ?_, elsewhere, ?_⟩
  · intro earlier isBefore
    obtain ⟨code, delivers⟩ := delivers_of_outcome (reached earlier isBefore)
    have plain := separate.targets earlier (isEarlier earlier isBefore)
    exact ⟨code, delivers.generated, (plain.read_later_iff separate.tree turned.amid.grown).mpr
      ⟨(FileSystem.clearanceTo_eq_ok.mp delivers.clear).1,
        laterMade.delivered earlier (List.mem_append_left _ isBefore) code delivers⟩⟩
  · intro other isBehind text
    have isOther : other ∈ before ++ source :: behind := List.mem_append_right _ isBehind
    have plain := separate.targets other isOther
    have same : later.textAt? (files.spelled (job.target files other)) =
        files.textAt? (files.spelled (job.target files other)) := by
      refine elsewhere _ (separate.checkpoint_ne isOther) fun earlier isBefore => ?_
      exact ((List.pairwise_append.mp separate.apart).2.2 earlier isBefore other isBehind).ne.symm
    rw [plain.read_later_iff separate.tree turned.amid.grown,
      FileSystem.read_eq_ok_iff separate.tree plain, same]
  · have stored := Run.read_of_store made.amid.grown.tree notes
    have plain := separate.checkpoint
    rw [plain.read_later_iff separate.tree notedMade.amid.grown] at stored
    rw [plain.read_later_iff separate.tree turned.amid.grown,
      turned.elsewhere _ (separate.checkpoint_ne isSource).symm]
    exact stored

/-- If a run that ends at failures makes separate sources one after another, and some source
is the first that cannot be made, then the run fails with that source and its cause; the code
of all sources in front of it is written, nothing is written for it or for those behind it,
and the checkpoint names it. -/
theorem make_endsAt (sequential : job.parallel = false)
    (stops : job.configuration.options.stopAtError = true)
    (chosen : job.selected files = .ok (before ++ source :: behind) files)
    (known : job.keptIndex files = .ok index files)
    (separate : job.Separate files (before ++ source :: behind))
    (reached : ∀ earlier ∈ before, (job.outcome index files earlier).isOk)
    (failed : job.outcome index files source = .error cause) :
    ∃ after, job.make files = .error (.abandoned .make source.relative cause) after ∧
      (BatchError.abandoned .make source.relative cause).message =
        "make failed for " ++ source.relative ++ ": " ++ cause.message ∧
      job.EndsAt index files before source behind after := by
  have front : job.Separate files before :=
    separate.sublist (List.sublist_append_left _ _)
  obtain ⟨report, middle, done, made⟩ := made_of_outcomes front reached {}
  obtain ⟨noted, later, notes, tries, ends⟩ := made.endsAt separate reached failed
  refine ⟨later, ?_, rfl, ends⟩
  have inTurn : job.makeAll index {} = List.foldlM (job.makeNext index) {} := by
    funext sources
    rw [makeAll, sequential]
    rfl
  rw [make, Run.bind_of_ok chosen, Run.bind_of_ok known, inTurn, List.foldlM_append,
    Run.bind_of_ok done, List.foldlM_cons,
    Run.bind_of_error (makeNext_of_failed stops report notes tries)]

/-! ### Two sources, the second with a riddle -/

/-- A job that makes sources from kept trees and ends at failures. -/
def endingJob : Job :=
  { input := ⟨"src"⟩, output := ⟨"out"⟩ }

/-- The tree of a name as a statement. -/
def nameTree : String :=
  "\x7b\"type\":\"Program\",\"body\":[\x7b\"type\":\"ExpressionStatement\",\"expression\":" ++
    "\x7b\"type\":\"Identifier\",\"name\":\"a\"\x7d\x7d]\x7d"

/-- The tree of a statement that is not known. -/
def riddleTree : String :=
  "\x7b\"type\":\"Program\",\"body\":[\x7b\"type\":\"Riddle\"\x7d]\x7d"

def riddleFiles : FileSystem :=
  .ofFiles [("src/A.as", ""), ("src/B.as", ""), ("out/A.ts", "old"), ("out/B.ts", "mine"),
    ("tmp/ast/A.json", nameTree), ("tmp/ast/B.json", riddleTree)]

theorem riddleFiles_eq : riddleFiles = { entries :=
    ⟨[(["src"], .directory), (["src", "A.as"], .file ""), (["src", "B.as"], .file ""),
      (["out"], .directory), (["out", "A.ts"], .file "old"), (["out", "B.ts"], .file "mine"),
      (["tmp"], .directory), (["tmp", "ast"], .directory),
      (["tmp", "ast", "A.json"], .file nameTree),
      (["tmp", "ast", "B.json"], .file riddleTree)]⟩ } := by
  decide +kernel

theorem endingJob_selected {files : FileSystem} (holds : HoldsPair files) :
    endingJob.selected files = .ok pairSources files := by
  rw [selected_apply rfl]
  exact sources_eq_ok.mpr ⟨holds.sources, rfl⟩

theorem keptIndex_of_missing (missing : files.pathExists job.area.index = false) :
    job.keptIndex files = .ok {} files := by
  unfold keptIndex
  rw [Run.get_bind_apply, missing]
  rfl

theorem make_endsAt_riddle :
    ∃ cause after, endingJob.outcome {} riddleFiles soundSource = .error cause ∧
      endingJob.make riddleFiles = .error (.abandoned .make "B.as" cause) after ∧
      after.read ⟨"out/A.ts"⟩ = .ok "a;" ∧ after.read ⟨"out/B.ts"⟩ = .ok "mine" ∧
      after.read ⟨"tmp/last.txt"⟩ = .ok "src|out|B.as" := by
  have holds : HoldsPair riddleFiles := by
    rw [riddleFiles_eq]
    decide
  have separate : endingJob.Separate riddleFiles pairSources := by
    rw [riddleFiles_eq]
    exact separate_of_checks (by decide +kernel)
  have ⟨missing, reached, fails, targets, generated, mine⟩ :
      riddleFiles.pathExists endingJob.area.index = false ∧
      (∀ earlier ∈ [brokenSource], (endingJob.outcome {} riddleFiles earlier).isOk) ∧
      (endingJob.outcome {} riddleFiles soundSource).isOk = false ∧
      (endingJob.target riddleFiles brokenSource = ⟨"out/A.ts"⟩ ∧
        endingJob.target riddleFiles soundSource = ⟨"out/B.ts"⟩) ∧
      ((endingJob.codeOf {} riddleFiles brokenSource).toOption.map Generated.text = some "a;") ∧
      riddleFiles.read ⟨"out/B.ts"⟩ = .ok "mine" := by
    rw [riddleFiles_eq]
    decide +kernel
  cases failed : endingJob.outcome {} riddleFiles soundSource with
  | ok made =>
      rw [failed] at fails
      cases fails
  | error cause =>
      obtain ⟨after, ended, -, ends⟩ := @make_endsAt endingJob {} riddleFiles [brokenSource] []
        soundSource cause rfl rfl (endingJob_selected holds) (keptIndex_of_missing missing)
        separate reached failed
      obtain ⟨code, isCode, written⟩ := ends.written brokenSource List.mem_cons_self
      have untouched := ends.untouched soundSource List.mem_cons_self "mine"
      rw [targets.1] at written
      rw [targets.2] at untouched
      rw [isCode] at generated
      have text : code.text = "a;" := Option.some.inj generated
      exact ⟨cause, after, rfl, ended, text ▸ written, untouched.mpr mine, ends.checkpoint⟩

/-- The message with which a run fails. -/
def failureMessage? {Value : Type} (ended : EStateM.Result BatchError FileSystem Value) :
    Option String :=
  match ended with
  | .ok _ _ => none
  | .error cause _ => some cause.message

/-- Two sources without trees, and a directory where the checkpoint would stand. -/
def heldPair : FileSystem :=
  .ofFiles [("src/A.as", ""), ("src/B.as", ""), ("tmp/last.txt/x", "")]

/-- Three sources, the last one without a tree.  The second goes below a directory that has
the name of the first one's code. -/
def nestedTriple : FileSystem :=
  .ofFiles [("src/A.as", ""), ("src/A.ts/B.as", ""), ("src/C.as", ""),
    ("tmp/ast/A.json", emptyTree), ("tmp/ast/A.ts/B.json", emptyTree)]

theorem heldPair_nestedTriple_eq :
    heldPair = { entries :=
      ⟨[(["src"], .directory), (["src", "A.as"], .file ""), (["src", "B.as"], .file ""),
        (["tmp"], .directory), (["tmp", "last.txt"], .directory),
        (["tmp", "last.txt", "x"], .file "")]⟩ } ∧
    nestedTriple = { entries :=
      ⟨[(["src"], .directory), (["src", "A.as"], .file ""), (["src", "A.ts"], .directory),
        (["src", "A.ts", "B.as"], .file ""), (["src", "C.as"], .file ""), (["tmp"], .directory),
        (["tmp", "ast"], .directory), (["tmp", "ast", "A.json"], .file emptyTree),
        (["tmp", "ast", "A.ts"], .directory),
        (["tmp", "ast", "A.ts", "B.json"], .file emptyTree)]⟩ } := by
  decide +kernel

def treelessSource : SourceFile :=
  ⟨⟨"src/C.as"⟩, "C.as"⟩

/-- A job whose work area is reached through a directory that is not there. -/
def windingJob : Job :=
  { endingJob with configuration := { temporaryRoot := "x/../tmp" } }

/-- It is not enough that code goes to different places: the checkpoint must be stored, no
file may come to stand above another one, and no path may turn back from a directory that is
not there. -/
theorem make_fails_otherwise :
    (endingJob.selected heldPair = .ok pairSources heldPair ∧
      endingJob.GoesOutside heldPair pairSources ∧
      (endingJob.codeOf {} heldPair brokenSource).isOk = false ∧
      failureMessage? (endingJob.make heldPair) =
        some "failed to write tmp/last.txt: Is a directory (os error 21)") ∧
    (endingJob.GoesOutside nestedTriple (nestedSources ++ [treelessSource]) ∧
      (∀ source ∈ nestedSources, (endingJob.codeOf {} nestedTriple source).isOk) ∧
      (endingJob.codeOf {} nestedTriple treelessSource).isOk = false ∧
      failureMessage? (endingJob.makeAll {} {} (nestedSources ++ [treelessSource]) nestedTriple) =
        some ("make failed for A.ts/B.as: failed to create directory out/A.ts: " ++
          "File exists (os error 17)")) ∧
    (windingJob.GoesOutside keptFiles singleSource ∧
      (windingJob.codeOf {} keptFiles brokenSource).isOk = false ∧
      failureMessage? (windingJob.makeAll {} {} singleSource keptFiles) = none) := by
  have ⟨holds, missing⟩ :
      HoldsPair heldPair ∧ heldPair.pathExists endingJob.area.index = false := by
    rw [heldPair_nestedTriple_eq.1]
    decide
  have chosen := endingJob_selected holds
  have run : endingJob.make heldPair = endingJob.makeAll {} {} pairSources heldPair := by
    rw [make, Run.bind_of_ok chosen, Run.bind_of_ok (keptIndex_of_missing missing)]
  rw [run]
  refine ⟨⟨chosen, ?_⟩, ?_, ?_⟩
  · rw [heldPair_nestedTriple_eq.1]
    decide +kernel
  · rw [heldPair_nestedTriple_eq.2]
    decide +kernel
  · rw [keptFiles_eq]
    decide +kernel

end Job

end ScriptBridge

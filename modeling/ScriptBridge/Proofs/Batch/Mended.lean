import ScriptBridge.Proofs.Batch.Writes

/-!
# Going on behind a mend

A run that gives up leaves what it has stored so far.  Then its files and its parser are
mended, and it is gone on with.  What comes of it is compared with what one run comes to that
starts with the mended files from the beginning: the code of all sources that are gone over
again is the same if what they inherit does not come from sources that are passed over.  The
code of these is there if it had been made, and is missing if the first run gave up before.
-/

namespace ScriptBridge

open FileSystem (Grows Within Toward WrittenAt)

open ScriptBridge.Path (HasOneOf writtenExtensions)

namespace FileSystem

variable {files whole : FileSystem} {path : Path}

theorem Within.pathExists (within : Within files whole) (found : files.pathExists path = true) :
    whole.pathExists path = true := by
  unfold FileSystem.pathExists at found ⊢
  cases looked : files.lookUp path with
  | error cause =>
      rw [looked] at found
      cases found
  | ok entry =>
      obtain ⟨place, placed, stands⟩ := lookUp_eq_ok.mp looked
      have there : ∃ later, whole.entry? place = some later := by
        cases entry with
        | directory => exact ⟨_, within.directory _ stands⟩
        | file text =>
            obtain ⟨later, kept⟩ := within.file _ ⟨text, stands⟩
            exact ⟨_, kept⟩
      obtain ⟨later, kept⟩ := there
      rw [lookUp_eq_ok.mpr ⟨place, within.locate placed, kept⟩]
      rfl

theorem pathExists_of_sources {skip : SkipRules} {sources : List SourceFile}
    (listed : files.sources skip path = .ok sources) : files.pathExists path = true := by
  unfold FileSystem.sources at listed
  unfold FileSystem.pathExists
  cases located : files.locate path with
  | error cause =>
      rw [located] at listed
      cases listed
  | ok place =>
      rw [located] at listed
      cases stands : files.entry? place with
      | none =>
          simp only [stands] at listed
          cases listed
      | some entry =>
          rw [lookUp_eq_ok.mpr ⟨place, located, stands⟩]
          rfl

end FileSystem

/-- Two indices know the same of the superclasses of all classes in a tree. -/
def Node.InheritsAlike (index other : MemberIndex) (tree : Node) : Prop :=
  tree.Extending fun superClass =>
    ∀ member, index.inherits superClass member = other.inherits superClass member

namespace Job

variable {job next : Job} {parse nextParse : String → String → Except ParseFailure String}
variable {files left fresh mended whole : FileSystem}
variable {sources before behind : List SourceFile} {source : SourceFile} {cause : BatchError}

/-! ### Sources that are gone over again -/

/-- The sources that are passed over from a checkpoint on. -/
def passedOver (job : Job) (file : String) (sources : List SourceFile) : List SourceFile :=
  if '|' ∈ job.input.text.toList ∨ '|' ∈ job.output.text.toList then []
  else sources.takeWhile (·.relative ≠ file)

theorem passedOver_append (job : Job) (file : String) (sources : List SourceFile) :
    job.passedOver file sources ++ job.resumedSources file sources = sources := by
  unfold passedOver resumedSources
  split
  · rfl
  · exact List.takeWhile_append_dropWhile

/-- What is passed over had been in front of the source that was given up, and that one is gone
over again. -/
theorem exists_append_passedOver (job : Job) (before behind : List SourceFile)
    (source : SourceFile) :
    let sources := before ++ source :: behind
    source ∈ job.resumedSources source.relative sources ∧
      ∃ rest, before = job.passedOver source.relative sources ++ rest ∧
        ∀ other ∈ rest, other ∈ job.resumedSources source.relative sources := by
  intro sources
  unfold passedOver resumedSources
  split
  · exact ⟨by simp [sources], before, rfl, fun other isOther => List.mem_append_left _ isOther⟩
  · have cut : sources.takeWhile (·.relative ≠ source.relative) =
        before.takeWhile (·.relative ≠ source.relative) := by
      rw [List.takeWhile_append]
      split
      · next full =>
        rw [(List.takeWhile_prefix _).eq_of_length full]
        simp
      · rfl
    have again : sources.dropWhile (·.relative ≠ source.relative) =
        before.dropWhile (·.relative ≠ source.relative) ++ source :: behind := by
      rw [List.dropWhile_append]
      split
      · next isNil =>
        rw [List.isEmpty_iff.mp isNil]
        simp
      · rfl
    rw [cut, again]
    exact ⟨by simp, before.dropWhile (·.relative ≠ source.relative),
      List.takeWhile_append_dropWhile.symm, fun other isOther => List.mem_append_left _ isOther⟩

/-- Sources that a run finds, and that it finds again and reads alike whatever it stores. -/
structure GoesOver (job : Job) (files : FileSystem) (sources : List SourceFile) : Prop where
  tree : files.IsTree
  listed : files.sources job.configuration.skip job.input = .ok sources
  readable : ∀ source ∈ sources, files.isFile source.path = true
  unwritten : ∀ source ∈ sources, ¬ HasOneOf writtenExtensions source.path.lastPiece
  below : ∀ source ∈ sources, ((Path.mk source.relative).withExtension "json").Descends

/-- A job that goes on with another one, and gives up at failures like that. -/
structure GoesOn (job next : Job) : Prop where
  continues : next.configuration.continueLast = true
  stops : next.configuration.options.stopAtError = true
  sequential : next.parallel = false
  input : next.input = job.input
  output : next.output = job.output
  area : next.area = job.area

/-- Only code of sources that are passed over goes to a place. -/
def OnlyPassedOver (job : Job) (files : FileSystem) (passed resumed : List SourceFile)
    (location : FileLocation) : Prop :=
  (∃ source ∈ passed, files.spelled (job.target files source) = location) ∧
    ∀ source ∈ resumed, files.spelled (job.target files source) ≠ location

theorem GoesOver.there (goesOver : job.GoesOver files sources) :
    files.pathExists job.input = true :=
  FileSystem.pathExists_of_sources goesOver.listed

/-- The same sources are found among files that a run has left. -/
theorem GoesOver.listed_later (goesOver : job.GoesOver files sources)
    (grown : Grows (HasOneOf writtenExtensions) files left) :
    left.sources job.configuration.skip job.input = .ok sources :=
  FileSystem.sources_of_grows goesOver.tree grown
    (fun _ written base => Path.isSource_join_of_written written base) goesOver.listed

namespace GoesOn

variable (goesOn : job.GoesOn next)

include goesOn

theorem target : next.target = job.target := by
  funext files source
  rw [Job.target, Job.target, goesOn.input, goesOn.output]

theorem areaPaths : next.areaPaths = job.areaPaths := by
  funext sources
  rw [Job.areaPaths, Job.areaPaths, goesOn.area]

theorem resumedSources : next.resumedSources = job.resumedSources := by
  funext file sources
  rw [Job.resumedSources, Job.resumedSources, goesOn.input, goesOn.output]

theorem codeWrites : next.codeWrites = job.codeWrites := by
  funext files code sources
  rw [Job.codeWrites, Job.codeWrites, goesOn.target]

end GoesOn

/-! ### What a run leaves that gives up -/

section

variable {Change : FileSystem → FileSystem → Prop} [FileSystem.Evolution Change]

/-- A run that gives up in its first phase changes trees as storing things of its own does. -/
theorem GivesUp.evolves_analyse (function : job.parsing = Parsing.ofFunction parse)
    (tree : files.IsTree)
    (stores : ∀ path ∈ job.areaPaths (before ++ source :: behind), Run.Stores Change path)
    (gives : job.GivesUp files before source behind cause left .analyse) : Change files left := by
  cases gives with
  | analyse done notes fails =>
      have checkpoint : Run.Stores Change job.area.checkpoint :=
        stores _ (List.mem_append_left _ List.mem_cons_self)
      have analyses (other : SourceFile) (isOther : other ∈ before ++ source :: behind) :
          Run.Evolves Change (fun _ => True) (job.analyseSource other) :=
        evolves_analyseSource function other
          (stores _ (List.mem_append_right _ (List.mem_flatMap.mpr ⟨other, isOther, by simp⟩)))
          (stores _ (List.mem_append_right _ (List.mem_flatMap.mpr ⟨other, isOther, by simp⟩)))
      have inFront := ((Run.Evolves.foldlM (fun reached other isOther proper =>
        evolves_analyseNext checkpoint (analyses other (List.mem_append_left _ isOther)) reached
          proper) MemberIndex.isProper_empty).succeeds _ _ _ tree done).1
      have noted := ((checkpoint _).succeeds _ _ _ (FileSystem.Evolution.tree inFront) notes).1
      have last := (analyses source (by simp)).fails _ _ _ (FileSystem.Evolution.tree noted) fails
      exact FileSystem.Evolution.trans inFront (FileSystem.Evolution.trans noted last)

end

/-- The making of a source fails before anything is changed, or when its code is stored. -/
theorem storing_of_makeSource_error {index : MemberIndex}
    (fails : job.makeSource index source files = .error cause left) :
    left = files ∨ ∃ text, Run.store (job.target files source) text files = .error cause left := by
  rw [makeSource_apply] at fails
  split at fails
  · cases fails
    exact .inl rfl
  · rcases Run.bind_eq_error.mp fails with stored | ⟨_, _, -, returned⟩
    · exact .inr ⟨_, stored⟩
    · cases returned

/-- A run that gives up in its second phase has analysed all sources and made those in front. -/
theorem GivesUp.converts (function : job.parsing = Parsing.ofFunction parse)
    (stops : job.configuration.options.stopAtError = true)
    (goesOver : job.GoesOver files (before ++ source :: behind))
    (aims : ∀ other ∈ before ++ source :: behind,
      job.target left other = job.target files other)
    (gives : job.GivesUp files before source behind cause left .make) :
    (∀ other ∈ before ++ source :: behind,
      analysis? parse files other = some (analysisOf parse files other)) ∧
    ∃ code analysed middle noted,
      job.Converts (analysisOf parse files) code (before ++ source :: behind) before files
        analysed middle ∧
      job.noteProgress source middle = .ok () noted ∧
      (left = noted ∨
        ∃ text, Run.store (job.target files source) text noted = .error cause left) := by
  cases gives with
  | @make index report analysed made middle noted known done notes fails =>
      obtain ⟨analysedAll, first, rfl⟩ :=
        first_of_analyseAll function stops goesOver.tree goesOver.unwritten goesOver.readable known
      have grown := (Run.storeAll_spec goesOver.tree first).1
      have kept (other : SourceFile) (isOther : other ∈ before) :=
        kept_of_first goesOver.tree first other (List.mem_append_left _ isOther)
      have further := ((Run.Evolves.foldlM (fun report other _ _ => evolves_made _ report other)
        trivial).succeeds _ _ _ grown.tree done).1
      have behindNote := ((stores_note source _).succeeds _ _ _ further.tree notes).1
      have last := (growsTo_makeSource _ source).fails _ _ _ behindNote.tree fails
      have rest := behindNote.within.trans last.within
      have generated := generated_of_folded stops grown.tree kept done
      refine ⟨analysedAll, _, analysed, middle, noted, ⟨first, generated, ?_⟩, notes, ?_⟩
      · refine (foldlM_makeNext_iff stops grown.tree kept generated ?_).mp ⟨made, done⟩
        exact fun other isOther later below above => target_between
          (grown.within.trans below) (above.trans rest) goesOver.there
          (aims other (List.mem_append_left _ isOther))
      · have aimed : job.target noted source = job.target files source :=
          target_between (grown.within.trans (further.within.trans behindNote.within)) last.within
            goesOver.there (aims source (by simp))
        rw [← aimed]
        exact storing_of_makeSource_error fails

/-- Whatever a run stores that gives up, it has the extensions of written files. -/
theorem GivesUp.grows (function : job.parsing = Parsing.ofFunction parse) (tree : files.IsTree)
    {phase : Phase} (gives : job.GivesUp files before source behind cause left phase) :
    Grows (HasOneOf writtenExtensions) files left := by
  cases gives with
  | analyse done notes fails =>
      have inFront := ((growsTo_analysed function before).succeeds _ _ _ tree done).1
      have noted := ((growsTo_noteProgress source).succeeds _ _ _ inFront.tree notes).1
      have last := (growsTo_analyseSource function source).fails _ _ _ noted.tree fails
      exact inFront.trans (noted.trans (last.mono written_of_source))
  | make known done notes fails =>
      have analysed := ((growsTo_analyseAll function _).succeeds _ _ _ tree known).1
      have inFront := ((Run.Evolves.foldlM (fun report source _ _ =>
        growsTo_makeNext _ report source) trivial).succeeds _ _ _ analysed.tree done).1
      have noted := ((growsTo_noteProgress source).succeeds _ _ _ inFront.tree notes).1
      have last := (growsTo_makeSource _ source).fails _ _ _ noted.tree fails
      exact analysed.trans (inFront.trans (noted.trans (last.mono written_of_source)))

/-- What a run stores that gives up goes where a whole run has files as well. -/
theorem GivesUp.toward (function : job.parsing = Parsing.ofFunction parse)
    (stops : job.configuration.options.stopAtError = true)
    (goesOver : job.GoesOver files (before ++ source :: behind))
    (aims : ∀ other ∈ before ++ source :: behind,
      job.target left other = job.target files other)
    (treeWhole : whole.IsTree)
    (kept : ∀ path ∈ job.areaPaths (before ++ source :: behind), whole.isFile path = true)
    (made : ∀ other ∈ before ++ source :: behind, whole.isFile (job.target files other) = true)
    {phase : Phase} (gives : job.GivesUp files before source behind cause left phase) :
    Toward whole files left := by
  have stores (path : Path) (isPath : path ∈ job.areaPaths (before ++ source :: behind)) :
      Run.Stores (Toward whole) path :=
    Run.stores_toward treeWhole (kept path isPath)
  have ofCheckpoint : Run.Stores (Toward whole) job.area.checkpoint :=
    stores _ (List.mem_append_left _ List.mem_cons_self)
  cases phase with
  | analyse => exact gives.evolves_analyse function goesOver.tree stores
  | make =>
      obtain ⟨-, code, analysed, middle, noted, converts, notes, last⟩ :=
        gives.converts function stops goesOver aims
      have first := ((Run.evolves_storeAll fun stored listed =>
        stores _ (mem_areaPaths_of_first listed)).succeeds _ _ _ goesOver.tree converts.first).1
      have ofCode : ∀ stored ∈ before.flatMap (job.makeWrites (job.target files) code),
          Run.Stores (Toward whole) stored.1 := by
        intro stored listed
        obtain ⟨other, isOther, listed⟩ := List.mem_flatMap.mp listed
        simp only [makeWrites, List.mem_cons, List.not_mem_nil, or_false] at listed
        rcases listed with rfl | rfl
        · exact ofCheckpoint
        · exact Run.stores_toward treeWhole (made other (List.mem_append_left _ isOther))
      have second := ((Run.evolves_storeAll ofCode).succeeds _ _ _ first.grows.tree
        converts.second).1
      have behindNote := ((ofCheckpoint _).succeeds _ _ _ second.grows.tree notes).1
      have upToNote := first.trans (second.trans behindNote)
      rcases last with rfl | ⟨text, stored⟩
      · exact upToNote
      · have ofTarget : Run.Stores (Toward whole) (job.target files source) :=
          Run.stores_toward treeWhole (made source (by simp))
        exact upToNote.trans ((ofTarget text).fails _ _ _ behindNote.grows.tree stored)

variable {location : FileLocation}

theorem textAt?_of_writtenAt {allowed : Path → Prop} (written : WrittenAt allowed files left)
    (elsewhere : ∀ path, allowed path → files.spelled path ≠ location) :
    left.textAt? location = files.textAt? location := by
  refine written.elsewhere location fun path isAllowed located => elsewhere path isAllowed ?_
  rw [written.grows.within.spelled_eq, FileSystem.locate_eq_spelled located]

/-- A run that gives up in its first phase only stores things of its own. -/
theorem GivesUp.textAt?_analyse (function : job.parsing = Parsing.ofFunction parse)
    (tree : files.IsTree)
    (outside : job.Outside files (before ++ source :: behind) location)
    (gives : job.GivesUp files before source behind cause left .analyse) :
    left.textAt? location = files.textAt? location := by
  have written : WrittenAt (· ∈ job.areaPaths (before ++ source :: behind)) files left :=
    gives.evolves_analyse function tree fun path isPath => Run.stores_writtenAt isPath
  exact textAt?_of_writtenAt written outside

/-- What has been made stays, also when the next source is given up. -/
theorem textAt?_of_givenUp {middle noted : FileSystem} (tree : middle.IsTree)
    (beside : middle.spelled job.area.checkpoint ≠ location)
    (notes : job.noteProgress source middle = .ok () noted) {target : Path}
    (last : left = noted ∨ ∃ text, Run.store target text noted = .error cause left) :
    left.textAt? location = middle.textAt? location := by
  obtain ⟨grown, -, texts⟩ := Run.store_spec tree notes
  have atNote : noted.textAt? location = middle.textAt? location := by
    rw [texts, if_neg beside, Option.none_or]
  rcases last with rfl | ⟨text, stored⟩
  · exact atNote
  · have written : WrittenAt (fun _ => False) noted left :=
      Run.FailsWithin.store target text () _ _ _ grown.tree (Run.bind_of_error stored)
    rw [textAt?_of_writtenAt written nofun, atNote]

/-! ### The mend -/

/-- At some places there is what a run that starts over finds, and anywhere else what another
run has left, which found the same there. -/
structure Mended (touched : FileLocation → Prop) (files left fresh mended : FileSystem) :
    Prop where
  treeFresh : fresh.IsTree
  tree : mended.IsTree
  workingFresh : fresh.working = files.working
  working : mended.working = left.working
  mends : ∀ location, touched location → mended.entry? location = fresh.entry? location
  keeps : ∀ location, ¬ touched location →
    mended.entry? location = left.entry? location ∧ fresh.entry? location = files.entry? location

namespace Mended

variable {touched : FileLocation → Prop} (mend : Mended touched files left fresh mended)

include mend

/-- What was there in the beginning is there, and what was added are files of a run. -/
theorem grows {written : String → Prop} (grown : Grows written files left) :
    Grows written fresh mended where
  tree := mend.tree
  working := by rw [mend.working, grown.working, mend.workingFresh]
  directory location stands := by
    by_cases isTouched : touched location
    · rw [mend.mends location isTouched, stands]
    · obtain ⟨asLeft, asBefore⟩ := mend.keeps location isTouched
      rw [asLeft, grown.directory location (asBefore ▸ stands)]
  file location := by
    rintro ⟨text, stands⟩
    by_cases isTouched : touched location
    · exact ⟨text, by rw [mend.mends location isTouched, stands]⟩
    · obtain ⟨asLeft, asBefore⟩ := mend.keeps location isTouched
      obtain ⟨later, kept⟩ := grown.file location ⟨text, asBefore ▸ stands⟩
      exact ⟨later, asLeft ▸ kept⟩
  origin location := by
    rintro ⟨text, stands⟩
    by_cases isTouched : touched location
    · exact .inl (mend.mends location isTouched)
    · obtain ⟨asLeft, asBefore⟩ := mend.keeps location isTouched
      rw [asLeft, asBefore]
      exact grown.origin location ⟨text, asLeft ▸ stands⟩

/-- If a run that starts over has grown from what it found, all that is there is in it. -/
theorem within (toward : Toward whole files left) (grown : Within fresh whole) :
    Within mended whole where
  working := by
    rw [mend.working, toward.grows.working, ← mend.workingFresh, grown.working]
  directory location stands := by
    by_cases isTouched : touched location
    · exact grown.directory location (mend.mends location isTouched ▸ stands)
    · obtain ⟨asLeft, asBefore⟩ := mend.keeps location isTouched
      rw [asLeft] at stands
      rcases toward.kinds (mend.workingFresh ▸ grown.working) location with same | same | same
      · exact grown.directory location (by rw [asBefore, ← same, stands])
      · exact same.2
      · obtain ⟨⟨text, isFile⟩, -⟩ := same
        rw [isFile] at stands
        cases stands
  file location := by
    rintro ⟨text, stands⟩
    by_cases isTouched : touched location
    · exact grown.file location ⟨text, mend.mends location isTouched ▸ stands⟩
    · obtain ⟨asLeft, asBefore⟩ := mend.keeps location isTouched
      rw [asLeft] at stands
      rcases toward.kinds (mend.workingFresh ▸ grown.working) location with same | same | same
      · exact grown.file location ⟨text, by rw [asBefore, ← same, stands]⟩
      · rw [same.1] at stands
        cases stands
      · exact same.2

theorem textAt? (location : FileLocation) :
    (touched location ∧ mended.textAt? location = fresh.textAt? location) ∨
      (¬ touched location ∧ mended.textAt? location = left.textAt? location ∧
        fresh.textAt? location = files.textAt? location) := by
  unfold FileSystem.textAt?
  by_cases isTouched : touched location
  · exact .inl ⟨isTouched, by rw [mend.mends location isTouched]⟩
  · obtain ⟨asLeft, asBefore⟩ := mend.keeps location isTouched
    exact .inr ⟨isTouched, by rw [asLeft], by rw [asBefore]⟩

end Mended

variable {passed resumed : List SourceFile} {analysis : SourceFile → Analysis}
variable {code : SourceFile → Generated} {middle : FileSystem}

theorem keeper?_congr (sameArea : next.area = job.area) (same : files.working = left.working) :
    next.keeper? left sources source = job.keeper? files sources source := by
  unfold keeper?
  simp only [sameArea, FileSystem.spelled_of_working same]

section

variable (goesOver : job.GoesOver fresh (passed ++ resumed))
variable (converts : job.Converts analysis code (passed ++ resumed) (passed ++ resumed) fresh
  middle whole)
variable (treeMended : mended.IsTree) (earlier : Within fresh mended)
variable (aims : ∀ other ∈ resumed, job.target mended other = job.target fresh other)

include goesOver converts treeMended earlier aims

/-- The later sources of a run can be gone over again among files that are part of what the whole
run comes to. -/
theorem Converts.resume (within : Within mended whole) (isResumed : source ∈ resumed)
    (analysed : ∀ other ∈ passed ++ resumed,
      analysis? nextParse fresh other = some (analysis other))
    (inherits : ∀ other ∈ resumed, (analysis other).tree.InheritsAlike
      (collected analysis {} (passed ++ resumed)) (collected analysis {} resumed)) :
    ∃ later after, job.Converts analysis code resumed resumed mended later after ∧
      Within after whole := by
  have treeWhole := (converts.grows goesOver.tree).tree
  have isFile (other : SourceFile) (isOther : other ∈ resumed) :=
    converts.isFile goesOver.tree (List.mem_append_right passed isOther)
  have first : ∃ later, Run.storeAll (job.firstWrites analysis resumed) mended = .ok () later ∧
      Within later whole := by
    refine Run.storeAll_within treeMended treeWhole within fun stored listed => ?_
    have isPath := areaPaths_subset (List.subset_append_right passed resumed)
      (mem_areaPaths_of_first listed)
    exact (isFile source isResumed).1 _ isPath
  obtain ⟨later, stored, inside⟩ := first
  have grown := (Run.storeAll_spec treeMended stored).1
  have second : ∃ after, Run.storeAll
      (resumed.flatMap (job.makeWrites (job.target mended) code)) later = .ok () after ∧
        Within after whole := by
    refine Run.storeAll_within grown.tree treeWhole inside fun stored listed => ?_
    obtain ⟨other, isOther, listed⟩ := List.mem_flatMap.mp listed
    simp only [makeWrites, List.mem_cons, List.not_mem_nil, or_false] at listed
    rcases listed with rfl | rfl
    · exact (isFile other isOther).1 _ (List.mem_append_left _ List.mem_cons_self)
    · dsimp only
      rw [aims other isOther]
      exact (isFile other isOther).2
  obtain ⟨after, storedCode, done⟩ := second
  refine ⟨later, after, ⟨stored, fun other isOther => ?_, storedCode⟩, done⟩
  have isAny := List.mem_append_right passed isOther
  obtain ⟨kept, isKept, isKeeper, -⟩ := @exists_keeper job other resumed fresh isOther
  have analysedKept := analysed kept (List.mem_append_right _ isKept)
  have below := goesOver.below other isAny
  have fromWhole := codeOf_of_first goesOver.tree converts.first below isAny
    (keeper?_append isKeeper) analysedKept (collected analysis {} (passed ++ resumed))
  have fromMended := codeOf_of_first treeMended stored below isOther
    ((keeper?_congr rfl earlier.working).trans isKeeper) analysedKept
    (collected analysis {} resumed)
  rw [fromMended, codeFrom_congr rfl (inherits kept isKept), ← fromWhole]
  exact converts.generated other isAny

/-- What is in the files when sources have been gone over again, and what a whole run comes to. -/
theorem Converts.textAt?_resume {later after : FileSystem} {location : FileLocation}
    (again : job.Converts analysis code resumed resumed mended later after)
    (outside : job.Outside fresh (passed ++ resumed) location) :
    after.textAt? location =
      (fresh.storedAt (job.codeWrites fresh code resumed) location).or
        (mended.textAt? location) ∧
    whole.textAt? location =
      (fresh.storedAt (job.codeWrites fresh code resumed) location).or
        ((fresh.storedAt (job.codeWrites fresh code passed) location).or
          (fresh.textAt? location)) := by
  have outsideAgain : job.Outside mended resumed location := by
    intro path isPath
    rw [← earlier.spelled_eq]
    exact outside path (areaPaths_subset (List.subset_append_right _ _) isPath)
  have same : mended.storedAt (job.codeWrites mended code resumed) location =
      fresh.storedAt (job.codeWrites fresh code resumed) location :=
    FileSystem.storedAt_map_congr
      (fun other isOther => by rw [aims other isOther, earlier.spelled_eq]) fun _ _ _ => rfl
  have split : job.codeWrites fresh code (passed ++ resumed) =
      job.codeWrites fresh code passed ++ job.codeWrites fresh code resumed := List.map_append
  constructor
  · rw [again.textAt? treeMended outsideAgain, same]
  · rw [converts.textAt? goesOver.tree outside, split, FileSystem.storedAt_append,
      Option.or_assoc]

end

/-- A run comes to an end that goes over the later sources again among files that another run
has left, if all of these are part of what the whole run comes to. -/
theorem Converts.convertOnly_resumed (function : job.parsing = Parsing.ofFunction nextParse)
    (stops : job.configuration.options.stopAtError = true) (sequential : job.parallel = false)
    (goesOver : job.GoesOver fresh (passed ++ resumed))
    (converts : job.Converts analysis code (passed ++ resumed) (passed ++ resumed) fresh middle
      whole)
    (grown : Grows (HasOneOf writtenExtensions) fresh mended) (within : Within mended whole)
    (aims : ∀ other ∈ resumed, job.target whole other = job.target fresh other)
    (isResumed : source ∈ resumed)
    (analysed : ∀ other ∈ passed ++ resumed,
      analysis? nextParse fresh other = some (analysis other))
    (inherits : ∀ other ∈ resumed, (analysis other).tree.InheritsAlike
      (collected analysis {} (passed ++ resumed)) (collected analysis {} resumed)) :
    ∃ report later after, job.convertOnly resumed mended = .ok report after ∧
      job.Converts analysis code resumed resumed mended later after := by
  have between {held : FileSystem} (below : Within fresh held) (above : Within held whole)
      (other : SourceFile) (isOther : other ∈ resumed) :
      job.target held other = job.target fresh other :=
    target_between below above goesOver.there (aims other isOther)
  have aimsMended := between grown.within within
  obtain ⟨later, after, again, inside⟩ := converts.resume goesOver grown.tree grown.within
    aimsMended within isResumed analysed inherits
  have aimsAfter := between (grown.within.trans (again.grows grown.tree).within) inside
  have isAny (other : SourceFile) (isOther : other ∈ resumed) :=
    List.mem_append_right passed isOther
  obtain ⟨report, done⟩ := convertOnly_of_converts function stops sequential grown.tree
    (fun other isOther => goesOver.unwritten other (isAny other isOther))
    (grown.within.pathExists goesOver.there)
    (fun other isOther => (aimsAfter other isOther).trans (aimsMended other isOther).symm)
    (fun other isOther => steady_of_unwritten goesOver.tree
      (goesOver.unwritten other (isAny other isOther)) (analysed other (isAny other isOther)) grown)
    again
  exact ⟨report, later, after, done, again⟩

theorem storedAt_codeWrites_eq_none {location : FileLocation} :
    files.storedAt (job.codeWrites files code sources) location = none ↔
      ∀ source ∈ sources, files.spelled (job.target files source) ≠ location := by
  rw [FileSystem.storedAt_eq_none]
  simp [codeWrites]

/-- What was made of a source before a mend is what is made of it behind: at the same place, with
the same options, from the same tree, and with the same knowledge of its superclasses. -/
structure StaysMade (job next : Job) (touched : FileLocation → Prop) (fresh : FileSystem)
    (first later : SourceFile → Analysis) (sources : List SourceFile) (source : SourceFile) :
    Prop where
  untouched : ¬ touched (fresh.spelled (job.target fresh source))
  options : next.configuration.options = job.configuration.options
  alike : ∀ kept ∈ sources, fresh.spelled (job.area.tree kept.relative) =
      fresh.spelled (job.area.tree source.relative) →
    (later kept).tree = (first kept).tree ∧
      (later kept).tree.InheritsAlike (collected first {} sources) (collected later {} sources)

/-- Such code is the same before and behind the mend. -/
theorem StaysMade.code_eq {touched : FileLocation → Prop} {first later : SourceFile → Analysis}
    {analysedFiles : FileSystem} {code laterCode : Generated}
    (stays : job.StaysMade next touched fresh first later sources source)
    (sameArea : next.area = job.area) (sameWorking : fresh.working = files.working)
    (tree : files.IsTree) (treeFresh : fresh.IsTree) (isSource : source ∈ sources)
    (below : ((Path.mk source.relative).withExtension "json").Descends)
    (analysed : ∀ other ∈ sources, analysis? parse files other = some (first other))
    (analysedLater : ∀ other ∈ sources, analysis? nextParse fresh other = some (later other))
    (stored : Run.storeAll (job.firstWrites first sources) files = .ok () analysedFiles)
    (storedLater : Run.storeAll (next.firstWrites later sources) fresh = .ok () middle)
    (made : job.codeOf (collected first {} sources) analysedFiles source = .ok code)
    (madeLater : next.codeOf (collected later {} sources) middle source = .ok laterCode) :
    code = laterCode := by
  obtain ⟨kept, isKept, isKeeper, samePlace⟩ := @exists_keeper job source sources fresh isSource
  obtain ⟨sameTree, inherits⟩ := stays.alike kept isKept samePlace
  rw [codeOf_of_first tree stored below isSource
    ((keeper?_congr rfl sameWorking).trans isKeeper) (analysed kept isKept), ← sameTree] at made
  rw [codeOf_of_first treeFresh storedLater below isSource
    ((keeper?_congr sameArea rfl).trans isKeeper) (analysedLater kept isKept),
    codeFrom_congr stays.options inherits, made] at madeLater
  exact Except.ok.inj madeLater

theorem GivesUp.textAt?_mended_analyse (function : job.parsing = Parsing.ofFunction parse)
    (tree : files.IsTree) {location : FileLocation}
    (outside : job.Outside fresh (before ++ source :: behind) location)
    (gives : job.GivesUp files before source behind cause left .analyse)
    {touched : FileLocation → Prop} (mend : Mended touched files left fresh mended) :
    mended.textAt? location = fresh.textAt? location := by
  rcases mend.textAt? location with ⟨-, asFresh⟩ | ⟨-, asLeft, asBefore⟩
  · exact asFresh
  · have outsideFirst : job.Outside files (before ++ source :: behind) location :=
      fun path isPath =>
        FileSystem.spelled_of_working mend.workingFresh path ▸ outside path isPath
    rw [asLeft, asBefore, gives.textAt?_analyse function tree outsideFirst]

theorem GivesUp.textAt?_mended_make (function : job.parsing = Parsing.ofFunction parse)
    (stops : job.configuration.options.stopAtError = true)
    (goesOver : job.GoesOver files (before ++ source :: behind)) (treeFresh : fresh.IsTree)
    (gives : job.GivesUp files before source behind cause left .make)
    {touched : FileLocation → Prop} (mend : Mended touched files left fresh mended)
    (aims : ∀ other ∈ before ++ source :: behind, ∀ held ∈ [files, left, whole],
      job.target held other = job.target fresh other)
    {rest : List SourceFile} (beforeEq : before = passed ++ rest)
    (restResumed : ∀ other ∈ rest, other ∈ resumed) {later : SourceFile → Analysis}
    (sameArea : next.area = job.area)
    (analysedLater : ∀ other ∈ before ++ source :: behind,
      analysis? nextParse fresh other = some (later other))
    (storedLater : Run.storeAll (next.firstWrites later (before ++ source :: behind)) fresh =
      .ok () middle)
    (madeLater : ∀ other ∈ before ++ source :: behind, next.codeOf
      (collected later {} (before ++ source :: behind)) middle other = .ok (code other))
    (stays : ∀ other ∈ passed, job.OnlyPassedOver fresh passed resumed
        (fresh.spelled (job.target fresh other)) →
      job.StaysMade next touched fresh (analysisOf parse files) later
        (before ++ source :: behind) other)
    {location : FileLocation} (outside : job.Outside fresh (before ++ source :: behind) location)
    (noneAgain : ∀ other ∈ resumed, fresh.spelled (job.target fresh other) ≠ location) :
    mended.textAt? location =
      (fresh.storedAt (job.codeWrites fresh code passed) location).or (fresh.textAt? location) := by
  have sameSpelled := FileSystem.spelled_of_working mend.workingFresh
  have outsideFirst : job.Outside files (before ++ source :: behind) location :=
    fun path isPath => sameSpelled path ▸ outside path isPath
  have aimsFiles (other : SourceFile) (isOther : other ∈ before ++ source :: behind) :
      job.target files other = job.target fresh other := aims other isOther files (by simp)
  have isBefore (other : SourceFile) (isOther : other ∈ passed) : other ∈ before :=
    beforeEq ▸ List.mem_append_left _ isOther
  have isAny (other : SourceFile) (isOther : other ∈ passed) :
      other ∈ before ++ source :: behind :=
    List.mem_append_left _ (isBefore other isOther)
  obtain ⟨analysed, firstCode, analysedFiles, middleFirst, noted, first, notes, last⟩ :=
    gives.converts function stops goesOver fun other isOther =>
      (aims other isOther left (by simp)).trans (aimsFiles other isOther).symm
  have grown := first.grows goesOver.tree
  have atLeft : left.textAt? location =
      (files.storedAt (job.codeWrites files firstCode before) location).or
        (files.textAt? location) := by
    have beside : middleFirst.spelled job.area.checkpoint ≠ location := by
      rw [← grown.within.spelled_eq]
      exact outsideFirst _ (List.mem_append_left _ List.mem_cons_self)
    rw [textAt?_of_givenUp grown.tree beside notes last, first.textAt? goesOver.tree outsideFirst]
  have atFront : files.storedAt (job.codeWrites files firstCode before) location =
      fresh.storedAt (job.codeWrites fresh code passed) location := by
    have noneRest : ∀ stored ∈ job.codeWrites files firstCode rest,
        files.spelled stored.1 ≠ location := by
      intro stored listed
      obtain ⟨other, isOther, rfl⟩ := List.mem_map.mp listed
      have isAny : other ∈ before ++ source :: behind :=
        List.mem_append_left _ (beforeEq ▸ List.mem_append_right _ isOther)
      dsimp only
      rw [aimsFiles other isAny, ← sameSpelled]
      exact noneAgain other (restResumed other isOther)
    have split : job.codeWrites files firstCode before =
        job.codeWrites files firstCode passed ++ job.codeWrites files firstCode rest := by
      rw [beforeEq]
      exact List.map_append
    rw [split, FileSystem.storedAt_append, FileSystem.storedAt_eq_none.mpr noneRest,
      Option.none_or]
    refine FileSystem.storedAt_map_congr (fun other isOther => ?_) fun other isOther placed => ?_
    · rw [aimsFiles other (isAny other isOther), sameSpelled]
    · rw [aimsFiles other (isAny other isOther), ← sameSpelled] at placed
      have stays := stays other isOther ⟨⟨other, isOther, rfl⟩, placed ▸ noneAgain⟩
      rw [stays.code_eq sameArea mend.workingFresh goesOver.tree treeFresh (isAny other isOther)
        (goesOver.below other (isAny other isOther)) analysed analysedLater first.first storedLater
        (first.generated other (isBefore other isOther)) (madeLater other (isAny other isOther))]
  cases stored : fresh.storedAt (job.codeWrites fresh code passed) location with
  | none =>
      rw [Option.none_or]
      rcases mend.textAt? location with ⟨-, asFresh⟩ | ⟨-, asLeft, asBefore⟩
      · exact asFresh
      · rw [asLeft, asBefore, atLeft, atFront, stored, Option.none_or]
  | some text =>
      obtain ⟨other, isOther, placed⟩ : ∃ other ∈ passed,
          fresh.spelled (job.target fresh other) = location := by
        by_contra none
        push Not at none
        rw [storedAt_codeWrites_eq_none.mpr none] at stored
        cases stored
      have stays := stays other isOther ⟨⟨other, isOther, rfl⟩, placed ▸ noneAgain⟩
      rcases mend.textAt? location with ⟨isTouched, -⟩ | ⟨-, asLeft, -⟩
      · exact absurd (placed ▸ isTouched) stays.untouched
      · rw [asLeft, atLeft, atFront, stored]
        rfl

/-- A run that goes on behind a mend comes to an end if a run does that starts over with the
mended files, and leaves the same texts.  What the sources that are gone over again inherit must
not depend on those that are passed over.  The code of these had been made if the first run gave
up in its second phase, and is then the same if the mend does not matter to it; if the first run
gave up in its first phase, there is no code of these. -/
theorem convert_resumed (startsOver : job.configuration.continueLast = false)
    (sequential : job.parallel = false) (stops : job.configuration.options.stopAtError = true)
    (function : job.parsing = Parsing.ofFunction parse) (goesOver : job.GoesOver files sources)
    {phase : Phase} {file : String}
    (failed : job.convert files = .error (.abandoned phase file cause) left)
    (keeps : Checkpoint.KeepsName file)
    (goesOn : job.GoesOn next) (functionNext : next.parsing = Parsing.ofFunction nextParse)
    {touched : FileLocation → Prop} (mend : Mended touched files left fresh mended)
    (checkpoint : mended.read job.area.checkpoint = left.read job.area.checkpoint)
    (goesOverNext : next.GoesOver fresh sources) {report : RunReport}
    (ended : next.afresh.convert fresh = .ok report whole)
    (aims : ∀ source ∈ sources, ∀ other ∈ [files, left, whole],
      job.target other source = job.target fresh source)
    (inherits : ∀ source ∈ job.resumedSources file sources,
      (analysisOf nextParse fresh source).tree.InheritsAlike
        (collected (analysisOf nextParse fresh) {} sources)
        (collected (analysisOf nextParse fresh) {} (job.resumedSources file sources)))
    (made : phase = .make → ∀ source ∈ job.passedOver file sources,
      job.OnlyPassedOver fresh (job.passedOver file sources) (job.resumedSources file sources)
          (fresh.spelled (job.target fresh source)) →
        job.StaysMade next touched fresh (analysisOf parse files) (analysisOf nextParse fresh)
          sources source) :
    ∃ report after, next.convert mended = .ok report after ∧
      ∀ location, job.Outside fresh sources location →
        let lost := phase = .analyse ∧ job.OnlyPassedOver fresh (job.passedOver file sources)
          (job.resumedSources file sources) location
        (¬ lost → after.textAt? location = whole.textAt? location) ∧
          (lost → after.textAt? location = fresh.textAt? location) := by
  obtain ⟨before, source, behind, listed, rfl, gives⟩ :=
    givesUp_of_abandoned startsOver sequential failed
  obtain rfl := Except.ok.inj (goesOver.listed.symm.trans listed)
  obtain ⟨isResumed, rest, beforeEq, restResumed⟩ :=
    job.exists_append_passedOver before behind source
  have split := job.passedOver_append source.relative (before ++ source :: behind)
  have aimsWhole (other : SourceFile) (isOther : other ∈ before ++ source :: behind) :
      next.target whole other = next.target fresh other := by
    rw [goesOn.target]
    exact aims other isOther whole (by simp)
  -- what the run comes to that starts over
  rw [convert_afresh goesOverNext.listed] at ended
  obtain ⟨analysed, code, middle, converts⟩ := converts_of_convertOnly functionNext goesOn.stops
    goesOn.sequential goesOverNext.tree goesOverNext.unwritten goesOverNext.there aimsWhole
    goesOverNext.readable ended
  have wholeGrown := converts.grows goesOverNext.tree
  have isFile (other : SourceFile) (isOther : other ∈ before ++ source :: behind) :=
    converts.isFile goesOverNext.tree isOther
  rw [goesOn.areaPaths, goesOn.target] at isFile
  -- what the run that gave up has left goes into it
  have toward : Toward whole files left := by
    refine gives.toward function stops goesOver ?_ wholeGrown.tree (isFile source (by simp)).1 ?_
    · exact fun other isOther => (aims other isOther left (by simp)).trans
        (aims other isOther files (by simp)).symm
    · intro other isOther
      rw [aims other isOther files (by simp)]
      exact (isFile other isOther).2
  have grown := mend.grows (gives.grows function goesOver.tree)
  have within := mend.within toward wholeGrown.within
  have noted := gives.checkpoint function goesOver.tree
  rw [← checkpoint, ← goesOn.area, ← goesOn.input, ← goesOn.output] at noted
  have goneOn := convert_of_checkpoint goesOn.continues keeps (goesOverNext.listed_later grown)
    noted
  rw [goesOn.resumedSources] at goneOn
  -- the sources that are gone over again
  generalize job.passedOver source.relative (before ++ source :: behind) = passed at *
  generalize job.resumedSources source.relative (before ++ source :: behind) = resumed at *
  have isAny (other : SourceFile) (isOther : other ∈ resumed) :
      other ∈ before ++ source :: behind :=
    split ▸ List.mem_append_right passed isOther
  have goesOverSplit := goesOverNext
  have convertsSplit := converts
  rw [← split] at goesOverSplit convertsSplit inherits
  obtain ⟨report, later, after, done, again⟩ := convertsSplit.convertOnly_resumed functionNext
    goesOn.stops goesOn.sequential goesOverSplit grown within
    (fun other isOther => aimsWhole other (isAny other isOther)) isResumed
    (fun other isOther => analysed other (split ▸ isOther)) inherits
  refine ⟨report, after, goneOn.trans done, fun location outside => ?_⟩
  have outsideNext : next.Outside fresh (passed ++ resumed) location := by
    unfold Outside at outside ⊢
    rwa [goesOn.areaPaths, split]
  obtain ⟨atAfter, atWhole⟩ := convertsSplit.textAt?_resume goesOverSplit mend.tree grown.within
    (fun other isOther => target_between grown.within within goesOverNext.there
      (aimsWhole other (isAny other isOther))) again outsideNext
  rw [goesOn.codeWrites] at atAfter atWhole
  -- only what is not stored again matters
  cases stored : fresh.storedAt (job.codeWrites fresh code resumed) location with
  | some text =>
      rw [stored, Option.some_or] at atAfter atWhole
      refine ⟨fun _ => atAfter.trans atWhole.symm, fun lost => ?_⟩
      rw [storedAt_codeWrites_eq_none.mpr lost.2.2] at stored
      cases stored
  | none =>
      rw [stored, Option.none_or] at atAfter atWhole
      have noneAgain := storedAt_codeWrites_eq_none.mp stored
      cases phase with
      | analyse =>
          have found := gives.textAt?_mended_analyse function goesOver.tree outside mend
          refine ⟨fun kept => ?_, fun _ => atAfter.trans found⟩
          have nonePassed : ∀ other ∈ passed,
              fresh.spelled (job.target fresh other) ≠ location := fun other isOther placed =>
            kept ⟨rfl, ⟨other, isOther, placed⟩, noneAgain⟩
          rw [atAfter, atWhole, found, storedAt_codeWrites_eq_none.mpr nonePassed, Option.none_or]
      | make =>
          refine ⟨fun _ => ?_, fun lost => nomatch lost.1⟩
          rw [atAfter, atWhole]
          exact gives.textAt?_mended_make function stops goesOver goesOverNext.tree mend aims
            beforeEq restResumed goesOn.area analysed converts.first converts.generated (made rfl)
            outside noneAgain

/-- What a run over both sources comes to. -/
def pairWhole : FileSystem :=
  filesAfter ((pairJob ["A.as", "B.as"] true).convertOnly pairSources pairFiles)

theorem pairWhole_run :
    (value? ((pairJob ["A.as", "B.as"] true).convertOnly pairSources pairFiles)).isSome ∧
      pairWhole = { entries :=
        ⟨[(["src"], .directory), (["src", "A.as"], .file ""), (["src", "B.as"], .file ""),
          (["tmp"], .directory), (["tmp", "last.txt"], .file "src|out|B.as"),
          (["tmp", "ts"], .directory), (["tmp", "ts", "A.ts"], .file ""),
          (["tmp", "ast"], .directory),
          (["tmp", "ast", "A.json"], .file "\x7b\"type\":\"Program\"\x7d"),
          (["tmp", "ts", "B.ts"], .file ""),
          (["tmp", "ast", "B.json"], .file "\x7b\"type\":\"Program\"\x7d"),
          (["tmp", "analysor.txt"], .file ""),
          (["tmp", "analysor.json"], .file "\x7b\n  \"classes\": \x7b\x7d\n\x7d"),
          (["out"], .directory), (["out", "A.ts"], .file ""), (["out", "B.ts"], .file "")]⟩ } := by
  rw [pairWhole, pairFiles_eq]
  decide +kernel

theorem pairWhole_ended :
    ∃ report, (pairJob ["A.as", "B.as"] true).afresh.convert pairFiles = .ok report pairWhole := by
  obtain ⟨report, -, ended⟩ := eq_ok_of_isSome pairWhole_run.1
  have startedOver := @convert_afresh (pairJob ["A.as", "B.as"] true) _ _ pairFiles_sources
  exact ⟨report, startedOver.trans ended⟩

/-- The first of two sources was analysed, but the run gave up at the second and the
first is never made. -/
theorem convert_loses_first :
    ∃ cause, (pairJob ["A.as"] false).convert pairFiles =
        .error (.abandoned .analyse "B.as" cause) pairLeft ∧
      (filesAfter ((pairJob ["A.as", "B.as"] true).convert pairLeft)).read ⟨"out/A.ts"⟩ =
        .error .notFound ∧
      (filesAfter ((pairJob ["A.as", "B.as"] false).convert pairFiles)).read ⟨"out/A.ts"⟩ =
        .ok "" := by
  obtain ⟨cause, gaveUp⟩ := pairJob_gaveUp
  have resumed := @convert_of_checkpoint (pairJob ["A.as", "B.as"] true) rfl _ _ _ keepsName_pair
    pairLeft_holds.1.sources pairLeft_holds.2
  rw [pairJob_resumed] at resumed
  refine ⟨cause, gaveUp, ?_, ?_⟩
  · rw [resumed, pairLeft_run.2]
    decide +kernel
  · rw [pairJob_convert]
    change pairWhole.read _ = _
    rw [pairWhole_run.2]
    decide +kernel

theorem goesOver_pair (accepted : List String) (continueLast : Bool) :
    (pairJob accepted continueLast).GoesOver pairFiles pairSources where
  tree := FileSystem.isTree_ofFiles _
  listed := pairFiles_sources
  readable := by
    rw [pairFiles_eq]
    decide
  unwritten source isSource written := by
    have named : ∀ source ∈ pairSources,
        ((Path.mk "src").join ⟨source.path.lastPiece⟩).isSource = true := by decide
    have isNot := Path.isSource_join_of_written written ⟨"src"⟩
    rw [named source isSource] at isNot
    cases isNot
  below := by decide

/-- The first source is passed over and stays without code, the second one is gone over again. -/
theorem convert_resumed_pair :
    ∃ report after, (pairJob ["A.as", "B.as"] true).convert pairLeft = .ok report after ∧
      after.textAt? ["out", "B.ts"] = pairWhole.textAt? ["out", "B.ts"] ∧
      after.textAt? ["out", "A.ts"] = pairFiles.textAt? ["out", "A.ts"] := by
  obtain ⟨cause, gaveUp⟩ := pairJob_gaveUp
  obtain ⟨report, ended⟩ := pairWhole_ended
  let job := pairJob ["A.as"] false
  let next := pairJob ["A.as", "B.as"] true
  have function : job.parsing = .ofFunction (pairParse ["A.as"]) := rfl
  have functionNext : next.parsing = .ofFunction (pairParse ["A.as", "B.as"]) := rfl
  obtain ⟨before, source, behind, -, -, gives⟩ := givesUp_of_abandoned rfl rfl gaveUp
  have grown := gives.grows function (FileSystem.isTree_ofFiles _)
  have mend : Mended (fun _ => False) pairFiles pairLeft pairFiles pairLeft :=
    ⟨FileSystem.isTree_ofFiles _, grown.tree, rfl, rfl, nofun, fun _ _ => ⟨rfl, rfl⟩⟩
  have goesOn : job.GoesOn next := ⟨rfl, rfl, rfl, rfl, rfl, rfl⟩
  have resumed : job.resumedSources "B.as" pairSources = [⟨⟨"src/B.as"⟩, "B.as"⟩] :=
    pairJob_resumed
  have passed : job.passedOver "B.as" pairSources = [⟨⟨"src/A.as"⟩, "A.as"⟩] := by
    decide
  have aims : ∀ source ∈ pairSources, ∀ other ∈ [pairFiles, pairLeft, pairWhole],
      job.target other source = job.target pairFiles source := by
    rw [pairWhole_run.2, pairLeft_run.2, pairFiles_eq]
    decide
  have noClass : (analysisOf (pairParse ["A.as", "B.as"]) pairFiles
      ⟨⟨"src/B.as"⟩, "B.as"⟩).tree.stored.filterMap Node.classHead? = [] := by
    rw [pairFiles_eq]
    decide +kernel
  obtain ⟨made, after, done, texts⟩ := convert_resumed rfl rfl rfl function (goesOver_pair _ _)
    gaveUp keepsName_pair goesOn functionNext mend rfl (goesOver_pair _ _) ended aims
    (by
      rw [resumed]
      intro source isSource part isPart head isHead
      obtain rfl := List.mem_singleton.mp isSource
      have isFound := List.mem_filterMap.mpr ⟨part, isPart, isHead⟩
      rw [noClass] at isFound
      cases isFound) nofun
  rw [passed, resumed] at texts
  have ⟨outsideB, outsideA, again, only⟩ :
      job.Outside pairFiles pairSources ["out", "B.ts"] ∧
      job.Outside pairFiles pairSources ["out", "A.ts"] ∧
      pairFiles.spelled (job.target pairFiles ⟨⟨"src/B.as"⟩, "B.as"⟩) = ["out", "B.ts"] ∧
      job.OnlyPassedOver pairFiles [⟨⟨"src/A.as"⟩, "A.as"⟩] [⟨⟨"src/B.as"⟩, "B.as"⟩]
        ["out", "A.ts"] := by
    unfold Outside OnlyPassedOver
    rw [pairFiles_eq]
    decide
  exact ⟨made, after, done,
    (texts _ outsideB).1 fun lost => lost.2.2 _ List.mem_cons_self again,
    (texts _ outsideA).2 ⟨rfl, only⟩⟩

end Job

end ScriptBridge

import ScriptBridge.Proofs.Batch.KeptTree
import ScriptBridge.Proofs.Batch.Separate

/-!
# Makings in any order

Sources are made one after another, or their makings take turns.  Each turn of a making
keeps what is known of it and of all others, whichever making has it, so separate sources
end up with the same results in any order of turns, and the files they leave are the same.
-/

namespace ScriptBridge

/-- How many turns a making needs at most. -/
def Making.left : Making → Nat
  | .begun => 4
  | .aimed _ => 3
  | .generated _ _ => 2
  | .housed _ _ => 1
  | .finished _ => 0

namespace Job

open FileSystem (Grows)

variable {job : Job} {index : MemberIndex} {files after : FileSystem}
variable {sources : List SourceFile} {source other : SourceFile} {code : Generated}
variable {started : Set SourceFile} {making : Making}

/-! ### What comes of a source -/

theorem outcome_of_error {cause : BatchError}
    (failed : job.codeOf index files source = .error cause) :
    job.outcome index files source = .error cause := by
  unfold outcome
  rw [failed]

theorem outcome_of_blocked {cause : FileError}
    (generated : job.codeOf index files source = .ok code)
    (blocked : files.clearanceTo (job.target files source) = .error cause) :
    job.outcome index files source =
      .error (.noDirectory ((job.target files source).parent?.getD ⟨""⟩) cause) := by
  unfold outcome
  rw [generated, blocked]

theorem outcome_of_directory (generated : job.codeOf index files source = .ok code)
    (clear : files.clearanceTo (job.target files source) = .ok ())
    (stands : files.entry? (files.spelled (job.target files source)) = some .directory) :
    job.outcome index files source =
      .error (.unwritableFile (job.target files source) .isADirectory) := by
  unfold outcome
  rw [generated, clear]
  exact if_pos stands

theorem outcome_of_delivers (delivers : job.Delivers index files source code) :
    job.outcome index files source = .ok (job.target files source, code.diagnostics) := by
  unfold outcome
  rw [delivers.generated, delivers.clear]
  exact if_neg delivers.free

theorem Delivers.unique {another : Generated} (first : job.Delivers index files source code)
    (second : job.Delivers index files source another) : code = another :=
  Except.ok.inj (first.generated.symm.trans second.generated)

/-! ### One turn -/

/-- What is known of a making, when it began in the given files. -/
def Sound (job : Job) (index : MemberIndex) (files : FileSystem) (source : SourceFile)
    (after : FileSystem) : Making → Prop
  | .begun => True
  | .aimed target => ∀ code, job.codeOf index files source = .ok code →
      target = job.target files source
  | .generated target code =>
      job.codeOf index files source = .ok code ∧ target = job.target files source
  | .housed target code =>
      job.codeOf index files source = .ok code ∧ target = job.target files source ∧
        files.clearanceTo (job.target files source) = .ok () ∧
        after.entry? (files.spelled (job.target files source)).dropLast = some .directory
  | .finished result =>
      result = job.outcome index files source ∧ ∀ code, job.Delivers index files source code →
        after.textAt? (files.spelled (job.target files source)) = some code.text

/-- What is known of a making stays known, as long as its code is not written over. -/
theorem Sound.stays {later : FileSystem} (sound : job.Sound index files source after making)
    (grown : Grows (fun _ => True) after later)
    (same : later.textAt? (files.spelled (job.target files source)) =
      after.textAt? (files.spelled (job.target files source))) :
    job.Sound index files source later making := by
  cases making with
  | begun => trivial
  | aimed target => exact sound
  | generated target code => exact sound
  | housed target code =>
      obtain ⟨generated, targetEq, clear, room⟩ := sound
      exact ⟨generated, targetEq, clear, grown.directory _ room⟩
  | finished result =>
      obtain ⟨resultEq, written⟩ := sound
      exact ⟨resultEq, fun code delivers => same.trans (written code delivers)⟩

/-- What a turn of a making leaves. -/
structure Turned (job : Job) (index : MemberIndex) (files : FileSystem)
    (started : Set SourceFile) (source : SourceFile) (after : FileSystem)
    (turned : Making × FileSystem) : Prop where
  amid : job.Amid index files (insert source started) turned.2
  sound : job.Sound index files source turned.2 turned.1
  grown : Grows (fun _ => True) after turned.2
  elsewhere : ∀ location ≠ files.spelled (job.target files source),
    turned.2.textAt? location = after.textAt? location

theorem left_turn (making : Making) :
    (job.turn index source making after).1.left ≤ making.left - 1 := by
  cases making with
  | begun => exact Nat.le_refl _
  | aimed target =>
      unfold turn
      dsimp only
      split <;> simp [Making.left]
  | generated target code =>
      unfold turn
      dsimp only
      split <;> simp [Making.left]
  | housed target code =>
      unfold turn
      dsimp only
      split <;> simp [Making.left]
  | finished result => exact Nat.le_refl _

section

variable (separate : job.Separate files sources) (within : started ⊆ { source | source ∈ sources })
variable (amid : job.Amid index files started after) (isSource : source ∈ sources)

theorem Turned.of_same (amid : job.Amid index files started after)
    (sound : job.Sound index files source after making) :
    job.Turned index files started source after (making, after) :=
  ⟨amid.mono (Set.subset_insert _ _), sound, .refl amid.grown.tree, fun _ _ => rfl⟩

/-- Directories have been made on the way to where the code of a source goes. -/
theorem Amid.opened {made : FileSystem} (amid : job.Amid index files started after)
    (generated : job.codeOf index files source = .ok code)
    (grown : Grows (fun _ => True) after made)
    (opened : FileSystem.OpenedAround (job.target files source) after made) :
    job.Amid index files (insert source started) made := by
  refine ⟨amid.grown.trans grown, fun location found => ?_, fun location text found => ?_⟩
  · rw [opened] at found
    split at found
    · next isInner =>
      have above := isInner.2
      rw [FileSystem.spelled_of_grows amid.grown] at above
      exact .inr (.inr ⟨source, Set.mem_insert _ _, code, generated, above⟩)
    · exact (amid.mono (Set.subset_insert _ _)).directories _ found
  · rw [opened.textAt?_eq] at found
    exact (amid.mono (Set.subset_insert _ _)).texts _ _ found

include separate within amid isSource

theorem turned_begun (fresh : source ∉ started) :
    job.Turned index files started source after (job.turn index source .begun after) :=
  .of_same amid fun _ generated => amid.target_eq separate within isSource fresh generated

theorem turned_aimed {target : Path}
    (sound : job.Sound index files source after (.aimed target)) :
    job.Turned index files started source after (job.turn index source (.aimed target) after) := by
  unfold turn
  dsimp only
  rw [amid.codeOf_eq separate within isSource]
  cases generated : job.codeOf index files source with
  | ok code => exact .of_same amid ⟨generated, sound code generated⟩
  | error cause =>
      refine .of_same amid ⟨(outcome_of_error generated).symm, fun code delivers => ?_⟩
      rw [delivers.generated] at generated
      cases generated

theorem turned_generated {target : Path}
    (sound : job.Sound index files source after (.generated target code)) :
    job.Turned index files started source after
      (job.turn index source (.generated target code) after) := by
  obtain ⟨generated, rfl⟩ := sound
  have plain := separate.targets source isSource
  obtain ⟨made, grown, opened, parent⟩ :=
    FileSystem.makeParent_plain amid.grown.tree (plain.later separate.tree amid.grown).1
  have madeAmid := amid.opened generated grown opened
  have same := amid.clearanceTo_target separate within isSource
  unfold turn
  dsimp only
  cases clearance : files.clearanceTo (job.target files source) with
  | error cause =>
      rw [same, clearance] at parent
      rw [EStateM.run, parent]
      refine ⟨madeAmid, ⟨(outcome_of_blocked generated clearance).symm, fun code delivers => ?_⟩,
        grown, fun location _ => opened.textAt?_eq location⟩
      rw [delivers.clear] at clearance
      cases clearance
  | ok done =>
      rw [same, clearance] at parent
      rw [EStateM.run, parent]
      have room := (opened.approachTo_eq amid.grown.tree (plain.later separate.tree amid.grown).1
        grown (same.trans clearance)).1
      rw [FileSystem.spelled_of_grows amid.grown] at room
      exact ⟨madeAmid, ⟨generated, rfl, clearance, room⟩, grown,
        fun location _ => opened.textAt?_eq location⟩

theorem turned_housed {target : Path}
    (sound : job.Sound index files source after (.housed target code)) :
    job.Turned index files started source after
      (job.turn index source (.housed target code) after) := by
  obtain ⟨generated, rfl, clear, room⟩ := sound
  have plain := separate.targets source isSource
  have written := FileSystem.write_plain amid.grown.tree (plain.later separate.tree amid.grown).1
    code.text
  rw [plain.approachTo_later separate.tree amid.grown, (FileSystem.clearanceTo_eq_ok.mp clear).1,
    if_neg Bool.false_ne_true, FileSystem.approach_of_directory room,
    FileSystem.spelled_of_grows amid.grown] at written
  dsimp only at written
  have same := amid.directory_target separate within isSource generated
  unfold turn
  dsimp only
  by_cases stands : files.entry? (files.spelled (job.target files source)) = some .directory
  · rw [if_pos (same.mpr stands)] at written
    rw [written]
    refine .of_same amid ⟨(outcome_of_directory generated clear stands).symm, fun _ delivers => ?_⟩
    exact absurd stands delivers.free
  · rw [if_neg fun found => stands (same.mp found)] at written
    have delivers : job.Delivers index files source code := ⟨generated, clear, stands⟩
    have grown : Grows (fun _ => True) after _ :=
      FileSystem.grows_write amid.grown.tree (fun _ _ _ => trivial) written
    have entries (location : FileLocation) :=
      @FileSystem.entry?_put _ location after (.file code.text) plain.spelled_ne_nil
    rw [written]
    have elsewhere (location : FileLocation)
        (differs : location ≠ files.spelled (job.target files source)) :
        (after.put (files.spelled (job.target files source)) (.file code.text)).textAt? location =
          after.textAt? location := by
      rw [FileSystem.textAt?, entries, if_neg differs, FileSystem.textAt?]
    have here : (after.put (files.spelled (job.target files source)) (.file code.text)).textAt?
        (files.spelled (job.target files source)) = some code.text := by
      rw [FileSystem.textAt?, entries, if_pos rfl]
    refine ⟨⟨amid.grown.trans grown, fun location found => ?_, fun location text found => ?_⟩,
      ⟨(outcome_of_delivers delivers).symm, fun another known => ?_⟩, grown, elsewhere⟩
    · rw [entries] at found
      split at found
      · cases found
      · exact (amid.mono (Set.subset_insert _ _)).directories _ found
    · by_cases isHere : location = files.spelled (job.target files source)
      · rw [isHere, here, Option.some.injEq] at found
        exact .inr (.inr ⟨source, Set.mem_insert _ _, code, delivers, isHere, found.symm⟩)
      · rw [elsewhere location isHere] at found
        exact (amid.mono (Set.subset_insert _ _)).texts _ _ found
    · rw [here, delivers.unique known]

/-- A turn of a making keeps what is known of it. -/
theorem turned (sound : job.Sound index files source after making)
    (fresh : making = .begun → source ∉ started) :
    job.Turned index files started source after (job.turn index source making after) := by
  cases making with
  | begun => exact turned_begun separate within amid isSource (fresh rfl)
  | aimed target => exact turned_aimed separate within amid isSource sound
  | generated target code => exact turned_generated separate within amid isSource sound
  | housed target code => exact turned_housed separate within amid isSource sound
  | finished result => exact .of_same amid sound

omit amid in
theorem Turned.again {state : Making × FileSystem}
    (first : job.Turned index files started source after state) (goesOn : state.1 ≠ .begun) :
    job.Turned index files started source after (job.again index source state) := by
  have within : insert source started ⊆ { source | source ∈ sources } :=
    Set.insert_subset isSource within
  have second := turned separate within first.amid isSource first.sound
    fun isBegun => absurd isBegun goesOn
  refine ⟨?_, second.sound, first.grown.trans second.grown, fun location differs =>
    (second.elsewhere location differs).trans (first.elsewhere location differs)⟩
  have amid := second.amid
  rwa [Set.insert_eq_of_mem (Set.mem_insert source started)] at amid

omit separate within amid isSource in
theorem turn_ne_begun (making : Making) : (job.turn index source making after).1 ≠ .begun := by
  intro isBegun
  have fewer := @left_turn job index after source making
  have atMost : making.left ≤ 4 := by cases making <;> simp [Making.left]
  rw [isBegun, Making.left] at fewer
  omega

omit separate within amid isSource in
theorem again_ne_begun (state : Making × FileSystem) :
    (job.again index source state).1 ≠ .begun := by
  unfold again
  exact turn_ne_begun state.1

/-- Trying to make a source has the result that is told by the files in the beginning. -/
theorem attempt_amid (fresh : source ∉ started) :
    ∃ later, Run.attempt (job.makeSource index source) after =
        .ok (job.outcome index files source) later ∧
      job.Turned index files started source after
        (.finished (job.outcome index files source), later) := by
  obtain ⟨result, later, four, attempted⟩ := attempt_makeSource job index source after
  have first :=
    @turned job index files after sources source started .begun separate within amid isSource
    trivial fun _ => fresh
  have second := first.again separate within isSource (turn_ne_begun _)
  have third := second.again separate within isSource (again_ne_begun _)
  have ended : job.Turned index files started source after
      (job.fourTurns index source .begun after) :=
    third.again separate within isSource (again_ne_begun _)
  rw [four] at ended
  have resultEq := ended.sound.1
  rw [resultEq] at attempted ended
  exact ⟨later, attempted, ended⟩

end

/-! ### Reports -/

/-- Put the result for a source into a report, or give up. -/
def settled (job : Job) (report : RunReport) (source : SourceFile) :
    Except BatchError (Path × List Diagnostic) → Except BatchError RunReport
  | .ok (target, diagnostics) =>
      .ok { report with
        emitted := report.emitted ++ [target]
        diagnostics := report.diagnostics ++ diagnostics }
  | .error cause =>
      if job.configuration.options.stopAtError then
        .error (.abandoned .make source.relative cause)
      else .ok { report with failures := report.failures ++ [(source.relative, cause)] }

/-- The report on the results for some sources. -/
def summary (job : Job) :
    RunReport → List (SourceFile × Except BatchError (Path × List Diagnostic)) →
      Except BatchError RunReport
  | report, [] => .ok report
  | report, (source, result) :: rest =>
      match job.settled report source result with
      | .ok made => job.summary made rest
      | .error cause => .error cause

theorem recordMade_apply (report : RunReport) (source : SourceFile)
    (result : Except BatchError (Path × List Diagnostic)) (files : FileSystem) :
    job.recordMade report source result files =
      match job.settled report source result with
      | .ok made => .ok made files
      | .error cause => .error cause files := by
  unfold recordMade applyPolicy settled
  cases result with
  | ok value => rfl
  | error cause => cases job.configuration.options.stopAtError <;> rfl

theorem settled_isOk (goesOn : job.configuration.options.stopAtError = false)
    (report : RunReport) (source : SourceFile)
    (result : Except BatchError (Path × List Diagnostic)) :
    ∃ made, job.settled report source result = .ok made := by
  unfold settled
  cases result with
  | ok value => exact ⟨_, rfl⟩
  | error cause =>
      rw [goesOn]
      exact ⟨_, rfl⟩

/-- If no failure ends a run, there is a report. -/
theorem summary_isOk (goesOn : job.configuration.options.stopAtError = false) (report : RunReport)
    (results : List (SourceFile × Except BatchError (Path × List Diagnostic))) :
    ∃ made, job.summary report results = .ok made := by
  induction results generalizing report with
  | nil => exact ⟨report, rfl⟩
  | cons first rest ih =>
      obtain ⟨source, result⟩ := first
      obtain ⟨made, settledEq⟩ := settled_isOk goesOn report source result
      rw [summary, settledEq]
      exact ih made

theorem foldlM_recordMade (report : RunReport)
    (results : List (SourceFile × Except BatchError (Path × List Diagnostic)))
    (after : FileSystem) :
    List.foldlM (m := Run) (fun before (source, result) => job.recordMade before source result)
        report results after =
      match job.summary report results with
      | .ok made => .ok made after
      | .error cause => .error cause after := by
  induction results generalizing report with
  | nil => rfl
  | cons first rest ih =>
      obtain ⟨source, result⟩ := first
      rw [List.foldlM_cons, summary]
      have recorded := @recordMade_apply job report source result after
      generalize job.settled report source result = decided at *
      cases decided with
      | error cause => exact Run.bind_of_error recorded
      | ok made =>
          rw [Run.bind_of_ok recorded]
          exact ih made

/-! ### One after another -/

/-- What comes of some sources, told by the files in the beginning. -/
def outcomes (job : Job) (index : MemberIndex) (files : FileSystem) (sources : List SourceFile) :
    List (SourceFile × Except BatchError (Path × List Diagnostic)) :=
  sources.map fun source => (source, job.outcome index files source)

/-- Some sources have been made. -/
structure Made (job : Job) (index : MemberIndex) (files : FileSystem) (done : List SourceFile)
    (after : FileSystem) : Prop where
  amid : job.Amid index files { source | source ∈ done } after
  delivered : ∀ source ∈ done, ∀ code, job.Delivers index files source code →
    after.textAt? (files.spelled (job.target files source)) = some code.text

/-- How a run ends that makes all sources: with the report on their outcomes and their code,
or with the failure that ends it. -/
inductive Ends (job : Job) (index : MemberIndex) (files : FileSystem) (sources : List SourceFile) :
    Except BatchError RunReport → EStateM.Result BatchError FileSystem RunReport → Prop where
  | reports {made : RunReport} {later : FileSystem} :
      job.Made index files sources later → Ends job index files sources (.ok made) (.ok made later)
  | fails {cause : BatchError} {later : FileSystem} :
      Ends job index files sources (.error cause) (.error cause later)

theorem Made.begin (tree : files.IsTree) : job.Made index files [] files :=
  ⟨(Amid.begin tree).mono (Set.empty_subset _), nofun⟩

section

variable {done rest : List SourceFile} (separate : job.Separate files sources)

include separate

/-- A source that comes later is not one of those that were made. -/
theorem Separate.fresh (all : done ++ source :: rest = sources) : source ∉ done := by
  intro isDone
  have apart := separate.apart
  rw [← all, List.pairwise_append] at apart
  exact (apart.2.2 source isDone source List.mem_cons_self).ne rfl

theorem Separate.checkpoint_ne (isSource : source ∈ sources) :
    files.spelled (job.target files source) ≠ files.spelled job.area.checkpoint := by
  intro same
  refine separate.outside source isSource ?_
  rw [same, spelled_checkpoint]
  exact List.prefix_append _ _

theorem Made.note (all : done ++ rest = sources) (made : job.Made index files done after)
    (source : SourceFile) :
    ∃ noted, job.noteProgress source after = .ok () noted ∧ job.Made index files done noted := by
  have isSource (any : SourceFile) (isDone : any ∈ done) : any ∈ sources :=
    all ▸ List.mem_append_left _ isDone
  obtain ⟨noted, stored, amid, -, elsewhere⟩ := made.amid.noteProgress separate isSource source
  refine ⟨noted, stored, amid, fun other isDone code delivers => ?_⟩
  rw [elsewhere _ (separate.checkpoint_ne (isSource other isDone))]
  exact made.delivered other isDone code delivers

theorem Made.next (all : done ++ source :: rest = sources)
    (made : job.Made index files done after) :
    ∃ later, Run.attempt (job.makeSource index source) after =
        .ok (job.outcome index files source) later ∧
      job.Made index files (done ++ [source]) later := by
  have isSource (any : SourceFile) (listed : any ∈ done ++ source :: rest) : any ∈ sources :=
    all ▸ listed
  have isDone (any : SourceFile) (listed : any ∈ done) : any ∈ sources :=
    isSource any (List.mem_append_left _ listed)
  have isNext : source ∈ sources := isSource source (by simp)
  have fresh := separate.fresh all
  obtain ⟨later, attempted, turned⟩ := attempt_amid separate isDone made.amid isNext fresh
  refine ⟨later, attempted, turned.amid.mono fun any listed => ?_,
    fun other listed code delivers => ?_⟩
  · rcases listed with rfl | listed
    · exact List.mem_append_right _ List.mem_cons_self
    · exact List.mem_append_left _ listed
  · rcases List.mem_append.mp listed with listed | listed
    · have differ : other ≠ source := fun same => fresh (same ▸ listed)
      have apart := (separate.apart.forall (isDone other listed) isNext differ).ne
      exact (turned.elsewhere _ apart).trans (made.delivered other listed code delivers)
    · obtain rfl : other = source := by simpa using listed
      exact turned.sound.2 code delivers

/-- Sources that are made one after another. -/
theorem ends_foldlM_makeNext (all : done ++ rest = sources) (made : job.Made index files done after)
    (report : RunReport) :
    job.Ends index files sources (job.summary report (job.outcomes index files rest))
      (rest.foldlM (job.makeNext index) report after) := by
  induction rest generalizing done report after with
  | nil =>
      rw [List.append_nil] at all
      subst all
      exact .reports made
  | cons source rest ih =>
      obtain ⟨noted, stored, notedMade⟩ := made.note separate all source
      obtain ⟨later, attempted, laterMade⟩ := notedMade.next separate all
      have recorded := @recordMade_apply job report source (job.outcome index files source) later
      have step : job.makeNext index report source after =
          job.recordMade report source (job.outcome index files source) later := by
        unfold makeNext
        rw [Run.bind_of_ok stored, Run.bind_of_ok attempted]
      rw [outcomes, List.map_cons, summary, List.foldlM_cons]
      rw [← step] at recorded
      generalize job.settled report source (job.outcome index files source) = decided at *
      cases decided with
      | error cause =>
          rw [Run.bind_of_error recorded]
          exact .fails
      | ok next =>
          rw [Run.bind_of_ok recorded]
          exact ih (by rw [← all]; simp) laterMade next

/-- Sources that are made before any result is looked at. -/
theorem mapM_attempt (all : done ++ rest = sources) (made : job.Made index files done after) :
    ∃ later, List.mapM (m := Run) (fun source => do
        return (source, ← Run.attempt (job.makeSource index source))) rest after =
        .ok (job.outcomes index files rest) later ∧ job.Made index files sources later := by
  induction rest generalizing done after with
  | nil =>
      rw [List.append_nil] at all
      subst all
      exact ⟨after, rfl, made⟩
  | cons source rest ih =>
      obtain ⟨later, attempted, laterMade⟩ := made.next separate all
      obtain ⟨last, mapped, lastMade⟩ := ih (by rw [← all]; simp) laterMade
      refine ⟨last, ?_, lastMade⟩
      have first : (do return (source, ← Run.attempt (job.makeSource index source)) : Run _) after =
          .ok (source, job.outcome index files source) later := Run.bind_of_ok attempted
      rw [List.mapM_cons, Run.bind_of_ok first, Run.bind_of_ok mapped]
      rfl

theorem ends_makeAtOnce (report : RunReport) :
    job.Ends index files sources (job.summary report (job.outcomes index files sources))
      (job.makeAtOnce index report sources files) := by
  obtain ⟨later, mapped, made⟩ :=
    @mapM_attempt job index files files sources [] sources separate rfl (.begin separate.tree)
  unfold makeAtOnce
  rw [Run.bind_of_ok mapped, foldlM_recordMade]
  generalize job.summary report (job.outcomes index files sources) = decided
  cases decided with
  | error cause => exact .fails
  | ok whole => exact .reports made

end

end Job

/-! ### In turns -/

/-- Makings that take turns, each with its source, over the files they share. -/
structure Workshop where
  tasks : List (SourceFile × Making)
  files : FileSystem

namespace Workshop

/-- The making with a number has a turn. -/
def turn (job : Job) (index : MemberIndex) (shop : Workshop) (number : Nat) : Workshop :=
  match shop.tasks[number]? with
  | none => shop
  | some (source, making) =>
      let (next, after) := job.turn index source making shop.files
      ⟨shop.tasks.set number (source, next), after⟩

/-- The results of finished makings, in the order of their sources. -/
def results (shop : Workshop) : List (SourceFile × Except BatchError (Path × List Diagnostic)) :=
  shop.tasks.filterMap fun (source, making) =>
    match making with
    | .finished result => some (source, result)
    | _ => none

end Workshop

/-- Make sources in turns, given by the numbers of the sources. -/
def Job.makeInTurns (job : Job) (index : MemberIndex) (report : RunReport)
    (sources : List SourceFile) (turns : List Nat) : Run RunReport := do
  let begun : Workshop := ⟨sources.map fun source => (source, .begun), ← get⟩
  let shop := turns.foldl (Workshop.turn job index) begun
  set shop.files
  shop.results.foldlM (fun before (source, result) => job.recordMade before source result) report

namespace Workshop

open FileSystem (Grows)

variable {job : Job} {index : MemberIndex} {files : FileSystem} {sources : List SourceFile}
variable {shop : Workshop}

/-- The sources whose making has begun. -/
def started (shop : Workshop) : Set SourceFile :=
  { source | ∃ (number : Nat) (making : Making),
    shop.tasks[number]? = some (source, making) ∧ making ≠ .begun }

/-- What is known of makings that take turns, when they began in the given files. -/
structure Runs (job : Job) (index : MemberIndex) (files : FileSystem) (sources : List SourceFile)
    (shop : Workshop) : Prop where
  listed : shop.tasks.map Prod.fst = sources
  amid : job.Amid index files shop.started shop.files
  sound : ∀ (number : Nat) (source : SourceFile) (making : Making),
    shop.tasks[number]? = some (source, making) →
      job.Sound index files source shop.files making

theorem Runs.begin (tree : files.IsTree) :
    Runs job index files sources ⟨sources.map fun source => (source, .begun), files⟩ := by
  have isBegun (number : Nat) (source : SourceFile) (making : Making)
      (task : (sources.map fun source => (source, Making.begun))[number]? = some (source, making)) :
      making = .begun := by
    rw [List.getElem?_map, Option.map_eq_some_iff] at task
    obtain ⟨_, -, same⟩ := task
    exact (Prod.mk.inj same).2.symm
  refine ⟨?_, (Job.Amid.begin tree).mono (Set.empty_subset _), fun number source making task => ?_⟩
  · rw [List.map_map]
    exact List.map_id _
  · rw [isBegun number source making task]
    trivial

section

variable (runs : Runs job index files sources shop)

include runs

theorem Runs.getElem?_sources {number : Nat} {source : SourceFile} {making : Making}
    (task : shop.tasks[number]? = some (source, making)) : sources[number]? = some source := by
  rw [← runs.listed, List.getElem?_map, task]
  rfl

theorem Runs.mem_sources {number : Nat} {source : SourceFile} {making : Making}
    (task : shop.tasks[number]? = some (source, making)) : source ∈ sources :=
  List.mem_of_getElem? (runs.getElem?_sources task)

theorem Runs.within : shop.started ⊆ { source | source ∈ sources } :=
  fun _ ⟨_, _, task, _⟩ => runs.mem_sources task

/-- Different makings have their code at different places. -/
theorem Runs.target_ne (separate : job.Separate files sources) {first second : Nat}
    (differ : first ≠ second) {source other : SourceFile} {making following : Making}
    (isFirst : shop.tasks[first]? = some (source, making))
    (isSecond : shop.tasks[second]? = some (other, following)) :
    files.spelled (job.target files other) ≠ files.spelled (job.target files source) := by
  obtain ⟨firstBound, rfl⟩ := List.getElem?_eq_some_iff.mp (runs.getElem?_sources isFirst)
  obtain ⟨secondBound, rfl⟩ := List.getElem?_eq_some_iff.mp (runs.getElem?_sources isSecond)
  have apart := List.pairwise_iff_getElem.mp separate.apart
  rcases Nat.lt_or_gt_of_ne differ with before | behind
  · exact (apart _ _ firstBound secondBound before).ne.symm
  · exact (apart _ _ secondBound firstBound behind).ne

/-- A turn keeps what is known of all makings. -/
theorem Runs.turn (separate : job.Separate files sources) (number : Nat) :
    Runs job index files sources (shop.turn job index number) := by
  unfold Workshop.turn
  cases task : shop.tasks[number]? with
  | none => exact runs
  | some found =>
      obtain ⟨source, making⟩ := found
      have fresh (isBegun : making = .begun) : source ∉ shop.started := by
        rintro ⟨other, following, known, begun⟩
        by_cases same : other = number
        · subst same
          rw [task, Option.some.injEq] at known
          exact begun ((Prod.mk.inj known).2 ▸ isBegun)
        · exact runs.target_ne separate same known task rfl
      have turned := Job.turned separate runs.within runs.amid (runs.mem_sources task)
        (runs.sound number source making task) fresh
      have goesOn : (job.turn index source making shop.files).1 ≠ .begun :=
        Job.turn_ne_begun making
      dsimp only
      generalize job.turn index source making shop.files = state at turned goesOn
      obtain ⟨next, later⟩ := state
      have bound := (List.getElem?_eq_some_iff.mp task).1
      have here : (shop.tasks.set number (source, next))[number]? = some (source, next) :=
        List.getElem?_set_self bound
      have elsewhere (other : Nat) (differs : other ≠ number) :
          (shop.tasks.set number (source, next))[other]? = shop.tasks[other]? :=
        List.getElem?_set_ne differs.symm
      refine ⟨?_, turned.amid.mono ?_, fun other anySource following known => ?_⟩
      · rw [← runs.listed]
        refine List.ext_getElem? fun other => ?_
        rw [List.getElem?_map, List.getElem?_map]
        by_cases same : other = number
        · rw [same, here, task]
          rfl
        · rw [elsewhere other same]
      · rintro any (rfl | ⟨other, following, known, begun⟩)
        · exact ⟨number, next, here, goesOn⟩
        · by_cases same : other = number
          · subst same
            rw [task, Option.some.injEq] at known
            exact ⟨other, next, (Prod.mk.inj known).1 ▸ here, goesOn⟩
          · exact ⟨other, following, (elsewhere other same).trans known, begun⟩
      · by_cases same : other = number
        · rw [same, here, Option.some.injEq] at known
          obtain ⟨rfl, rfl⟩ := Prod.mk.inj known
          exact turned.sound
        · rw [elsewhere other same] at known
          have apart := runs.target_ne separate (Ne.symm same) task known
          exact (runs.sound other anySource following known).stays turned.grown
            (turned.elsewhere _ apart)

theorem Runs.turns (separate : job.Separate files sources) (turns : List Nat) :
    Runs job index files sources (turns.foldl (Workshop.turn job index) shop) := by
  induction turns generalizing shop with
  | nil => exact runs
  | cons number rest ih => exact ih (runs.turn separate number)

end

/-- A making with many turns needs few more. -/
theorem left_turns (turns : List Nat) {bound : Nat → Nat}
    (atMost : ∀ (number : Nat) (source : SourceFile) (making : Making),
      shop.tasks[number]? = some (source, making) → making.left ≤ bound number)
    {number : Nat} {source : SourceFile} {making : Making}
    (task : (turns.foldl (Workshop.turn job index) shop).tasks[number]? = some (source, making)) :
    making.left ≤ bound number - turns.count number := by
  induction turns generalizing shop bound with
  | nil => exact atMost number source making task
  | cons first rest ih =>
      have fewer := @ih (shop.turn job index first)
        (fun other => bound other - if other = first then 1 else 0) ?_ task
      · rw [List.count_cons]
        by_cases same : number = first
        · simp only [same, if_true, beq_self_eq_true] at fewer ⊢
          omega
        · simp only [same, if_false, beq_iff_eq, Ne.symm same] at fewer ⊢
          omega
      · intro other anySource following known
        unfold Workshop.turn at known
        cases isFirst : shop.tasks[first]? with
        | none =>
            rw [isFirst] at known
            by_cases same : other = first
            · rw [same, isFirst] at known
              cases known
            · simpa [same] using atMost other anySource following known
        | some found =>
            obtain ⟨turning, before⟩ := found
            rw [isFirst] at known
            dsimp only at known
            by_cases same : other = first
            · subst same
              rw [List.getElem?_set_self (List.getElem?_eq_some_iff.mp isFirst).1,
                Option.some.injEq] at known
              have turned := @Job.left_turn job index shop.files turning before
              have left := atMost other turning before isFirst
              rw [(Prod.mk.inj known).2] at turned
              rw [if_pos rfl]
              omega
            · rw [List.getElem?_set_ne (Ne.symm same)] at known
              simpa [same] using atMost other anySource following known

theorem results_eq (finished : ∀ (number : Nat) (source : SourceFile) (making : Making),
      shop.tasks[number]? = some (source, making) →
      making = .finished (job.outcome index files source)) :
    shop.results = job.outcomes index files (shop.tasks.map Prod.fst) := by
  unfold results Job.outcomes
  rw [List.map_map, ← List.filterMap_eq_map]
  refine List.filterMap_congr fun task listed => ?_
  obtain ⟨number, found⟩ := List.mem_iff_getElem?.mp listed
  obtain ⟨source, making⟩ := task
  rw [finished number source making found]
  rfl

/-- When every making has had its turns, all sources are made. -/
theorem Runs.finished (separate : job.Separate files sources) {turns : List Nat}
    (complete : ∀ number < sources.length, 4 ≤ turns.count number) {number : Nat}
    {source : SourceFile} {making : Making}
    (task : (turns.foldl (Workshop.turn job index)
      ⟨sources.map fun source => (source, .begun), files⟩).tasks[number]? = some (source, making)) :
    making = .finished (job.outcome index files source) := by
  have begun : Runs job index files sources _ := .begin separate.tree
  have runs := begun.turns separate turns
  have bound := (List.getElem?_eq_some_iff.mp (runs.getElem?_sources task)).1
  have atMost (making : Making) : making.left ≤ 4 := by cases making <;> simp [Making.left]
  have left := @left_turns job index _ turns (fun _ => 4) (fun _ _ making _ => atMost making)
    number source making task
  have enough := complete number bound
  have sound := runs.sound number source making task
  cases making with
  | finished result => rw [sound.1]
  | begun => simp [Making.left] at left; omega
  | aimed target => simp [Making.left] at left; omega
  | generated target code => simp [Making.left] at left; omega
  | housed target code => simp [Making.left] at left; omega

end Workshop

namespace Job

variable {job : Job} {index : MemberIndex} {files after later : FileSystem}
variable {sources : List SourceFile}

/-- Sources whose makings take turns in any order. -/
theorem ends_makeInTurns (separate : job.Separate files sources) {turns : List Nat}
    (complete : ∀ number < sources.length, 4 ≤ turns.count number) (report : RunReport) :
    job.Ends index files sources (job.summary report (job.outcomes index files sources))
      (job.makeInTurns index report sources turns files) := by
  have begun : Workshop.Runs job index files sources _ := .begin separate.tree
  have runs := begun.turns separate turns
  have finished := @Workshop.Runs.finished job index files sources separate turns complete
  have run : job.makeInTurns index report sources turns files =
      let shop := turns.foldl (Workshop.turn job index)
        ⟨sources.map fun source => (source, .begun), files⟩
      List.foldlM (m := Run) (fun before (source, result) => job.recordMade before source result)
        report shop.results shop.files := rfl
  rw [run]
  generalize turns.foldl (Workshop.turn job index)
    ⟨sources.map fun source => (source, .begun), files⟩ = shop at *
  have made : job.Made index files sources shop.files := by
    refine ⟨runs.amid.mono runs.within, fun source isSource code delivers => ?_⟩
    rw [← runs.listed] at isSource
    obtain ⟨⟨_, making⟩, listed, rfl⟩ := List.mem_map.mp isSource
    obtain ⟨number, task⟩ := List.mem_iff_getElem?.mp listed
    have sound := runs.sound _ _ _ task
    rw [finished task] at sound
    exact sound.2 code delivers
  dsimp only
  rw [Workshop.results_eq fun number source making task => finished task, runs.listed,
    foldlM_recordMade]
  generalize job.summary report (job.outcomes index files sources) = decided
  cases decided with
  | error cause => exact .fails
  | ok whole => exact .reports made

theorem Made.textAt?_of_made (first : job.Made index files sources after)
    (second : job.Made index files sources later) {location : FileLocation} {text : String}
    (other : location ≠ files.spelled job.area.checkpoint)
    (found : after.textAt? location = some text) :
    later.textAt? location = some text := by
  rcases first.amid.texts _ _ found with
    before | isCheckpoint | ⟨source, isSource, code, delivers, rfl, rfl⟩
  · obtain ⟨kept, stands⟩ := second.amid.grown.file location
      ⟨text, FileSystem.textAt?_eq_some.mp before⟩
    have laterFound := FileSystem.textAt?_eq_some.mpr stands
    rcases second.amid.texts _ _ laterFound with
      same | isCheckpoint | ⟨source, isSource, code, delivers, rfl, rfl⟩
    · rw [laterFound, ← same, before]
    · exact absurd isCheckpoint other
    · rw [laterFound, ← first.delivered source isSource code delivers, found]
  · exact absurd isCheckpoint other
  · exact second.delivered source isSource code delivers

/-- Two runs end alike: with the same report and, but for the checkpoint, with the same files;
or with the same failure. -/
inductive EndAlike (checkpoint : FileLocation) :
    EStateM.Result BatchError FileSystem RunReport →
      EStateM.Result BatchError FileSystem RunReport → Prop where
  | reports {made : RunReport} {after later : FileSystem} :
      (∀ location ≠ checkpoint, after.textAt? location = later.textAt? location) →
        EndAlike checkpoint (.ok made after) (.ok made later)
  | fails {cause : BatchError} {after later : FileSystem} :
      EndAlike checkpoint (.error cause after) (.error cause later)

theorem Ends.alike {decided : Except BatchError RunReport}
    {first second : EStateM.Result BatchError FileSystem RunReport}
    (isFirst : job.Ends index files sources decided first)
    (isSecond : job.Ends index files sources decided second) :
    EndAlike (files.spelled job.area.checkpoint) first second := by
  cases isFirst with
  | reports made =>
      cases isSecond with
      | reports following =>
          exact .reports fun location other => Option.ext fun text =>
            ⟨made.textAt?_of_made following other, following.textAt?_of_made made other⟩
  | fails =>
      cases isSecond with
      | fails => exact .fails

theorem makeAll_sequential (report : RunReport) :
    { job with parallel := false }.makeAll index report sources =
      sources.foldlM (job.makeNext index) report :=
  rfl

theorem makeAll_parallel (report : RunReport) :
    { job with parallel := true }.makeAll index report sources =
      job.makeAtOnce index report sources :=
  rfl

/-- Separate sources that are made one after another, all at once, or in turns in any order
have the same reports and leave the same files, or fail alike; if failures are only noted,
there is a report. -/
theorem makeAll_alike (separate : job.Separate files sources) {turns : List Nat}
    (complete : ∀ number < sources.length, 4 ≤ turns.count number) (index : MemberIndex)
    (report : RunReport) :
    EndAlike (files.spelled job.area.checkpoint)
        ({ job with parallel := false }.makeAll index report sources files)
        (job.makeInTurns index report sources turns files) ∧
      EndAlike (files.spelled job.area.checkpoint)
        ({ job with parallel := false }.makeAll index report sources files)
        ({ job with parallel := true }.makeAll index report sources files) ∧
      (job.configuration.options.stopAtError = false → ∃ made after,
        { job with parallel := false }.makeAll index report sources files = .ok made after) := by
  have inTurns := @ends_makeInTurns job index files sources separate turns complete report
  have atOnce := @ends_makeAtOnce job index files sources separate report
  have sequential := @ends_foldlM_makeNext job index files files sources [] sources separate rfl
    (.begin separate.tree) report
  rw [makeAll_sequential, makeAll_parallel]
  refine ⟨sequential.alike inTurns, sequential.alike atOnce, fun goesOn => ?_⟩
  obtain ⟨made, summaryEq⟩ := summary_isOk goesOn report (job.outcomes index files sources)
  rw [summaryEq] at sequential
  generalize List.foldlM (job.makeNext index) report sources files = ended at *
  cases sequential with
  | reports known => exact ⟨made, _, rfl⟩

/-! ### Kept trees of two sources -/

instance (job : Job) (files : FileSystem) : DecidableRel (job.Apart files) :=
  fun first second => inferInstanceAs (Decidable
    (¬ files.spelled (job.target files first) <+: files.spelled (job.target files second) ∧
      ¬ files.spelled (job.target files second) <+: files.spelled (job.target files first)))

/-- A job that makes sources from kept trees and goes on behind failures. -/
def makingJob : Job :=
  { input := ⟨"src"⟩, output := ⟨"out"⟩, configuration := { options := { stopAtError := false } } }

/-- A tree without statements. -/
def emptyTree : String :=
  "\x7b\"type\":\"Program\"\x7d"

def keptFiles : FileSystem :=
  .ofFiles [("src/A.as", ""), ("src/ui/B.as", ""), ("tmp/ast/A.json", emptyTree),
    ("tmp/ast/ui/B.json", emptyTree)]

theorem keptFiles_eq : keptFiles = { entries :=
    ⟨[(["src"], .directory), (["src", "A.as"], .file ""), (["src", "ui"], .directory),
      (["src", "ui", "B.as"], .file ""), (["tmp"], .directory), (["tmp", "ast"], .directory),
      (["tmp", "ast", "A.json"], .file emptyTree), (["tmp", "ast", "ui"], .directory),
      (["tmp", "ast", "ui", "B.json"], .file emptyTree)]⟩ } := by
  decide +kernel

def keptSources : List SourceFile :=
  [⟨⟨"src/A.as"⟩, "A.as"⟩, ⟨⟨"src/ui/B.as"⟩, "ui/B.as"⟩]

/-- Sources are separate if that can be seen from the files. -/
theorem separate_of_checks
    (checks : files.IsTree ∧ files.pathExists job.input = true ∧ files.Climbs job.area.root ∧
      (value? (Run.store job.area.checkpoint "" files)).isSome ∧
      (∀ source ∈ sources, ((Path.mk source.relative).withExtension "json").Descends) ∧
      (∀ source ∈ sources, files.IsPlain (job.target files source)) ∧
      (∀ source ∈ sources,
        ¬ files.spelled job.area.root <+: files.spelled (job.target files source)) ∧
      sources.Pairwise (job.Apart files)) :
    job.Separate files sources := by
  obtain ⟨tree, input, area, stored, below, targets, outside, apart⟩ := checks
  obtain ⟨_, -, stored⟩ := eq_ok_of_isSome stored
  exact ⟨tree, input, area, ⟨"", _, stored⟩, below, targets, outside, apart⟩

theorem separate_kept : makingJob.Separate keptFiles keptSources := by
  rw [keptFiles_eq]
  exact separate_of_checks (by decide)

-- code may go to an absolute path, and the way there may go up
example : { makingJob with output := ⟨"/src/ui/../../out"⟩ }.Separate keptFiles keptSources := by
  rw [keptFiles_eq]
  exact separate_of_checks (by decide)

theorem makeAll_alike_kept :
    makingJob.Separate keptFiles keptSources ∧
      (∀ number < keptSources.length, 4 ≤ [1, 0, 0, 1, 1, 0, 1, 0].count number) ∧
      EndAlike (keptFiles.spelled makingJob.area.checkpoint)
        ({ makingJob with parallel := false }.makeAll {} {} keptSources keptFiles)
        (makingJob.makeInTurns {} {} keptSources [1, 0, 0, 1, 1, 0, 1, 0] keptFiles) := by
  have complete : ∀ number < keptSources.length, 4 ≤ [1, 0, 0, 1, 1, 0, 1, 0].count number := by
    decide
  exact ⟨separate_kept, complete, (makeAll_alike separate_kept complete {} {}).1⟩

/-- Files with a directory where the checkpoint would stand. -/
def heldFiles : FileSystem :=
  .ofFiles [("src/A.as", ""), ("tmp/ast/A.json", emptyTree), ("tmp/last.txt/x", "")]

/-- Files with a directory that has the name of a made file. -/
def nestedFiles : FileSystem :=
  .ofFiles [("src/A.as", ""), ("src/A.ts/B.as", ""), ("tmp/ast/A.json", emptyTree),
    ("tmp/ast/A.ts/B.json", emptyTree)]

theorem heldFiles_nestedFiles_eq :
    heldFiles = { entries :=
      ⟨[(["src"], .directory), (["src", "A.as"], .file ""), (["tmp"], .directory),
        (["tmp", "ast"], .directory), (["tmp", "ast", "A.json"], .file emptyTree),
        (["tmp", "last.txt"], .directory), (["tmp", "last.txt", "x"], .file "")]⟩ } ∧
    nestedFiles = { entries :=
      ⟨[(["src"], .directory), (["src", "A.as"], .file ""), (["src", "A.ts"], .directory),
        (["src", "A.ts", "B.as"], .file ""), (["tmp"], .directory), (["tmp", "ast"], .directory),
        (["tmp", "ast", "A.json"], .file emptyTree), (["tmp", "ast", "A.ts"], .directory),
        (["tmp", "ast", "A.ts", "B.json"], .file emptyTree)]⟩ } := by
  decide +kernel

def nestedSources : List SourceFile :=
  [⟨⟨"src/A.as"⟩, "A.as"⟩, ⟨⟨"src/A.ts/B.as"⟩, "A.ts/B.as"⟩]

/-- A job whose work area is reached through a directory that is not needed. -/
def turningJob : Job :=
  { makingJob with
    configuration := { makingJob.configuration with temporaryRoot := "x/../tmp" } }

/-- A job whose input stands where the checkpoint will. -/
def missingJob : Job :=
  { makingJob with input := ⟨"tmp/last.txt"⟩ }

def singleSource : List SourceFile :=
  [⟨⟨"src/A.as"⟩, "A.as"⟩]

/-- Code goes to different places, outside the work area and the input. -/
def GoesOutside (job : Job) (files : FileSystem) (sources : List SourceFile) : Prop :=
  (sources.map fun source => files.spelled (job.target files source)).Nodup ∧
    ∀ source ∈ sources,
      ¬ files.spelled job.area.root <+: files.spelled (job.target files source) ∧
        ¬ files.spelled job.input <+: files.spelled (job.target files source)

instance (job : Job) (files : FileSystem) (sources : List SourceFile) :
    Decidable (job.GoesOutside files sources) :=
  inferInstanceAs (Decidable (_ ∧ _))

-- sources whose names differ in the case of the extension are made at one place
example : ¬ makingJob.GoesOutside {} [⟨⟨"src/A.as"⟩, "A.as"⟩, ⟨⟨"src/A.AS"⟩, "A.AS"⟩] := by
  decide +kernel

/-- The files that a job writes for sources it makes in order, if there is a report. -/
def emittedBy (job : Job) (parallel : Bool) (files : FileSystem) (sources : List SourceFile) :
    Option (List Path) :=
  (value? ({ job with parallel := parallel }.makeAll {} {} sources files)).map RunReport.emitted

/-- It is not enough that code goes to different places: the checkpoint must be stored, no
file may come to stand above another one, no path may turn back from a directory that is
not there, and the input must be there. -/
theorem makeAll_unlike :
    (makingJob.GoesOutside heldFiles singleSource ∧
      makingJob.emittedBy false heldFiles singleSource = none ∧
      makingJob.emittedBy true heldFiles singleSource = some [⟨"out/A.ts"⟩]) ∧
    (makingJob.GoesOutside nestedFiles nestedSources ∧
      makingJob.emittedBy false nestedFiles nestedSources = some [⟨"out/A.ts"⟩] ∧
      (value? (makingJob.makeInTurns {} {} nestedSources [1, 1, 1, 1, 0, 0, 0, 0]
        nestedFiles)).map RunReport.emitted = some [⟨"out/A.ts/B.ts"⟩]) ∧
    (turningJob.GoesOutside keptFiles singleSource ∧
      turningJob.emittedBy false keptFiles singleSource = some [⟨"out/A.ts"⟩] ∧
      turningJob.emittedBy true keptFiles singleSource = some []) ∧
    (missingJob.GoesOutside keptFiles singleSource ∧
      missingJob.emittedBy false keptFiles singleSource = some [⟨"out.ts"⟩] ∧
      missingJob.emittedBy true keptFiles singleSource = some [⟨"out/A.ts"⟩]) := by
  rw [heldFiles_nestedFiles_eq.1, heldFiles_nestedFiles_eq.2, keptFiles_eq]
  decide +kernel

end Job

end ScriptBridge

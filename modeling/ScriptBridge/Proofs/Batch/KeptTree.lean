import ScriptBridge.Proofs.Batch.Resumption
import ScriptBridge.Proofs.Files.Name

/-!
# Sources whose analysis fails

When a run goes on behind a failure, the second phase finds the tree that an earlier
run has kept for a source, if there is one: a source that could not be analysed is then
made from it.  Without such a tree the source fails in both phases, and its output is
left alone.
-/

namespace ScriptBridge

open FileSystem (Grows WrittenAt)

namespace Run

variable {First Value : Type} {Change : FileSystem → FileSystem → Prop}

/-- A step that changes trees in one way if it fails. -/
def FailsWithin (Change : FileSystem → FileSystem → Prop) (step : Run Value) : Prop :=
  ∀ files cause after, files.IsTree → step files = .error cause after → Change files after

theorem FailsWithin.bind [FileSystem.Evolution Change] {known : First → Prop}
    {step : Run First} {next : First → Run Value} (evolves : Evolves Change known step)
    (behind : ∀ value, FailsWithin Change (next value)) :
    FailsWithin Change (step >>= next) := by
  intro files cause after tree failed
  rcases bind_eq_error.mp failed with first | ⟨value, middle, stepped, later⟩
  · exact evolves.fails files cause after tree first
  · have changed := (evolves.succeeds files value middle tree stepped).1
    exact FileSystem.Evolution.trans changed
      (behind value middle cause after (FileSystem.Evolution.tree changed) later)

/-- A file that cannot be stored is not written. -/
theorem FailsWithin.store [FileSystem.FreeEvolution Change] (path : Path) (text : String)
    (value : Value) :
    FailsWithin Change (do Run.store path text; return value) := by
  intro files cause after tree failed
  rcases bind_eq_error.mp failed with storing | ⟨_, _, -, returned⟩
  · refine FailsWithin.bind (Evolves.makeParent path) (fun _ => ?_) files cause after tree storing
    intro files cause after tree failed
    rw [change_write_apply] at failed
    split at failed
    · cases failed
    · cases failed
      exact FileSystem.Evolution.refl tree
  · cases returned

theorem foldlM_append_eq_ok {Item : Type} {step : Value → Item → Run Value}
    {before behind : List Item} {item : Item} {start final : Value} {files after : FileSystem}
    (folded : (before ++ item :: behind).foldlM step start files = .ok final after) :
    ∃ value middle next left, before.foldlM step start files = .ok value middle ∧
      step value item middle = .ok next left ∧
      behind.foldlM step next left = .ok final after := by
  rw [List.foldlM_append] at folded
  obtain ⟨value, middle, first, rest⟩ := bind_eq_ok.mp folded
  rw [List.foldlM_cons] at rest
  obtain ⟨next, left, stepped, last⟩ := bind_eq_ok.mp rest
  exact ⟨value, middle, next, left, first, stepped, last⟩

theorem mapM_append_eq_ok {Item : Type} {step : Item → Run Value} {before behind : List Item}
    {item : Item} {values : List Value} {files after : FileSystem}
    (mapped : (before ++ item :: behind).mapM step files = .ok values after) :
    ∃ first middle value left last, before.mapM step files = .ok first middle ∧
      step item middle = .ok value left ∧ behind.mapM step left = .ok last after ∧
      values = first ++ value :: last := by
  rw [List.mapM_append, List.mapM_cons] at mapped
  obtain ⟨first, middle, inFront, rest⟩ := bind_eq_ok.mp mapped
  obtain ⟨others, _, rest, returned⟩ := bind_eq_ok.mp rest
  obtain ⟨value, left, stepped, rest⟩ := bind_eq_ok.mp rest
  obtain ⟨last, _, rest, returnedLast⟩ := bind_eq_ok.mp rest
  cases returnedLast
  cases returned
  exact ⟨first, middle, value, left, last, inFront, stepped, rest, rfl⟩

theorem foldlM_invariant {Item : Type} {step : Value → Item → Run Value}
    (holds : Value → FileSystem → Prop)
    (steps : ∀ value item files next after, holds value files →
      step value item files = .ok next after → holds next after)
    {items : List Item} {start final : Value} {files after : FileSystem}
    (begins : holds start files) (folded : items.foldlM step start files = .ok final after) :
    holds final after := by
  induction items generalizing start files with
  | nil =>
      cases folded
      exact begins
  | cons item rest ih =>
      rw [List.foldlM_cons] at folded
      obtain ⟨next, middle, stepped, last⟩ := bind_eq_ok.mp folded
      exact ih (steps start item files next middle begins stepped) last

theorem attempt_of_error {step : Run Value} {files left : FileSystem} {cause : BatchError}
    (failed : step files = .error cause left) :
    Run.attempt step files = .ok (.error cause) left := by
  unfold Run.attempt
  rw [failed]

end Run

namespace Job

variable {job : Job} {parse : String → String → Except ParseFailure String}

/-- Where the code of a source goes: to its place in the output, or, if the input is a
single file, to the output itself. -/
def targets (job : Job) (source : SourceFile) : List Path :=
  [job.output.join ((Path.mk source.relative).withExtension targetExtension),
    job.output.withExtension targetExtension]

theorem targetPath_mem_targets (files : FileSystem) (source : SourceFile) :
    files.targetPath job.input job.output source.relative ∈ job.targets source := by
  unfold FileSystem.targetPath targets
  dsimp only
  split <;> simp

/-- Where a run writes, apart from the tree and the code of one source. -/
def placesBeside (job : Job) (source : SourceFile) (others : List SourceFile) : List Path :=
  [job.area.checkpoint, job.area.indexDump, job.area.index, job.area.text source.relative] ++
    others.flatMap fun other =>
      job.area.text other.relative :: job.area.tree other.relative :: job.targets other

/-- A run comes to a source behind others, and cannot analyse it. -/
def CannotAnalyse (job : Job) (files : FileSystem) (before : List SourceFile)
    (source : SourceFile) (cause : BatchError) : Prop :=
  ∃ state middle noted left,
    before.foldlM job.analyseNext ({}, {}) files = .ok state middle ∧
      job.noteProgress source middle = .ok () noted ∧
      job.analyseSource source noted = .error cause left

/-- A source that cannot be analysed leaves at most its normalized text. -/
theorem writtenAt_of_analyseSource_error {allowed : Path → Prop} {source : SourceFile}
    (function : job.parsing = Parsing.ofFunction parse)
    (ofText : allowed (job.area.text source.relative)) {files left : FileSystem}
    (tree : files.IsTree) {cause : BatchError}
    (fails : job.analyseSource source files = .error cause left) :
    WrittenAt allowed files left := by
  refine Run.FailsWithin.bind (.load source.path) (fun text => ?_) files cause left tree fails
  refine .bind (Run.stores_writtenAt ofText _) fun _ => ?_
  rw [function]
  refine .bind (.parsed parse _ _) fun written => ?_
  have reads (outcome : Except TreeError Node) : Run.Evolves (WrittenAt allowed) (fun _ => True)
      (Run.ofExcept (.unusableParse source.relative) outcome) := .ofExcept fun _ _ => trivial
  exact .bind (reads _) fun tree => .store _ _ tree

/-- What the result for a source adds to the failures of a report. -/
def failuresOf {Value : Type} (source : SourceFile) :
    Except BatchError Value → List (String × BatchError)
  | .ok _ => []
  | .error cause => [(source.relative, cause)]

theorem applyPolicy_eq_ok {Value : Type} {phase : Phase} {source : SourceFile}
    {report : RunReport} {outcome : Except BatchError Value} {files after : FileSystem}
    {decided : Option Value × RunReport}
    (applied : job.applyPolicy phase source report outcome files = .ok decided after) :
    decided.2.failures = report.failures ++ failuresOf source outcome ∧ after = files ∧
      ∀ cause, outcome = .error cause → decided.1 = none := by
  unfold applyPolicy at applied
  split at applied
  · cases applied
    exact ⟨(List.append_nil _).symm, rfl, nofun⟩
  · split at applied
    · cases applied
    · cases applied
      exact ⟨rfl, rfl, fun _ _ => rfl⟩

/-- A source is tried behind its checkpoint, and a failure is noted. -/
theorem analyseNext_eq_ok {before after : MemberIndex × RunReport} {source : SourceFile}
    {files left : FileSystem}
    (analysed : job.analyseNext before source files = .ok after left) :
    ∃ noted outcome, job.noteProgress source files = .ok () noted ∧
      Run.attempt (job.analyseSource source) noted = .ok outcome left ∧
      after.2.failures = before.2.failures ++ failuresOf source outcome ∧
      ∀ cause, outcome = .error cause → after.1 = before.1 := by
  obtain ⟨_, noted, notes, rest⟩ := Run.bind_eq_ok.mp analysed
  obtain ⟨outcome, tried, attempted, rest⟩ := Run.bind_eq_ok.mp rest
  obtain ⟨decided, settled, applied, rest⟩ := Run.bind_eq_ok.mp rest
  obtain ⟨failures, rfl, isNone⟩ := applyPolicy_eq_ok applied
  obtain ⟨_ | tree, report⟩ := decided
  · cases rest
    exact ⟨noted, outcome, notes, attempted, failures, fun _ _ => rfl⟩
  · cases rest
    exact ⟨noted, outcome, notes, attempted, failures,
      fun cause isError => nomatch isNone cause isError⟩

theorem recordMade_eq_ok {report after : RunReport} {source : SourceFile}
    {outcome : Except BatchError (Path × List Diagnostic)} {files left : FileSystem}
    (recorded : job.recordMade report source outcome files = .ok after left) :
    after.failures = report.failures ++ failuresOf source outcome ∧ left = files := by
  obtain ⟨decided, settled, applied, rest⟩ := Run.bind_eq_ok.mp recorded
  obtain ⟨failures, rfl, -⟩ := applyPolicy_eq_ok applied
  obtain ⟨_ | ⟨target, diagnostics⟩, report⟩ := decided
  · cases rest
    exact ⟨failures, rfl⟩
  · cases rest
    exact ⟨failures, rfl⟩

/-! ### Beside one source -/

section

variable {files after : FileSystem} {source other : SourceFile}
variable {others before behind : List SourceFile}

theorem stores_checkpoint :
    Run.Stores (WrittenAt (· ∈ job.placesBeside source others)) job.area.checkpoint :=
  Run.stores_writtenAt (by simp [placesBeside])

theorem evolves_analyseOther (function : job.parsing = Parsing.ofFunction parse)
    (listed : other ∈ others) (reached : MemberIndex × RunReport) (proper : reached.1.IsProper) :
    Run.Evolves (WrittenAt (· ∈ job.placesBeside source others)) (fun after => after.1.IsProper)
      (job.analyseNext reached other) := by
  have ofText : job.area.text other.relative ∈ job.placesBeside source others :=
    List.mem_append_right _ (List.mem_flatMap.mpr ⟨other, listed, by simp⟩)
  have ofTree : job.area.tree other.relative ∈ job.placesBeside source others :=
    List.mem_append_right _ (List.mem_flatMap.mpr ⟨other, listed, by simp⟩)
  exact evolves_analyseNext stores_checkpoint
    (evolves_analyseSource function other (Run.stores_writtenAt ofText)
      (Run.stores_writtenAt ofTree)) reached proper

/-- A source that cannot be analysed is noted, and the index stays as it was. -/
theorem analyseNext_of_error (function : job.parsing = Parsing.ofFunction parse)
    (tree : files.IsTree) {reached next : MemberIndex × RunReport} {noted left : FileSystem}
    {cause : BatchError} (notes : job.noteProgress source files = .ok () noted)
    (fails : job.analyseSource source noted = .error cause left)
    (analysed : job.analyseNext reached source files = .ok next after) :
    WrittenAt (· ∈ job.placesBeside source others) files after ∧ next.1 = reached.1 ∧
      (source.relative, cause) ∈ next.2.failures := by
  obtain ⟨_, outcome, again, attempted, failures, sameIndex⟩ := analyseNext_eq_ok analysed
  obtain ⟨-, rfl⟩ := EStateM.Result.ok.inj (again.symm.trans notes)
  obtain ⟨rfl, rfl⟩ := EStateM.Result.ok.inj (attempted.symm.trans (Run.attempt_of_error fails))
  have stores : Run.Stores (WrittenAt (· ∈ job.placesBeside source others)) job.area.checkpoint :=
    stores_checkpoint
  have behindNote := ((stores _).succeeds _ _ _ tree notes).1
  refine ⟨behindNote.trans ?_, sameIndex cause rfl, ?_⟩
  · exact writtenAt_of_analyseSource_error function (by simp [placesBeside])
      behindNote.grows.tree fails
  · rw [failures]
    exact List.mem_append_right _ List.mem_cons_self

theorem mem_failures_of_analysed {failure : String × BatchError}
    {reached final : MemberIndex × RunReport} (known : failure ∈ reached.2.failures)
    (analysed : others.foldlM job.analyseNext reached files = .ok final after) :
    failure ∈ final.2.failures := by
  refine Run.foldlM_invariant (fun reached _ => failure ∈ reached.2.failures) ?_ known analysed
  intro reached other _ _ _ known step
  obtain ⟨_, _, _, _, failures, _⟩ := analyseNext_eq_ok step
  rw [failures]
  exact List.mem_append_left _ known

/-- In the first phase a source that cannot be analysed is noted, and nothing is written
beside the places of the others. -/
theorem analyseAll_beside (function : job.parsing = Parsing.ofFunction parse)
    (tree : files.IsTree) {index : MemberIndex} {report : RunReport} {cause : BatchError}
    (analysed : job.analyseAll (before ++ source :: behind) files = .ok (index, report) after)
    (cannot : job.CannotAnalyse files before source cause) :
    WrittenAt (· ∈ job.placesBeside source (before ++ behind)) files after ∧
      (source.relative, cause) ∈ report.failures := by
  have steps (listed : List SourceFile) (within : listed ⊆ before ++ behind) :
      ∀ reached : MemberIndex × RunReport, ∀ other ∈ listed, reached.1.IsProper →
        Run.Evolves (WrittenAt (· ∈ job.placesBeside source (before ++ behind)))
          (fun after => after.1.IsProper) (job.analyseNext reached other) :=
    fun reached other member => evolves_analyseOther function (within member) reached
  have keepsIndex : Run.Evolves (WrittenAt (· ∈ job.placesBeside source (before ++ behind)))
      (fun _ => True) (job.keepIndex index) :=
    evolves_keepIndex (Run.stores_writtenAt (by simp [placesBeside]))
      (Run.stores_writtenAt (by simp [placesBeside])) index
  obtain ⟨⟨found, reported⟩, folded, fold, kept⟩ := Run.bind_eq_ok.mp analysed
  obtain ⟨_, final, keeps, returned⟩ := Run.bind_eq_ok.mp kept
  cases returned
  obtain ⟨state, middle, next, left, inFront, atSource, rest⟩ := Run.foldlM_append_eq_ok fold
  obtain ⟨_, _, noted, failed, again, notes, fails⟩ := cannot
  obtain ⟨rfl, rfl⟩ := EStateM.Result.ok.inj (again.symm.trans inFront)
  obtain ⟨first, proper⟩ := (Run.Evolves.foldlM (steps before (List.subset_append_left _ _))
    MemberIndex.isProper_empty).succeeds _ _ _ tree inFront
  have treeHere := first.grows.tree
  obtain ⟨second, sameIndex, noted⟩ := analyseNext_of_error function treeHere notes fails atSource
  have third := ((Run.Evolves.foldlM (steps behind (List.subset_append_right _ _))
    (sameIndex.symm ▸ proper)).succeeds _ _ _ second.grows.tree rest).1
  have fourth := (keepsIndex.succeeds _ _ _ third.grows.tree keeps).1
  exact ⟨first.trans (second.trans (third.trans fourth)), mem_failures_of_analysed noted rest⟩

theorem evolves_makeOther (index : MemberIndex) (listed : other ∈ others) :
    Run.Evolves (WrittenAt (· ∈ job.placesBeside source others)) (fun _ => True)
      (job.makeSource index other) := by
  refine evolves_makeSource index fun files => Run.stores_writtenAt ?_
  refine List.mem_append_right _ (List.mem_flatMap.mpr ⟨other, listed, ?_⟩)
  exact List.mem_cons_of_mem _ (List.mem_cons_of_mem _ (targetPath_mem_targets files other))

/-- The second phase tries to make a source, and beside it only writes for others. -/
def TriesBeside (job : Job) (index : MemberIndex) (source : SourceFile)
    (others : List SourceFile) (made : RunReport) (files after : FileSystem) : Prop :=
  ∃ start outcome left,
    WrittenAt (· ∈ job.placesBeside source others) files start ∧
      Run.attempt (job.makeSource index source) start = .ok outcome left ∧
      WrittenAt (· ∈ job.placesBeside source others) left after ∧
      ∀ cause, outcome = .error cause → (source.relative, cause) ∈ made.failures

variable {index : MemberIndex} {report made : RunReport}

theorem isTree_of_attempt {start left : FileSystem}
    {outcome : Except BatchError (Path × List Diagnostic)} (tree : start.IsTree)
    (attempted : Run.attempt (job.makeSource index source) start = .ok outcome left) :
    left.IsTree :=
  ((growsTo_makeSource index source).attempt.succeeds _ _ _ tree attempted).1.tree

theorem mem_failures_of_recorded {failure : String × BatchError}
    {results : List (SourceFile × Except BatchError (Path × List Diagnostic))}
    (known : failure ∈ report.failures)
    (recorded : (results.foldlM (fun before (source, result) =>
      job.recordMade before source result) report : Run RunReport) files = .ok made after) :
    failure ∈ made.failures := by
  refine Run.foldlM_invariant (fun reached _ => failure ∈ reached.failures) ?_ known recorded
  intro reached result _ _ _ known step
  rw [(recordMade_eq_ok step).1]
  exact List.mem_append_left _ known

theorem mem_failures_of_made {failure : String × BatchError}
    (known : failure ∈ report.failures)
    (ran : others.foldlM (job.makeNext index) report files = .ok made after) :
    failure ∈ made.failures := by
  refine Run.foldlM_invariant (fun reached _ => failure ∈ reached.failures) ?_ known ran
  intro reached other _ _ _ known step
  obtain ⟨_, _, -, step⟩ := Run.bind_eq_ok.mp step
  obtain ⟨_, _, -, recorded⟩ := Run.bind_eq_ok.mp step
  rw [(recordMade_eq_ok recorded).1]
  exact List.mem_append_left _ known

theorem mem_failures_of_recordMade {outcome : Except BatchError (Path × List Diagnostic)}
    (recorded : job.recordMade report source outcome files = .ok made after) (cause : BatchError)
    (failed : outcome = .error cause) : (source.relative, cause) ∈ made.failures := by
  rw [(recordMade_eq_ok recorded).1, failed]
  exact List.mem_append_right _ List.mem_cons_self

theorem triesBeside_inTurn (tree : files.IsTree)
    (ran : (before ++ source :: behind).foldlM (job.makeNext index) report files =
      .ok made after) :
    job.TriesBeside index source (before ++ behind) made files after := by
  have steps (listed : List SourceFile) (within : listed ⊆ before ++ behind) :
      ∀ reached : RunReport, ∀ other ∈ listed, True →
        Run.Evolves (WrittenAt (· ∈ job.placesBeside source (before ++ behind)))
          (fun _ => True) (job.makeNext index reached other) :=
    fun reached other member _ =>
      evolves_makeNext stores_checkpoint (evolves_makeOther index (within member)) reached
  have stores : Run.Stores (WrittenAt (· ∈ job.placesBeside source (before ++ behind)))
      job.area.checkpoint := stores_checkpoint
  obtain ⟨reached, middle, next, left, inFront, atSource, rest⟩ := Run.foldlM_append_eq_ok ran
  obtain ⟨_, noted, notes, step⟩ := Run.bind_eq_ok.mp atSource
  obtain ⟨outcome, tried, attempted, recorded⟩ := Run.bind_eq_ok.mp step
  obtain rfl := (recordMade_eq_ok recorded).2
  have first := ((Run.Evolves.foldlM (steps before (List.subset_append_left _ _))
    trivial).succeeds _ _ _ tree inFront).1
  have second := ((stores _).succeeds _ _ _ first.grows.tree notes).1
  have leftTree := isTree_of_attempt second.grows.tree attempted
  have third := ((Run.Evolves.foldlM (steps behind (List.subset_append_right _ _))
    trivial).succeeds _ _ _ leftTree rest).1
  exact ⟨noted, outcome, left, first.trans second, attempted, third, fun cause failed =>
    mem_failures_of_made (mem_failures_of_recordMade recorded cause failed) rest⟩

theorem triesBeside_atOnce (tree : files.IsTree)
    (ran : job.makeAtOnce index report (before ++ source :: behind) files = .ok made after) :
    job.TriesBeside index source (before ++ behind) made files after := by
  let step (source : SourceFile) :
      Run (SourceFile × Except BatchError (Path × List Diagnostic)) := do
    return (source, ← Run.attempt (job.makeSource index source))
  have steps (listed : List SourceFile) (within : listed ⊆ before ++ behind) :
      ∀ other ∈ listed, Run.Evolves (WrittenAt (· ∈ job.placesBeside source (before ++ behind)))
        (fun _ => True) (step other) :=
    fun other member =>
      (evolves_makeOther index (within member)).attempt.bind fun _ _ => .pure trivial
  obtain ⟨results, reached, mapped, folded⟩ := Run.bind_eq_ok.mp ran
  have untouched : after = reached := by
    refine Run.foldlM_invariant (fun _ later => later = reached) ?_ rfl folded
    rintro _ _ _ _ _ rfl step
    exact (recordMade_eq_ok step).2
  obtain ⟨first, middle, result, left, last, inFront, atSource, rest, rfl⟩ :=
    Run.mapM_append_eq_ok mapped
  obtain ⟨outcome, tried, attempted, returned⟩ := Run.bind_eq_ok.mp atSource
  cases returned
  obtain ⟨_, _, next, _, -, recorded, restRecorded⟩ := Run.foldlM_append_eq_ok folded
  have start := ((Run.Evolves.mapM (steps before (List.subset_append_left _ _))).succeeds
    _ _ _ tree inFront).1
  have leftTree := isTree_of_attempt start.grows.tree attempted
  have finish := ((Run.Evolves.mapM (steps behind (List.subset_append_right _ _))).succeeds
    _ _ _ leftTree rest).1
  exact ⟨middle, outcome, left, start, attempted, untouched ▸ finish, fun cause failed =>
    mem_failures_of_recorded (mem_failures_of_recordMade recorded cause failed) restRecorded⟩

theorem triesBeside_makeAll (tree : files.IsTree)
    (ran : job.makeAll index report (before ++ source :: behind) files = .ok made after) :
    job.TriesBeside index source (before ++ behind) made files after := by
  unfold makeAll at ran
  split at ran
  · exact triesBeside_atOnce tree ran
  · exact triesBeside_inTurn tree ran

end

/-! ### Without a kept tree -/

/-- The cause of a failure is that no usable tree of a source was kept. -/
def LacksTree (job : Job) (source : SourceFile) (cause : BatchError) : Prop :=
  (∃ fault, cause = .noKeptTree (job.area.tree source.relative) fault) ∨
    ∃ fault, cause = .unusableTree source.relative fault

theorem makeSource_of_unusable {files : FileSystem} {source : SourceFile} (index : MemberIndex)
    (unusable : ∀ place text, files.locate (job.area.tree source.relative) = .ok place →
      files.textAt? place = some text → ∃ fault, Node.readProgram text = .error fault) :
    ∃ cause, job.makeSource index source files = .error cause files ∧
      job.LacksTree source cause := by
  unfold makeSource
  rw [Run.get_bind_apply]
  cases found : files.read (job.area.tree source.relative) with
  | error fault => exact ⟨_, rfl, .inl ⟨fault, rfl⟩⟩
  | ok text =>
      obtain ⟨place, located, stands⟩ := FileSystem.place_of_read found
      obtain ⟨fault, isFault⟩ := unusable place text located stands
      refine ⟨_, Run.bind_of_ok (show Run.ofExcept _ (.ok text) files = .ok text files from rfl)
        |>.trans ?_, .inr ⟨fault, rfl⟩⟩
      dsimp only
      rw [isFault]
      rfl

/-- A source that cannot be analysed and of which no usable tree was kept before the run
fails in both phases.  Beside the places of the other sources and of the work area all
files are as they were before the run, the output of the source among them.  For this
the place of its tree must be its own. -/
theorem convert_withoutTree (function : job.parsing = Parsing.ofFunction parse)
    {files after : FileSystem} (tree : files.IsTree) {before behind : List SourceFile}
    {source : SourceFile} {cause : BatchError} {report : RunReport}
    (chosen : job.selected files = .ok (before ++ source :: behind) files)
    (cannot : job.CannotAnalyse files before source cause)
    (ran : job.convert files = .ok report after)
    (own : ∀ path ∈ job.placesBeside source (before ++ behind), ∀ place,
      after.locate (job.area.tree source.relative) = .ok place → after.locate path ≠ .ok place)
    (unkept : ∀ place text, after.locate (job.area.tree source.relative) = .ok place →
      files.textAt? place = some text → ∃ fault, Node.readProgram text = .error fault) :
    (∃ second, job.LacksTree source second ∧
      [(source.relative, cause), (source.relative, second)].Sublist report.failures) ∧
    ∀ place, (∀ path ∈ job.placesBeside source (before ++ behind),
      after.locate path ≠ .ok place) → after.textAt? place = files.textAt? place := by
  have phases := (Run.bind_of_ok chosen).symm.trans ran
  obtain ⟨⟨index, analysed⟩, middle, analyses, making⟩ := Run.bind_eq_ok.mp phases
  dsimp only at making
  obtain ⟨first, known⟩ := analyseAll_beside function tree analyses cannot
  have carried : job.makeAll index analysed (before ++ source :: behind) =
      job.makeAll index {} (before ++ source :: behind) >>=
        fun made => pure (analysed.combine made) := by
    rw [← map_eq_pure_bind, ← makeAll_combine, RunReport.combine_empty]
  rw [carried] at making
  obtain ⟨made, _, makes, returned⟩ := Run.bind_eq_ok.mp making
  cases returned
  obtain ⟨start, outcome, left, second, attempted, third, noted⟩ :=
    triesBeside_makeAll first.grows.tree makes
  have reached := first.trans second
  have grown : Grows (fun _ => True) start after :=
    (((growsTo_makeSource index source).attempt.succeeds _ _ _ second.grows.tree
      attempted).1.mono fun _ _ => trivial).trans third.grows
  -- when the source is to be made, its tree is still the one from before the run
  have unusable : ∀ place text, start.locate (job.area.tree source.relative) = .ok place →
      start.textAt? place = some text → ∃ fault, Node.readProgram text = .error fault := by
    intro place text located stands
    have atLast := FileSystem.locate_of_grows grown located
    refine unkept place text atLast ?_
    rw [← reached.textAt?_of_later grown fun path isPlace => own path isPlace place atLast, stands]
  obtain ⟨failure, fails, lacks⟩ := makeSource_of_unusable index unusable
  obtain ⟨rfl, rfl⟩ := EStateM.Result.ok.inj (attempted.symm.trans (Run.attempt_of_error fails))
  refine ⟨⟨failure, lacks, ?_⟩, (reached.trans third).elsewhere⟩
  exact (List.singleton_sublist.mpr known).append (List.singleton_sublist.mpr (noted failure rfl))

/-! ### A broken source of two -/

/-- A job over two sources that goes on behind failures; its parser accepts the second. -/
def goingOn : Job :=
  { pairJob ["B.as"] false with configuration := { options := { stopAtError := false } } }

def brokenSource : SourceFile :=
  ⟨⟨"src/A.as"⟩, "A.as"⟩

def soundSource : SourceFile :=
  ⟨⟨"src/B.as"⟩, "B.as"⟩

/-- What a step came to, if it did not fail. -/
def value? {Value : Type} : EStateM.Result BatchError FileSystem Value → Option Value
  | .ok value _ => some value
  | .error _ _ => none

theorem eq_ok_of_isSome {Value : Type} {result : EStateM.Result BatchError FileSystem Value}
    (found : (value? result).isSome) :
    ∃ value, value? result = some value ∧ result = .ok value (filesAfter result) := by
  cases result with
  | ok value files => exact ⟨value, rfl, rfl⟩
  | error cause files => cases found

theorem eq_error_of_isNone {Value : Type} {result : EStateM.Result BatchError FileSystem Value}
    (failed : (value? result).isNone) : ∃ cause, result = .error cause (filesAfter result) := by
  cases result with
  | ok value files => cases failed
  | error cause files => exact ⟨cause, rfl⟩

theorem goingOn_selected {files : FileSystem} (holds : HoldsPair files) :
    goingOn.selected files = .ok pairSources files := by
  rw [selected_apply rfl]
  exact sources_eq_ok.mpr ⟨holds.sources, rfl⟩

theorem goingOn_convert {files : FileSystem} (holds : HoldsPair files) :
    goingOn.convert files = goingOn.convertOnly pairSources files :=
  Run.bind_of_ok (goingOn_selected holds)

/-- The first source is not parsed, whatever else the files hold. -/
theorem goingOn_cannotAnalyse {files : FileSystem}
    (notes : (value? (goingOn.noteProgress brokenSource files)).isSome)
    (fails : (value? (goingOn.analyseSource brokenSource
      (filesAfter (goingOn.noteProgress brokenSource files)))).isNone) :
    ∃ cause, goingOn.CannotAnalyse files [] brokenSource cause := by
  obtain ⟨_, -, noted⟩ := eq_ok_of_isSome notes
  obtain ⟨cause, failed⟩ := eq_error_of_isNone fails
  exact ⟨cause, ({}, {}), files, _, _, rfl, noted, failed⟩

theorem convert_withoutTree_pair :
    ∃ cause second report after,
      goingOn.CannotAnalyse pairFiles [] brokenSource cause ∧
      goingOn.convert pairFiles = .ok report after ∧
      [("A.as", cause), ("A.as", second)].Sublist report.failures ∧
      goingOn.LacksTree brokenSource second ∧
      after.textAt? ["out", "A.ts"] = none ∧ after.textAt? ["out", "B.ts"] = some "" := by
  have holds : HoldsPair pairFiles := pairFiles_holds
  have ⟨tree, unkept, unmade, notes, fails⟩ :
      pairFiles.IsTree ∧ pairFiles.textAt? ["tmp", "ast", "A.json"] = none ∧
      pairFiles.textAt? ["out", "A.ts"] = none ∧
      (value? (goingOn.noteProgress brokenSource pairFiles)).isSome ∧
      (value? (goingOn.analyseSource brokenSource
        (filesAfter (goingOn.noteProgress brokenSource pairFiles)))).isNone := by
    rw [pairFiles_eq]
    decide +kernel
  obtain ⟨cause, cannot⟩ := goingOn_cannotAnalyse notes fails
  -- one evaluation of the run gives all that is needed of it
  have ⟨runs, kept, beside, written⟩ :
      (value? (goingOn.convertOnly pairSources pairFiles)).isSome ∧
      FileSystem.locate (filesAfter (goingOn.convertOnly pairSources pairFiles))
        (goingOn.area.tree brokenSource.relative) = .ok ["tmp", "ast", "A.json"] ∧
      (∀ path ∈ goingOn.placesBeside brokenSource ([] ++ [soundSource]),
        ∀ place ∈ [["tmp", "ast", "A.json"], ["out", "A.ts"]],
          FileSystem.locate (filesAfter (goingOn.convertOnly pairSources pairFiles)) path ≠
            .ok place) ∧
      FileSystem.textAt? (filesAfter (goingOn.convertOnly pairSources pairFiles)) ["out", "B.ts"] =
        some "" := by
    rw [pairFiles_eq]
    decide +kernel
  obtain ⟨report, -, ran⟩ := eq_ok_of_isSome runs
  obtain ⟨⟨second, lacks, failures⟩, elsewhere⟩ := convert_withoutTree rfl tree
    (goingOn_selected holds) cannot ((goingOn_convert holds).trans ran)
    (fun path isPlace place located => by
      obtain rfl := Except.ok.inj (kept.symm.trans located)
      exact beside path isPlace _ (by simp))
    (fun place text located stands => by
      obtain rfl := Except.ok.inj (kept.symm.trans located)
      exact nomatch unkept.symm.trans stands)
  refine ⟨cause, second, report, _, cannot, (goingOn_convert holds).trans ran, failures, lacks,
    ?_, written⟩
  rw [elsewhere _ fun path isPlace => beside path isPlace _ (by simp)]
  exact unmade

/-- The files with the tree that an earlier run has kept for the first source. -/
def staleFiles : FileSystem :=
  .ofFiles [("src/A.as", ""), ("src/B.as", ""), ("out/A.ts", "mine"),
    ("tmp/ast/A.json", "\x7b\"type\":\"Program\"\x7d")]

theorem staleFiles_eq : staleFiles = { entries :=
    ⟨[(["src"], .directory), (["src", "A.as"], .file ""), (["src", "B.as"], .file ""),
      (["out"], .directory), (["out", "A.ts"], .file "mine"), (["tmp"], .directory),
      (["tmp", "ast"], .directory),
      (["tmp", "ast", "A.json"], .file "\x7b\"type\":\"Program\"\x7d")]⟩ } := by
  decide +kernel

/-- With a tree from an earlier run, the source that cannot be analysed is made all the
same. -/
theorem convert_fromStaleTree :
    ∃ cause report after,
      goingOn.CannotAnalyse staleFiles [] brokenSource cause ∧
      goingOn.convert staleFiles = .ok report after ∧
      report.failures.map Prod.fst = ["A.as"] ∧
      staleFiles.textAt? ["out", "A.ts"] = some "mine" ∧
      after.textAt? ["out", "A.ts"] = some "" := by
  have holds : HoldsPair staleFiles := by
    rw [staleFiles_eq]
    decide
  have ⟨notes, fails, stood, runs, failed, overwritten⟩ :
      (value? (goingOn.noteProgress brokenSource staleFiles)).isSome ∧
      (value? (goingOn.analyseSource brokenSource
        (filesAfter (goingOn.noteProgress brokenSource staleFiles)))).isNone ∧
      staleFiles.textAt? ["out", "A.ts"] = some "mine" ∧
      (value? (goingOn.convertOnly pairSources staleFiles)).isSome ∧
      (value? (goingOn.convertOnly pairSources staleFiles)).map
        (fun report => report.failures.map Prod.fst) = some ["A.as"] ∧
      FileSystem.textAt? (filesAfter (goingOn.convertOnly pairSources staleFiles))
        ["out", "A.ts"] = some "" := by
    rw [staleFiles_eq]
    decide +kernel
  obtain ⟨cause, cannot⟩ := goingOn_cannotAnalyse notes fails
  obtain ⟨report, isReport, ran⟩ := eq_ok_of_isSome runs
  rw [isReport] at failed
  exact ⟨cause, report, _, cannot, (goingOn_convert holds).trans ran, Option.some.inj failed,
    stood, overwritten⟩

end Job

end ScriptBridge

import ScriptBridge.Proofs.Batch.KeptTree
import ScriptBridge.Proofs.Batch.Separate
import ScriptBridge.Proofs.Batch.Storing
import ScriptBridge.Proofs.Qualification.OwnEntry

/-!
# What a run stores

The first phase stores for each source its checkpoint, its normalized text and its tree, and
then the index.  The second phase stores for each source its checkpoint and its code.  A run
that ends at failures comes to an end if and only if all of that can be stored.
-/

namespace ScriptBridge

open FileSystem (Grows Within)

open ScriptBridge.Path (HasOneOf writtenExtensions)

theorem Path.HasExtension.getLast?_eq {name extension : String}
    (ends : Path.HasExtension name extension) (isSome : extension ≠ "") :
    name.toList.getLast? = extension.toList.getLast? := by
  obtain ⟨stem, nameEq⟩ := ends
  obtain ⟨first, rest, extensionEq⟩ := List.exists_cons_of_ne_nil
    (fun isNil => isSome (String.toList_inj.mp (isNil.trans rfl)))
  rw [nameEq, List.getLast?_append, extensionEq]
  simp [List.getLast?_cons]

/-- What a file is called that is kept for a source. -/
theorem Path.hasExtension_join {base path : Path} {extension : String}
    (written : extension ∈ writtenExtensions)
    (named : Path.isName (base.join (path.withExtension extension)).lastPiece = true) :
    Path.HasExtension (base.join (path.withExtension extension)).lastPiece extension := by
  rw [Path.lastPiece_join] at named ⊢
  exact Path.hasExtension_withExtension (Path.isExtension_of_mem written).1 named

namespace Job

variable {job : Job} {parse : String → String → Except ParseFailure String}
variable {files later left : FileSystem} {source : SourceFile} {sources : List SourceFile}

/-- With a run that ends at failures, what is tried goes on only if it succeeds. -/
theorem attempted_eq_ok_iff {Value Final : Type}
    (stops : job.configuration.options.stopAtError = true) {phase : Phase} {report : RunReport}
    {step : Run Value} {finish : Option Value × RunReport → Run Final} {final : Final} :
    (do
      let outcome ← Run.attempt step
      finish (← job.applyPolicy phase source report outcome)) files = .ok final left ↔
      ∃ value middle, step files = .ok value middle ∧
        finish (some value, report) middle = .ok final left := by
  constructor
  · intro done
    obtain ⟨outcome, tried, attempted, rest⟩ := Run.bind_eq_ok.mp done
    obtain ⟨decided, settled, applied, rest⟩ := Run.bind_eq_ok.mp rest
    rw [attempt_apply] at attempted
    unfold applyPolicy at applied
    split at attempted
    · next stepped =>
      cases attempted
      cases applied
      exact ⟨_, _, stepped, rest⟩
    · cases attempted
      rw [stops] at applied
      cases applied
  · rintro ⟨value, middle, stepped, rest⟩
    have attempted : Run.attempt step files = .ok (.ok value) middle := by
      rw [attempt_apply, stepped]
    rw [Run.bind_of_ok attempted]
    exact rest

/-! ### The first phase -/

/-- What the first phase makes of a source: its normalized text, the tree as the parser has
written it, and the tree. -/
structure Analysis where
  normalized : String
  written : String
  tree : Node

/-- What the first phase makes of a source, if it can be read and parsed. -/
def analysis? (parse : String → String → Except ParseFailure String) (files : FileSystem)
    (source : SourceFile) : Option Analysis := do
  let text ← (files.read source.path).toOption
  let normalized := Normalize.normalize text
  let written ← (parse normalized source.relative).toOption
  let tree ← (Node.readProgram written).toOption
  return ⟨normalized, written, tree⟩

theorem analysis?_eq_some {analysis : Analysis} :
    analysis? parse files source = some analysis ↔
      ∃ text, files.read source.path = .ok text ∧
        analysis.normalized = Normalize.normalize text ∧
        parse analysis.normalized source.relative = .ok analysis.written ∧
        Node.readProgram analysis.written = .ok analysis.tree := by
  have toOption {Cause Value : Type} {outcome : Except Cause Value} {value : Value} :
      outcome.toOption = some value ↔ outcome = .ok value := by
    cases outcome <;> simp [Except.toOption]
  unfold analysis?
  simp only [Option.bind_eq_bind, Option.bind_eq_some_iff, toOption, Option.pure_def,
    Option.some.injEq]
  constructor
  · rintro ⟨text, read, written, parsed, tree, isTree, rfl⟩
    exact ⟨text, read, rfl, parsed, isTree⟩
  · obtain ⟨normalized, written, tree⟩ := analysis
    rintro ⟨text, read, rfl, parsed, isTree⟩
    exact ⟨text, read, written, parsed, tree, isTree, rfl⟩

/-- What the first phase makes of a source; nothing but an empty tree of one that cannot be read
or parsed. -/
def analysisOf (parse : String → String → Except ParseFailure String) (files : FileSystem)
    (source : SourceFile) : Analysis :=
  (analysis? parse files source).getD ⟨"", "", ⟨{}, .leaf .empty⟩⟩

/-- What stays readable is analysed alike. -/
theorem analysis?_of_read {text : String} (before : files.read source.path = .ok text)
    (after : later.read source.path = .ok text) :
    analysis? parse later source = analysis? parse files source := by
  rw [analysis?, analysis?, before, after]

/-- A source that is analysed has its normalized text and its tree stored. -/
theorem analyseSource_apply (function : job.parsing = Parsing.ofFunction parse)
    {analysis : Analysis} (analysed : analysis? parse files source = some analysis) :
    job.analyseSource source files =
      (do
        Run.store (job.area.text source.relative) analysis.normalized
        Run.store (job.area.tree source.relative) analysis.written
        return analysis.tree) files := by
  obtain ⟨text, read, normalizedEq, parsed, isTree⟩ := analysis?_eq_some.mp analysed
  unfold analyseSource
  rw [Run.bind_of_ok (Run.load_of_read read), ← normalizedEq, function]
  have parses : Run.parsed (Parsing.ofFunction parse analysis.normalized source.relative) =
      pure analysis.written := by
    funext files
    simp only [Run.parsed, Parsing.ofFunction, parsed]
    rfl
  simp only [parses, pure_bind, isTree, ofExcept_ok_bind]

/-- What has been analysed could be read and parsed. -/
theorem exists_analysis (function : job.parsing = Parsing.ofFunction parse) {tree : Node}
    (analysed : job.analyseSource source files = .ok tree left) :
    ∃ analysis, analysis? parse files source = some analysis := by
  obtain ⟨text, middle, loaded, rest⟩ := Run.bind_eq_ok.mp analysed
  obtain ⟨_, further, -, rest⟩ := Run.bind_eq_ok.mp rest
  obtain ⟨written, _, parsed, rest⟩ := Run.bind_eq_ok.mp rest
  obtain ⟨tree, _, read, -⟩ := Run.bind_eq_ok.mp rest
  have readEq : files.read source.path = .ok text := by
    unfold Run.load at loaded
    rw [Run.get_bind_apply] at loaded
    cases found : files.read source.path with
    | ok kept =>
        rw [found] at loaded
        cases loaded
        rfl
    | error cause =>
        rw [found] at loaded
        cases loaded
  have parsedEq : parse (Normalize.normalize text) source.relative = .ok written := by
    rw [function] at parsed
    simp only [Run.parsed, Parsing.ofFunction] at parsed
    cases found : parse (Normalize.normalize text) source.relative with
    | ok kept =>
        rw [found] at parsed
        cases parsed
        rfl
    | error cause =>
        rw [found] at parsed
        cases parsed
  have treeEq : Node.readProgram written = .ok tree := by
    cases found : Node.readProgram written with
    | ok kept =>
        rw [found] at read
        cases read
        rfl
    | error cause =>
        rw [found] at read
        cases read
  exact ⟨⟨_, written, tree⟩, analysis?_eq_some.mpr ⟨text, readEq, rfl, parsedEq, treeEq⟩⟩

/-- The checkpoint of a source. -/
def noteOf (job : Job) (source : SourceFile) : Path × String :=
  (job.area.checkpoint,
    (Checkpoint.mk job.input.text job.output.text source.relative).render)

/-- What the first phase stores for a source. -/
def analysisWrites (job : Job) (analysis : SourceFile → Analysis) (source : SourceFile) :
    List (Path × String) :=
  [job.noteOf source, (job.area.text source.relative, (analysis source).normalized),
    (job.area.tree source.relative, (analysis source).written)]

/-- The index of some sources. -/
def collected (analysis : SourceFile → Analysis) (index : MemberIndex)
    (sources : List SourceFile) : MemberIndex :=
  sources.foldl (fun index source => index.collect (analysis source).tree source.relative) index

/-- What the first phase stores at last. -/
def indexWrites (job : Job) (index : MemberIndex) : List (Path × String) :=
  [(job.area.indexDump, index.render), (job.area.index, index.pretty)]

theorem stores_of_analysisWrites {analysis : SourceFile → Analysis} :
    ∀ stored ∈ job.analysisWrites analysis source,
      Run.Stores (Grows (HasOneOf writtenExtensions)) stored.1 := by
  have inSource {extension : String} (listed : extension ∈ sourceExtensions) (base path : Path) :
      Run.Stores (Grows (HasOneOf writtenExtensions)) (base.join (path.withExtension extension)) :=
    fun text => Run.GrowsTo.mono (growsTo_store_withExtension listed base path text)
      written_of_source
  simp only [analysisWrites, List.forall_mem_cons]
  have named : HasOneOf writtenExtensions (Path.lastPiece ⟨"last.txt"⟩) :=
    ⟨"txt", by decide, "last".toList, by decide⟩
  exact ⟨fun text => growsTo_store_inArea "last.txt" text named,
    inSource (by simp [sourceExtensions]) _ _, inSource (by simp [sourceExtensions]) _ _, nofun⟩

theorem analyseNext_eq_ok_iff (function : job.parsing = Parsing.ofFunction parse)
    (stops : job.configuration.options.stopAtError = true) {analysis : SourceFile → Analysis}
    (steady : ∀ noted, job.noteProgress source files = .ok () noted →
      analysis? parse noted source = some (analysis source))
    {before after : MemberIndex × RunReport} :
    job.analyseNext before source files = .ok after left ↔
      Run.storeAll (job.analysisWrites analysis source) files = .ok () left ∧
        after = (before.1.collect (analysis source).tree source.relative,
          { before.2 with analysed := before.2.analysed + 1 }) := by
  have splits : job.analyseNext before source files = .ok after left ↔
      ∃ noted, job.noteProgress source files = .ok () noted ∧
        ∃ tree, job.analyseSource source noted = .ok tree left ∧
          after = (before.1.collect tree source.relative,
            { before.2 with analysed := before.2.analysed + 1 }) := by
    unfold analyseNext
    rw [Run.bind_eq_ok]
    constructor
    · rintro ⟨_, noted, notes, rest⟩
      obtain ⟨tree, middle, analysed, finished⟩ := (attempted_eq_ok_iff stops).mp rest
      cases finished
      exact ⟨noted, notes, tree, analysed, rfl⟩
    · rintro ⟨noted, notes, tree, analysed, rfl⟩
      exact ⟨(), noted, notes, (attempted_eq_ok_iff stops).mpr ⟨tree, left, analysed, rfl⟩⟩
  rw [splits]
  simp only [analysisWrites, noteOf, Run.storeAll_cons_eq_ok]
  constructor
  · rintro ⟨noted, notes, tree, analysed, rfl⟩
    rw [analyseSource_apply function (steady noted notes)] at analysed
    obtain ⟨_, middle, ofText, rest⟩ := Run.bind_eq_ok.mp analysed
    obtain ⟨_, _, ofTree, returned⟩ := Run.bind_eq_ok.mp rest
    cases returned
    exact ⟨⟨noted, notes, middle, ofText, left, ofTree, rfl⟩, rfl⟩
  · rintro ⟨⟨noted, notes, middle, ofText, _, ofTree, ended⟩, rfl⟩
    cases ended
    refine ⟨noted, notes, (analysis source).tree, ?_, rfl⟩
    rw [analyseSource_apply function (steady noted notes), Run.bind_of_ok ofText,
      Run.bind_of_ok ofTree]
    rfl

/-- Sources are analysed in turn if and only if all can be stored. -/
theorem foldlM_analyseNext_iff (function : job.parsing = Parsing.ofFunction parse)
    (stops : job.configuration.options.stopAtError = true) {analysis : SourceFile → Analysis}
    (tree : files.IsTree)
    (steady : ∀ source ∈ sources, ∀ later, Grows (HasOneOf writtenExtensions) files later →
      analysis? parse later source = some (analysis source))
    {index final : MemberIndex} {report : RunReport} :
    (∃ counted, sources.foldlM job.analyseNext (index, report) files =
        .ok (final, counted) left) ↔
      Run.storeAll (sources.flatMap (job.analysisWrites analysis)) files = .ok () left ∧
        final = collected analysis index sources := by
  induction sources generalizing index report files with
  | nil =>
      constructor
      · rintro ⟨counted, done⟩
        cases done
        exact ⟨rfl, rfl⟩
      · rintro ⟨done, rfl⟩
        cases done
        exact ⟨report, rfl⟩
  | cons source sources ih =>
      obtain ⟨here, behind⟩ := List.forall_mem_cons.mp steady
      have notes (noted : FileSystem) (noting : job.noteProgress source files = .ok () noted) :=
        here noted ((growsTo_noteProgress source).succeeds _ _ _ tree noting).1
      have next (middle : FileSystem)
          (stored : Run.storeAll (job.analysisWrites analysis source) files = .ok () middle) :
          Grows (HasOneOf writtenExtensions) files middle :=
        ((Run.evolves_storeAll stores_of_analysisWrites).succeeds _ _ _ tree stored).1
      have goesOn {middle : FileSystem} (grown : Grows (HasOneOf writtenExtensions) files middle) :=
        @ih middle grown.tree (fun other isOther later further =>
          behind other isOther later (grown.trans further))
      simp only [List.foldlM_cons, Run.bind_eq_ok, List.flatMap_cons, Run.storeAll_append_eq_ok]
      constructor
      · rintro ⟨counted, after, middle, stepped, rest⟩
        obtain ⟨stored, rfl⟩ := (analyseNext_eq_ok_iff function stops notes).mp stepped
        obtain ⟨storedLater, rfl⟩ := (goesOn (next middle stored)).mp ⟨counted, rest⟩
        exact ⟨⟨middle, stored, storedLater⟩, rfl⟩
      · rintro ⟨⟨middle, stored, storedLater⟩, rfl⟩
        have stepped := (@analyseNext_eq_ok_iff _ _ _ middle _ function stops analysis notes
          (index, report) _).mpr ⟨stored, rfl⟩
        obtain ⟨counted, rest⟩ := (goesOn (next middle stored)).mpr ⟨storedLater, rfl⟩
        exact ⟨counted, _, middle, stepped, rest⟩

/-- A source that is a file with no name that a run writes stays readable. -/
theorem steady_of_unwritten (tree : files.IsTree)
    (unwritten : ¬ HasOneOf writtenExtensions source.path.lastPiece) {analysis : Analysis}
    (analysed : analysis? parse files source = some analysis)
    (grown : Grows (HasOneOf writtenExtensions) files later) :
    analysis? parse later source = some analysis := by
  obtain ⟨text, read, -⟩ := analysis?_eq_some.mp analysed
  rw [analysis?_of_read read (FileSystem.read_of_grows tree grown unwritten read), analysed]

/-- If sources are analysed in turn, each of them can be analysed as it is at the beginning. -/
theorem analysed_of_folded (function : job.parsing = Parsing.ofFunction parse)
    (stops : job.configuration.options.stopAtError = true) (tree : files.IsTree)
    (readable : ∀ source ∈ sources, files.isFile source.path = true)
    (unwritten : ∀ source ∈ sources, ¬ HasOneOf writtenExtensions source.path.lastPiece)
    {final : MemberIndex × RunReport}
    (done : sources.foldlM job.analyseNext ({}, {}) files = .ok final left) :
    ∀ source ∈ sources, analysis? parse files source = some (analysisOf parse files source) := by
  intro source isSource
  obtain ⟨before, behind, rfl⟩ := List.append_of_mem isSource
  obtain ⟨value, middle, next, further, inFront, stepped, -⟩ := Run.foldlM_append_eq_ok done
  have grown := ((growsTo_analysed function before).succeeds _ _ _ tree inFront).1
  obtain ⟨_, noted, notes, rest⟩ := Run.bind_eq_ok.mp stepped
  obtain ⟨kept, _, analysed, -⟩ := (attempted_eq_ok_iff stops).mp rest
  have whole := grown.trans ((growsTo_noteProgress source).succeeds _ _ _ grown.tree notes).1
  obtain ⟨text, read⟩ := FileSystem.exists_read (readable source isSource)
  have steady : analysis? parse noted source = analysis? parse files source :=
    analysis?_of_read read (FileSystem.read_of_grows tree whole (unwritten source isSource) read)
  obtain ⟨analysis, analysed⟩ := exists_analysis function analysed
  rw [steady] at analysed
  rw [analysisOf, analysed, Option.getD_some]

theorem keepIndex_eq_ok_iff {index : MemberIndex} :
    job.keepIndex index files = .ok () left ↔
      Run.storeAll (job.indexWrites index) files = .ok () left := by
  unfold keepIndex
  simp only [indexWrites, Run.storeAll_cons_eq_ok, Run.bind_eq_ok]
  constructor
  · rintro ⟨_, middle, dumped, kept⟩
    exact ⟨middle, dumped, left, kept, rfl⟩
  · rintro ⟨middle, dumped, _, kept, ended⟩
    cases ended
    exact ⟨(), middle, dumped, kept⟩

/-- What the first phase stores. -/
def firstWrites (job : Job) (analysis : SourceFile → Analysis) (sources : List SourceFile) :
    List (Path × String) :=
  sources.flatMap (job.analysisWrites analysis) ++
    job.indexWrites (collected analysis {} sources)

/-- The first phase comes to an end if and only if all that it makes can be stored. -/
theorem analyseAll_iff (function : job.parsing = Parsing.ofFunction parse)
    (stops : job.configuration.options.stopAtError = true) {analysis : SourceFile → Analysis}
    (tree : files.IsTree)
    (unwritten : ∀ source ∈ sources, ¬ HasOneOf writtenExtensions source.path.lastPiece)
    (analysed : ∀ source ∈ sources, analysis? parse files source = some (analysis source))
    {index : MemberIndex} :
    (∃ report, job.analyseAll sources files = .ok (index, report) left) ↔
      Run.storeAll (job.firstWrites analysis sources) files = .ok () left ∧
        index = collected analysis {} sources := by
  have folds {index : MemberIndex} {middle : FileSystem} :=
    @foldlM_analyseNext_iff job parse files middle sources function stops analysis tree
      (fun source isSource later grown =>
        steady_of_unwritten tree (unwritten source isSource) (analysed source isSource) grown)
      {} index {}
  rw [firstWrites, Run.storeAll_append_eq_ok]
  unfold analyseAll
  constructor
  · rintro ⟨report, done⟩
    obtain ⟨⟨found, counted⟩, middle, folded, rest⟩ := Run.bind_eq_ok.mp done
    obtain ⟨_, _, kept, returned⟩ := Run.bind_eq_ok.mp rest
    cases returned
    obtain ⟨stored, rfl⟩ := folds.mp ⟨_, folded⟩
    exact ⟨⟨middle, stored, keepIndex_eq_ok_iff.mp kept⟩, rfl⟩
  · rintro ⟨⟨middle, stored, kept⟩, rfl⟩
    obtain ⟨counted, folded⟩ := folds.mpr ⟨stored, rfl⟩
    refine ⟨counted, Run.bind_eq_ok.mpr ⟨_, middle, folded, ?_⟩⟩
    exact Run.bind_eq_ok.mpr ⟨(), left, keepIndex_eq_ok_iff.mpr kept, rfl⟩

/-! ### Kept trees -/

/-- The extensions of what the second phase writes. -/
def makeExtensions : List String :=
  [targetExtension, "txt"]

/-- A file that is a kept tree has no extension that the second phase writes. -/
theorem not_makeExtensions_tree {area : WorkArea} {relative : String} (tree : files.IsTree)
    (there : files.isFile (area.tree relative) = true) :
    ¬ HasOneOf makeExtensions (area.tree relative).lastPiece := by
  have named := FileSystem.named_of_file tree there
  have isTree : Path.HasExtension (area.tree relative).lastPiece "json" :=
    Path.hasExtension_join (by decide) named
  have isJson := isTree.getLast?_eq (by decide)
  rintro ⟨extension, listed, ends⟩
  simp only [makeExtensions, List.mem_cons, List.not_mem_nil, or_false] at listed
  rcases listed with rfl | rfl
  · rw [ends.getLast?_eq (by decide)] at isJson
    exact absurd isJson (by decide)
  · rw [ends.getLast?_eq (by decide)] at isJson
    exact absurd isJson (by decide)

/-- In the second phase kept trees stay as they are, and so does the code of a source. -/
theorem codeOf_of_grows (tree : files.IsTree)
    (there : files.isFile (job.area.tree source.relative) = true)
    (grown : Grows (HasOneOf makeExtensions) files later) (index : MemberIndex) :
    job.codeOf index later source = job.codeOf index files source := by
  obtain ⟨written, read⟩ := FileSystem.exists_read there
  have apart := not_makeExtensions_tree tree there
  have readLater := FileSystem.read_of_grows tree grown apart read
  unfold codeOf
  rw [read, readLater]

/-! ### The second phase -/

/-- What the second phase stores for a source. -/
def makeWrites (job : Job) (target : SourceFile → Path) (code : SourceFile → Generated)
    (source : SourceFile) : List (Path × String) :=
  [job.noteOf source, (target source, (code source).text)]

theorem makeNext_eq_ok_iff (stops : job.configuration.options.stopAtError = true)
    {index : MemberIndex} {target : SourceFile → Path} {code : SourceFile → Generated}
    (ready : ∀ noted, job.noteProgress source files = .ok () noted →
      job.codeOf index noted source = .ok (code source) ∧ job.target noted source = target source)
    {report : RunReport} :
    (∃ next, job.makeNext index report source files = .ok next left) ↔
      Run.storeAll (job.makeWrites target code source) files = .ok () left := by
  have makes (noted : FileSystem) (notes : job.noteProgress source files = .ok () noted) :
      job.makeSource index source noted =
        (do Run.store (target source) (code source).text
            return (target source, (code source).diagnostics)) noted := by
    obtain ⟨generated, aimed⟩ := ready noted notes
    rw [makeSource_apply, generated, ← aimed]
    rfl
  unfold makeNext recordMade
  simp only [makeWrites, noteOf, Run.storeAll_cons_eq_ok]
  constructor
  · rintro ⟨next, made⟩
    obtain ⟨_, noted, notes, rest⟩ := Run.bind_eq_ok.mp made
    obtain ⟨value, middle, stepped, finished⟩ := (attempted_eq_ok_iff stops).mp rest
    rw [makes noted notes] at stepped
    obtain ⟨_, _, stored, returned⟩ := Run.bind_eq_ok.mp stepped
    cases returned
    cases finished
    exact ⟨noted, notes, left, stored, rfl⟩
  · rintro ⟨noted, notes, _, stored, ended⟩
    cases ended
    refine ⟨_, Run.bind_eq_ok.mpr ⟨(), noted, notes, (attempted_eq_ok_iff stops).mpr
      ⟨(target source, (code source).diagnostics), left, ?_, rfl⟩⟩⟩
    rw [makes noted notes, Run.bind_of_ok stored]
    rfl

theorem stores_target (files : FileSystem) (source : SourceFile) :
    Run.Stores (Grows (HasOneOf makeExtensions)) (job.target files source) :=
  fun text => Run.GrowsTo.store text fun named =>
    ⟨targetExtension, by decide, hasExtension_targetPath named⟩

theorem stores_note (source : SourceFile) :
    Run.Stores (Grows (HasOneOf makeExtensions)) (job.noteOf source).1 := by
  refine fun text => Run.GrowsTo.store text fun _ => ?_
  rw [noteOf, WorkArea.checkpoint, Path.lastPiece_join]
  exact ⟨"txt", by decide, "last".toList, by decide⟩

/-- In the second phase only checkpoints and code are written. -/
theorem evolves_made (index : MemberIndex) (report : RunReport) (source : SourceFile) :
    Run.Evolves (Grows (HasOneOf makeExtensions)) (fun _ => True)
      (job.makeNext index report source) :=
  evolves_makeNext (stores_note source)
    (evolves_makeSource index fun files => stores_target files source) report

/-- Sources are made in turn if and only if all their code can be stored. -/
theorem foldlM_makeNext_iff (stops : job.configuration.options.stopAtError = true)
    {index : MemberIndex} {target : SourceFile → Path} {code : SourceFile → Generated}
    (tree : files.IsTree)
    (kept : ∀ source ∈ sources, files.isFile (job.area.tree source.relative) = true)
    (generated : ∀ source ∈ sources, job.codeOf index files source = .ok (code source))
    (aimed : ∀ source ∈ sources, ∀ later, Within files later → Within later left →
      job.target later source = target source) {report : RunReport} :
    (∃ made, sources.foldlM (job.makeNext index) report files = .ok made left) ↔
      Run.storeAll (sources.flatMap (job.makeWrites target code)) files = .ok () left := by
  induction sources generalizing report files with
  | nil =>
      exact ⟨fun ⟨_, done⟩ => by cases done; rfl, fun done => by cases done; exact ⟨report, rfl⟩⟩
  | cons source sources ih =>
      obtain ⟨keptHere, kept⟩ := List.forall_mem_cons.mp kept
      obtain ⟨generatedHere, generated⟩ := List.forall_mem_cons.mp generated
      obtain ⟨aimedHere, aimed⟩ := List.forall_mem_cons.mp aimed
      have noting {noted : FileSystem} (notes : job.noteProgress source files = .ok () noted) :
          Grows (HasOneOf makeExtensions) files noted :=
        ((stores_note source _).succeeds _ _ _ tree notes).1
      -- what the step needs to know, once it is known that it leads to the end
      have ready {noted : FileSystem} (notes : job.noteProgress source files = .ok () noted)
          (inside : Within noted left) :
          job.codeOf index noted source = .ok (code source) ∧
            job.target noted source = target source :=
        ⟨(codeOf_of_grows tree keptHere (noting notes) index).trans generatedHere,
          aimedHere noted (noting notes).within inside⟩
      have goesOn {middle : FileSystem} (grown : Grows (HasOneOf makeExtensions) files middle)
          {report : RunReport} :=
        @ih middle grown.tree (fun other isOther => grown.within.isFile (kept other isOther))
          (fun other isOther => (codeOf_of_grows tree (kept other isOther) grown index).trans
            (generated other isOther))
          (fun other isOther later below =>
            aimed other isOther later (grown.within.trans below)) report
      simp only [List.foldlM_cons, Run.bind_eq_ok, List.flatMap_cons, Run.storeAll_append_eq_ok]
      constructor
      · rintro ⟨made, next, middle, stepped, rest⟩
        have grown := ((evolves_made index report source).succeeds _ _ _ tree stepped).1
        have further := ((Run.Evolves.foldlM
          (fun report other _ _ => evolves_made index report other) trivial).succeeds
            _ _ _ grown.tree rest).1
        obtain ⟨_, noted, notes, fromNoted⟩ := Run.bind_eq_ok.mp stepped
        have making : Run.Evolves (Grows (HasOneOf makeExtensions)) (fun _ => True)
            (do job.recordMade report source (← Run.attempt (job.makeSource index source))) :=
          .bind (evolves_makeSource index fun files => stores_target files source).attempt
            fun outcome _ => evolves_recordMade report source outcome
        have made' := (making.succeeds _ _ _ (noting notes).tree fromNoted).1
        have stored := (makeNext_eq_ok_iff stops fun again notesAgain => by
          obtain ⟨-, rfl⟩ := EStateM.Result.ok.inj (notesAgain.symm.trans notes)
          exact ready notes (made'.trans further).within).mp ⟨next, stepped⟩
        exact ⟨middle, stored, (goesOn grown).mp ⟨made, rest⟩⟩
      · rintro ⟨middle, stored, storedLater⟩
        have both := stored
        simp only [makeWrites, noteOf, Run.storeAll_cons_eq_ok] at both
        obtain ⟨noted, notes, _, housed, ended⟩ := both
        cases ended
        have notedTree := (noting notes).tree
        have house := (Run.store_spec notedTree housed).1
        have behind := (Run.storeAll_spec house.tree storedLater).1
        have isReady := ready notes (house.within.trans behind.within)
        have grown : Grows (HasOneOf makeExtensions) files middle := by
          have stores := @stores_target job noted source (code source).text
          rw [isReady.2] at stores
          exact (noting notes).trans (stores.succeeds _ _ _ notedTree housed).1
        obtain ⟨next, stepped⟩ := (@makeNext_eq_ok_iff job files middle source stops index target
          code (fun again notesAgain => by
            obtain ⟨-, rfl⟩ := EStateM.Result.ok.inj (notesAgain.symm.trans notes)
            exact isReady) report).mpr stored
        obtain ⟨made, rest⟩ := (goesOn grown).mpr storedLater
        exact ⟨made, next, middle, stepped, rest⟩

/-- The code of a source; nothing of one from which none is generated. -/
def generatedOf (job : Job) (index : MemberIndex) (files : FileSystem) (source : SourceFile) :
    Generated :=
  (job.codeOf index files source).toOption.getD ⟨"", []⟩

/-- If sources are made in turn, code is generated from each tree that was kept. -/
theorem generated_of_folded (stops : job.configuration.options.stopAtError = true)
    (tree : files.IsTree)
    (kept : ∀ source ∈ sources, files.isFile (job.area.tree source.relative) = true)
    {index : MemberIndex} {report made : RunReport}
    (done : sources.foldlM (job.makeNext index) report files = .ok made left) :
    ∀ source ∈ sources,
      job.codeOf index files source = .ok (job.generatedOf index files source) := by
  intro source isSource
  obtain ⟨before, behind, rfl⟩ := List.append_of_mem isSource
  obtain ⟨value, middle, next, further, inFront, stepped, -⟩ := Run.foldlM_append_eq_ok done
  have grown := ((Run.Evolves.foldlM (fun report other _ _ => evolves_made index report other)
    trivial).succeeds _ _ _ tree inFront).1
  obtain ⟨_, noted, notes, rest⟩ := Run.bind_eq_ok.mp stepped
  obtain ⟨_, _, stored, -⟩ := (attempted_eq_ok_iff stops).mp rest
  have whole := grown.trans ((stores_note source _).succeeds _ _ _ grown.tree notes).1
  rw [makeSource_apply, codeOf_of_grows tree (kept source isSource) whole] at stored
  cases generated : job.codeOf index files source with
  | error cause =>
      rw [generated] at stored
      cases stored
  | ok code =>
      rw [generatedOf, generated]
      rfl

/-! ### Both phases -/

/-- Code goes to the same place while the files grow, if it does in the end. -/
theorem target_between (below : Within files later) (above : Within later left)
    (there : files.pathExists job.input = true)
    (same : job.target left source = job.target files source) :
    job.target later source = job.target files source := by
  have sameLater := below.isFile_eq there
  have sameLeft := (below.trans above).isFile_eq there
  unfold target FileSystem.targetPath at same ⊢
  dsimp only at same ⊢
  rw [sameLeft] at same
  rw [sameLater]
  cases single : files.isFile job.input with
  | false => rfl
  | true =>
      cases early : files.isDirectory job.output with
      | true => rw [below.isDirectory early]
      | false =>
          cases found : later.isDirectory job.output with
          | false => rfl
          | true =>
              rw [single, early, above.isDirectory found] at same
              exact same

/-- What a run stores that has analysed sources and made some of them. -/
structure Converts (job : Job) (analysis : SourceFile → Analysis) (code : SourceFile → Generated)
    (sources made : List SourceFile) (files middle left : FileSystem) : Prop where
  first : Run.storeAll (job.firstWrites analysis sources) files = .ok () middle
  generated : ∀ source ∈ made,
    job.codeOf (collected analysis {} sources) middle source = .ok (code source)
  second :
    Run.storeAll (made.flatMap (job.makeWrites (job.target files) code)) middle = .ok () left

section

variable (function : job.parsing = Parsing.ofFunction parse)
variable (stops : job.configuration.options.stopAtError = true) (sequential : job.parallel = false)
variable (tree : files.IsTree)
variable (unwritten : ∀ source ∈ sources, ¬ HasOneOf writtenExtensions source.path.lastPiece)
variable (there : files.pathExists job.input = true)
variable (aims : ∀ source ∈ sources, job.target left source = job.target files source)

include tree in
theorem kept_of_first {analysis : SourceFile → Analysis} {middle : FileSystem}
    (first : Run.storeAll (job.firstWrites analysis sources) files = .ok () middle) :
    ∀ source ∈ sources, middle.isFile (job.area.tree source.relative) = true := by
  intro source isSource
  have listed : (job.area.tree source.relative, (analysis source).written) ∈
      job.firstWrites analysis sources :=
    List.mem_append_left _ (List.mem_flatMap.mpr ⟨source, isSource, by simp [analysisWrites]⟩)
  exact Run.isFile_of_stored tree first listed

include function stops tree unwritten in
/-- A first phase that comes to an end has analysed all sources. -/
theorem first_of_analyseAll
    (readable : ∀ source ∈ sources, files.isFile source.path = true)
    {index : MemberIndex} {report : RunReport}
    (done : job.analyseAll sources files = .ok (index, report) left) :
    (∀ source ∈ sources, analysis? parse files source = some (analysisOf parse files source)) ∧
      Run.storeAll (job.firstWrites (analysisOf parse files) sources) files = .ok () left ∧
      index = collected (analysisOf parse files) {} sources := by
  obtain ⟨final, middle, folded, -⟩ := Run.bind_eq_ok.mp done
  have analysed := analysed_of_folded function stops tree readable unwritten folded
  exact ⟨analysed, (analyseAll_iff function stops tree unwritten analysed).mp ⟨report, done⟩⟩

include function stops sequential tree unwritten there aims

/-- What a run that comes to an end has stored. -/
theorem converts_of_convertOnly
    (readable : ∀ source ∈ sources, files.isFile source.path = true) {report : RunReport}
    (done : job.convertOnly sources files = .ok report left) :
    (∀ source ∈ sources, analysis? parse files source = some (analysisOf parse files source)) ∧
      ∃ code middle,
        job.Converts (analysisOf parse files) code sources sources files middle left := by
  obtain ⟨⟨index, analysedReport⟩, middle, known, made⟩ := Run.bind_eq_ok.mp done
  obtain ⟨analysed, first, rfl⟩ := first_of_analyseAll function stops tree unwritten readable known
  have grown := (Run.storeAll_spec tree first).1
  have kept := kept_of_first tree first
  simp only [makeAll, sequential] at made
  have generated := generated_of_folded stops grown.tree kept made
  refine ⟨analysed, _, middle, first, generated, ?_⟩
  refine (foldlM_makeNext_iff stops grown.tree kept generated ?_).mp ⟨report, made⟩
  exact fun source isSource later below above =>
    target_between (grown.within.trans below) above there (aims source isSource)

/-- If all can be stored, the run comes to an end. -/
theorem convertOnly_of_converts {analysis : SourceFile → Analysis}
    {code : SourceFile → Generated} {middle : FileSystem}
    (analysed : ∀ source ∈ sources, analysis? parse files source = some (analysis source))
    (converts : job.Converts analysis code sources sources files middle left) :
    ∃ report, job.convertOnly sources files = .ok report left := by
  have grown := (Run.storeAll_spec tree converts.first).1
  obtain ⟨report, known⟩ := (analyseAll_iff function stops tree unwritten analysed).mpr
    ⟨converts.first, rfl⟩
  have aimed (source : SourceFile) (isSource : source ∈ sources) (later : FileSystem)
      (below : Within middle later) (above : Within later left) :
      job.target later source = job.target files source :=
    target_between (grown.within.trans below) above there (aims source isSource)
  obtain ⟨made, done⟩ := (foldlM_makeNext_iff stops grown.tree (kept_of_first tree converts.first)
    converts.generated aimed).mpr converts.second
  refine ⟨made, Run.bind_eq_ok.mpr ⟨_, middle, known, ?_⟩⟩
  simp only [makeAll, sequential]
  exact done

end

/-! ### Trees that are read back -/

/-- The source whose tree is kept last where that of a source is kept.  It is that source, unless
the names of two sources differ in their extensions alone. -/
def keeper? (job : Job) (files : FileSystem) (sources : List SourceFile) (source : SourceFile) :
    Option SourceFile :=
  sources.reverse.find? fun other =>
    files.spelled (job.area.tree other.relative) = files.spelled (job.area.tree source.relative)

theorem exists_keeper (files : FileSystem) (isSource : source ∈ sources) :
    ∃ kept ∈ sources, job.keeper? files sources source = some kept ∧
      files.spelled (job.area.tree kept.relative) =
        files.spelled (job.area.tree source.relative) := by
  cases found : job.keeper? files sources source with
  | none =>
      have missing := List.find?_eq_none.mp found source (List.mem_reverse.mpr isSource)
      simp at missing
  | some kept =>
      have same := List.find?_some found
      exact ⟨kept, List.mem_reverse.mp (List.mem_of_find?_eq_some found), rfl,
        of_decide_eq_true same⟩

/-- A later source keeps its tree, whatever is in front. -/
theorem keeper?_append {kept : SourceFile} {others : List SourceFile}
    (isKeeper : job.keeper? files sources source = some kept) :
    job.keeper? files (others ++ sources) source = some kept := by
  unfold keeper? at isKeeper ⊢
  rw [List.reverse_append, List.find?_append, isKeeper, Option.some_or]

section

variable {analysis : SourceFile → Analysis} {middle : FileSystem}

/-- The kept tree of a source is that of the last source that keeps it there. -/
theorem read_tree_of_first (tree : files.IsTree)
    (first : Run.storeAll (job.firstWrites analysis sources) files = .ok () middle)
    (below : ((Path.mk source.relative).withExtension "json").Descends)
    (isSource : source ∈ sources) {kept : SourceFile}
    (isKeeper : job.keeper? files sources source = some kept) :
    middle.read (job.area.tree source.relative) = .ok (analysis kept).written := by
  obtain ⟨grown, -, texts⟩ := Run.storeAll_spec tree first
  have isFile := kept_of_first tree first source isSource
  refine FileSystem.read_of_isFile isFile ?_
  obtain ⟨directories, name, placeEq⟩ := job.spelled_areaTree files below
  rw [← grown.within.spelled_eq, texts]
  -- nothing else is stored at the place of a kept tree
  have beside (name : String) (descends : (Path.mk name).Descends)
      (short : (Path.mk name).location.length = 1) :
      files.spelled (job.area.root.join ⟨name⟩) ≠
        files.spelled (job.area.tree source.relative) := by
    rw [(files.spelled_join job.area.root descends).2.2, placeEq]
    intro same
    have lengths := congrArg List.length same
    simp [short] at lengths
  have besideIndex : files.storedAt (job.indexWrites (collected analysis {} sources))
      (files.spelled (job.area.tree source.relative)) = none := by
    refine FileSystem.storedAt_eq_none.mpr fun stored listed => ?_
    simp only [indexWrites, List.mem_cons, List.not_mem_nil, or_false] at listed
    rcases listed with rfl | rfl
    · exact beside "analysor.txt" (by decide) (by decide)
    · exact beside "analysor.json" (by decide) (by decide)
  have besideText (other : SourceFile) (isOther : other ∈ sources) :
      files.spelled (job.area.text other.relative) ≠
        files.spelled (job.area.tree source.relative) := by
    have listed : (job.area.text other.relative, (analysis other).normalized) ∈
        job.firstWrites analysis sources :=
      List.mem_append_left _ (List.mem_flatMap.mpr ⟨other, isOther, by simp [analysisWrites]⟩)
    have isText := Run.isFile_of_stored tree first listed
    rw [grown.within.spelled_eq, grown.within.spelled_eq]
    intro same
    have sameName := FileSystem.lastPiece_eq_of_spelled grown.tree isText isFile same
    have ofText : Path.HasExtension (job.area.text other.relative).lastPiece targetExtension :=
      Path.hasExtension_join (by decide) (FileSystem.named_of_file grown.tree isText)
    have ofTree : Path.HasExtension (job.area.tree source.relative).lastPiece "json" :=
      Path.hasExtension_join (by decide) (FileSystem.named_of_file grown.tree isFile)
    have last := ofText.getLast?_eq (by decide)
    rw [sameName, ofTree.getLast?_eq (by decide)] at last
    exact absurd last (by decide)
  have onlyTrees : files.storedAt (sources.flatMap (job.analysisWrites analysis))
      (files.spelled (job.area.tree source.relative)) =
        files.storedAt (sources.map fun other =>
          (job.area.tree other.relative, (analysis other).written))
            (files.spelled (job.area.tree source.relative)) := by
    refine FileSystem.storedAt_flatMap fun other isOther => ?_
    have besideNote : files.spelled (job.noteOf other).1 ≠
        files.spelled (job.area.tree source.relative) :=
      beside "last.txt" (by decide) (by decide)
    simp [analysisWrites, besideNote, besideText other isOther]
  rw [firstWrites, FileSystem.storedAt_append, besideIndex, Option.none_or, onlyTrees,
    FileSystem.storedAt_map]
  unfold keeper? at isKeeper
  rw [isKeeper]
  rfl

/-- The code of a source that comes from a tree. -/
def codeFrom (job : Job) (index : MemberIndex) (source : SourceFile) (tree : Node) :
    Except BatchError Generated :=
  match Settings.generate ⟨job.configuration.options, some index, source.relative⟩ tree with
  | .error diagnostic => .error (.stopped diagnostic)
  | .ok code => .ok code

/-- Behind the first phase the code of a source comes from the tree of its keeper. -/
theorem codeOf_of_first (tree : files.IsTree)
    (first : Run.storeAll (job.firstWrites analysis sources) files = .ok () middle)
    (below : ((Path.mk source.relative).withExtension "json").Descends)
    (isSource : source ∈ sources) {kept : SourceFile}
    (isKeeper : job.keeper? files sources source = some kept) {start : FileSystem}
    (analysed : analysis? parse start kept = some (analysis kept)) (index : MemberIndex) :
    job.codeOf index middle source = job.codeFrom index source (analysis kept).tree := by
  obtain ⟨-, -, -, -, parsed⟩ := analysis?_eq_some.mp analysed
  have read := read_tree_of_first tree first below isSource isKeeper
  unfold codeOf
  rw [read]
  dsimp only
  rw [parsed]
  rfl

/-- The same code comes from a tree with indices that know the same of its superclasses. -/
theorem codeFrom_congr {next : Job} {index other : MemberIndex} {tree : Node}
    (sameOptions : next.configuration.options = job.configuration.options)
    (agree : tree.Extending fun superClass =>
      ∀ member, index.inherits superClass member = other.inherits superClass member) :
    next.codeFrom other source tree = job.codeFrom index source tree := by
  have same := Settings.generate_congr_index
    ⟨job.configuration.options, none, source.relative⟩ agree
  simp only [Settings.withIndex] at same
  unfold codeFrom
  rw [sameOptions, same]

/-! ### What a run leaves -/

/-- Where a run keeps things of its own. -/
def areaPaths (job : Job) (sources : List SourceFile) : List Path :=
  [job.area.checkpoint, job.area.indexDump, job.area.index] ++
    sources.flatMap fun source => [job.area.text source.relative, job.area.tree source.relative]

theorem mem_areaPaths_of_first {stored : Path × String}
    (listed : stored ∈ job.firstWrites analysis sources) : stored.1 ∈ job.areaPaths sources := by
  rcases List.mem_append.mp listed with ofSource | ofIndex
  · obtain ⟨source, isSource, ofSource⟩ := List.mem_flatMap.mp ofSource
    simp only [analysisWrites, List.mem_cons, List.not_mem_nil, or_false] at ofSource
    rcases ofSource with rfl | rfl | rfl
    · exact List.mem_append_left _ List.mem_cons_self
    · exact List.mem_append_right _ (List.mem_flatMap.mpr ⟨source, isSource, by simp⟩)
    · exact List.mem_append_right _ (List.mem_flatMap.mpr ⟨source, isSource, by simp⟩)
  · simp only [indexWrites, List.mem_cons, List.not_mem_nil, or_false] at ofIndex
    rcases ofIndex with rfl | rfl <;> simp [areaPaths]

theorem areaPaths_subset {others : List SourceFile} (within : sources ⊆ others) :
    job.areaPaths sources ⊆ job.areaPaths others := by
  intro path isPath
  rcases List.mem_append.mp isPath with ofRun | ofSource
  · exact List.mem_append_left _ ofRun
  · obtain ⟨source, isSource, ofSource⟩ := List.mem_flatMap.mp ofSource
    exact List.mem_append_right _ (List.mem_flatMap.mpr ⟨source, within isSource, ofSource⟩)

/-- A place where a run keeps nothing of its own. -/
def Outside (job : Job) (files : FileSystem) (sources : List SourceFile)
    (location : FileLocation) : Prop :=
  ∀ path ∈ job.areaPaths sources, files.spelled path ≠ location

variable {code : SourceFile → Generated} {location : FileLocation}

theorem storedAt_first (outside : job.Outside files sources location) :
    files.storedAt (job.firstWrites analysis sources) location = none :=
  FileSystem.storedAt_eq_none.mpr fun _ listed => outside _ (mem_areaPaths_of_first listed)

/-- Where code is stored. -/
def codeWrites (job : Job) (files : FileSystem) (code : SourceFile → Generated)
    (sources : List SourceFile) : List (Path × String) :=
  sources.map fun source => (job.target files source, (code source).text)

theorem storedAt_makes (outside : job.Outside files sources location) {start : FileSystem}
    (made : List SourceFile) :
    files.storedAt (made.flatMap (job.makeWrites (job.target start) code)) location =
      files.storedAt (job.codeWrites start code made) location := by
  have beside : files.spelled job.area.checkpoint ≠ location :=
    outside _ (List.mem_append_left _ List.mem_cons_self)
  refine FileSystem.storedAt_flatMap fun source _ => ?_
  simp [makeWrites, noteOf, beside]

theorem Converts.grows {made : List SourceFile} {left : FileSystem} (tree : files.IsTree)
    (converts : job.Converts analysis code sources made files middle left) :
    Grows (fun _ => True) files left :=
  have first := (Run.storeAll_spec tree converts.first).1
  (first.mono fun _ _ => trivial).trans
    ((Run.storeAll_spec first.tree converts.second).1.mono fun _ _ => trivial)

/-- Outside the work area a run leaves the code of the sources it has made, and what was there. -/
theorem Converts.textAt? {made : List SourceFile} {left : FileSystem} (tree : files.IsTree)
    (converts : job.Converts analysis code sources made files middle left)
    (outside : job.Outside files sources location) :
    left.textAt? location =
      (files.storedAt (job.codeWrites files code made) location).or (files.textAt? location) := by
  obtain ⟨grown, -, texts⟩ := Run.storeAll_spec tree converts.first
  obtain ⟨-, -, textsLater⟩ := Run.storeAll_spec grown.tree converts.second
  rw [textsLater, texts, storedAt_first outside, Option.none_or,
    ← FileSystem.storedAt_congr grown.within.working, storedAt_makes outside]

/-- What a run keeps and makes is there at its end. -/
theorem Converts.isFile {left : FileSystem} (tree : files.IsTree)
    (converts : job.Converts analysis code sources sources files middle left)
    (isSource : source ∈ sources) :
    (∀ path ∈ job.areaPaths sources, left.isFile path = true) ∧
      left.isFile (job.target files source) = true := by
  have grown := (Run.storeAll_spec tree converts.first).1
  have further := (Run.storeAll_spec grown.tree converts.second).1.within
  have inFirst {path : Path} {text : String}
      (listed : (path, text) ∈ job.firstWrites analysis sources) : left.isFile path = true :=
    further.isFile (Run.isFile_of_stored tree converts.first listed)
  have ofAnalysis {path : Path} {text : String} {other : SourceFile} (isOther : other ∈ sources)
      (listed : (path, text) ∈ job.analysisWrites analysis other) : left.isFile path = true :=
    inFirst (List.mem_append_left _ (List.mem_flatMap.mpr ⟨other, isOther, listed⟩))
  have ofIndex {path : Path} {text : String}
      (listed : (path, text) ∈ job.indexWrites (collected analysis {} sources)) :
      left.isFile path = true :=
    inFirst (List.mem_append_right _ listed)
  constructor
  · intro path isPath
    rcases List.mem_append.mp isPath with ofRun | ofSource
    · simp only [List.mem_cons, List.not_mem_nil, or_false] at ofRun
      rcases ofRun with isCheckpoint | isDump | isIndex
      · rw [isCheckpoint]
        exact @ofAnalysis _ (job.noteOf source).2 _ isSource List.mem_cons_self
      · rw [isDump]
        exact @ofIndex _ (collected analysis {} sources).render List.mem_cons_self
      · rw [isIndex]
        exact @ofIndex _ (collected analysis {} sources).pretty (by simp [indexWrites])
    · obtain ⟨other, isOther, ofSource⟩ := List.mem_flatMap.mp ofSource
      simp only [List.mem_cons, List.not_mem_nil, or_false] at ofSource
      rcases ofSource with isText | isTree
      · rw [isText]
        exact @ofAnalysis _ (analysis other).normalized _ isOther (by simp [analysisWrites])
      · rw [isTree]
        exact @ofAnalysis _ (analysis other).written _ isOther (by simp [analysisWrites])
  · have listed : (job.target files source, (code source).text) ∈
        sources.flatMap (job.makeWrites (job.target files) code) :=
      List.mem_flatMap.mpr ⟨source, isSource, by simp [makeWrites]⟩
    exact Run.isFile_of_stored grown.tree converts.second listed

end

end Job

end ScriptBridge

import ScriptBridge.Batch.Make
import ScriptBridge.Proofs.Files.Name
import ScriptBridge.Proofs.MemberIndex

/-!
# Growth of a work area

A step of a run lets a file tree only grow, whether it succeeds or fails, as long
as its parser touches no files.  What it writes has the extensions of written
files.  The text that was stored last is the text that is read.
-/

namespace ScriptBridge

open FileSystem (Grows WrittenAt)

/-- A way for file trees to change in steps. -/
class FileSystem.Evolution (Change : FileSystem → FileSystem → Prop) : Prop where
  refl {files : FileSystem} : files.IsTree → Change files files
  trans {files middle after : FileSystem} :
    Change files middle → Change middle after → Change files after
  tree {files after : FileSystem} : Change files after → after.IsTree

/-- A way for file trees to change in which any directories may be made. -/
class FileSystem.FreeEvolution (Change : FileSystem → FileSystem → Prop) : Prop extends
    FileSystem.Evolution Change where
  makeDirectories {files : FileSystem} (path : Path) :
    files.IsTree → Change files (files.makeDirectories path).1

instance (fresh : String → Prop) : FileSystem.FreeEvolution (Grows fresh) where
  refl := .refl
  trans := .trans
  tree := Grows.tree
  makeDirectories path tree := FileSystem.grows_makeDirectories tree path

instance (allowed : Path → Prop) : FileSystem.FreeEvolution (WrittenAt allowed) where
  refl := .refl
  trans := .trans
  tree written := written.grows.tree
  makeDirectories path tree := .makeDirectories tree path

namespace Run

variable {First Value : Type} {fresh : String → Prop}
variable {Change : FileSystem → FileSystem → Prop}

/-- A step that changes trees in one way, and gives values with a property. -/
structure Evolves (Change : FileSystem → FileSystem → Prop) (result : Value → Prop)
    (step : Run Value) : Prop where
  succeeds : ∀ files value after, files.IsTree → step files = .ok value after →
    Change files after ∧ result value
  fails : ∀ files cause after, files.IsTree → step files = .error cause after →
    Change files after

/-- Storing any text at a path changes trees in one way. -/
def Stores (Change : FileSystem → FileSystem → Prop) (path : Path) : Prop :=
  ∀ text, Evolves Change (fun _ => True) (Run.store path text)

/-- A step that only lets trees grow, and gives values with a property. -/
abbrev GrowsTo (fresh : String → Prop) (result : Value → Prop) (step : Run Value) : Prop :=
  Evolves (Grows fresh) result step

theorem get_bind_apply (next : FileSystem → Run Value) (files : FileSystem) :
    (get >>= next) files = next files files := rfl

theorem bind_eq_ok {step : Run First} {next : First → Run Value} {files after : FileSystem}
    {value : Value} :
    (step >>= next) files = .ok value after ↔
      ∃ first middle, step files = .ok first middle ∧ next first middle = .ok value after := by
  change EStateM.bind step next files = _ ↔ _
  unfold EStateM.bind
  cases step files <;> simp

theorem bind_of_ok {step : Run First} {next : First → Run Value} {files middle : FileSystem}
    {first : First} (stepped : step files = .ok first middle) :
    (step >>= next) files = next first middle := by
  change EStateM.bind step next files = _
  unfold EStateM.bind
  rw [stepped]

theorem bind_of_error {step : Run First} {next : First → Run Value} {files after : FileSystem}
    {cause : BatchError} (stepped : step files = .error cause after) :
    (step >>= next) files = .error cause after := by
  change EStateM.bind step next files = _
  unfold EStateM.bind
  rw [stepped]

theorem bind_eq_error {step : Run First} {next : First → Run Value} {files after : FileSystem}
    {cause : BatchError} :
    (step >>= next) files = .error cause after ↔
      step files = .error cause after ∨
        ∃ first middle, step files = .ok first middle ∧ next first middle = .error cause after := by
  change EStateM.bind step next files = _ ↔ _
  unfold EStateM.bind
  cases step files <;> simp

/-- A step that looks at the files changes them as what follows does. -/
theorem Evolves.get_bind {result : Value → Prop} {next : FileSystem → Run Value}
    (evolves : ∀ files, Evolves Change result (next files)) :
    Evolves Change result (get >>= next) where
  succeeds files value after tree equal := (evolves files).succeeds files value after tree equal
  fails files cause after tree equal := (evolves files).fails files cause after tree equal

theorem Evolves.attempt {result : Value → Prop} {step : Run Value}
    (evolves : Evolves Change result step) :
    Evolves Change (fun outcome => ∀ value, outcome = .ok value → result value)
      (Run.attempt step) where
  succeeds files outcome after tree equal := by
    unfold Run.attempt at equal
    split at equal
    · next stepped =>
      cases equal
      obtain ⟨grown, holds⟩ := evolves.succeeds _ _ _ tree stepped
      exact ⟨grown, fun value same => Except.ok.inj same ▸ holds⟩
    · next stepped =>
      cases equal
      exact ⟨evolves.fails _ _ _ tree stepped, fun value same => nomatch same⟩
  fails files cause after tree equal := by
    unfold Run.attempt at equal
    split at equal <;> cases equal

section

variable [FileSystem.Evolution Change]

theorem Evolves.pure {result : Value → Prop} {value : Value} (holds : result value) :
    Evolves Change result (pure value : Run Value) where
  succeeds files found after tree equal := by
    cases equal
    exact ⟨FileSystem.Evolution.refl tree, holds⟩
  fails files cause after tree equal := by cases equal

theorem Evolves.throw {result : Value → Prop} (cause : BatchError) :
    Evolves Change result (throw cause : Run Value) where
  succeeds files found after tree equal := by cases equal
  fails files cause after tree equal := by
    cases equal
    exact FileSystem.Evolution.refl tree

theorem Evolves.ofExcept {Cause : Type} {result : Value → Prop} {failure : Cause → BatchError}
    {outcome : Except Cause Value} (holds : ∀ value, outcome = .ok value → result value) :
    Evolves Change result (Run.ofExcept failure outcome) := by
  cases outcome with
  | ok value => exact .pure (holds value rfl)
  | error cause => exact .throw _

theorem Evolves.bind {known : First → Prop} {result : Value → Prop} {step : Run First}
    {next : First → Run Value} (first : Evolves Change known step)
    (second : ∀ value, known value → Evolves Change result (next value)) :
    Evolves Change result (step >>= next) where
  succeeds files value after tree equal := by
    obtain ⟨found, middle, stepped, continued⟩ := bind_eq_ok.mp equal
    obtain ⟨grows, holds⟩ := first.succeeds files found middle tree stepped
    obtain ⟨further, holds⟩ := (second found holds).succeeds middle value after
      (FileSystem.Evolution.tree grows) continued
    exact ⟨FileSystem.Evolution.trans grows further, holds⟩
  fails files cause after tree equal := by
    rcases bind_eq_error.mp equal with stepped | ⟨found, middle, stepped, continued⟩
    · exact first.fails files cause after tree stepped
    · obtain ⟨grows, holds⟩ := first.succeeds files found middle tree stepped
      exact FileSystem.Evolution.trans grows ((second found holds).fails middle cause after
        (FileSystem.Evolution.tree grows) continued)

theorem Evolves.load (path : Path) : Evolves Change (fun _ => True) (Run.load path) :=
  .get_bind fun _ => .ofExcept fun _ _ => trivial

theorem Evolves.foldlM {Item : Type} {result : Value → Prop} {step : Value → Item → Run Value}
    {items : List Item}
    (steps : ∀ value, ∀ item ∈ items, result value → Evolves Change result (step value item))
    {start : Value} (holds : result start) :
    Evolves Change result (items.foldlM step start) := by
  induction items generalizing start with
  | nil => exact .pure holds
  | cons item rest ih =>
      rw [List.foldlM_cons]
      refine (steps start item List.mem_cons_self holds).bind fun value known => ih ?_ known
      exact fun value other member => steps value other (List.mem_cons_of_mem _ member)

theorem Evolves.mapM {Item : Type} {step : Item → Run Value} {items : List Item}
    (steps : ∀ item ∈ items, Evolves Change (fun _ => True) (step item)) :
    Evolves Change (fun _ => True) (items.mapM step) := by
  induction items with
  | nil => exact .pure trivial
  | cons item rest ih =>
      rw [List.mapM_cons]
      refine (steps item List.mem_cons_self).bind fun _ _ => ?_
      exact (ih fun other member => steps other (List.mem_cons_of_mem _ member)).bind
        fun _ _ => .pure trivial

/-- A parser that only looks at its text writes nothing. -/
theorem Evolves.parsed (parse : String → String → Except ParseFailure String)
    (text file : String) :
    Evolves Change (fun _ => True) (Run.parsed (Parsing.ofFunction parse text file)) := by
  unfold Run.parsed Parsing.ofFunction
  cases parse text file with
  | ok value => exact .pure trivial
  | error cause => exact .throw _

/-! ### Stored files -/

/-- Directories that were made stay, even if a later one cannot be made. -/
theorem makeParent_apply {path parent : Path} (named : path.parent? = some parent)
    (inner : parent.isEmpty = false) (files : FileSystem) :
    Run.makeParent path files =
      match (files.makeDirectories parent).2 with
      | .ok () => .ok () (files.makeDirectories parent).1
      | .error cause => .error (.noDirectory parent cause) (files.makeDirectories parent).1 := by
  unfold Run.makeParent
  simp only [named, inner, Bool.false_eq_true, if_false, get_bind_apply]
  generalize files.makeDirectories parent = outcome
  obtain ⟨made, _ | _⟩ := outcome <;> rfl

omit [FileSystem.Evolution Change] in
theorem Evolves.makeParent [FileSystem.FreeEvolution Change] (path : Path) :
    Evolves Change (fun _ => True) (Run.makeParent path) := by
  cases named : path.parent? with
  | none =>
      simp only [Run.makeParent, named]
      exact .pure trivial
  | some parent =>
      cases inner : parent.isEmpty with
      | true =>
          simp only [Run.makeParent, named, inner]
          exact .pure trivial
      | false =>
          constructor
          · intro files value after tree equal
            rw [makeParent_apply named inner] at equal
            split at equal <;> cases equal
            exact ⟨FileSystem.FreeEvolution.makeDirectories parent tree, trivial⟩
          · intro files cause after tree equal
            rw [makeParent_apply named inner] at equal
            split at equal <;> cases equal
            exact FileSystem.FreeEvolution.makeDirectories parent tree

/-- What storing a file does, once its directory is there. -/
theorem change_write_apply (path : Path) (text : String) (files : FileSystem) :
    Run.change (.unwritableFile path) (fun files => files.write path text) files =
      match files.write path text with
      | .ok after => .ok () after
      | .error cause => .error (.unwritableFile path cause) files := by
  unfold Run.change
  simp only [get_bind_apply]
  cases files.write path text <;> rfl

omit [FileSystem.Evolution Change] in
/-- Storing a file changes trees as writing it does. -/
theorem Evolves.store [FileSystem.FreeEvolution Change] {path : Path} {text : String}
    (writes : ∀ files after, files.IsTree → files.write path text = .ok after →
      Change files after) :
    Evolves Change (fun _ => True) (Run.store path text) := by
  refine (Evolves.makeParent path).bind fun _ _ => ?_
  constructor
  · intro files value after tree equal
    rw [change_write_apply] at equal
    split at equal
    · next written =>
      cases equal
      exact ⟨writes _ _ tree written, trivial⟩
    · cases equal
  · intro files cause after tree equal
    rw [change_write_apply] at equal
    split at equal
    · cases equal
    · cases equal
      exact FileSystem.Evolution.refl tree

end

theorem GrowsTo.mono {wider : String → Prop} {result : Value → Prop} {step : Run Value}
    (grows : GrowsTo fresh result step) (within : ∀ name, fresh name → wider name) :
    GrowsTo wider result step where
  succeeds files value after tree equal :=
    have ⟨grown, holds⟩ := grows.succeeds files value after tree equal
    ⟨grown.mono within, holds⟩
  fails files cause after tree equal := (grows.fails files cause after tree equal).mono within

theorem GrowsTo.store {path : Path} (text : String)
    (named : Path.isName path.lastPiece = true → fresh path.lastPiece) :
    GrowsTo fresh (fun _ => True) (Run.store path text) := by
  refine Evolves.store fun files after tree written => ?_
  refine FileSystem.grows_write tree (fun name last isName => ?_) written
  rw [Path.getLast?_pieces, Option.some.injEq] at last
  exact last ▸ named (last ▸ isName)

theorem load_of_read {path : Path} {text : String} {files : FileSystem}
    (found : files.read path = .ok text) : Run.load path files = .ok text files := by
  unfold Run.load
  rw [get_bind_apply, found]
  rfl

/-- A stored file is read as it was stored. -/
theorem read_of_store {path : Path} {text : String} {files after : FileSystem}
    (tree : files.IsTree) (stored : Run.store path text files = .ok () after) :
    after.read path = .ok text := by
  obtain ⟨_, made, parent, changed⟩ := bind_eq_ok.mp stored
  have grown : Grows (fun _ => True) files made :=
    ((Evolves.makeParent path).succeeds files _ made tree parent).1
  rw [change_write_apply] at changed
  split at changed
  · next written =>
    cases changed
    have further : Grows (fun _ => True) made after :=
      FileSystem.grows_write grown.tree (fun _ _ _ => trivial) written
    exact FileSystem.read_of_write further written
  · cases changed

end Run

theorem Run.stores_writtenAt {allowed : Path → Prop} {path : Path} (isAllowed : allowed path) :
    Run.Stores (WrittenAt allowed) path :=
  fun _ => .store fun _ _ tree written => .write isAllowed tree written

/-! ### The phases -/

namespace Job

open ScriptBridge.Path (HasOneOf writtenExtensions)

/-- The extensions of what is kept or made of a source. -/
def sourceExtensions : List String :=
  [targetExtension, "json"]

theorem sourceExtensions_subset : sourceExtensions ⊆ writtenExtensions := by
  decide

theorem written_of_source (name : String) (named : HasOneOf sourceExtensions name) :
    HasOneOf writtenExtensions name :=
  have ⟨extension, listed, ends⟩ := named
  ⟨extension, sourceExtensions_subset listed, ends⟩

theorem growsTo_store_withExtension {extension : String}
    (listed : extension ∈ sourceExtensions) (base path : Path) :
    Run.Stores (Grows (HasOneOf sourceExtensions)) (base.join (path.withExtension extension)) := by
  refine fun text => Run.GrowsTo.store text fun named => ?_
  rw [Path.lastPiece_join] at named ⊢
  have isExtension := (Path.isExtension_of_mem (sourceExtensions_subset listed)).1
  exact ⟨extension, listed, Path.hasExtension_withExtension isExtension named⟩

variable {job : Job} {parse : String → String → Except ParseFailure String}

section

variable {Change : FileSystem → FileSystem → Prop} [FileSystem.Evolution Change]

/-- A source changes trees as storing its normalized text and its tree does. -/
theorem evolves_analyseSource (function : job.parsing = Parsing.ofFunction parse)
    (source : SourceFile) (ofText : Run.Stores Change (job.area.text source.relative))
    (ofTree : Run.Stores Change (job.area.tree source.relative)) :
    Run.Evolves Change (fun _ => True) (job.analyseSource source) := by
  unfold analyseSource
  refine .bind (.load _) fun text _ => ?_
  refine .bind (ofText _) fun _ _ => ?_
  rw [function]
  refine .bind (.parsed parse _ _) fun written _ => ?_
  refine .bind (.ofExcept fun _ _ => trivial) fun tree _ => ?_
  refine .bind (ofTree _) fun _ _ => ?_
  exact .pure trivial

theorem evolves_applyPolicy {Value : Type} {result : Value → Prop}
    (phase : Phase) (source : SourceFile) (report : RunReport) {outcome : Except BatchError Value}
    (holds : ∀ value, outcome = .ok value → result value) :
    Run.Evolves Change (fun decided => ∀ value, decided.1 = some value → result value)
      (job.applyPolicy phase source report outcome) := by
  unfold applyPolicy
  split
  · exact .pure fun found same => holds found (by rw [← Option.some.inj same])
  · split
    · exact .throw _
    · exact .pure fun found same => nomatch same

/-- Whatever a source adds, the index stays proper. -/
theorem evolves_analyseNext {source : SourceFile}
    (notes : Run.Stores Change job.area.checkpoint)
    (analyses : Run.Evolves Change (fun _ => True) (job.analyseSource source))
    (before : MemberIndex × RunReport) (proper : before.1.IsProper) :
    Run.Evolves Change (fun after => after.1.IsProper) (job.analyseNext before source) := by
  unfold analyseNext
  refine .bind (notes _) fun _ _ => ?_
  refine .bind analyses.attempt fun outcome holds => ?_
  refine .bind (evolves_applyPolicy .analyse source before.2 holds) fun decided _ => ?_
  split
  · exact .pure (MemberIndex.isProper_collect proper _ _)
  · exact .pure proper

theorem evolves_keepIndex (dumps : Run.Stores Change job.area.indexDump)
    (keeps : Run.Stores Change job.area.index) (index : MemberIndex) :
    Run.Evolves Change (fun _ => True) (job.keepIndex index) :=
  .bind (dumps _) fun _ _ => keeps _

/-- A source is made from its kept tree, and only its target is written. -/
theorem evolves_makeSource (index : MemberIndex) {source : SourceFile}
    (writes : ∀ files : FileSystem,
      Run.Stores Change (files.targetPath job.input job.output source.relative)) :
    Run.Evolves Change (fun _ => True) (job.makeSource index source) := by
  unfold makeSource
  refine .get_bind fun files => ?_
  refine .bind (.ofExcept fun _ _ => trivial) fun written _ => ?_
  refine .bind (.ofExcept fun _ _ => trivial) fun tree _ => ?_
  refine .bind (.ofExcept fun _ _ => trivial) fun generated _ => ?_
  exact .bind (writes files _) fun _ _ => .pure trivial

theorem evolves_recordMade (report : RunReport) (source : SourceFile)
    (outcome : Except BatchError (Path × List Diagnostic)) :
    Run.Evolves Change (fun _ => True) (job.recordMade report source outcome) := by
  have decides : Run.Evolves Change _ (job.applyPolicy .make source report outcome) :=
    evolves_applyPolicy .make source report fun _ _ => trivial
  unfold recordMade
  refine decides.bind fun decided _ => ?_
  split <;> exact .pure trivial

theorem evolves_makeNext {index : MemberIndex} {source : SourceFile}
    (notes : Run.Stores Change job.area.checkpoint)
    (makes : Run.Evolves Change (fun _ => True) (job.makeSource index source))
    (report : RunReport) :
    Run.Evolves Change (fun _ => True) (job.makeNext index report source) := by
  unfold makeNext
  refine .bind (notes _) fun _ _ => ?_
  exact .bind makes.attempt fun outcome _ => evolves_recordMade report source outcome

end

theorem growsTo_analyseSource (function : job.parsing = Parsing.ofFunction parse)
    (source : SourceFile) :
    Run.GrowsTo (HasOneOf sourceExtensions) (fun _ => True) (job.analyseSource source) :=
  evolves_analyseSource function source
    (growsTo_store_withExtension (by simp [sourceExtensions]) _ _)
    (growsTo_store_withExtension (by simp [sourceExtensions]) _ _)

theorem growsTo_store_inArea (name text : String)
    (written : HasOneOf writtenExtensions (Path.lastPiece ⟨name⟩)) :
    Run.GrowsTo (HasOneOf writtenExtensions) (fun _ => True)
      (Run.store (job.area.root.join ⟨name⟩) text) := by
  refine Run.GrowsTo.store text fun _ => ?_
  rwa [Path.lastPiece_join]

theorem growsTo_noteProgress (source : SourceFile) :
    Run.GrowsTo (HasOneOf writtenExtensions) (fun _ => True) (job.noteProgress source) :=
  growsTo_store_inArea _ _ ⟨"txt", by decide, "last".toList, by decide⟩

theorem growsTo_analyseNext (function : job.parsing = Parsing.ofFunction parse)
    (before : MemberIndex × RunReport) (source : SourceFile) (proper : before.1.IsProper) :
    Run.GrowsTo (HasOneOf writtenExtensions) (fun after => after.1.IsProper)
      (job.analyseNext before source) :=
  evolves_analyseNext
    (fun _ => growsTo_store_inArea _ _ ⟨"txt", by decide, "last".toList, by decide⟩)
    ((growsTo_analyseSource function source).mono written_of_source) before proper

theorem growsTo_keepIndex (index : MemberIndex) :
    Run.GrowsTo (HasOneOf writtenExtensions) (fun _ => True) (job.keepIndex index) :=
  evolves_keepIndex
    (fun _ => growsTo_store_inArea _ _ ⟨"txt", by decide, "analysor".toList, by decide⟩)
    (fun _ => growsTo_store_inArea _ _ ⟨"json", by decide, "analysor".toList, by decide⟩) index

theorem growsTo_analysed (function : job.parsing = Parsing.ofFunction parse)
    (sources : List SourceFile) :
    Run.GrowsTo (HasOneOf writtenExtensions) (fun after => after.1.IsProper)
      (sources.foldlM job.analyseNext ({}, {})) :=
  .foldlM (fun before source _ proper => growsTo_analyseNext function before source proper)
    MemberIndex.isProper_empty

theorem growsTo_analyseAll (function : job.parsing = Parsing.ofFunction parse)
    (sources : List SourceFile) :
    Run.GrowsTo (HasOneOf writtenExtensions) (fun after => after.1.IsProper)
      (job.analyseAll sources) :=
  (growsTo_analysed function sources).bind fun _ proper =>
    (growsTo_keepIndex _).bind fun _ _ => .pure proper

/-- Code goes to places with the extension of code: both get it last. -/
theorem hasExtension_targetPath {files : FileSystem} {input output : Path} {relative : String}
    (named : Path.isName (files.targetPath input output relative).lastPiece = true) :
    Path.HasExtension (files.targetPath input output relative).lastPiece targetExtension := by
  have isExtension : Path.IsExtension targetExtension :=
    (Path.isExtension_of_mem (by decide)).1
  unfold FileSystem.targetPath at named ⊢
  simp only at named ⊢
  split at named
  · next single =>
    rw [if_pos single]
    exact Path.hasExtension_withExtension isExtension named
  · next inside =>
    rw [if_neg inside, Path.lastPiece_join]
    rw [Path.lastPiece_join] at named
    exact Path.hasExtension_withExtension isExtension named

theorem growsTo_makeSource (index : MemberIndex) (source : SourceFile) :
    Run.GrowsTo (HasOneOf sourceExtensions) (fun _ => True) (job.makeSource index source) := by
  exact evolves_makeSource index fun files text => Run.GrowsTo.store _ fun named =>
    ⟨targetExtension, by decide, hasExtension_targetPath named⟩

theorem growsTo_makeNext (index : MemberIndex) (report : RunReport) (source : SourceFile) :
    Run.GrowsTo (HasOneOf writtenExtensions) (fun _ => True)
      (job.makeNext index report source) :=
  evolves_makeNext
    (fun _ => growsTo_store_inArea _ _ ⟨"txt", by decide, "last".toList, by decide⟩)
    ((growsTo_makeSource index source).mono written_of_source) report

end Job

end ScriptBridge

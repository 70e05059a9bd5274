import ScriptBridge.Proofs.Files.Within
import Mathlib.Data.List.Pairwise
import Mathlib.Data.Set.Basic

/-!
# Separate sources

The code of separate sources goes to places of which none lies above another one or in
the work area.  Whatever has been made of some of them, what comes of another one is told
by the files as they were in the beginning: its kept tree is read as it was, its code
goes where it would have gone, and the same files are in its way.
-/

namespace ScriptBridge

namespace FileSystem

variable {files after : FileSystem} {path : Path}

/-! ### Looking at paths in a later tree -/

theorem walk_of_directories
    (known : ∀ location, after.entry? location = some .directory →
      files.entry? location = some .directory) {start found : FileLocation} {pieces : List String}
    (walked : after.walk start pieces = .ok found) : files.walk start pieces = .ok found := by
  induction pieces generalizing start with
  | nil => exact walked
  | cons piece rest ih =>
      unfold walk at walked ⊢
      split at walked
      · cases walked
      · cases walked
      · next directory =>
        rw [known _ directory]
        exact ih walked

/-- Where no directories are new, none is found that was not there. -/
theorem isDirectory_of_directories (sameWorking : after.working = files.working)
    (known : ∀ location, after.entry? location = some .directory →
      files.entry? location = some .directory)
    (directory : after.isDirectory path = true) : files.isDirectory path = true := by
  rw [isDirectory_iff] at directory ⊢
  unfold lookUp locate at directory ⊢
  split at directory
  · cases directory
  · next location located =>
    split at located
    · cases located
    · next isSome =>
      have sameStart : after.startOf path = files.startOf path := by
        rw [startOf, startOf, sameWorking]
      rw [if_neg isSome, ← sameStart, walk_of_directories known located]
      dsimp only at directory ⊢
      cases stands : after.entry? location with
      | none =>
          rw [stands] at directory
          cases directory
      | some entry =>
          rw [stands] at directory
          cases directory
          rw [known _ stands]

/-- What is read stands in a directory. -/
theorem room_of_read (tree : files.IsTree) (plain : files.IsPlain path) {text : String}
    (found : files.read path = .ok text) :
    files.entry? (files.spelled path).dropLast = some .directory := by
  rw [read_plain tree plain] at found
  by_contra missing
  rw [approachTo, approach, if_neg missing] at found
  cases barred : files.isBarred path <;>
    cases blocked : files.isBlocked (files.spelled path).dropLast <;>
    simp [barred, blocked] at found

/-! ### Storing at plain paths -/

theorem isBlocked_congr {location : FileLocation}
    (same : ∀ inner, inner <+: location → (after.HasFile inner ↔ files.HasFile inner)) :
    after.isBlocked location = files.isBlocked location := by
  rw [Bool.eq_iff_iff, isBlocked_iff, isBlocked_iff]
  exact exists_congr fun inner => and_congr_right fun isInner => same inner isInner

theorem not_prefix_dropLast {location : FileLocation} (isSome : location ≠ []) :
    ¬ location <+: location.dropLast := by
  intro isInner
  have shorter := isInner.length_le
  have isSome := List.length_pos_iff.mpr isSome
  rw [List.length_dropLast] at shorter
  omega

/-- A file is stored if no file is in the way and no directory in its place. -/
theorem store_plain (tree : files.IsTree) (plain : files.IsPlain path) (text : String)
    (clear : files.clearanceTo path = .ok ())
    (free : files.entry? (files.spelled path) ≠ some .directory) :
    ∃ after, Run.store path text files = .ok () after ∧ Grows (fun _ => True) files after ∧
      ∀ inner, after.entry? inner =
        if inner = files.spelled path then some (.file text)
        else if inner <+: (files.spelled path).dropLast then some .directory
        else files.entry? inner := by
  obtain ⟨made, grown, opened, parent⟩ := makeParent_plain tree plain
  rw [clear] at parent
  obtain ⟨room, reached⟩ := opened.approachTo_eq tree plain grown clear
  have longer := not_prefix_dropLast plain.spelled_ne_nil
  have free : made.entry? (files.spelled path) ≠ some .directory := by
    rw [opened, if_neg fun isInner => longer isInner.2]
    exact free
  have written := write_plain grown.tree (plain.later tree grown).1 text
  rw [reached, spelled_of_grows grown] at written
  dsimp only at written
  rw [if_neg free] at written
  have stored := Run.store_of_made text parent
  rw [written] at stored
  have grows : Run.GrowsTo (fun _ => True) (fun _ => True) (Run.store path text) :=
    .store text fun _ => trivial
  refine ⟨_, stored, (grows.succeeds _ _ _ tree stored).1, fun inner => ?_⟩
  rw [entry?_put _ _ plain.spelled_ne_nil, opened]
  simp only [clear, true_and]

/-- What is needed for storing a file. -/
theorem clear_of_store (tree : files.IsTree) (plain : files.IsPlain path) {text : String}
    (stored : Run.store path text files = .ok () after) :
    files.clearanceTo path = .ok () ∧ files.entry? (files.spelled path) ≠ some .directory := by
  obtain ⟨made, grown, opened, parent⟩ := makeParent_plain tree plain
  cases clearance : files.clearanceTo path with
  | error cause =>
      rw [clearance] at parent
      rw [Run.store_of_not_made text parent] at stored
      cases stored
  | ok done =>
      rw [clearance] at parent
      refine ⟨rfl, fun stands => ?_⟩
      have isMade : made.entry? (files.spelled path) = some .directory := by
        rw [opened]
        split
        · rfl
        · exact stands
      obtain ⟨room, reached⟩ := opened.approachTo_eq tree plain grown clearance
      have written := write_plain grown.tree (plain.later tree grown).1 text
      rw [reached, spelled_of_grows grown] at written
      dsimp only at written
      rw [if_pos isMade] at written
      rw [Run.store_of_made text parent, written] at stored
      cases stored

end FileSystem

namespace Job

open FileSystem (Grows)

/-- The code of a source is generated, and can be put where it goes. -/
structure Delivers (job : Job) (index : MemberIndex) (files : FileSystem) (source : SourceFile)
    (code : Generated) : Prop where
  generated : job.codeOf index files source = .ok code
  clear : files.clearanceTo (job.target files source) = .ok ()
  free : files.entry? (files.spelled (job.target files source)) ≠ some .directory

/-- What comes of a source, with the files as they are. -/
def outcome (job : Job) (index : MemberIndex) (files : FileSystem) (source : SourceFile) :
    Except BatchError (Path × List Diagnostic) :=
  match job.codeOf index files source with
  | .error cause => .error cause
  | .ok code =>
      match files.clearanceTo (job.target files source) with
      | .error cause =>
          .error (.noDirectory ((job.target files source).parent?.getD ⟨""⟩) cause)
      | .ok () =>
          if files.entry? (files.spelled (job.target files source)) = some .directory then
            .error (.unwritableFile (job.target files source) .isADirectory)
          else .ok (job.target files source, code.diagnostics)

/-- Of the places where the code of two sources goes neither lies above the other. -/
def Apart (job : Job) (files : FileSystem) (first second : SourceFile) : Prop :=
  ¬ files.spelled (job.target files first) <+: files.spelled (job.target files second) ∧
    ¬ files.spelled (job.target files second) <+: files.spelled (job.target files first)

instance (job : Job) (files : FileSystem) : Std.Symm (job.Apart files) :=
  ⟨fun _ _ apart => And.symm apart⟩

/-- Sources below the input whose code goes to separate places, outside the work area, for an
input that is there and a work area where checkpoints can be stored.  Neither the work area
nor where the code goes is reached by going up from a directory that is missing. -/
structure Separate (job : Job) (files : FileSystem) (sources : List SourceFile) : Prop where
  tree : files.IsTree
  input : files.pathExists job.input = true
  area : files.Climbs job.area.root
  stored : ∃ text after, Run.store job.area.checkpoint text files = .ok () after
  below : ∀ source ∈ sources, ((Path.mk source.relative).withExtension "json").Descends
  targets : ∀ source ∈ sources, files.IsPlain (job.target files source)
  outside : ∀ source ∈ sources,
    ¬ files.spelled job.area.root <+: files.spelled (job.target files source)
  apart : sources.Pairwise (job.Apart files)

/-- What has changed when some sources have been started and checkpoints have been stored:
there may be directories on the way to where things go, and the code of those sources. -/
structure Amid (job : Job) (index : MemberIndex) (files : FileSystem)
    (started : Set SourceFile) (after : FileSystem) : Prop where
  grown : Grows (fun _ => True) files after
  directories : ∀ location, after.entry? location = some .directory →
    files.entry? location = some .directory ∨ location <+: files.spelled job.area.root ∨
      ∃ source ∈ started, ∃ code, job.codeOf index files source = .ok code ∧
        location <+: (files.spelled (job.target files source)).dropLast
  texts : ∀ location text, after.textAt? location = some text →
    files.textAt? location = some text ∨ location = files.spelled job.area.checkpoint ∨
      ∃ source ∈ started, ∃ code, job.Delivers index files source code ∧
        location = files.spelled (job.target files source) ∧ text = code.text

variable {job : Job} {index : MemberIndex} {files after : FileSystem}
variable {sources : List SourceFile} {source other : SourceFile} {code : Generated}
variable {started more : Set SourceFile}

theorem Amid.begin (tree : files.IsTree) : job.Amid index files ∅ files where
  grown := .refl tree
  directories _ found := .inl found
  texts _ _ found := .inl found

theorem Amid.mono (amid : job.Amid index files started after) (within : started ⊆ more) :
    job.Amid index files more after where
  grown := amid.grown
  directories location found := (amid.directories location found).imp_right fun rest =>
    rest.imp_right fun ⟨source, isStarted, known⟩ => ⟨source, within isStarted, known⟩
  texts location text found := (amid.texts location text found).imp_right fun rest =>
    rest.imp_right fun ⟨source, isStarted, known⟩ => ⟨source, within isStarted, known⟩

theorem spelled_checkpoint (job : Job) (files : FileSystem) :
    files.spelled job.area.checkpoint = files.spelled job.area.root ++ ["last.txt"] :=
  (files.spelled_join job.area.root (by decide)).2.2

theorem spelled_areaTree (job : Job) (files : FileSystem)
    (descends : ((Path.mk source.relative).withExtension "json").Descends) :
    ∃ directories name, files.spelled (job.area.tree source.relative) =
      files.spelled job.area.root ++ "ast" :: directories ++ [name] := by
  have isAst : (Path.mk "ast").Descends := by decide
  unfold WorkArea.tree
  generalize (Path.mk source.relative).withExtension "json" = inner at *
  refine ⟨inner.location.dropLast, inner.lastPiece, ?_⟩
  have ast : Path.location ⟨"ast"⟩ = ["ast"] := by decide
  rw [(files.spelled_join _ descends).2.2, (files.spelled_join _ isAst).2.2, ast,
    Path.location_of_named descends.named]
  simp

theorem Separate.checkpoint (separate : job.Separate files sources) :
    files.IsPlain job.area.checkpoint :=
  FileSystem.isPlain_join (by decide) separate.area

/-- The kept tree of a source stands in a directory of the work area. -/
theorem Separate.spelled_tree (separate : job.Separate files sources)
    (isSource : source ∈ sources) :
    files.IsPlain (job.area.tree source.relative) ∧
      ∃ directories name, files.spelled (job.area.tree source.relative) =
        files.spelled job.area.root ++ "ast" :: directories ++ [name] := by
  have descends := separate.below source isSource
  have isAst : (Path.mk "ast").Descends := by decide
  have climbs := (FileSystem.isPlain_join isAst separate.area).climbs
  exact ⟨FileSystem.isPlain_join descends climbs, job.spelled_areaTree files descends⟩

/-! ### What stays -/

/-- What is generated is generated from a tree in the work area. -/
theorem Separate.root_of_code (separate : job.Separate files sources) (isSource : source ∈ sources)
    (generated : job.codeOf index files source = .ok code) :
    files.entry? (files.spelled job.area.root) = some .directory := by
  obtain ⟨plain, directories, name, spelledEq⟩ := separate.spelled_tree isSource
  have room : files.entry? (files.spelled (job.area.tree source.relative)).dropLast =
      some .directory := by
    unfold codeOf at generated
    cases read : files.read (job.area.tree source.relative) with
    | error cause =>
        rw [read] at generated
        cases generated
    | ok written => exact FileSystem.room_of_read separate.tree plain read
  refine FileSystem.entry?_of_prefix separate.tree room ?_
  rw [spelledEq, List.dropLast_concat]
  exact List.prefix_append _ _

theorem Separate.target_ne_nil (separate : job.Separate files sources)
    (isSource : source ∈ sources) : files.spelled (job.target files source) ≠ [] :=
  (separate.targets source isSource).spelled_ne_nil

theorem Separate.distinct (separate : job.Separate files sources) (isSource : source ∈ sources)
    (isOther : other ∈ sources) (differ : other ≠ source) :
    ¬ files.spelled (job.target files other) <+: files.spelled (job.target files source) :=
  (separate.apart.forall isOther isSource differ).1

theorem Apart.ne (apart : job.Apart files source other) :
    files.spelled (job.target files source) ≠ files.spelled (job.target files other) := by
  intro same
  have notAbove := apart.1
  rw [same] at notAbove
  exact notAbove List.prefix_rfl

/-- No code is put above the work area. -/
theorem Separate.not_above_root (separate : job.Separate files sources)
    (isSource : source ∈ sources) (delivers : job.Delivers index files source code) :
    ¬ files.spelled (job.target files source) <+: files.spelled job.area.root := fun above =>
  delivers.free (FileSystem.entry?_of_prefix separate.tree
    (separate.root_of_code isSource delivers.generated) above)

namespace Amid

variable (separate : job.Separate files sources) (within : started ⊆ { source | source ∈ sources })
variable (amid : job.Amid index files started after)

include separate within amid

/-- Where kept trees stand nothing changes. -/
theorem entry?_below {location : FileLocation}
    (below : files.spelled job.area.root ++ ["ast"] <+: location) :
    after.entry? location = files.entry? location := by
  have inRoot : files.spelled job.area.root <+: location := (List.prefix_append _ _).trans below
  have longer := below.length_le
  rw [List.length_append, List.length_singleton] at longer
  cases stands : after.entry? location with
  | none =>
      cases before : files.entry? location with
      | none => rfl
      | some entry =>
          cases entry with
          | directory => rw [amid.grown.directory _ before] at stands; cases stands
          | file text =>
              obtain ⟨later, kept⟩ := amid.grown.file _ ⟨text, before⟩
              rw [kept] at stands
              cases stands
  | some entry =>
      cases entry with
      | directory =>
          rcases amid.directories _ stands with same | above | ⟨source, isStarted, code, -, above⟩
          · exact same.symm
          · have shorter := above.length_le
            omega
          · have whole := above.trans (List.dropLast_prefix _)
            exact absurd (inRoot.trans whole) (separate.outside source (within isStarted))
      | file text =>
          rcases amid.texts _ _ (FileSystem.textAt?_eq_some.mpr stands) with
            same | rfl | ⟨source, isStarted, code, -, rfl, -⟩
          · exact (FileSystem.textAt?_eq_some.mp same).symm
          · rw [spelled_checkpoint, List.prefix_append_right_inj] at below
            simp at below
          · exact absurd inRoot (separate.outside source (within isStarted))

theorem hasFile_above_root {location : FileLocation}
    (above : location <+: files.spelled job.area.root) :
    after.HasFile location ↔ files.HasFile location := by
  refine ⟨fun ⟨text, found⟩ => ?_, amid.grown.file location⟩
  rcases amid.texts _ _ (FileSystem.textAt?_eq_some.mpr found) with
    same | rfl | ⟨source, isStarted, code, delivers, rfl, -⟩
  · exact ⟨text, FileSystem.textAt?_eq_some.mp same⟩
  · have shorter := above.length_le
    rw [spelled_checkpoint, List.length_append, List.length_singleton] at shorter
    omega
  · exact absurd above (separate.not_above_root (within isStarted) delivers)

/-- A kept tree is read as it was. -/
theorem read_tree (isSource : source ∈ sources) :
    after.read (job.area.tree source.relative) = files.read (job.area.tree source.relative) := by
  obtain ⟨plain, directories, name, spelledEq⟩ := separate.spelled_tree isSource
  have below (rest : FileLocation) : files.spelled job.area.root ++ ["ast"] <+:
      files.spelled job.area.root ++ "ast" :: rest :=
    ⟨rest, by simp⟩
  have dropped : (files.spelled (job.area.tree source.relative)).dropLast =
      files.spelled job.area.root ++ "ast" :: directories := by
    rw [spelledEq, List.dropLast_concat]
  have room := entry?_below separate within amid (below directories)
  have place := entry?_below separate within amid (below (directories ++ [name]))
  have blocked : after.isBlocked (files.spelled job.area.root ++ "ast" :: directories) =
      files.isBlocked (files.spelled job.area.root ++ "ast" :: directories) := by
    refine FileSystem.isBlocked_congr fun inner isInner => ?_
    rcases List.prefix_or_prefix_of_prefix isInner (below directories) with above | isBelow
    · rcases FileSystem.eq_or_prefix_dropLast above with rfl | higher
      · rw [FileSystem.HasFile, entry?_below separate within amid List.prefix_rfl]
        rfl
      · rw [List.dropLast_concat] at higher
        exact hasFile_above_root separate within amid higher
    · rw [FileSystem.HasFile, entry?_below separate within amid isBelow]
      rfl
  have reached : after.approachTo (job.area.tree source.relative) =
      files.approachTo (job.area.tree source.relative) := by
    rw [plain.approachTo_later separate.tree amid.grown, FileSystem.approachTo, dropped,
      FileSystem.approach, room, blocked]
    rfl
  rw [FileSystem.read_plain amid.grown.tree (plain.later separate.tree amid.grown).1,
    FileSystem.read_plain separate.tree plain, reached, FileSystem.spelled_of_grows amid.grown,
    spelledEq, List.append_assoc, List.cons_append, place]

/-- The same code is generated. -/
theorem codeOf_eq (isSource : source ∈ sources) :
    job.codeOf index after source = job.codeOf index files source := by
  unfold codeOf
  rw [read_tree separate within amid isSource]

/-- The same files are in the way of the code of a source. -/
theorem hasFile_above_target (isSource : source ∈ sources) {location : FileLocation}
    (above : location <+: (files.spelled (job.target files source)).dropLast) :
    after.HasFile location ↔ files.HasFile location := by
  refine ⟨fun ⟨text, found⟩ => ?_, amid.grown.file location⟩
  have whole := above.trans (List.dropLast_prefix _)
  rcases amid.texts _ _ (FileSystem.textAt?_eq_some.mpr found) with
    same | rfl | ⟨other, isStarted, code, -, rfl, -⟩
  · exact ⟨text, FileSystem.textAt?_eq_some.mp same⟩
  · rw [spelled_checkpoint] at whole
    exact absurd ((List.prefix_append _ _).trans whole) (separate.outside source isSource)
  · by_cases same : other = source
    · subst same
      exact absurd above (FileSystem.not_prefix_dropLast (separate.target_ne_nil isSource))
    · exact absurd whole (separate.distinct isSource (within isStarted) same)

theorem clearanceTo_target (isSource : source ∈ sources) :
    after.clearanceTo (job.target files source) = files.clearanceTo (job.target files source) := by
  have same (location : FileLocation) :=
    @hasFile_above_target _ _ _ _ _ _ _ separate within amid isSource location
  rw [(separate.targets source isSource).clearanceTo_later separate.tree amid.grown,
    FileSystem.clearanceTo, FileSystem.clearance, FileSystem.clearance,
    FileSystem.isBlocked_congr same, FileSystem.isBlocked_congr fun inner isInner =>
      same inner (isInner.trans (List.dropLast_prefix _))]

/-- No directory comes to stand where code goes. -/
theorem directory_target (isSource : source ∈ sources)
    (generated : job.codeOf index files source = .ok code) :
    after.entry? (files.spelled (job.target files source)) = some .directory ↔
      files.entry? (files.spelled (job.target files source)) = some .directory := by
  refine ⟨fun found => ?_, amid.grown.directory _⟩
  rcases amid.directories _ found with same | above | ⟨other, isStarted, -, -, above⟩
  · exact same
  · exact FileSystem.entry?_of_prefix separate.tree (separate.root_of_code isSource generated) above
  · by_cases same : other = source
    · subst same
      exact absurd above (FileSystem.not_prefix_dropLast (separate.target_ne_nil isSource))
    · have whole := above.trans (List.dropLast_prefix _)
      exact absurd whole (separate.distinct (within isStarted) isSource (Ne.symm same))

/-- A source that is not started goes where it would have gone. -/
theorem target_eq (isSource : source ∈ sources) (fresh : source ∉ started)
    (generated : job.codeOf index files source = .ok code) :
    job.target after source = job.target files source := by
  have sameFile := amid.grown.within.isFile_eq separate.input
  unfold target FileSystem.targetPath
  dsimp only
  rw [sameFile]
  cases single : files.isFile job.input with
  | false => rfl
  | true =>
      cases before : files.isDirectory job.output with
      | true => rw [amid.grown.within.isDirectory before]
      | false =>
          -- all code goes to one place, so there is no other source
          have alone (other : SourceFile) (isOther : other ∈ started) : False := by
            have goes (any : SourceFile) :
                job.target files any = job.output.withExtension targetExtension := by
              simp [target, FileSystem.targetPath, single, before]
            by_cases same : other = source
            · exact fresh (same ▸ isOther)
            · have apart := separate.distinct isSource (within isOther) same
              rw [goes, goes] at apart
              exact apart List.prefix_rfl
          have known (location : FileLocation) (found : after.entry? location = some .directory) :
              files.entry? location = some .directory := by
            rcases amid.directories _ found with same | above | ⟨other, isStarted, -⟩
            · exact same
            · exact FileSystem.entry?_of_prefix separate.tree
                (separate.root_of_code isSource generated) above
            · exact (alone other isStarted).elim
          have later : after.isDirectory job.output = false := by
            rw [← Bool.not_eq_true] at before ⊢
            exact fun found => before
              (FileSystem.isDirectory_of_directories amid.grown.working known found)
          rw [later]

/-- A checkpoint can always be stored. -/
theorem noteProgress (source : SourceFile) :
    ∃ noted, job.noteProgress source after = .ok () noted ∧
      job.Amid index files started noted ∧ Grows (fun _ => True) after noted ∧
      ∀ location ≠ files.spelled job.area.checkpoint,
        noted.textAt? location = after.textAt? location := by
  obtain ⟨text, noted, stored⟩ := separate.stored
  have plain := separate.checkpoint
  obtain ⟨clear, free⟩ := FileSystem.clear_of_store separate.tree plain stored
  have rootEq : (files.spelled job.area.checkpoint).dropLast = files.spelled job.area.root := by
    rw [spelled_checkpoint, List.dropLast_concat]
  have clearLater : after.clearanceTo job.area.checkpoint = .ok () := by
    obtain ⟨unbarred, clear⟩ := FileSystem.clearanceTo_eq_ok.mp clear
    rw [plain.clearanceTo_later separate.tree amid.grown, unbarred, if_neg Bool.false_ne_true,
      rootEq, FileSystem.clearance_eq_ok]
    rw [rootEq] at clear
    rw [FileSystem.isBlocked_congr, clear]
    exact fun inner => hasFile_above_root separate within amid
  have sameSpelled := FileSystem.spelled_of_grows amid.grown job.area.checkpoint
  have freeLater : after.entry? (files.spelled job.area.checkpoint) ≠ some .directory := by
    intro found
    rcases amid.directories _ found with same | above | ⟨other, isStarted, code, -, above⟩
    · exact free same
    · have shorter := above.length_le
      rw [spelled_checkpoint, List.length_append, List.length_singleton] at shorter
      omega
    · rw [spelled_checkpoint] at above
      have whole := (List.prefix_append _ _).trans (above.trans (List.dropLast_prefix _))
      exact separate.outside other (within isStarted) whole
  obtain ⟨noted, stored, grown, entries⟩ := FileSystem.store_plain amid.grown.tree
    (plain.later separate.tree amid.grown).1
    (Checkpoint.mk job.input.text job.output.text source.relative).render
    clearLater (sameSpelled.symm ▸ freeLater)
  rw [sameSpelled] at entries
  have elsewhere (location : FileLocation)
      (differs : location ≠ files.spelled job.area.checkpoint) :
      noted.textAt? location = after.textAt? location := by
    rw [FileSystem.textAt?, entries, if_neg differs]
    split_ifs with isInner
    · cases found : after.textAt? location with
      | none => rfl
      | some text =>
          have blocked := FileSystem.isBlocked_iff.mpr
            ⟨location, isInner, text, FileSystem.textAt?_eq_some.mp found⟩
          have unblocked := (FileSystem.clearanceTo_eq_ok.mp clearLater).2
          rw [sameSpelled, blocked] at unblocked
          cases unblocked
    · rfl
  refine ⟨noted, stored, ⟨amid.grown.trans grown, ?_, ?_⟩, grown, elsewhere⟩
  · intro location found
    rw [entries] at found
    split at found
    · cases found
    · split at found
      · next isInner => exact .inr (.inl (rootEq ▸ isInner))
      · exact amid.directories _ found
  · intro location text found
    by_cases isCheckpoint : location = files.spelled job.area.checkpoint
    · exact .inr (.inl isCheckpoint)
    · rw [elsewhere location isCheckpoint] at found
      exact amid.texts _ _ found

end Amid

end Job

end ScriptBridge

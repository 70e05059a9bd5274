import ScriptBridge.Proofs.Batch.Making
import ScriptBridge.Proofs.Files.Plain

/-!
# One file system within another

Whatever stands in the one stands in the other, as a file or as a directory.  A path that
leads to a file in the larger one can be stored in the smaller one: nothing is in the way,
and the directories around it can be made.  Whether or not storing succeeds, what is new
afterwards is part of the larger one.
-/

namespace ScriptBridge

namespace FileSystem

open ScriptBridge.Path (isName isSolid)

variable {files middle after whole : FileSystem} {path above : Path}

/-- What stands in one file system stands in another, as the same kind of entry. -/
structure Within (files whole : FileSystem) : Prop where
  working : files.working = whole.working
  directory : ∀ location, files.entry? location = some .directory →
    whole.entry? location = some .directory
  file : ∀ location, files.HasFile location → whole.HasFile location

theorem Grows.within {fresh : String → Prop} (grown : Grows fresh files after) :
    Within files after :=
  ⟨grown.working.symm, grown.directory, grown.file⟩

theorem Within.trans (first : Within files middle) (second : Within middle whole) :
    Within files whole :=
  ⟨first.working.trans second.working,
    fun location found => second.directory location (first.directory location found),
    fun location found => second.file location (first.file location found)⟩

namespace Within

variable (within : Within files whole)

include within

theorem startOf_eq (path : Path) : files.startOf path = whole.startOf path := by
  rw [startOf, startOf, within.working]

theorem spelled_eq (path : Path) : files.spelled path = whole.spelled path := by
  rw [spelled, spelled, within.startOf_eq]

theorem walk {start found : FileLocation} {pieces : List String}
    (walked : files.walk start pieces = .ok found) : whole.walk start pieces = .ok found := by
  induction pieces generalizing start with
  | nil => exact walked
  | cons piece rest ih =>
      rw [FileSystem.walk] at walked ⊢
      split at walked
      · cases walked
      · cases walked
      · next stands =>
        rw [within.directory _ stands]
        exact ih walked

/-- What stops a walk that leads somewhere in the larger tree is that something is missing. -/
theorem walk_error {start found : FileLocation} {pieces : List String} {cause : FileError}
    (walked : files.walk start pieces = .error cause)
    (leads : whole.walk start pieces = .ok found) : cause = .notFound := by
  induction pieces generalizing start with
  | nil => cases walked
  | cons piece rest ih =>
      rw [FileSystem.walk] at walked leads
      split at walked
      · exact (Except.error.inj walked).symm
      · next text stands =>
        obtain ⟨later, kept⟩ := within.file _ ⟨text, stands⟩
        rw [kept] at leads
        cases leads
      · next stands =>
        rw [within.directory _ stands] at leads
        exact ih walked leads

theorem locate {found : FileLocation} (located : files.locate path = .ok found) :
    whole.locate path = .ok found := by
  unfold FileSystem.locate at located ⊢
  split at located
  · cases located
  · next isSome =>
    rw [if_neg isSome, ← within.startOf_eq]
    exact within.walk located

end Within

/-! ### What stands at the end of a path -/

theorem lookUp_eq_ok {entry : FileEntry} :
    files.lookUp path = .ok entry ↔
      ∃ location, files.locate path = .ok location ∧ files.entry? location = some entry := by
  unfold lookUp
  cases files.locate path with
  | error cause => simp
  | ok location =>
      dsimp only
      cases stands : files.entry? location with
      | none => simp [stands]
      | some standing => simp [stands]

theorem locate_eq_spelled {location : FileLocation} (located : files.locate path = .ok location) :
    location = files.spelled path := by
  unfold locate at located
  split at located
  · cases located
  · exact walk_eq_foldl located

theorem isFile_iff : files.isFile path = true ↔
    ∃ location text, files.locate path = .ok location ∧
      files.entry? location = some (.file text) := by
  unfold isFile
  split
  · next text found =>
    obtain ⟨location, located, stands⟩ := lookUp_eq_ok.mp found
    simpa using ⟨location, located, text, stands⟩
  · next other =>
    simp only [Bool.false_eq_true, false_iff]
    rintro ⟨location, text, located, stands⟩
    exact other text (lookUp_eq_ok.mpr ⟨location, located, stands⟩)

theorem isDirectory_iff : files.isDirectory path = true ↔ files.lookUp path = .ok .directory := by
  unfold isDirectory
  split <;> simp_all

namespace Within

variable (within : Within files whole)

include within

theorem lookUp_directory (there : files.lookUp path = .ok .directory) :
    whole.lookUp path = .ok .directory := by
  obtain ⟨location, located, stands⟩ := lookUp_eq_ok.mp there
  exact lookUp_eq_ok.mpr ⟨location, within.locate located, within.directory _ stands⟩

theorem isDirectory (there : files.isDirectory path = true) : whole.isDirectory path = true :=
  isDirectory_iff.mpr (within.lookUp_directory (isDirectory_iff.mp there))

theorem isFile (there : files.isFile path = true) : whole.isFile path = true := by
  obtain ⟨location, text, located, stands⟩ := isFile_iff.mp there
  obtain ⟨later, kept⟩ := within.file _ ⟨text, stands⟩
  exact isFile_iff.mpr ⟨location, later, within.locate located, kept⟩

/-- A path that leads somewhere leads to the same kind of entry. -/
theorem isFile_eq (found : files.pathExists path = true) :
    whole.isFile path = files.isFile path := by
  rw [pathExists] at found
  cases looked : files.lookUp path with
  | error cause =>
      rw [looked] at found
      cases found
  | ok entry =>
      cases entry with
      | directory =>
          have later := within.lookUp_directory looked
          rw [FileSystem.isFile, FileSystem.isFile, looked, later]
      | file text =>
          have isHere : files.isFile path = true := by rw [FileSystem.isFile, looked]
          rw [isHere, within.isFile isHere]

end Within

/-- A walk over slashes and dots from a directory. -/
theorem walk_directory {start : FileLocation} {pieces : List String} {found : FileLocation}
    (stands : files.entry? start = some .directory) :
    (files.walk start pieces = .ok found ∧ files.entry? found = some .directory) ↔
      (files.walk start (pieces.filter isSolid) = .ok found ∧
        files.entry? found = some .directory) := by
  induction pieces generalizing start with
  | nil => rfl
  | cons piece rest ih =>
      by_cases leads : isSolid piece = true
      · rw [List.filter_cons_of_pos leads, walk, walk, stands]
        dsimp only
        by_cases inside : files.entry? (follow start piece) = some .directory
        · exact ih inside
        · -- neither walk goes on from what is no directory, nor ends there
          have nowhere (others : List String) :
              ¬ (files.walk (follow start piece) others = .ok found ∧
                files.entry? found = some .directory) := by
            rintro ⟨walked, ends⟩
            cases others with
            | nil =>
                cases walked
                exact inside ends
            | cons other others =>
                rw [walk] at walked
                split at walked
                · cases walked
                · cases walked
                · next stands => exact inside stands
          exact ⟨fun walked => absurd walked (nowhere _), fun walked => absurd walked (nowhere _)⟩
      · have filler : piece = "" ∨ piece = "." := by
          by_contra other
          push Not at other
          exact leads (by simp [isSolid, other])
        rw [List.filter_cons_of_neg leads, walk, stands]
        dsimp only
        rw [follow, if_pos filler]
        exact ih stands

/-- A path leads to a directory if its pieces that lead somewhere do. -/
theorem lookUp_directory_iff (tree : files.IsTree) :
    files.lookUp path = .ok .directory ↔
      path.isEmpty = false ∧ ∃ location,
        files.walk (files.startOf path) path.solid = .ok location ∧
          files.entry? location = some .directory := by
  rw [lookUp_eq_ok, locate]
  cases path.isEmpty with
  | true => simp
  | false =>
      simp only [Bool.false_eq_true, if_false, true_and]
      exact exists_congr fun location => walk_directory (startOf_directory tree path)

/-- What leads through a piece more leads through a directory. -/
theorem walk_concat {start found : FileLocation} {pieces : List String} {last : String}
    (walked : files.walk start (pieces ++ [last]) = .ok found) :
    ∃ room, files.walk start pieces = .ok room ∧ files.entry? room = some .directory ∧
      found = follow room last := by
  rw [walk_append] at walked
  split at walked
  · next room inFront =>
    refine ⟨room, inFront, ?_⟩
    rw [walk] at walked
    split at walked
    · cases walked
    · cases walked
    · next stands => exact ⟨stands, (Except.ok.inj walked).symm⟩
  · cases walked

theorem startOf_isParent (isParent : path.IsParent above) (files : FileSystem) :
    files.startOf above = files.startOf path := by
  rw [startOf, startOf, isParent.sameStart]

/-- The path above one that leads somewhere leads to a directory. -/
theorem lookUp_above (tree : files.IsTree) (isParent : path.IsParent above)
    {found : FileLocation} (walked : files.walk (files.startOf path) path.solid = .ok found)
    (isSome : above.isEmpty = false) : files.lookUp above = .ok .directory := by
  obtain ⟨last, solidEq⟩ := isParent.solid_eq
  rw [solidEq] at walked
  obtain ⟨room, walked, stands, -⟩ := walk_concat walked
  rw [lookUp_directory_iff tree, startOf_isParent isParent]
  exact ⟨isSome, room, walked, stands⟩

/-- A path leads on from the path above it. -/
theorem walk_of_above (tree : files.IsTree) (isParent : path.IsParent above)
    (there : above.isEmpty = true ∨ files.lookUp above = .ok .directory) :
    ∃ location, files.walk (files.startOf path) path.solid = .ok location := by
  obtain ⟨last, solidEq⟩ := isParent.solid_eq
  have ⟨room, walked, stands⟩ : ∃ room,
      files.walk (files.startOf path) above.solid = .ok room ∧
        files.entry? room = some .directory := by
    rcases there with isEmpty | there
    · obtain rfl : above = ⟨""⟩ := by
        rw [Path.isEmpty, String.isEmpty_iff] at isEmpty
        rw [Path.mk.injEq, isEmpty]
      exact ⟨_, rfl, startOf_directory tree path⟩
    · rw [← startOf_isParent isParent]
      exact ((lookUp_directory_iff tree).mp there).2
  refine ⟨follow room last, ?_⟩
  rw [solidEq, walk_append, walked]
  simp only [walk, stands]

theorem locate_of_solid (leads : isSolid path.lastPiece = true) :
    files.locate path = files.walk (files.startOf path) path.solid := by
  have isSome : path.isEmpty = false := by
    rw [← Bool.not_eq_true]
    intro isEmpty
    obtain rfl : path = ⟨""⟩ := by
      rw [Path.isEmpty, String.isEmpty_iff] at isEmpty
      rw [Path.mk.injEq, isEmpty]
    exact absurd leads (by decide)
  rw [locate, isSome, if_neg Bool.false_ne_true, walk_solid (Path.getLast?_pieces path) leads,
    Path.solid]

/-- A path that leads to a file ends with a name. -/
theorem named_of_file (tree : files.IsTree) (there : files.isFile path = true) :
    isName path.lastPiece = true := by
  obtain ⟨location, text, located, stands⟩ := isFile_iff.mp there
  obtain ⟨last, final, directory | ⟨named, -⟩⟩ := ends_locate tree located
  · rw [directory] at stands
    cases stands
  · rw [Path.getLast?_pieces, Option.some.injEq] at final
    exact final ▸ named

/-! ### Making what is there in the larger tree -/

theorem Within.put_directory (within : Within files whole) {location : FileLocation}
    (isSome : location ≠ []) (there : whole.entry? location = some .directory) :
    Within (files.put location .directory) whole where
  working := within.working
  directory other found := by
    rw [entry?_put _ _ isSome] at found
    split at found
    · next same => rwa [same]
    · exact within.directory other found
  file other found := by
    obtain ⟨text, found⟩ := found
    rw [entry?_put _ _ isSome] at found
    split at found
    · cases found
    · exact within.file other ⟨text, found⟩

/-- One directory is made, unless one around it is missing. -/
theorem Within.ensureDirectory (tree : files.IsTree) (within : Within files whole)
    (there : whole.lookUp path = .ok .directory) (leads : isSolid path.lastPiece = true) :
    (∃ made, files.ensureDirectory path = (made, .ok ()) ∧ Within made whole ∧
      made.lookUp path = .ok .directory) ∨
      files.ensureDirectory path = (files, .error .notFound) ∧
        files.locate path = .error .notFound := by
  obtain ⟨place, placed, directory⟩ := lookUp_eq_ok.mp there
  have noSlash : endsWithSlash path = false := Path.endsWithSlash_of_solid leads
  cases located : files.locate path with
  | error cause =>
      have leadsThere : whole.walk (files.startOf path) path.solid = .ok place := by
        rw [within.startOf_eq, ← locate_of_solid leads, placed]
      rw [locate_of_solid leads] at located
      obtain rfl := within.walk_error located leadsThere
      rw [← locate_of_solid leads] at located
      have refused : files.makeDirectory path = .error .notFound := by
        simp only [makeDirectory, withoutEndSlashes_of_not noSlash, located]
      have missing : files.isDirectory path = false := by
        simp only [FileSystem.isDirectory, lookUp, located]
      refine .inr ⟨?_, rfl⟩
      simp only [FileSystem.ensureDirectory, refused, missing, Bool.false_eq_true, if_false]
  | ok location =>
      obtain rfl := Except.ok.inj (placed.symm.trans (within.locate located))
      cases stands : files.entry? place with
      | none =>
          obtain ⟨last, final, isDirectory | ⟨named, parent, placeEq, room⟩⟩ :=
            ends_locate tree located
          · rw [stands] at isDirectory
            cases isDirectory
          · subst placeEq
            have grown : Grows (fun _ => True) files (files.put (parent ++ [last]) .directory) :=
              grows_put_directory tree room stands
            have made :
                files.makeDirectory path = .ok (files.put (parent ++ [last]) .directory) := by
              simp [makeDirectory, withoutEndSlashes_of_not noSlash, located, final, named, stands]
            refine .inl ⟨_, by simp only [FileSystem.ensureDirectory, made],
              within.put_directory (by simp) directory, ?_⟩
            refine lookUp_eq_ok.mpr ⟨_, locate_of_grows grown located, ?_⟩
            rw [entry?_put _ _ (by simp), if_pos rfl]
      | some entry =>
          cases entry with
          | directory =>
              have isThere := lookUp_eq_ok.mpr ⟨place, located, stands⟩
              exact .inl ⟨files, ensureDirectory_of_directory isThere, within, isThere⟩
          | file text =>
              obtain ⟨later, kept⟩ := within.file _ ⟨text, stands⟩
              rw [kept] at directory
              cases directory

/-- A path that leads nowhere is the directory that it starts in. -/
theorem lookUp_of_solid_nil (tree : files.IsTree) (isSome : path.isEmpty = false)
    (isNil : path.solid = []) : files.lookUp path = .ok .directory := by
  rw [lookUp_directory_iff tree, isNil]
  exact ⟨isSome, _, rfl, startOf_directory tree path⟩

/-- Directories that are there in the larger tree can be made. -/
theorem Within.makeAround (tree : files.IsTree) (treeWhole : whole.IsTree)
    (within : Within files whole) {bound : Nat} (enough : path.text.length ≤ bound)
    (there : whole.lookUp path = .ok .directory)
    (ends : isSolid path.lastPiece = true ∨ path.solid = []) :
    ∃ made, files.makeAround bound path = (made, .ok ()) ∧ Within made whole ∧
      made.lookUp path = .ok .directory := by
  induction bound generalizing path with
  | zero =>
      obtain rfl : path = ⟨""⟩ := by
        rw [Path.mk.injEq, ← String.length_eq_zero_iff]
        omega
      cases there
  | succ bound ih =>
      obtain ⟨isSome, place, walked, -⟩ := (lookUp_directory_iff treeWhole).mp there
      rcases ends with leads | isNil
      · rcases within.ensureDirectory tree there leads with
          ⟨made, ensured, done⟩ | ⟨ensured, missing⟩
        · refine ⟨made, ?_, done⟩
          rw [makeAround_of_ensured isSome (by rw [ensured]; nofun), ensured]
        · have solidSome : path.solid ≠ [] := List.ne_nil_of_mem (List.mem_filter.mpr
            ⟨List.mem_of_getLast? (Path.getLast?_pieces path), leads⟩)
          obtain ⟨above, parentEq, isParent⟩ := Path.exists_isParent solidSome
          have ⟨middle, around, inside, thereAbove⟩ : ∃ middle,
              files.makeAround bound above = (middle, .ok ()) ∧ Within middle whole ∧
                (above.isEmpty = true ∨ middle.lookUp above = .ok .directory) := by
            by_cases isEmpty : above.isEmpty = true
            · refine ⟨files, ?_, within, .inl isEmpty⟩
              unfold FileSystem.makeAround
              rw [if_pos isEmpty]
            · have shorter := isParent.shorter
              obtain ⟨middle, around, inside, there⟩ := ih (by omega)
                (lookUp_above treeWhole isParent walked (Bool.eq_false_iff.mpr isEmpty))
                (isParent.ends.resolve_left isEmpty)
              exact ⟨middle, around, inside, .inr there⟩
          have grown : Grows (fun _ => True) files (files.makeAround bound above).1 :=
            grows_makeAround tree bound above
          rw [around] at grown
          have step : files.makeAround (bound + 1) path = middle.ensureDirectory path := by
            unfold FileSystem.makeAround
            rw [isSome, if_neg Bool.false_ne_true, ensured]
            simp only [parentEq, around]
          rcases inside.ensureDirectory grown.tree there leads with
            ⟨made, ensured, done⟩ | ⟨-, missing⟩
          · exact ⟨made, step.trans ensured, done⟩
          · obtain ⟨location, found⟩ := walk_of_above grown.tree isParent thereAbove
            rw [locate_of_solid leads, found] at missing
            cases missing
      · have isThere := lookUp_of_solid_nil tree isSome isNil
        have ensured := ensureDirectory_of_directory isThere
        refine ⟨files, ?_, within, isThere⟩
        rw [makeAround_of_ensured isSome (by rw [ensured]; nofun), ensured]

/-- The directories around a file of the larger tree can be made. -/
theorem Within.makeParent (tree : files.IsTree) (treeWhole : whole.IsTree)
    (within : Within files whole) (there : whole.isFile path = true) :
    ∃ made, Run.makeParent path files = .ok () made ∧ Within made whole ∧
      made.locate path = .ok (whole.spelled path) := by
  have named := named_of_file treeWhole there
  have leads := Path.isSolid_of_name named
  obtain ⟨place, text, placed, stands⟩ := isFile_iff.mp there
  rw [locate_of_solid leads] at placed
  have solidSome : path.solid ≠ [] := List.ne_nil_of_mem (List.mem_filter.mpr
    ⟨List.mem_of_getLast? (Path.getLast?_pieces path), leads⟩)
  obtain ⟨above, parentEq, isParent⟩ := Path.exists_isParent solidSome
  have located (made : FileSystem) (inside : Within made whole) (treeMade : made.IsTree)
      (thereAbove : above.isEmpty = true ∨ made.lookUp above = .ok .directory) :
      made.locate path = .ok (whole.spelled path) := by
    obtain ⟨location, found⟩ := walk_of_above treeMade isParent thereAbove
    rw [← locate_of_solid leads] at found
    rw [found, locate_eq_spelled found, inside.spelled_eq]
  cases isEmpty : above.isEmpty with
  | true =>
      refine ⟨files, ?_, within, located files within tree (.inl isEmpty)⟩
      rw [Run.makeParent, parentEq]
      simp only [isEmpty, if_true]
      rfl
  | false =>
      have thereAbove := lookUp_above treeWhole isParent placed isEmpty
      obtain ⟨made, around, inside, madeAbove⟩ := within.makeAround tree treeWhole
        (Nat.le_refl above.text.length) thereAbove
        (isParent.ends.resolve_left (by simp [isEmpty]))
      have grown : Grows (fun _ => True) files (files.makeDirectories above).1 :=
        grows_makeDirectories tree above
      have directories : files.makeDirectories above = (made, .ok ()) := around
      rw [directories] at grown
      refine ⟨made, ?_, inside, located made inside grown.tree (.inr madeAbove)⟩
      rw [Run.makeParent_apply parentEq isEmpty, directories]

/-- A file of the larger tree can be stored. -/
theorem Within.store (tree : files.IsTree) (treeWhole : whole.IsTree)
    (within : Within files whole) (there : whole.isFile path = true) (text : String) :
    ∃ stored, Run.store path text files = .ok () stored ∧ Within stored whole := by
  have named := named_of_file treeWhole there
  have noSlash := Path.endsWithSlash_of_named named
  obtain ⟨made, parent, inside, located⟩ := within.makeParent tree treeWhole there
  obtain ⟨place, old, placed, stands⟩ := isFile_iff.mp there
  obtain rfl := locate_eq_spelled placed
  have isSome : whole.spelled path ≠ [] := by
    intro isNil
    rw [isNil] at stands
    cases stands
  have free : made.entry? (whole.spelled path) ≠ some .directory := by
    intro directory
    rw [inside.directory _ directory] at stands
    cases stands
  have written : made.write path text = .ok (made.put (whole.spelled path) (.file text)) := by
    simp only [write, withoutEndSlashes_of_not noSlash, located, noSlash, Bool.false_or,
      decide_eq_true_eq, if_neg free]
  refine ⟨made.put (whole.spelled path) (.file text),
    by rw [Run.store_of_made text parent, written], inside.working, ?_, ?_⟩
  · intro location found
    rw [entry?_put _ _ isSome] at found
    split at found
    · cases found
    · exact inside.directory location found
  · intro location found
    by_cases same : location = whole.spelled path
    · exact ⟨old, same ▸ stands⟩
    · obtain ⟨kept, found⟩ := found
      rw [entry?_put _ _ isSome, if_neg same] at found
      exact inside.file location ⟨kept, found⟩

end FileSystem

end ScriptBridge

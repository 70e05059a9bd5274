import ScriptBridge.FileSystem
import ScriptBridge.Proofs.OrderedMap
import Mathlib.Data.List.Induction

/-!
# File trees

In a file tree no location is listed twice and everything stands in a directory,
the working directory included.
Writing files and making directories keeps this, and lets a tree only grow:
directories stay directories, files stay files, and a written file has the last
piece of its path as its name.
-/

namespace ScriptBridge

namespace FileSystem

/-- No location is listed twice, whatever is listed stands in a directory, and the working
directory is there. -/
structure IsTree (files : FileSystem) : Prop where
  nodup : files.entries.keys.Nodup
  rooted : ∀ entry ∈ files.entries.entries,
    files.entry? entry.1.dropLast = some .directory
  home : files.entry? files.working = some .directory

instance (files : FileSystem) : Decidable files.IsTree :=
  decidable_of_iff
    (files.entries.keys.Nodup ∧
      (∀ entry ∈ files.entries.entries, files.entry? entry.1.dropLast = some .directory) ∧
      files.entry? files.working = some .directory)
    ⟨fun ⟨nodup, rooted, home⟩ => ⟨nodup, rooted, home⟩,
      fun ⟨nodup, rooted, home⟩ => ⟨nodup, rooted, home⟩⟩

@[simp]
theorem entry?_nil (files : FileSystem) : files.entry? [] = some .directory := rfl

theorem entry?_put {location other : FileLocation} (files : FileSystem) (entry : FileEntry)
    (inner : location ≠ []) :
    FileSystem.entry? (files.put location entry) other =
      if other = location then some entry else files.entry? other := by
  cases other with
  | nil => simp [ entry?, Ne.symm inner]
  | cons name rest => simp [ entry?, put]

theorem entry?_eq_some {files : FileSystem} {location : FileLocation} {entry : FileEntry}
    (inner : location ≠ []) (found : files.entry? location = some entry) :
    (location, entry) ∈ files.entries.entries := by
  have empty : location.isEmpty = false := by simpa using inner
  rw [ entry?, empty] at found
  exact OrderedMap.mem_of_lookup found

theorem entry?_of_mem {files : FileSystem} (tree : files.IsTree) {location : FileLocation}
    {entry : FileEntry} (inner : location ≠ [])
    (listed : (location, entry) ∈ files.entries.entries) :
    files.entry? location = some entry := by
  have empty : location.isEmpty = false := by simpa using inner
  rw [ entry?, empty]
  exact OrderedMap.lookup_of_mem tree.nodup listed

variable {files : FileSystem}

theorem IsTree.parent (tree : files.IsTree) {parent : FileLocation} {name : String}
    {entry : FileEntry} (found : files.entry? (parent ++ [name]) = some entry) :
    files.entry? parent = some .directory := by
  have listed := entry?_eq_some (by simp) found
  simpa using tree.rooted _ listed

/-- Every location above an entry is a directory. -/
theorem IsTree.above (tree : files.IsTree) {location rest : FileLocation} {entry : FileEntry}
    (found : files.entry? (location ++ rest) = some entry) (below : rest ≠ []) :
    files.entry? location = some .directory := by
  induction rest using List.reverseRecOn generalizing entry with
  | nil => exact absurd rfl below
  | append_singleton rest name ih =>
      rw [← List.append_assoc] at found
      have parent := tree.parent found
      cases rest with
      | nil => simpa using parent
      | cons first rest => exact ih parent (by simp)

theorem IsTree.dropLast (tree : files.IsTree) {location : FileLocation}
    (found : files.entry? location = some .directory) :
    files.entry? location.dropLast = some .directory := by
  induction location using List.reverseRecOn with
  | nil => rfl
  | append_singleton parent name =>
      rw [List.dropLast_concat]
      exact tree.parent found

/-! ### Where paths lead -/

theorem pieces_ne_nil (path : Path) : path.pieces ≠ [] := by
  have cut : ∀ (text gathered : List Char), Path.cutAtSlashes gathered text ≠ [] := by
    intro text
    induction text with
    | nil => simp [Path.cutAtSlashes]
    | cons character rest ih =>
        intro gathered
        unfold Path.cutAtSlashes
        split
        · simp
        · exact ih _
  exact cut _ _

/-- A location that a walk may end at: a directory, or a name in a directory. -/
def Ends (files : FileSystem) (last : String) (location : FileLocation) : Prop :=
  files.entry? location = some .directory ∨
    Path.isName last = true ∧ ∃ parent, location = parent ++ [last] ∧
      files.entry? parent = some .directory

theorem ends_follow (tree : files.IsTree) {location : FileLocation} (piece : String)
    (directory : files.entry? location = some .directory) :
    files.Ends piece (follow location piece) := by
  unfold follow
  split
  · exact .inl directory
  · split
    · exact .inl (tree.dropLast directory)
    · next notDot notDots =>
      push Not at notDot
      exact .inr ⟨by simp [Path.isName, notDot, notDots], location, rfl, directory⟩

theorem ends_walk (tree : files.IsTree) {pieces : List String} {last : String}
    {location found : FileLocation} (final : pieces.getLast? = some last)
    (walked : files.walk location pieces = .ok found) : files.Ends last found := by
  induction pieces generalizing location with
  | nil => simp at final
  | cons piece rest ih =>
      unfold walk at walked
      split at walked
      · cases walked
      · cases walked
      · next directory =>
        cases rest with
        | nil =>
            cases walked
            obtain rfl : piece = last := by simpa using final
            exact ends_follow tree piece directory
        | cons next rest => exact ih (by simpa using final) walked

theorem ends_locate (tree : files.IsTree) {path : Path} {found : FileLocation}
    (located : files.locate path = .ok found) :
    ∃ last, path.pieces.getLast? = some last ∧ files.Ends last found := by
  unfold locate at located
  split at located
  · cases located
  · have final := List.getLast?_eq_some_getLast (pieces_ne_nil path)
    exact ⟨_, final, ends_walk tree final located⟩

/-! ### Growth -/

/-- A file stands at a location. -/
def HasFile (files : FileSystem) (location : FileLocation) : Prop :=
  ∃ text, files.entry? location = some (.file text)

/-- How writing changes a tree, if only files with certain names are written. -/
structure Grows (fresh : String → Prop) (files after : FileSystem) : Prop where
  tree : after.IsTree
  working : after.working = files.working
  directory : ∀ location, files.entry? location = some .directory →
    after.entry? location = some .directory
  file : ∀ location, files.HasFile location → after.HasFile location
  origin : ∀ location, after.HasFile location →
    after.entry? location = files.entry? location ∨
      ∃ parent name, location = parent ++ [name] ∧ fresh name

variable {fresh : String → Prop}

theorem Grows.refl (tree : files.IsTree) : Grows fresh files files :=
  ⟨tree, rfl, fun _ => id, fun _ => id, fun _ _ => .inl rfl⟩

theorem Grows.trans {middle after : FileSystem} (first : Grows fresh files middle)
    (second : Grows fresh middle after) : Grows fresh files after where
  tree := second.tree
  working := second.working.trans first.working
  directory location found := second.directory location (first.directory location found)
  file location found := second.file location (first.file location found)
  origin location found := by
    rcases second.origin location found with same | named
    · rw [same]
      exact first.origin location (by rwa [HasFile, ← same])
    · exact .inr named

theorem Grows.mono {wider : String → Prop} {after : FileSystem}
    (grows : Grows fresh files after) (within : ∀ name, fresh name → wider name) :
    Grows wider files after :=
  { grows with
    origin := fun location found => (grows.origin location found).imp_right
      fun ⟨parent, name, equal, named⟩ => ⟨parent, name, equal, within name named⟩ }

theorem IsTree.put (tree : files.IsTree) {parent : FileLocation} {name : String}
    {entry : FileEntry} (room : files.entry? parent = some .directory)
    (free : files.entry? (parent ++ [name]) ≠ some .directory) :
    (files.put (parent ++ [name]) entry).IsTree := by
  have directory : ∀ location, files.entry? location = some .directory →
      FileSystem.entry? (files.put (parent ++ [name]) entry) location = some .directory := by
    intro location found
    have other : location ≠ parent ++ [name] := by
      rintro rfl
      exact free found
    rw [entry?_put files entry (by simp), if_neg other, found]
  refine ⟨OrderedMap.nodup_putEntry _ _ tree.nodup, fun listed member => ?_,
    directory _ tree.home⟩
  rcases OrderedMap.mem_putEntry member with rfl | member
  · rw [List.dropLast_concat]
    exact directory parent room
  · exact directory _ (tree.rooted listed member)

/-- A file is put in a directory where no directory stands. -/
theorem grows_put_file (tree : files.IsTree) {parent : FileLocation} {name text : String}
    (room : files.entry? parent = some .directory)
    (free : files.entry? (parent ++ [name]) ≠ some .directory) (named : fresh name) :
    Grows fresh files (files.put (parent ++ [name]) (.file text)) where
  tree := tree.put room free
  working := rfl
  directory location found := by
    rw [entry?_put _ _ (by simp), if_neg (by rintro rfl; exact free found), found]
  file location found := by
    by_cases same : location = parent ++ [name]
    · exact ⟨text, by rw [entry?_put _ _ (by simp), if_pos same]⟩
    · obtain ⟨kept, found⟩ := found
      exact ⟨kept, by rw [entry?_put _ _ (by simp), if_neg same, found]⟩
  origin location found := by
    by_cases same : location = parent ++ [name]
    · exact .inr ⟨parent, name, same, named⟩
    · exact .inl (by rw [entry?_put _ _ (by simp), if_neg same])

/-- A directory is put where nothing stands. -/
theorem grows_put_directory (tree : files.IsTree) {parent : FileLocation} {name : String}
    (room : files.entry? parent = some .directory)
    (free : files.entry? (parent ++ [name]) = none) :
    Grows fresh files (files.put (parent ++ [name]) .directory) where
  tree := tree.put room (by simp [free])
  working := rfl
  directory location found := by
    rw [entry?_put _ _ (by simp)]
    split
    · rfl
    · exact found
  file location found := by
    obtain ⟨text, found⟩ := found
    have other : location ≠ parent ++ [name] := by
      rintro rfl
      simp [free] at found
    exact ⟨text, by rw [entry?_put _ _ (by simp), if_neg other, found]⟩
  origin location found := by
    obtain ⟨text, found⟩ := found
    rw [entry?_put _ _ (by simp)] at found
    split at found
    · cases found
    · next other => exact .inl (by rw [entry?_put _ _ (by simp), if_neg other])

theorem withoutEndSlashes_of_not {path : Path} (noSlash : endsWithSlash path = false) :
    withoutEndSlashes path = path := by
  obtain ⟨text⟩ := path
  simp only [endsWithSlash, List.getLast?_eq_head?_reverse] at noSlash
  unfold withoutEndSlashes
  cases reversed : text.toList.reverse with
  | nil => simp_all
  | cons last rest =>
      have notSlash : last ≠ '/' := by simpa [reversed] using noSlash
      have back : (last :: rest).reverse = text.toList := by rw [← reversed, List.reverse_reverse]
      simp [notSlash, back]

/-- A written file gets the last piece of its path as its name. -/
theorem grows_write (tree : files.IsTree) {path : Path} {text : String} {after : FileSystem}
    (named : ∀ name, path.pieces.getLast? = some name → Path.isName name = true → fresh name)
    (written : files.write path text = .ok after) : Grows fresh files after := by
  unfold write at written
  split at written
  · cases written
  · next location located =>
    split at written
    · cases written
    · next refused =>
      cases written
      simp only [Bool.or_eq_true, decide_eq_true_eq, not_or, Bool.not_eq_true] at refused
      rw [withoutEndSlashes_of_not refused.1] at located
      obtain ⟨last, final, directory | ⟨isName, parent, rfl, room⟩⟩ := ends_locate tree located
      · exact absurd directory refused.2
      · exact grows_put_file tree room refused.2 (named last final isName)

theorem grows_makeDirectory (tree : files.IsTree) {path : Path} {after : FileSystem}
    (made : files.makeDirectory path = .ok after) : Grows fresh files after := by
  unfold makeDirectory at made
  simp only at made
  split at made
  · cases made
  · next location located =>
    split at made
    · next free =>
      cases made
      simp only [Bool.and_eq_true, Option.isNone_iff_eq_none] at free
      obtain ⟨last, -, directory | ⟨-, parent, rfl, room⟩⟩ := ends_locate tree located
      · simp [free.2] at directory
      · exact grows_put_directory tree room free.2
    · cases made

theorem grows_ensureDirectory (tree : files.IsTree) (path : Path) :
    Grows fresh files (files.ensureDirectory path).1 := by
  unfold ensureDirectory
  split
  · next made => exact grows_makeDirectory tree made
  · exact .refl tree

theorem grows_makeAround (tree : files.IsTree) (bound : Nat) (path : Path) :
    Grows fresh files (files.makeAround bound path).1 := by
  induction bound generalizing path with
  | zero =>
      unfold makeAround
      split
      · exact .refl tree
      · exact grows_ensureDirectory tree path
  | succ bound ih =>
      unfold makeAround
      split
      · exact .refl tree
      · split
        · next less _ step _ =>
          obtain rfl : bound = less := by simpa using step
          split
          · exact .refl tree
          · next parent _ =>
            have around := ih parent
            split
            · next made equal =>
              rw [equal] at around
              exact around.trans (grows_ensureDirectory around.tree path)
            · exact around
        · exact grows_ensureDirectory tree path

theorem grows_makeDirectories (tree : files.IsTree) (path : Path) :
    Grows fresh files (files.makeDirectories path).1 :=
  grows_makeAround tree _ path

theorem IsTree.place (tree : files.IsTree) (path : Path) (text : String) :
    (files.place path text).IsTree := by
  have made : Grows (fun _ => True) files
      (files.makeDirectories (path.parent?.getD ⟨""⟩)).1 := grows_makeDirectories tree _
  unfold FileSystem.place
  generalize files.makeDirectories (path.parent?.getD ⟨""⟩) = around at made ⊢
  obtain ⟨begun, result⟩ := around
  dsimp only at made ⊢
  cases written : begun.write path text with
  | ok after =>
      have put : Grows (fun _ => True) begun after := grows_write made.tree (by simp) written
      exact put.tree
  | error _ => exact made.tree

/-- Files placed one by one stand in a tree. -/
theorem isTree_ofFiles (contents : List (String × String)) : (ofFiles contents).IsTree := by
  have begins : IsTree {} := ⟨List.nodup_nil, List.forall_mem_nil _, rfl⟩
  unfold ofFiles
  generalize ({} : FileSystem) = files at begins ⊢
  induction contents generalizing files with
  | nil => exact begins
  | cons file contents ih =>
      rw [List.foldl_cons]
      exact ih (files.place ⟨file.1⟩ file.2) (begins.place ⟨file.1⟩ file.2)

end FileSystem

end ScriptBridge

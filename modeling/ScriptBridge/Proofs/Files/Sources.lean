import ScriptBridge.Discovery
import ScriptBridge.Proofs.Files.Tree
import Mathlib.Data.List.Sort

/-!
# Sources of a growing tree

The files below a directory are listed in the order of their locations, and a file
is listed if every directory on the way to it is entered.  So the list depends on
nothing but the files that there are, and a tree that grows by files that are no
sources keeps its sources.
-/

namespace ScriptBridge

namespace FileSystem

variable {files : FileSystem}

theorem nameIn?_eq_some {directory location : FileLocation} {name : String} :
    nameIn? directory location = some name ↔ location = directory ++ [name] := by
  unfold nameIn?
  constructor
  · intro found
    split at found
    · next inside =>
      simp only [Bool.and_eq_true, decide_eq_true_eq, List.isPrefixOf_iff_prefix] at inside
      obtain ⟨⟨rest, rfl⟩, length⟩ := inside
      obtain ⟨last, rfl⟩ : ∃ last, rest = [last] := by
        rw [List.length_append] at length
        exact List.length_eq_one_iff.mp (by omega)
      simpa using found
    · cases found
  · rintro rfl
    simp [List.isPrefixOf_iff_prefix]

theorem mem_children {directory : FileLocation} {child : String × FileEntry} :
    child ∈ files.children directory ↔
      (directory ++ [child.1], child.2) ∈ files.entries.entries := by
  obtain ⟨name, entry⟩ := child
  simp only [children, List.mem_mergeSort, List.mem_filterMap, Option.map_eq_some_iff,
    nameIn?_eq_some, Prod.mk.injEq]
  constructor
  · rintro ⟨⟨location, listed⟩, member, found, rfl, rfl, rfl⟩
    exact member
  · exact fun member => ⟨_, member, name, rfl, rfl, rfl⟩

/-- The entries of a directory stand in the strict order of their names. -/
theorem children_sorted (tree : files.IsTree) (directory : FileLocation) :
    (files.children directory).Pairwise fun first second => first.1 < second.1 := by
  have distinct : (files.children directory).Pairwise fun first second =>
      first.1 ≠ second.1 := by
    have keys : files.entries.entries.Pairwise fun first second => first.1 ≠ second.1 :=
      List.pairwise_map.mp tree.nodup
    refine ((List.mergeSort_perm _ _).pairwise_iff
      fun different same => different same.symm).mpr ?_
    refine List.pairwise_filterMap.mpr (keys.imp ?_)
    rintro ⟨firstLocation, first⟩ ⟨secondLocation, second⟩ different _ firstNamed _ secondNamed same
    simp only [Option.map_eq_some_iff, nameIn?_eq_some] at firstNamed secondNamed
    obtain ⟨firstName, rfl, rfl⟩ := firstNamed
    obtain ⟨secondName, rfl, rfl⟩ := secondNamed
    exact different (by simpa using same)
  have ordered : (files.children directory).Pairwise fun first second =>
      (!(second.1 < first.1 : Bool)) = true := by
    refine List.pairwise_mergeSort ?_ ?_ _
    · intro first second third
      simp only [Bool.not_eq_true', decide_eq_false_iff_not, String.not_lt]
      exact String.le_trans
    · intro first second
      simp only [Bool.or_eq_true, Bool.not_eq_true', decide_eq_false_iff_not, String.not_lt]
      exact String.le_total _ _
  refine (ordered.and distinct).imp ?_
  rintro first second ⟨notAfter, different⟩
  simp only [Bool.not_eq_true', decide_eq_false_iff_not, String.not_lt] at notAfter
  exact String.not_le.mp fun back => different (String.le_antisymm notAfter back)

/-! ### Visits -/

/-- The directories on the way from a start are all entered, and a file stands at the
end. -/
def Reaches (files : FileSystem) (enters : FileLocation → Bool) (start : FileLocation) :
    FileLocation → List String → Prop
  | _, [] => False
  | inner, [name] => files.HasFile (start ++ (inner ++ [name]))
  | inner, name :: next :: rest =>
      files.entry? (start ++ (inner ++ [name])) = some .directory ∧
        enters (inner ++ [name]) = true ∧
        Reaches files enters start (inner ++ [name]) (next :: rest)

variable {enters : FileLocation → Bool} {start : FileLocation}

theorem Reaches.ne_nil {inner : FileLocation} {names : List String}
    (reaches : Reaches files enters start inner names) : names ≠ [] := by
  rintro rfl
  exact reaches

/-- The files of a visit are those that are reached within its bound. -/
theorem mem_visit (tree : files.IsTree) {bound : Nat} {inner found : FileLocation} :
    found ∈ files.visit enters start bound inner ↔
      ∃ names, found = inner ++ names ∧ names.length ≤ bound ∧
        Reaches files enters start inner names := by
  induction bound generalizing inner with
  | zero =>
      simp only [visit, List.not_mem_nil, Nat.le_zero, List.length_eq_zero_iff, false_iff]
      rintro ⟨names, -, rfl, reaches⟩
      exact reaches
  | succ bound ih =>
      simp only [visit, List.mem_flatMap, mem_children, Prod.exists]
      constructor
      · rintro ⟨name, entry, listed, member⟩
        have stands := entry?_of_mem tree (by simp) listed
        rw [List.append_assoc] at stands
        cases entry with
        | file text =>
            obtain rfl := List.mem_singleton.mp member
            exact ⟨[name], rfl, by simp, text, stands⟩
        | directory =>
            simp only at member
            split at member
            · next entered =>
              obtain ⟨names, rfl, short, reaches⟩ := ih.mp member
              refine ⟨name :: names, by simp, by simpa using short, ?_⟩
              cases names with
              | nil => exact absurd rfl reaches.ne_nil
              | cons next rest => exact ⟨stands, entered, reaches⟩
            · simp at member
      · rintro ⟨names, rfl, short, reaches⟩
        obtain _ | ⟨name, _ | ⟨next, rest⟩⟩ := names
        · exact absurd rfl reaches.ne_nil
        · obtain ⟨text, stands⟩ := reaches
          rw [← List.append_assoc] at stands
          exact ⟨name, .file text, entry?_eq_some (by simp) stands, by simp⟩
        · obtain ⟨stands, entered, reaches⟩ := reaches
          rw [← List.append_assoc] at stands
          refine ⟨name, .directory, entry?_eq_some (by simp) stands, ?_⟩
          simp only [entered, if_true]
          exact ih.mpr ⟨next :: rest, by simp, by simpa using short, reaches⟩

/-- The files that a visit finds at a child of a directory. -/
def foundAt (files : FileSystem) (enters : FileLocation → Bool) (start : FileLocation)
    (bound : Nat) (inner : FileLocation) (child : String × FileEntry) : List FileLocation :=
  match child.2 with
  | .file _ => [inner ++ [child.1]]
  | .directory =>
      if enters (inner ++ [child.1]) then files.visit enters start bound (inner ++ [child.1])
      else []

/-- A visit lists locations in strict order. -/
theorem visit_sorted (tree : files.IsTree) (bound : Nat) (inner : FileLocation) :
    (files.visit enters start bound inner).Pairwise (· < ·) := by
  have starts : ∀ (bound : Nat) (inner found : FileLocation),
      found ∈ files.visit enters start bound inner → ∃ rest, found = inner ++ rest := by
    intro bound inner found member
    obtain ⟨names, rfl, -⟩ := (mem_visit tree).mp member
    exact ⟨names, rfl⟩
  induction bound generalizing inner with
  | zero => exact .nil
  | succ bound ih =>
      refine List.pairwise_flatMap.mpr ⟨?_, (children_sorted tree _).imp ?_⟩
      · rintro ⟨name, entry⟩ -
        cases entry with
        | file text => exact List.pairwise_singleton _ _
        | directory =>
            simp only
            split
            · exact ih _
            · exact .nil
      · rintro ⟨firstName, firstEntry⟩ ⟨secondName, secondEntry⟩ before
        -- whatever is found below a name starts with it
        have below : ∀ (name : String) (entry : FileEntry) (found : FileLocation),
            found ∈ foundAt files enters start bound inner (name, entry) →
              ∃ rest, found = inner ++ (name :: rest) := by
          intro name entry found member
          cases entry with
          | file text => exact ⟨[], List.mem_singleton.mp member⟩
          | directory =>
              simp only [foundAt] at member
              split at member
              · obtain ⟨rest, rfl⟩ := starts _ _ _ member
                exact ⟨rest, by simp⟩
              · simp at member
        intro first firstMember second secondMember
        obtain ⟨firstRest, rfl⟩ := below _ _ _ firstMember
        obtain ⟨secondRest, rfl⟩ := below _ _ _ secondMember
        exact List.append_left_lt (List.cons_lt_cons_iff.mpr (.inl before))

/-- No file lies deeper than the depth of its tree. -/
theorem length_le_depth {location : FileLocation} {entry : FileEntry}
    (inner : location ≠ []) (found : files.entry? location = some entry) :
    location.length ≤ files.depth := by
  have deepest : ∀ (keys : List FileLocation) (start : Nat),
      start ≤ keys.foldl (fun deepest location => max deepest location.length) start ∧
        ∀ key ∈ keys, key.length ≤
          keys.foldl (fun deepest location => max deepest location.length) start := by
    intro keys
    induction keys with
    | nil => simp
    | cons key keys ih =>
        intro start
        have ⟨least, rest⟩ := ih (max start key.length)
        refine ⟨by simp only [List.foldl_cons]; omega, ?_⟩
        simp only [List.foldl_cons, List.forall_mem_cons]
        exact ⟨by omega, rest⟩
  have listed := List.mem_map_of_mem (f := Prod.fst) (entry?_eq_some inner found)
  exact (deepest _ 0).2 location listed

theorem Reaches.hasFile {inner : FileLocation} {names : List String}
    (reaches : Reaches files enters start inner names) :
    files.HasFile (start ++ (inner ++ names)) := by
  induction names generalizing inner with
  | nil => exact absurd rfl reaches.ne_nil
  | cons name rest ih =>
      cases rest with
      | nil => exact reaches
      | cons next rest => simpa using ih reaches.2.2

theorem mem_filesBelow (tree : files.IsTree) {found : FileLocation} :
    found ∈ files.filesBelow enters start ↔ Reaches files enters start [] found := by
  rw [filesBelow, mem_visit tree]
  constructor
  · rintro ⟨names, rfl, -, reaches⟩
    exact reaches
  · intro reaches
    obtain ⟨text, stands⟩ := reaches.hasFile
    have deep := length_le_depth (by simp [reaches.ne_nil]) stands
    simp only [List.nil_append, List.length_append] at deep
    exact ⟨found, rfl, by omega, reaches⟩

/-! ### Growing trees -/

variable {after : FileSystem} {fresh : String → Prop}

theorem Reaches.of_grows (grows : Grows fresh files after) {inner : FileLocation}
    {names : List String} (reaches : Reaches files enters start inner names) :
    Reaches after enters start inner names := by
  induction names generalizing inner with
  | nil => exact reaches
  | cons name rest ih =>
      cases rest with
      | nil => exact grows.file _ reaches
      | cons next rest =>
          exact ⟨grows.directory _ reaches.1, reaches.2.1, ih reaches.2.2⟩

/-- A file that was there before was reached before. -/
theorem Reaches.of_hasFile (tree : files.IsTree) {inner : FileLocation} {names : List String}
    (reaches : Reaches after enters start inner names)
    (old : files.HasFile (start ++ (inner ++ names))) :
    Reaches files enters start inner names := by
  induction names generalizing inner with
  | nil => exact reaches
  | cons name rest ih =>
      cases rest with
      | nil => exact old
      | cons next rest =>
          obtain ⟨text, stands⟩ := old
          have above : files.entry? (start ++ (inner ++ [name])) = some .directory :=
            tree.above (by simpa using stands) (List.cons_ne_nil next rest)
          exact ⟨above, reaches.2.1, ih reaches.2.2 ⟨text, by simpa using stands⟩⟩

theorem walk_of_grows (grows : Grows fresh files after) {location found : FileLocation}
    {pieces : List String} (walked : files.walk location pieces = .ok found) :
    after.walk location pieces = .ok found := by
  induction pieces generalizing location with
  | nil => exact walked
  | cons piece rest ih =>
      unfold walk at walked ⊢
      split at walked
      · cases walked
      · cases walked
      · next directory =>
        rw [grows.directory _ directory]
        exact ih walked

theorem locate_of_grows (grows : Grows fresh files after) {path : Path} {found : FileLocation}
    (located : files.locate path = .ok found) : after.locate path = .ok found := by
  unfold locate at located ⊢
  split at located
  · cases located
  · next isSome =>
    rw [if_neg isSome, startOf, grows.working]
    exact walk_of_grows grows located

theorem pathExists_of_read {path : Path} {text : String} (found : files.read path = .ok text) :
    files.pathExists path = true := by
  unfold read at found
  unfold pathExists
  split at found
  · next stands =>
    rw [stands]
    rfl
  · cases found
  · cases found

/-- A written file is read as it was written. -/
theorem read_of_write (grows : Grows fresh files after) {path : Path} {text : String}
    (written : files.write path text = .ok after) :
    after.read path = .ok text := by
  unfold write at written
  split at written
  · cases written
  · next location located =>
    split at written
    · cases written
    · next refused =>
      simp only [Bool.or_eq_true, decide_eq_true_eq, not_or, Bool.not_eq_true] at refused
      rw [withoutEndSlashes_of_not refused.1] at located
      have inner : location ≠ [] := by
        rintro rfl
        exact refused.2 rfl
      have stays := locate_of_grows grows located
      cases written
      simp only [read, lookUp, stays, entry?_put _ _ inner, if_true]

/-- The last name on the way to a source is the one that its extension is taken from. -/
theorem path_below_concat (input : Path) (parent : FileLocation) (name : String) :
    (SourceFile.below input (parent ++ [name])).path =
      (SourceFile.below input parent).path.join ⟨name⟩ := by
  simp [SourceFile.below]

/-- A tree that grows by files that are no sources keeps its sources. -/
theorem sources_of_grows (tree : files.IsTree) (grows : Grows fresh files after)
    (noSource : ∀ name, fresh name → ∀ base : Path, (base.join ⟨name⟩).isSource = false)
    {skip : SkipRules} {input : Path} {found : List SourceFile}
    (discovered : files.sources skip input = .ok found) :
    after.sources skip input = .ok found := by
  unfold sources at discovered ⊢
  split at discovered
  · cases discovered
  · next start located =>
    rw [locate_of_grows grows located]
    simp only
    split at discovered
    · cases discovered
    · next text stands =>
      obtain ⟨kept, stays⟩ := grows.file start ⟨text, stands⟩
      rw [stays]
      exact discovered
    · next stands =>
      rw [grows.directory start stands]
      simp only at discovered ⊢
      rw [← discovered]
      simp only [List.filter_map]
      congr 2
      refine List.Pairwise.eq_of_mem_iff ((visit_sorted grows.tree _ _).filter _)
        ((visit_sorted tree _ _).filter _) fun location => ?_
      rw [List.mem_filter, List.mem_filter]
      refine and_congr_left fun listed => ?_
      constructor
      · intro member
        have reaches := (mem_filesBelow grows.tree).mp member
        refine (mem_filesBelow tree).mpr (reaches.of_hasFile tree ?_)
        rcases grows.origin _ reaches.hasFile with same | ⟨parent, name, equal, named⟩
        · rw [HasFile, ← same]
          exact reaches.hasFile
        · -- a new file is no source
          obtain ⟨above, last, rfl⟩ := List.eq_nil_or_concat location
            |>.resolve_left reaches.ne_nil
          obtain ⟨-, rfl⟩ : _ ∧ last = name := by simpa [← List.append_assoc] using equal
          simp [path_below_concat, noSource last named] at listed
      · intro member
        exact (mem_filesBelow grows.tree).mpr (((mem_filesBelow tree).mp member).of_grows grows)

end FileSystem

end ScriptBridge

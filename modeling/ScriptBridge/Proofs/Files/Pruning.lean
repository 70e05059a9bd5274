import ScriptBridge.Proofs.Files.Targets

/-!
# Discovery without pruning

A directory that is left out is not entered, so that nothing below it is found.  The same
files are found when every directory is entered, all files are listed, and each file is left
out afterwards if a directory on the way to it would have been.
-/

namespace ScriptBridge

/-! ## Which files are kept -/

/-- The extension of sources in any case. -/
def anyCaseExtensions : List String :=
  ["as", "aS", "As", "AS"]

/-- A character with a given one in lower case is that one or its capital. -/
theorem eq_or_eq_of_toLower {character small capital : Char} (lower : character.toLower = small)
    (pair : capital.val + ('a'.val - 'A'.val) = small.val) :
    character = small ∨ character = capital := by
  unfold Char.toLower at lower
  split at lower
  · have sum := congrArg Char.val lower
    exact .inr (Char.ext ((UInt32.add_left_inj _).mp (sum.trans pair.symm)))
  · exact .inl lower

theorem Path.isSource_iff {path : Path} :
    path.isSource = true ↔ ∃ extension ∈ anyCaseExtensions, path.extension? = some extension := by
  unfold isSource
  cases path.extension? with
  | none => simp
  | some extension =>
      simp only [beq_iff_eq, Option.some.injEq, exists_eq_right']
      constructor
      · intro lower
        have two : extension.toList.length = 2 := by
          simpa [sourceExtension] using congrArg List.length lower
        obtain ⟨first, second, textEq⟩ := List.length_eq_two.mp two
        rw [textEq] at lower
        obtain ⟨isA, isS⟩ : first.toLower = 'a' ∧ second.toLower = 's' := by
          simpa [sourceExtension] using lower
        have ofLetters : extension = String.ofList [first, second] := by
          rw [← textEq, String.ofList_toList]
        rw [ofLetters]
        rcases @eq_or_eq_of_toLower _ _ 'A' isA rfl with rfl | rfl <;>
          rcases @eq_or_eq_of_toLower _ _ 'S' isS rfl with rfl | rfl <;> decide
      · revert extension
        decide

namespace SkipRules

/-- A rule fits on the path of a directory, as it is or with a slash at the end. -/
def LeavesOut (rule : WrittenPattern) (directory : FileLocation) : Prop :=
  rule.occursIn (relativeText directory) = true ∨
    rule.occursIn (relativeText directory ++ "/") = true

instance (rule : WrittenPattern) (directory : FileLocation) :
    Decidable (LeavesOut rule directory) :=
  inferInstanceAs (Decidable (_ ∨ _))

/-- A file below the input is kept: it has the extension of sources, no directory between
the input and the file is left out, and neither is the file. -/
structure Keeps (skip : SkipRules) (input : Path) (location : FileLocation) : Prop where
  extension : ∃ extension ∈ anyCaseExtensions,
    (SourceFile.below input location).path.extension? = some extension
  directories : ∀ length < location.length, 0 < length → ∀ rule ∈ skip.directories,
    ¬ LeavesOut rule (location.take length)
  file : ∀ rule ∈ skip.files, ¬ rule.occursIn (relativeText location) = true

instance (skip : SkipRules) (input : Path) (location : FileLocation) :
    Decidable (skip.Keeps input location) :=
  decidable_of_iff
    ((∃ extension ∈ anyCaseExtensions,
        (SourceFile.below input location).path.extension? = some extension) ∧
      (∀ length < location.length, 0 < length → ∀ rule ∈ skip.directories,
        ¬ LeavesOut rule (location.take length)) ∧
      ∀ rule ∈ skip.files, ¬ rule.occursIn (relativeText location) = true)
    ⟨fun ⟨extension, directories, file⟩ => ⟨extension, directories, file⟩,
      fun ⟨extension, directories, file⟩ => ⟨extension, directories, file⟩⟩

theorem skipsDirectory_eq_false {skip : SkipRules} {directory : FileLocation} :
    skip.skipsDirectory (relativeText directory) = false ↔
      ∀ rule ∈ skip.directories, ¬ LeavesOut rule directory := by
  simp [skipsDirectory, LeavesOut]

theorem skipsFile_eq_false {skip : SkipRules} {path : String} :
    skip.skipsFile path = false ↔ ∀ rule ∈ skip.files, ¬ rule.occursIn path = true := by
  simp [skipsFile]

end SkipRules

/-! ## The order of files -/

/-- The ways to two files part at a directory, and the first goes on with the smaller
name. -/
def ComesBefore (first second : FileLocation) : Prop :=
  ∃ directory name rest other others, first = directory ++ name :: rest ∧
    second = directory ++ other :: others ∧ name < other

theorem comesBefore_of_lt {first second : FileLocation} (less : first < second)
    (apart : ¬ first <+: second) : ComesBefore first second := by
  induction first generalizing second with
  | nil => exact absurd List.nil_prefix apart
  | cons name rest ih =>
      cases second with
      | nil => exact absurd less (List.not_lt_nil _)
      | cons other others =>
          rcases List.cons_lt_cons_iff.mp less with smaller | ⟨rfl, later⟩
          · exact ⟨[], name, rest, other, others, rfl, rfl, smaller⟩
          · obtain ⟨directory, firstName, firstRest, secondName, secondRest, rfl, rfl, smaller⟩ :=
              ih later fun within => apart (List.cons_prefix_cons.mpr ⟨rfl, within⟩)
            exact ⟨name :: directory, firstName, firstRest, secondName, secondRest, rfl, rfl,
              smaller⟩

namespace FileSystem

variable {files : FileSystem} {enters : FileLocation → Bool} {start : FileLocation}

/-- A file is reached if every directory on the way to it is entered. -/
theorem reaches_iff (tree : files.IsTree) {inner : FileLocation} {names : List String} :
    Reaches files enters start inner names ↔
      names ≠ [] ∧ files.HasFile (start ++ (inner ++ names)) ∧
        ∀ length < names.length, 0 < length → enters (inner ++ names.take length) = true := by
  induction names generalizing inner with
  | nil => simp [Reaches]
  | cons name rest ih =>
      cases rest with
      | nil => simp [Reaches]
      | cons next rest =>
          rw [Reaches, ih]
          constructor
          · rintro ⟨-, entered, -, hasFile, others⟩
            refine ⟨List.cons_ne_nil _ _, by simpa using hasFile, fun length isShort isSome => ?_⟩
            obtain _ | _ | length := length
            · exact absurd isSome (Nat.lt_irrefl 0)
            · exact entered
            · simpa using others (length + 1) (Nat.lt_of_succ_lt_succ isShort) (Nat.succ_pos _)
          · rintro ⟨-, hasFile, all⟩
            have atEnd : files.HasFile (start ++ (inner ++ [name] ++ next :: rest)) := by
              simpa using hasFile
            obtain ⟨text, stands⟩ := atEnd
            refine ⟨?_, all 1 (by simp) Nat.one_pos, List.cons_ne_nil _ _, ⟨text, stands⟩, ?_⟩
            · rw [← List.append_assoc] at stands
              exact tree.above stands (List.cons_ne_nil next rest)
            · intro length isShort isSome
              simpa using all (length + 1) (Nat.succ_lt_succ isShort) (Nat.succ_pos _)

/-- The locations of all files below a directory. -/
def allBelow (files : FileSystem) (start : FileLocation) : List FileLocation :=
  files.filesBelow (fun _ => true) start

theorem mem_allBelow (tree : files.IsTree) {location : FileLocation} :
    location ∈ files.allBelow start ↔ location ≠ [] ∧ files.HasFile (start ++ location) := by
  rw [allBelow, mem_filesBelow tree, reaches_iff tree]
  simp

/-- Files are listed in the order of a walk that goes through the entries of each directory
in the order of their names, and through a directory where it stands among them. -/
theorem allBelow_comesBefore (tree : files.IsTree) :
    (files.allBelow start).Pairwise ComesBefore := by
  refine List.Pairwise.imp_of_mem ?_ (visit_sorted tree _ _)
  intro first second isFirst isSecond less
  refine comesBefore_of_lt less ?_
  rintro ⟨rest, rfl⟩
  obtain ⟨-, text, stands⟩ := (mem_allBelow tree).mp isFirst
  obtain ⟨-, later, laterStands⟩ := (mem_allBelow tree).mp isSecond
  have isSome : rest ≠ [] := by
    rintro rfl
    rw [List.append_nil] at less
    exact absurd less (List.lt_irrefl _)
  rw [← List.append_assoc] at laterStands
  -- the first would be a directory above the second
  have above := tree.above laterStands isSome
  rw [stands] at above
  cases above

/-- The files that are found are those of all files below the input that are kept, each
once and in the order of the walk. -/
theorem sources_eq_filter (tree : files.IsTree) {skip : SkipRules} {input : Path}
    (located : files.locate input = .ok start)
    (directory : files.entry? start = some .directory) :
    files.sources skip input =
        .ok (((files.allBelow start).filter fun location => skip.Keeps input location).map
          (SourceFile.below input)) ∧
      (∀ location, location ∈ files.allBelow start ↔
        location ≠ [] ∧ files.HasFile (start ++ location)) ∧
      (files.allBelow start).Nodup ∧ (files.allBelow start).Pairwise ComesBefore := by
  refine ⟨?_, fun location => mem_allBelow tree, (visit_sorted tree _ _).imp ?_,
    allBelow_comesBefore tree⟩
  swap
  · rintro first _ less rfl
    exact List.lt_irrefl first less
  unfold sources
  rw [located]
  simp only [directory, List.filter_map]
  refine congrArg (Except.ok ∘ List.map (SourceFile.below input)) ?_
  refine List.Pairwise.eq_of_mem_iff ((visit_sorted tree _ _).filter _)
    ((visit_sorted tree _ _).filter _) fun location => ?_
  rw [List.mem_filter, List.mem_filter, mem_allBelow tree, mem_filesBelow tree,
    reaches_iff tree]
  simp only [Function.comp, Bool.and_eq_true, Bool.not_eq_true', decide_eq_true_eq,
    Path.isSource_iff, SkipRules.skipsDirectory_eq_false, SkipRules.skipsFile_eq_false,
    List.nil_append]
  constructor
  · rintro ⟨⟨isSome, hasFile, directories⟩, extension, file⟩
    exact ⟨⟨isSome, hasFile⟩, extension, directories, file⟩
  · rintro ⟨⟨isSome, hasFile⟩, extension, directories, file⟩
    exact ⟨⟨isSome, hasFile, directories⟩, extension, file⟩

/-! ### A directory that is left out -/

/-- Sources in two directories. -/
def nestedTree : FileSystem where
  entries := ⟨[(["src"], .directory), (["src", "game"], .directory),
    (["src", "game", "Hero.AS"], .file ""), (["src", "game", "HeroPool.as"], .file ""),
    (["src", "ui"], .directory), (["src", "ui", "Button.as"], .file "")]⟩

/-- Rules for one of the directories and for one of the files in the other. -/
def nestedSkip : SkipRules where
  directories := (WrittenPattern.read? "^ui/").toList
  files := (WrittenPattern.read? "Pool\\.as$").toList

theorem nestedTree_allBelow :
    nestedTree.allBelow ["src"] =
      [["game", "Hero.AS"], ["game", "HeroPool.as"], ["ui", "Button.as"]] := by
  have depth : nestedTree.depth = 3 := by decide
  have children : nestedTree.children ["src"] = [("game", .directory), ("ui", .directory)] :=
    children_of_sorted (by decide) (by decide)
  have inGame : nestedTree.children ["src", "game"] =
      [("Hero.AS", .file ""), ("HeroPool.as", .file "")] :=
    children_of_sorted (by decide) (by decide)
  have inUi : nestedTree.children ["src", "ui"] = [("Button.as", .file "")] :=
    children_of_sorted (by decide) (by decide)
  simp [allBelow, filesBelow, depth, visit, children, inGame, inUi]

theorem sources_eq_filter_nested :
    nestedTree.IsTree ∧ nestedTree.locate ⟨"src"⟩ = .ok ["src"] ∧
      nestedTree.entry? ["src"] = some .directory ∧
      nestedTree.sources nestedSkip ⟨"src"⟩ =
        .ok [⟨⟨"src/game/Hero.AS"⟩, "game/Hero.AS"⟩] := by
  have ⟨tree, located, directory⟩ : nestedTree.IsTree ∧
      nestedTree.locate ⟨"src"⟩ = .ok ["src"] ∧
      nestedTree.entry? ["src"] = some .directory := by
    decide
  refine ⟨tree, located, directory, ?_⟩
  rw [(@sources_eq_filter nestedTree ["src"] tree nestedSkip ⟨"src"⟩ located directory).1,
    nestedTree_allBelow]
  decide +kernel

end FileSystem

end ScriptBridge

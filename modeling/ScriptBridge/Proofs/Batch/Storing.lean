import ScriptBridge.Proofs.Files.Within

/-!
# Storing texts one after another

After texts have been stored, each place holds the last one that was stored there, and all
other files are as they were.  At the places of files of a larger tree all texts can be
stored.  Whether or not storing succeeds, each place that changes then holds what the larger
tree has there: a directory or a file.
-/

namespace ScriptBridge

open FileSystem (Grows WrittenAt Within)

namespace FileSystem

variable {files middle after whole : FileSystem} {path : Path}

theorem read_of_isFile (there : files.isFile path = true) {text : String}
    (stands : files.textAt? (files.spelled path) = some text) : files.read path = .ok text := by
  obtain ⟨location, kept, located, found⟩ := isFile_iff.mp there
  obtain rfl := locate_eq_spelled located
  rw [textAt?_eq_some, found] at stands
  cases stands
  rw [read, lookUp_eq_ok.mpr ⟨_, located, found⟩]

theorem isFile_of_read {text : String} (read : files.read path = .ok text) :
    files.isFile path = true ∧ files.textAt? (files.spelled path) = some text := by
  obtain ⟨location, located, stands⟩ := place_of_read read
  have found := textAt?_eq_some.mp stands
  exact ⟨isFile_iff.mpr ⟨location, text, located, found⟩, locate_eq_spelled located ▸ stands⟩

theorem exists_read (there : files.isFile path = true) : ∃ text, files.read path = .ok text := by
  obtain ⟨location, text, located, stands⟩ := isFile_iff.mp there
  exact ⟨text, by rw [read, lookUp_eq_ok.mpr ⟨_, located, stands⟩]⟩

/-- The last piece of a path to a file is the name of the file. -/
theorem spelled_of_isFile (tree : files.IsTree) (there : files.isFile path = true) :
    ∃ parent, files.spelled path = parent ++ [path.lastPiece] := by
  obtain ⟨location, text, located, stands⟩ := isFile_iff.mp there
  obtain ⟨last, final, directory | ⟨-, parent, locationEq, -⟩⟩ := ends_locate tree located
  · rw [stands] at directory
    cases directory
  · rw [Path.getLast?_pieces, Option.some.injEq] at final
    exact ⟨parent, by rw [← locate_eq_spelled located, locationEq, final]⟩

theorem lastPiece_eq_of_spelled {other : Path} (tree : files.IsTree)
    (isFile : files.isFile path = true) (isOther : files.isFile other = true)
    (same : files.spelled path = files.spelled other) : path.lastPiece = other.lastPiece := by
  obtain ⟨above, placed⟩ := spelled_of_isFile tree isFile
  obtain ⟨beside, placedOther⟩ := spelled_of_isFile tree isOther
  rw [placed, placedOther] at same
  exact (List.append_inj' same rfl).2 |> List.singleton_inj.mp

theorem spelled_of_working (same : files.working = after.working) (path : Path) :
    files.spelled path = after.spelled path := by
  rw [spelled, spelled, startOf, startOf, same]

/-- The last of some texts that is stored at a place. -/
def storedAt (files : FileSystem) : List (Path × String) → FileLocation → Option String
  | [], _ => none
  | (path, text) :: rest, location =>
      (files.storedAt rest location).or (if files.spelled path = location then some text else none)

@[simp] theorem storedAt_nil (location : FileLocation) : files.storedAt [] location = none := rfl

@[simp] theorem storedAt_cons (stored : Path × String) (rest : List (Path × String))
    (location : FileLocation) :
    files.storedAt (stored :: rest) location = (files.storedAt rest location).or
      (if files.spelled stored.1 = location then some stored.2 else none) := rfl

theorem storedAt_append (first second : List (Path × String)) (location : FileLocation) :
    files.storedAt (first ++ second) location =
      (files.storedAt second location).or (files.storedAt first location) := by
  induction first with
  | nil => simp
  | cons stored first ih =>
      rw [List.cons_append, storedAt_cons, ih, storedAt_cons, Option.or_assoc]

theorem storedAt_eq_none {writes : List (Path × String)} {location : FileLocation} :
    files.storedAt writes location = none ↔
      ∀ stored ∈ writes, files.spelled stored.1 ≠ location := by
  induction writes with
  | nil => simp
  | cons stored writes ih =>
      by_cases here : files.spelled stored.1 = location <;> simp [ih, here]

/-- Of several items that each store one text, the last one at a place counts. -/
theorem storedAt_map {Item : Type} (path : Item → Path) (text : Item → String) (items : List Item)
    (location : FileLocation) :
    files.storedAt (items.map fun item => (path item, text item)) location =
      (items.reverse.find? fun item => files.spelled (path item) = location).map text := by
  induction items with
  | nil => rfl
  | cons item items ih =>
      rw [List.map_cons, storedAt_cons, ih, List.reverse_cons, List.find?_append]
      cases items.reverse.find? fun item => files.spelled (path item) = location with
      | some kept => rfl
      | none =>
          by_cases here : files.spelled (path item) = location <;> simp [here]

theorem storedAt_map_congr {Item : Type} {path other : Item → Path} {text otherText : Item → String}
    {items : List Item} {location : FileLocation}
    (same : ∀ item ∈ items, files.spelled (path item) = after.spelled (other item))
    (alike : ∀ item ∈ items, files.spelled (path item) = location → text item = otherText item) :
    files.storedAt (items.map fun item => (path item, text item)) location =
      after.storedAt (items.map fun item => (other item, otherText item)) location := by
  induction items with
  | nil => rfl
  | cons item items ih =>
      obtain ⟨here, same⟩ := List.forall_mem_cons.mp same
      obtain ⟨alikeHere, alike⟩ := List.forall_mem_cons.mp alike
      rw [List.map_cons, List.map_cons, storedAt_cons, storedAt_cons, ih same alike, ← here]
      by_cases placed : files.spelled (path item) = location
      · rw [alikeHere placed]
      · rw [if_neg placed, if_neg placed]

/-- Where only one text of each item matters, the others can be left out. -/
theorem storedAt_flatMap {Item : Type} {writes : Item → List (Path × String)}
    {kept : Item → Path × String} {items : List Item} {location : FileLocation}
    (elsewhere : ∀ item ∈ items,
      files.storedAt (writes item) location = files.storedAt [kept item] location) :
    files.storedAt (items.flatMap writes) location =
      files.storedAt (items.map kept) location := by
  induction items with
  | nil => rfl
  | cons item items ih =>
      obtain ⟨here, elsewhere⟩ := List.forall_mem_cons.mp elsewhere
      have apart : kept item :: items.map kept = [kept item] ++ items.map kept := rfl
      rw [List.flatMap_cons, storedAt_append, here, ih elsewhere, List.map_cons, apart,
        storedAt_append]

theorem storedAt_congr (sameWorking : files.working = after.working)
    (writes : List (Path × String)) (location : FileLocation) :
    files.storedAt writes location = after.storedAt writes location := by
  induction writes with
  | nil => rfl
  | cons stored writes ih => rw [storedAt_cons, storedAt_cons, ih, spelled_of_working sameWorking]

end FileSystem

namespace Run

variable {files middle after whole : FileSystem} {path : Path}

/-- Store texts one after another. -/
def storeAll : List (Path × String) → Run Unit
  | [] => pure ()
  | (path, text) :: rest => do
      Run.store path text
      storeAll rest

theorem storeAll_cons_eq_ok {text : String} {rest : List (Path × String)} :
    storeAll ((path, text) :: rest) files = .ok () after ↔
      ∃ middle, Run.store path text files = .ok () middle ∧
        storeAll rest middle = .ok () after := by
  rw [storeAll, bind_eq_ok]
  exact ⟨fun ⟨_, middle, stored, later⟩ => ⟨middle, stored, later⟩,
    fun ⟨middle, stored, later⟩ => ⟨(), middle, stored, later⟩⟩

theorem storeAll_append_eq_ok {first second : List (Path × String)} :
    storeAll (first ++ second) files = .ok () after ↔
      ∃ middle, storeAll first files = .ok () middle ∧ storeAll second middle = .ok () after := by
  induction first generalizing files with
  | nil => exact ⟨fun stored => ⟨files, rfl, stored⟩, fun ⟨_, rfl, stored⟩ => stored⟩
  | cons stored first ih =>
      obtain ⟨path, text⟩ := stored
      simp only [List.cons_append, storeAll_cons_eq_ok, ih]
      constructor
      · rintro ⟨middle, here, further, inFront, behind⟩
        exact ⟨further, ⟨middle, here, inFront⟩, behind⟩
      · rintro ⟨further, ⟨middle, here, inFront⟩, behind⟩
        exact ⟨middle, here, further, inFront, behind⟩

/-- A stored text stands at its place, and nothing else has been written. -/
theorem store_spec (tree : files.IsTree) {text : String}
    (stored : Run.store path text files = .ok () after) :
    Grows (· = path.lastPiece) files after ∧ after.isFile path = true ∧
      ∀ location, after.textAt? location =
        (if files.spelled path = location then some text else none).or
          (files.textAt? location) := by
  have read := read_of_store tree stored
  have grown := ((GrowsTo.store text (fun _ => rfl) :
    GrowsTo (· = path.lastPiece) _ _).succeeds _ _ _ tree stored).1
  refine ⟨grown, (FileSystem.isFile_of_read read).1, fun location => ?_⟩
  have sameSpelled : after.spelled path = files.spelled path := grown.within.spelled_eq path |>.symm
  split
  · next here =>
    rw [← here, ← sameSpelled, (FileSystem.isFile_of_read read).2]
    rfl
  · next other =>
    have written : WrittenAt (· = path) files after :=
      ((@stores_writtenAt (· = path) path rfl text).succeeds _ _ _ tree stored).1
    refine written.elsewhere location ?_
    rintro _ rfl located
    exact other (sameSpelled ▸ (FileSystem.locate_eq_spelled located).symm)

/-- Texts that have been stored stand at their places, the last one where there are several. -/
theorem storeAll_spec {writes : List (Path × String)} (tree : files.IsTree)
    (stored : storeAll writes files = .ok () after) :
    Grows (fun name => ∃ stored ∈ writes, name = stored.1.lastPiece) files after ∧
      (∀ stored ∈ writes, after.isFile stored.1 = true) ∧
      ∀ location, after.textAt? location =
        (files.storedAt writes location).or (files.textAt? location) := by
  induction writes generalizing files with
  | nil =>
      cases stored
      exact ⟨.refl tree, nofun, fun _ => rfl⟩
  | cons first writes ih =>
      obtain ⟨path, text⟩ := first
      obtain ⟨middle, here, later⟩ := storeAll_cons_eq_ok.mp stored
      obtain ⟨grown, isThere, textsHere⟩ := store_spec tree here
      obtain ⟨further, areThere, texts⟩ := ih grown.tree later
      refine ⟨(grown.mono ?_).trans (further.mono ?_), ?_, fun location => ?_⟩
      · rintro name rfl
        exact ⟨_, List.mem_cons_self, rfl⟩
      · rintro name ⟨other, isOther, rfl⟩
        exact ⟨other, List.mem_cons_of_mem _ isOther, rfl⟩
      · exact List.forall_mem_cons.mpr ⟨further.within.isFile isThere, areThere⟩
      · rw [texts, textsHere, FileSystem.storedAt_cons, Option.or_assoc,
          FileSystem.storedAt_congr grown.working]

theorem isFile_of_stored {writes : List (Path × String)} {text : String} (tree : files.IsTree)
    (stored : storeAll writes files = .ok () after) (listed : (path, text) ∈ writes) :
    after.isFile path = true :=
  (storeAll_spec tree stored).2.1 (path, text) listed

/-- Texts can be stored where a larger tree has files. -/
theorem storeAll_within {writes : List (Path × String)} (tree : files.IsTree)
    (treeWhole : whole.IsTree) (within : Within files whole)
    (there : ∀ stored ∈ writes, whole.isFile stored.1 = true) :
    ∃ after, storeAll writes files = .ok () after ∧ Within after whole := by
  induction writes generalizing files with
  | nil => exact ⟨files, rfl, within⟩
  | cons first writes ih =>
      obtain ⟨path, text⟩ := first
      obtain ⟨here, there⟩ := List.forall_mem_cons.mp there
      obtain ⟨middle, stored, inside⟩ := within.store tree treeWhole here text
      obtain ⟨after, later, done⟩ := ih (store_spec tree stored).1.tree inside there
      exact ⟨after, storeAll_cons_eq_ok.mpr ⟨middle, stored, later⟩, done⟩

end Run

/-! ### Changes toward a larger tree -/

namespace FileSystem

variable {files middle after whole : FileSystem} {path : Path}

/-- A tree has grown, and what has changed is there as in a larger tree. -/
structure Toward (whole files after : FileSystem) : Prop where
  grows : Grows (fun _ => True) files after
  kinds : files.working = whole.working → ∀ location,
    after.entry? location = files.entry? location ∨
      (after.entry? location = some .directory ∧ whole.entry? location = some .directory) ∨
      (after.HasFile location ∧ whole.HasFile location)

namespace Toward

theorem refl (tree : files.IsTree) : Toward whole files files :=
  ⟨.refl tree, fun _ _ => .inl rfl⟩

theorem trans (first : Toward whole files middle) (second : Toward whole middle after) :
    Toward whole files after where
  grows := first.grows.trans second.grows
  kinds sameWorking location := by
    rcases second.kinds (first.grows.working.trans sameWorking) location with same | other
    · rcases first.kinds sameWorking location with before | directory | file
      · exact .inl (same.trans before)
      · exact .inr (.inl ⟨same.trans directory.1, directory.2⟩)
      · exact .inr (.inr ⟨second.grows.file location file.1, file.2⟩)
    · exact .inr other

instance (whole : FileSystem) : Evolution (Toward whole) where
  refl := .refl
  trans := .trans
  tree toward := toward.grows.tree

/-- What is put where the larger tree has the same kind of entry. -/
theorem put {location : FileLocation} {entry : FileEntry} (isSome : location ≠ [])
    (grown : Grows (fun _ => True) files (files.put location entry))
    (same : files.working = whole.working →
      (entry = .directory ∧ whole.entry? location = some .directory) ∨
        (entry ≠ .directory ∧ whole.HasFile location)) :
    Toward whole files (files.put location entry) where
  grows := grown
  kinds sameWorking other := by
    rw [entry?_put _ _ isSome]
    split
    · next here =>
      subst here
      rcases same sameWorking with ⟨rfl, directory⟩ | ⟨notDirectory, file⟩
      · exact .inr (.inl ⟨rfl, directory⟩)
      · refine .inr (.inr ⟨?_, file⟩)
        cases entry with
        | file text => exact ⟨text, by rw [entry?_put _ _ isSome, if_pos rfl]⟩
        | directory => exact absurd rfl notDirectory
    · exact .inl rfl

theorem ensureDirectory (tree : files.IsTree) (there : whole.lookUp path = .ok .directory)
    (ends : Path.isSolid path.lastPiece = true ∨ path.solid = []) :
    Toward whole files (files.ensureDirectory path).1 := by
  obtain ⟨place, placed, directory⟩ := lookUp_eq_ok.mp there
  rcases ends with leads | isNil
  · have noSlash : endsWithSlash path = false := Path.endsWithSlash_of_solid leads
    have grown : Grows (fun _ => True) files (files.ensureDirectory path).1 :=
      grows_ensureDirectory tree path
    unfold FileSystem.ensureDirectory at grown ⊢
    cases made : files.makeDirectory path with
    | error cause => exact .refl tree
    | ok after =>
        rw [made] at grown
        simp only [makeDirectory, withoutEndSlashes_of_not noSlash] at made
        split at made
        · cases made
        · next location located =>
          split at made
          · next free =>
            cases made
            have isSome : location ≠ [] := by
              rintro rfl
              simp at free
            refine put isSome grown fun sameWorking => .inl ⟨rfl, ?_⟩
            rwa [locate_eq_spelled located, spelled_of_working sameWorking,
              ← locate_eq_spelled placed]
          · cases made
  · cases isEmpty : path.isEmpty with
    | true =>
        rw [locate, isEmpty] at placed
        cases placed
    | false =>
        rw [ensureDirectory_of_directory (lookUp_of_solid_nil tree isEmpty isNil)]
        exact .refl tree

theorem makeAround (tree : files.IsTree) (treeWhole : whole.IsTree) {bound : Nat}
    (there : whole.lookUp path = .ok .directory)
    (ends : Path.isSolid path.lastPiece = true ∨ path.solid = []) :
    Toward whole files (files.makeAround bound path).1 := by
  induction bound generalizing path files with
  | zero =>
      obtain ⟨isSome, -⟩ := (lookUp_directory_iff treeWhole).mp there
      unfold FileSystem.makeAround
      rw [isSome, if_neg Bool.false_ne_true]
      exact ensureDirectory tree there ends
  | succ bound ih =>
      obtain ⟨isSome, place, walked, -⟩ := (lookUp_directory_iff treeWhole).mp there
      by_cases missing : (files.ensureDirectory path).2 = .error .notFound
      · rcases ends with leads | isNil
        · have solidSome : path.solid ≠ [] := List.ne_nil_of_mem (List.mem_filter.mpr
            ⟨List.mem_of_getLast? (Path.getLast?_pieces path), leads⟩)
          obtain ⟨above, parentEq, isParent⟩ := Path.exists_isParent solidSome
          have around : Toward whole files (files.makeAround bound above).1 := by
            cases isEmpty : above.isEmpty with
            | true =>
                unfold FileSystem.makeAround
                rw [if_pos isEmpty]
                exact .refl tree
            | false =>
                exact ih tree (lookUp_above treeWhole isParent walked isEmpty)
                  (isParent.ends.resolve_left (by simp [isEmpty]))
          obtain ⟨unchanged, ensured⟩ : ∃ unchanged,
              files.ensureDirectory path = (unchanged, .error .notFound) :=
            ⟨_, Prod.ext rfl missing⟩
          unfold FileSystem.makeAround
          rw [isSome, if_neg Bool.false_ne_true, ensured]
          simp only [parentEq]
          generalize madeEq : files.makeAround bound above = made at around ⊢
          obtain ⟨made, _ | _⟩ := made
          · exact around
          · exact around.trans (ensureDirectory around.grows.tree there (.inl leads))
        · rw [ensureDirectory_of_directory (lookUp_of_solid_nil tree isSome isNil)] at missing
          cases missing
      · rw [makeAround_of_ensured isSome missing]
        exact ensureDirectory tree there ends

end Toward

end FileSystem

/-- Storing at a path that leads to a file in a larger tree changes others toward it. -/
theorem Run.stores_toward {whole : FileSystem} {path : Path} (treeWhole : whole.IsTree)
    (there : whole.isFile path = true) : Run.Stores (FileSystem.Toward whole) path := by
  intro text
  have named := FileSystem.named_of_file treeWhole there
  have leads := Path.isSolid_of_name named
  obtain ⟨place, old, placed, stands⟩ := FileSystem.isFile_iff.mp there
  have walked := placed
  rw [FileSystem.locate_of_solid leads] at walked
  have solidSome : path.solid ≠ [] := List.ne_nil_of_mem (List.mem_filter.mpr
    ⟨List.mem_of_getLast? (Path.getLast?_pieces path), leads⟩)
  obtain ⟨above, parentEq, isParent⟩ := Path.exists_isParent solidSome
  have parents : Run.Evolves (FileSystem.Toward whole) (fun _ => True) (Run.makeParent path) := by
    cases isEmpty : above.isEmpty with
    | true =>
        simp only [Run.makeParent, parentEq, isEmpty]
        exact .pure trivial
    | false =>
        have around {files : FileSystem} (tree : files.IsTree) :
            FileSystem.Toward whole files (files.makeDirectories above).1 :=
          .makeAround tree treeWhole (FileSystem.lookUp_above treeWhole isParent walked isEmpty)
            (isParent.ends.resolve_left (by simp [isEmpty]))
        constructor
        · intro files value after tree equal
          rw [Run.makeParent_apply parentEq isEmpty] at equal
          split at equal <;> cases equal
          exact ⟨around tree, trivial⟩
        · intro files cause after tree equal
          rw [Run.makeParent_apply parentEq isEmpty] at equal
          split at equal <;> cases equal
          exact around tree
  refine parents.bind fun _ _ => ?_
  constructor
  · intro files value after tree equal
    rw [Run.change_write_apply] at equal
    split at equal
    · next written =>
      cases equal
      refine ⟨?_, trivial⟩
      have grown : Grows (fun _ => True) files after :=
        FileSystem.grows_write tree (fun _ _ _ => trivial) written
      simp only [FileSystem.write,
        FileSystem.withoutEndSlashes_of_not (Path.endsWithSlash_of_named named)] at written
      split at written
      · cases written
      · next location located =>
        split at written
        · cases written
        · next free =>
          cases written
          have isSome : location ≠ [] := by
            rintro rfl
            simp at free
          refine .put isSome grown fun sameWorking => .inr ⟨by simp, old, ?_⟩
          rwa [FileSystem.locate_eq_spelled located, FileSystem.spelled_of_working sameWorking,
            ← FileSystem.locate_eq_spelled placed]
    · cases equal
  · intro files cause after tree equal
    rw [Run.change_write_apply] at equal
    split at equal
    · cases equal
    · cases equal
      exact .refl tree

/-- Storing several texts changes trees as storing each of them does. -/
theorem Run.evolves_storeAll {Change : FileSystem → FileSystem → Prop}
    [FileSystem.Evolution Change] {writes : List (Path × String)}
    (stores : ∀ stored ∈ writes, Run.Stores Change stored.1) :
    Run.Evolves Change (fun _ => True) (Run.storeAll writes) := by
  induction writes with
  | nil => exact .pure trivial
  | cons first writes ih =>
      obtain ⟨here, later⟩ := List.forall_mem_cons.mp stores
      exact (here first.2).bind fun _ _ => ih later

end ScriptBridge

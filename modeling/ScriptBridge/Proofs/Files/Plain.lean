import ScriptBridge.Proofs.Batch.Growth
import ScriptBridge.Proofs.Files.Climb
import Mathlib.Data.List.Infix

/-!
# Plain paths

A path may go up first, and then it goes down through names.  If it does not go up from
a directory that is missing, and ends with a name, it is told by its pieces alone where it
leads.  Whether a file can be read or written there, and whether the directories around it
can be made, depends on nothing but the files on the way and what stands at its end.
-/

namespace ScriptBridge

namespace FileSystem

open ScriptBridge.Path (isName isSolid)

variable {files after : FileSystem} {path : Path}

/-! ### Walking -/

theorem walk_append (files : FileSystem) (start : FileLocation) (pieces more : List String) :
    files.walk start (pieces ++ more) =
      match files.walk start pieces with
      | .ok location => files.walk location more
      | .error cause => .error cause := by
  induction pieces generalizing start with
  | nil => rfl
  | cons piece rest ih =>
      rw [List.cons_append, walk, walk]
      split
      · rfl
      · rfl
      · exact ih _

/-- A walk ends where its pieces lead. -/
theorem walk_eq_foldl {start location : FileLocation} {pieces : List String}
    (walked : files.walk start pieces = .ok location) : location = pieces.foldl follow start := by
  induction pieces generalizing start with
  | nil => exact (Except.ok.inj walked).symm
  | cons piece rest ih =>
      rw [walk] at walked
      split at walked
      · cases walked
      · cases walked
      · exact ih walked

theorem walk_error {start : FileLocation} {pieces : List String} {cause : FileError}
    (walked : files.walk start pieces = .error cause) :
    cause = .notFound ∨ cause = .notADirectory := by
  induction pieces generalizing start with
  | nil => cases walked
  | cons piece rest ih =>
      rw [walk] at walked
      split at walked
      · exact .inl (Except.error.inj walked).symm
      · exact .inr (Except.error.inj walked).symm
      · exact ih walked

/-- A file that is in the way stays in the way. -/
theorem walk_notADirectory_of_grows {fresh : String → Prop} (grown : Grows fresh files after)
    {start : FileLocation} {pieces : List String}
    (walked : files.walk start pieces = .error .notADirectory) :
    after.walk start pieces = .error .notADirectory := by
  induction pieces generalizing start with
  | nil => cases walked
  | cons piece rest ih =>
      rw [walk] at walked ⊢
      split at walked
      · cases walked
      · next text stands =>
        obtain ⟨later, kept⟩ := grown.file _ ⟨text, stands⟩
        rw [kept]
      · next stands =>
        rw [grown.directory _ stands]
        exact ih walked

/-- Slashes and dots lead nowhere. -/
theorem walk_solid {pieces : List String} {last : String} (final : pieces.getLast? = some last)
    (leads : isSolid last = true) (start : FileLocation) :
    files.walk start pieces = files.walk start (pieces.filter isSolid) := by
  induction pieces generalizing start with
  | nil => rfl
  | cons piece rest ih =>
      by_cases isOne : isSolid piece = true
      · rw [List.filter_cons_of_pos isOne, walk, walk]
        cases rest with
        | nil => rfl
        | cons next rest => simp only [ih (by simpa using final)]
      · cases rest with
        | nil =>
            obtain rfl : piece = last := by simpa using final
            exact absurd leads isOne
        | cons next rest =>
            have stays : follow start piece = start := by
              have filler : piece = "" ∨ piece = "." := by
                by_contra other
                push Not at other
                exact isOne (by simp [isSolid, other])
              rw [follow, if_pos filler]
            have inFront : last ∈ (next :: rest).filter isSolid :=
              List.mem_filter.mpr ⟨List.mem_of_getLast? (by simpa using final), leads⟩
            obtain ⟨first, others, isRest⟩ := List.exists_cons_of_ne_nil
              (List.ne_nil_of_mem inFront)
            rw [List.filter_cons_of_neg isOne, walk, stays, ih (by simpa using final), isRest, walk]
            split <;> simp_all

/-- On the way down only names lead somewhere. -/
theorem walk_filter {pieces : List String} {last : String} (descends : ".." ∉ pieces)
    (final : pieces.getLast? = some last) (named : isName last = true) (start : FileLocation) :
    files.walk start pieces = files.walk start (pieces.filter isName) := by
  have sameFilter : pieces.filter isName = pieces.filter isSolid := by
    refine List.filter_congr fun piece member => ?_
    have notUp : piece ≠ ".." := fun isUp => descends (isUp ▸ member)
    simp [isName, isSolid, notUp]
  rw [sameFilter, walk_solid final (Path.isSolid_of_name named)]

/-- Whether a file stands at the location or on the way to it. -/
def isBlocked (files : FileSystem) (location : FileLocation) : Bool :=
  location.inits.any fun inner => (files.textAt? inner).isSome

/-- Whether something can be looked for in a directory. -/
def approach (files : FileSystem) (directory : FileLocation) : Except FileError Unit :=
  if files.entry? directory = some .directory then .ok ()
  else if files.isBlocked directory then .error .notADirectory
  else .error .notFound

theorem isBlocked_iff {location : FileLocation} :
    files.isBlocked location = true ↔ ∃ inner, inner <+: location ∧ files.HasFile inner := by
  unfold isBlocked
  rw [List.any_eq_true]
  simp only [List.mem_inits, Option.isSome_iff_exists, textAt?_eq_some, HasFile]

theorem eq_or_prefix_dropLast {inner location : FileLocation} (isInner : inner <+: location) :
    inner = location ∨ inner <+: location.dropLast := by
  obtain ⟨rest, rfl⟩ := isInner
  cases rest with
  | nil => exact .inl (List.append_nil _).symm
  | cons name rest =>
      rw [List.dropLast_append_of_ne_nil (List.cons_ne_nil _ _)]
      exact .inr (List.prefix_append _ _)

theorem not_isBlocked_of_directory (tree : files.IsTree) {location : FileLocation}
    (stands : files.entry? location = some .directory) : files.isBlocked location = false := by
  rw [← Bool.not_eq_true, isBlocked_iff]
  rintro ⟨inner, ⟨rest, rfl⟩, text, found⟩
  have above : files.entry? inner = some .directory := by
    cases rest with
    | nil => rwa [List.append_nil] at stands
    | cons name rest => exact tree.above stands (List.cons_ne_nil _ _)
  rw [found] at above
  cases above

theorem approach_of_directory {location : FileLocation}
    (stands : files.entry? location = some .directory) : files.approach location = .ok () :=
  if_pos stands

theorem approach_of_file (tree : files.IsTree) {location rest : FileLocation} {text : String}
    (stands : files.entry? location = some (.file text)) :
    files.approach (location ++ rest) = .error .notADirectory := by
  have closed : files.entry? (location ++ rest) ≠ some .directory := by
    intro inside
    cases rest with
    | nil =>
        rw [List.append_nil, stands] at inside
        cases inside
    | cons name rest =>
        have above := tree.above inside (List.cons_ne_nil _ _)
        rw [stands] at above
        cases above
  rw [approach, if_neg closed,
    if_pos (isBlocked_iff.mpr ⟨location, List.prefix_append _ _, text, stands⟩)]

theorem approach_of_none (tree : files.IsTree) {location rest : FileLocation}
    (stands : files.entry? location = none) (clear : files.isBlocked location.dropLast = false) :
    files.approach (location ++ rest) = .error .notFound := by
  have missing (inner : FileLocation) (entry : FileEntry) (longer : location <+: inner)
      (found : files.entry? inner = some entry) : False := by
    obtain ⟨rest, rfl⟩ := longer
    cases rest with
    | nil =>
        rw [List.append_nil, stands] at found
        cases found
    | cons name rest =>
        have above := tree.above found (List.cons_ne_nil _ _)
        rw [stands] at above
        cases above
  have free : files.isBlocked (location ++ rest) = false := by
    rw [← Bool.not_eq_true, isBlocked_iff] at clear ⊢
    rintro ⟨inner, isInner, text, found⟩
    rcases List.prefix_or_prefix_of_prefix isInner (List.prefix_append location rest) with
      shorter | longer
    · rcases eq_or_prefix_dropLast shorter with rfl | above
      · exact missing _ _ List.prefix_rfl found
      · exact clear ⟨inner, above, text, found⟩
    · exact missing _ _ longer found
  rw [approach, if_neg fun inside => missing _ _ (List.prefix_append _ _) inside, free,
    if_neg Bool.false_ne_true]

/-- A walk along names ends behind the last one, or at what is no directory. -/
theorem walk_names (tree : files.IsTree) {start names : FileLocation} {last : String}
    (areNames : ∀ name ∈ names ++ [last], isName name = true)
    (clear : files.isBlocked start.dropLast = false) :
    files.walk start (names ++ [last]) =
      (files.approach (start ++ names)).map fun _ => start ++ names ++ [last] := by
  have followed {location : FileLocation} {name : String} (named : isName name = true) :
      follow location name = location ++ [name] := by
    simp only [isName, Bool.and_eq_true, decide_eq_true_eq] at named
    simp [follow, named]
  induction names generalizing start with
  | nil =>
      rw [List.nil_append, walk]
      cases stands : files.entry? start with
      | none => rw [approach_of_none tree stands clear]; rfl
      | some entry =>
          cases entry with
          | directory =>
              rw [List.append_nil, approach_of_directory stands, followed (areNames last (by simp))]
              rfl
          | file text => rw [approach_of_file tree stands]; rfl
  | cons name names ih =>
      rw [List.cons_append, walk]
      cases stands : files.entry? start with
      | none => rw [approach_of_none tree stands clear]; rfl
      | some entry =>
          cases entry with
          | directory =>
              dsimp only
              rw [followed (areNames name (by simp)),
                ih (fun other member => areNames other (List.mem_cons_of_mem _ member))
                  (by rw [List.dropLast_concat]; exact not_isBlocked_of_directory tree stands),
                List.append_assoc start, List.singleton_append]
          | file text => rw [approach_of_file tree stands]; rfl


/-! ### Where plain paths lead -/

/-- The location that the pieces of a path spell out, whatever stands there. -/
def spelled (files : FileSystem) (path : Path) : FileLocation :=
  path.pieces.foldl follow (files.startOf path)

/-- A path does not go up from a directory that is missing. -/
def Climbs (files : FileSystem) (path : Path) : Prop :=
  files.walk (files.startOf path) path.climb ≠ .error .notFound

instance (files : FileSystem) (path : Path) : Decidable (files.Climbs path) :=
  inferInstanceAs (Decidable (_ ≠ _))

/-- A path that ends with a name and does not go up from a directory that is missing. -/
structure IsPlain (files : FileSystem) (path : Path) : Prop where
  named : isName path.lastPiece = true
  climbs : files.Climbs path

instance (files : FileSystem) (path : Path) : Decidable (files.IsPlain path) :=
  decidable_of_iff (isName path.lastPiece = true ∧ files.Climbs path)
    ⟨fun ⟨named, climbs⟩ => ⟨named, climbs⟩, fun ⟨named, climbs⟩ => ⟨named, climbs⟩⟩

/-- Whether a file is in the way before a path goes down. -/
def isBarred (files : FileSystem) (path : Path) : Bool :=
  !(files.walk (files.startOf path) path.climb).isOk

theorem startOf_of_grows {fresh : String → Prop} (grown : Grows fresh files after) (path : Path) :
    after.startOf path = files.startOf path := by
  rw [startOf, startOf, grown.working]

theorem spelled_of_grows {fresh : String → Prop} (grown : Grows fresh files after) (path : Path) :
    after.spelled path = files.spelled path := by
  rw [spelled, spelled, startOf_of_grows grown]

theorem foldl_follow_of_down {pieces : List String} (down : ".." ∉ pieces)
    (start : FileLocation) : pieces.foldl follow start = start ++ pieces.filter isName := by
  induction pieces generalizing start with
  | nil => simp
  | cons piece rest ih =>
      simp only [List.mem_cons, not_or] at down
      rw [List.foldl_cons, ih down.2, follow]
      by_cases filler : piece = "" ∨ piece = "."
      · have isNot : isName piece = false := by rcases filler with rfl | rfl <;> decide
        rw [if_pos filler, List.filter_cons_of_neg (by simp [isNot])]
      · have isOne : isName piece = true := by
          simp only [not_or] at filler
          simp [isName, filler, Ne.symm down.1]
        rw [if_neg filler, if_neg (Ne.symm down.1), List.filter_cons_of_pos isOne]
        simp

theorem spelled_eq (files : FileSystem) (path : Path) :
    files.spelled path = path.climb.foldl follow (files.startOf path) ++ path.namesBelow := by
  rw [spelled, path.pieces_eq, List.foldl_append, foldl_follow_of_down path.notMem_descent,
    Path.namesBelow]

/-- A path behind another one starts where that one does, goes up as far, and leads on from
where that one leads. -/
theorem spelled_join (files : FileSystem) (base : Path) {next : Path} (descends : next.Descends) :
    files.startOf (base.join next) = files.startOf base ∧
      (base.join next).climb = base.climb ∧
      files.spelled (base.join next) = files.spelled base ++ next.location := by
  obtain ⟨sameStart, front, joined, isBase⟩ := base.pieces_join descends.relative
  have start : files.startOf (base.join next) = files.startOf base := by
    rw [startOf, startOf, sameStart]
  have down : ∀ piece ∈ next.pieces, Path.isDown piece = true := by
    intro piece member
    rw [Path.isDown, decide_eq_true_eq]
    rintro rfl
    exact descends.descends member
  refine ⟨start, ?_, ?_⟩
  · rw [Path.climb, joined, (Path.rdropWhile_append_of_down front down).1, Path.climb]
    rcases isBase with isBase | isBase
    · rw [isBase]
    · rw [isBase, (Path.rdropWhile_append_of_down front (by decide)).1]
  · have ends : files.spelled base = front.foldl follow (files.startOf base) := by
      rw [spelled]
      rcases isBase with isBase | isBase
      · rw [isBase]
      · rw [isBase, List.foldl_append]
        rfl
    rw [spelled, joined, List.foldl_append, foldl_follow_of_down descends.descends, start, ends,
      Path.location]

theorem isPlain_join {base next : Path} (descends : next.Descends) (climbs : files.Climbs base) :
    files.IsPlain (base.join next) := by
  obtain ⟨sameStart, sameClimb, -⟩ := files.spelled_join base descends
  refine ⟨by rw [Path.lastPiece_join]; exact descends.named, ?_⟩
  rwa [Climbs, sameStart, sameClimb]

theorem startOf_directory (tree : files.IsTree) (path : Path) :
    files.entry? (files.startOf path) = some .directory := by
  unfold startOf
  split
  · rfl
  · exact tree.home

theorem climb_ends (path : Path) :
    path.climb = [] ∨ path.climb.getLast? = some ".." := by
  by_cases isNil : path.climb = []
  · exact .inl isNil
  · refine .inr ?_
    have last := List.rdropWhile_last_not Path.isDown path.pieces isNil
    rw [List.getLast?_eq_some_getLast isNil, Option.some.injEq]
    exact Decidable.not_not.mp fun other => last (decide_eq_true other)

/-- Where a path has gone up there is a directory. -/
theorem directory_of_climb (tree : files.IsTree) {base : FileLocation}
    (walked : files.walk (files.startOf path) path.climb = .ok base) :
    files.entry? base = some .directory := by
  rcases climb_ends path with isNil | last
  · rw [isNil] at walked
    cases walked
    exact startOf_directory tree path
  · rcases ends_walk tree last walked with directory | ⟨named, -⟩
    · exact directory
    · exact absurd named (by decide)

namespace IsPlain

variable (plain : files.IsPlain path)

include plain

theorem spelled_eq : files.spelled path =
    (files.spelled path).dropLast ++ [path.lastPiece] := by
  rw [FileSystem.spelled_eq, Path.namesBelow_of_named plain.named, ← List.append_assoc,
    List.dropLast_concat]

theorem spelled_ne_nil : files.spelled path ≠ [] := by
  rw [plain.spelled_eq]
  simp

theorem barred_or (tree : files.IsTree) :
    files.isBarred path = true ∧
        files.walk (files.startOf path) path.climb = .error .notADirectory ∨
      files.isBarred path = false ∧ ∃ base,
        files.walk (files.startOf path) path.climb = .ok base ∧
        files.entry? base = some .directory ∧ files.spelled path = base ++ path.namesBelow := by
  unfold isBarred
  cases walked : files.walk (files.startOf path) path.climb with
  | error cause =>
      rcases walk_error walked with rfl | rfl
      · exact absurd walked plain.climbs
      · exact .inl ⟨rfl, rfl⟩
  | ok base =>
      refine .inr ⟨rfl, base, rfl, directory_of_climb tree walked, ?_⟩
      rw [FileSystem.spelled_eq, ← walk_eq_foldl walked]

theorem later {fresh : String → Prop} (tree : files.IsTree) (grown : Grows fresh files after) :
    after.IsPlain path ∧ after.isBarred path = files.isBarred path := by
  have climbs : (files.walk (files.startOf path) path.climb).isOk =
      (after.walk (after.startOf path) path.climb).isOk ∧ after.Climbs path := by
    rw [Climbs, startOf_of_grows grown]
    rcases plain.barred_or tree with ⟨-, barred⟩ | ⟨-, base, walked, -⟩
    · rw [barred, walk_notADirectory_of_grows grown barred]
      exact ⟨rfl, nofun⟩
    · rw [walked, walk_of_grows grown walked]
      exact ⟨rfl, nofun⟩
  exact ⟨⟨plain.named, climbs.2⟩, by rw [isBarred, isBarred, climbs.1]⟩

end IsPlain

/-- Whether something can be looked for where a path leads. -/
def approachTo (files : FileSystem) (path : Path) : Except FileError Unit :=
  if files.isBarred path then .error .notADirectory
  else files.approach (files.spelled path).dropLast

theorem IsPlain.approachTo_later {fresh : String → Prop} (plain : files.IsPlain path)
    (tree : files.IsTree) (grown : Grows fresh files after) :
    after.approachTo path =
      if files.isBarred path then .error .notADirectory
      else after.approach (files.spelled path).dropLast := by
  rw [approachTo, (plain.later tree grown).2, spelled_of_grows grown]

/-- Where a plain path leads, if the directory that it leads through is there. -/
theorem locate_plain (tree : files.IsTree) (plain : files.IsPlain path) :
    files.locate path = (files.approachTo path).map fun _ => files.spelled path := by
  rw [locate, Path.isEmpty_of_named plain.named, if_neg Bool.false_ne_true, path.pieces_eq,
    walk_append, approachTo]
  rcases plain.barred_or tree with ⟨barred, walked⟩ | ⟨clear, base, walked, stands, spelledEq⟩
  · rw [barred, walked]
    rfl
  · rw [clear, if_neg Bool.false_ne_true, walked]
    dsimp only
    have areNames : ∀ name ∈ path.namesBelow, isName name = true :=
      fun _ member => (List.mem_filter.mp member).2
    have above := not_isBlocked_of_directory tree (tree.dropLast stands)
    rw [walk_filter path.notMem_descent (Path.getLast?_descent plain.named) plain.named]
    change files.walk base path.namesBelow = _
    rw [spelledEq, Path.namesBelow_of_named plain.named] at *
    rw [walk_names tree areNames above, ← List.append_assoc, List.dropLast_concat]

/-! ### Reading and writing -/

theorem read_plain (tree : files.IsTree) (plain : files.IsPlain path) :
    files.read path =
      match files.approachTo path with
      | .error cause => .error cause
      | .ok () =>
          match files.entry? (files.spelled path) with
          | some (.file text) => .ok text
          | some .directory => .error .isADirectory
          | none => .error .notFound := by
  rw [read, lookUp, locate_plain tree plain]
  cases files.approachTo path with
  | error cause => rfl
  | ok found =>
      simp only [Except.map]
      cases files.entry? (files.spelled path) with
      | none => rfl
      | some entry => cases entry <;> rfl

theorem write_plain (tree : files.IsTree) (plain : files.IsPlain path) (text : String) :
    files.write path text =
      match files.approachTo path with
      | .error cause => .error cause
      | .ok () =>
          if files.entry? (files.spelled path) = some .directory then .error .isADirectory
          else .ok (files.put (files.spelled path) (.file text)) := by
  have noSlash := Path.endsWithSlash_of_named plain.named
  rw [write, withoutEndSlashes_of_not noSlash, locate_plain tree plain, noSlash]
  cases files.approachTo path with
  | error cause => rfl
  | ok found => simp [Except.map]

/-! ### Making directories -/

theorem ensureDirectory_plain (tree : files.IsTree) (plain : files.IsPlain path) :
    files.ensureDirectory path =
      match files.approachTo path with
      | .error cause => (files, .error cause)
      | .ok () =>
          match files.entry? (files.spelled path) with
          | some .directory => (files, .ok ())
          | some (.file _) => (files, .error .alreadyExists)
          | none => (files.put (files.spelled path) .directory, .ok ()) := by
  have final : path.pieces.getLast?.all Path.isName = true := by
    rw [Path.getLast?_pieces]
    simp [plain.named]
  unfold ensureDirectory makeDirectory isDirectory lookUp
  dsimp only
  rw [withoutEndSlashes_of_not (Path.endsWithSlash_of_named plain.named), locate_plain tree plain,
    final]
  cases files.approachTo path with
  | error cause => rfl
  | ok found =>
      cases stands : files.entry? (files.spelled path) with
      | none => simp [Except.map, stands]
      | some entry => cases entry <;> simp [Except.map, stands]

/-- Whether directories can be made down to a location: no file is in the way. -/
def clearance (files : FileSystem) (location : FileLocation) : Except FileError Unit :=
  if files.isBlocked location.dropLast then .error .notADirectory
  else if files.isBlocked location then .error .alreadyExists
  else .ok ()

/-- Directories have been made down to a location, if no file is in the way. -/
def OpenedTo (location : FileLocation) (files after : FileSystem) : Prop :=
  ∀ inner, after.entry? inner =
    if files.isBlocked location = false ∧ inner <+: location then some .directory
    else files.entry? inner

theorem isBlocked_parent {location : FileLocation} (clear : files.isBlocked location = false) :
    files.isBlocked location.dropLast = false := by
  rw [← Bool.not_eq_true, isBlocked_iff] at clear ⊢
  rintro ⟨inner, isInner, found⟩
  exact clear ⟨inner, isInner.trans (List.dropLast_prefix _), found⟩

theorem clearance_of_clear {location : FileLocation} (clear : files.isBlocked location = false) :
    files.clearance location = .ok () := by
  rw [clearance, isBlocked_parent clear, clear, if_neg Bool.false_ne_true,
    if_neg Bool.false_ne_true]

theorem clearance_eq_ok {location : FileLocation} :
    files.clearance location = .ok () ↔ files.isBlocked location = false := by
  refine ⟨fun isOk => ?_, clearance_of_clear⟩
  unfold clearance at isOk
  split at isOk
  · cases isOk
  · split at isOk
    · cases isOk
    · next clear => exact Bool.eq_false_iff.mpr clear

theorem isBlocked_eq_false_of_parent {location : FileLocation}
    (clear : files.isBlocked location.dropLast = false) (free : ¬ files.HasFile location) :
    files.isBlocked location = false := by
  rw [← Bool.not_eq_true, isBlocked_iff] at clear ⊢
  rintro ⟨inner, isInner, found⟩
  rcases eq_or_prefix_dropLast isInner with rfl | above
  · exact free found
  · exact clear ⟨inner, above, found⟩

theorem entry?_of_prefix (tree : files.IsTree) {location inner : FileLocation}
    (stands : files.entry? location = some .directory) (isInner : inner <+: location) :
    files.entry? inner = some .directory := by
  obtain ⟨rest, rfl⟩ := isInner
  cases rest with
  | nil => rwa [List.append_nil] at stands
  | cons name rest => exact tree.above stands (List.cons_ne_nil _ _)

theorem prefix_iff {inner location : FileLocation} :
    inner <+: location ↔ inner = location ∨ inner <+: location.dropLast :=
  ⟨eq_or_prefix_dropLast, fun isInner => isInner.elim (· ▸ List.prefix_rfl)
    fun above => above.trans (List.dropLast_prefix _)⟩

/-- What is put behind directories that are there completes the way. -/
theorem openedTo_put {middle : FileSystem} {location : FileLocation} (isSome : location ≠ [])
    (clear : files.isBlocked location = false)
    (opened : ∀ inner, middle.entry? inner =
      if inner <+: location.dropLast then some .directory else files.entry? inner) :
    OpenedTo location files (middle.put location .directory) := by
  intro inner
  rw [entry?_put _ _ isSome, opened]
  simp only [clear, true_and, @prefix_iff inner location]
  by_cases same : inner = location
  · simp [same]
  · simp [same]

theorem openedTo_of_directory (tree : files.IsTree) {location : FileLocation}
    (stands : files.entry? location = some .directory) : OpenedTo location files files := by
  intro inner
  split
  · next isInner => exact entry?_of_prefix tree stands isInner.2
  · rfl

theorem openedTo_of_blocked {location : FileLocation}
    (blocked : files.isBlocked location = true) : OpenedTo location files files := by
  intro inner
  rw [blocked, if_neg (fun isClear => nomatch isClear.1)]

/-- A directory in one that is there. -/
theorem ensureDirectory_inside (tree : files.IsTree) (plain : files.IsPlain path)
    (unbarred : files.isBarred path = false)
    (room : files.entry? (files.spelled path).dropLast = some .directory) :
    (files.ensureDirectory path).2 = files.clearance (files.spelled path) ∧
      OpenedTo (files.spelled path) files (files.ensureDirectory path).1 := by
  have above := not_isBlocked_of_directory tree room
  rw [ensureDirectory_plain tree plain, approachTo, unbarred, if_neg Bool.false_ne_true,
    approach_of_directory room]
  cases stands : files.entry? (files.spelled path) with
  | none =>
      have clear := isBlocked_eq_false_of_parent above (by simp [HasFile, stands])
      refine ⟨(clearance_of_clear clear).symm, openedTo_put plain.spelled_ne_nil clear ?_⟩
      intro inner
      split
      · next isInner => exact entry?_of_prefix tree room isInner
      · rfl
  | some entry =>
      cases entry with
      | directory =>
          have clear := not_isBlocked_of_directory tree stands
          exact ⟨(clearance_of_clear clear).symm, openedTo_of_directory tree stands⟩
      | file text =>
          have blocked := isBlocked_iff.mpr ⟨files.spelled path, List.prefix_rfl, text, stands⟩
          refine ⟨?_, openedTo_of_blocked blocked⟩
          rw [clearance, above, blocked, if_neg Bool.false_ne_true, if_pos rfl]

/-- A directory in one that has been made. -/
theorem opens_behind {middle : FileSystem} (tree : files.IsTree)
    (grown : Grows (fun _ => True) files middle) (plain : files.IsPlain path)
    (unbarred : files.isBarred path = false)
    (missing : files.entry? (files.spelled path).dropLast ≠ some .directory)
    (clear : files.isBlocked (files.spelled path).dropLast = false)
    (opened : OpenedTo (files.spelled path).dropLast files middle) :
    (middle.ensureDirectory path).2 = files.clearance (files.spelled path) ∧
      OpenedTo (files.spelled path) files (middle.ensureDirectory path).1 := by
  have room : middle.entry? (files.spelled path).dropLast = some .directory := by
    rw [opened, if_pos ⟨clear, List.prefix_rfl⟩]
  have isNone : files.entry? (files.spelled path) = none := by
    rw [← Option.not_isSome_iff_eq_none, Option.isSome_iff_exists]
    rintro ⟨entry, found⟩
    rw [plain.spelled_eq] at found
    exact missing (tree.parent found)
  have free : middle.entry? (files.spelled path) = none := by
    rw [opened, if_neg fun isInner => ?_, isNone]
    have shorter := isInner.2.length_le
    have isSome := List.length_pos_iff.mpr plain.spelled_ne_nil
    rw [List.length_dropLast] at shorter
    omega
  have clearWhole := isBlocked_eq_false_of_parent clear (by simp [HasFile, isNone])
  have middleClear := isBlocked_eq_false_of_parent (not_isBlocked_of_directory grown.tree room)
    (by simp [HasFile, free])
  obtain ⟨laterPlain, sameBar⟩ := plain.later tree grown
  have same := spelled_of_grows grown path
  obtain ⟨made, last⟩ := ensureDirectory_inside grown.tree laterPlain (sameBar.trans unbarred)
    (same.symm ▸ room)
  rw [same] at made last
  refine ⟨?_, fun inner => ?_⟩
  · rw [made, clearance_of_clear middleClear, clearance_of_clear clearWhole]
  · rw [last, opened]
    simp only [middleClear, clearWhole, clear, true_and, @prefix_iff inner (files.spelled path)]
    by_cases above : inner <+: (files.spelled path).dropLast
    · simp [above]
    · simp [above]

theorem clearance_ne_notFound (location : FileLocation) :
    files.clearance location ≠ .error .notFound := by
  unfold clearance
  split
  · nofun
  · split <;> nofun

theorem makeAround_of_ensured {bound : Nat} (isSome : path.isEmpty = false)
    (other : (files.ensureDirectory path).2 ≠ .error .notFound) :
    files.makeAround bound path = files.ensureDirectory path := by
  unfold makeAround
  rw [isSome, if_neg Bool.false_ne_true]
  generalize files.ensureDirectory path = ensured at *
  obtain ⟨made, result⟩ := ensured
  split
  · next missing => exact absurd (congrArg Prod.snd missing) other
  · rfl

section Above

variable {upper : Path} (isAbove : path.IsAbove upper)

include isAbove

theorem startOf_above (files : FileSystem) : files.startOf upper = files.startOf path := by
  rw [startOf, startOf, isAbove.sameStart]

theorem isBarred_above (files : FileSystem) : files.isBarred upper = files.isBarred path := by
  rw [isBarred, isBarred, startOf_above isAbove, isAbove.sameClimb]

theorem spelled_above (named : isName path.lastPiece = true) :
    files.spelled upper = (files.spelled path).dropLast := by
  rw [spelled_eq, spelled_eq, startOf_above isAbove, isAbove.sameClimb, isAbove.names,
    Path.namesBelow_of_named named, ← List.append_assoc, List.dropLast_concat,
    List.dropLast_concat]

theorem IsPlain.above (plain : files.IsPlain path) (named : isName upper.lastPiece = true) :
    files.IsPlain upper := by
  refine ⟨named, ?_⟩
  rw [Climbs, startOf_above isAbove, isAbove.sameClimb]
  exact plain.climbs

omit isAbove in
theorem IsPlain.room_of_no_names (tree : files.IsTree) (plain : files.IsPlain path)
    (unbarred : files.isBarred path = false) (single : path.namesBelow.dropLast = []) :
    files.entry? (files.spelled path).dropLast = some .directory := by
  obtain ⟨-, base, -, stands, spelledEq⟩ :=
    (plain.barred_or tree).resolve_left fun barred => by simp [unbarred] at barred
  rw [spelledEq, Path.namesBelow_of_named plain.named, single, List.nil_append,
    List.dropLast_concat]
  exact stands

theorem named_of_names (names : path.namesBelow.dropLast ≠ []) :
    isName upper.lastPiece = true := by
  rw [← isAbove.names] at names
  rcases isAbove.ends with isEmpty | named | isNil
  · obtain rfl : upper = ⟨""⟩ := by
      rw [Path.isEmpty, String.isEmpty_iff] at isEmpty
      rw [Path.mk.injEq, isEmpty]
    exact absurd (by decide) names
  · exact named
  · exact absurd isNil names

end Above

/-- Making a directory with those around it succeeds if no file is in the way, and only
then anything changes. -/
theorem makeAround_plain (tree : files.IsTree) {bound : Nat} (plain : files.IsPlain path)
    (unbarred : files.isBarred path = false) (enough : path.namesBelow.length ≤ bound + 1) :
    (files.makeAround bound path).2 = files.clearance (files.spelled path) ∧
      OpenedTo (files.spelled path) files (files.makeAround bound path).1 := by
  have isSome := Path.isEmpty_of_named plain.named
  induction bound generalizing path with
  | zero =>
      -- a single name stands where the path has gone up
      have single : path.namesBelow.dropLast = [] := by
        rw [← List.length_eq_zero_iff, List.length_dropLast]
        omega
      have room := plain.room_of_no_names tree unbarred single
      have inside := ensureDirectory_inside tree plain unbarred room
      rwa [makeAround_of_ensured isSome (inside.1 ▸ clearance_ne_notFound _)]
  | succ bound ih =>
      by_cases room : files.entry? (files.spelled path).dropLast = some .directory
      · have inside := ensureDirectory_inside tree plain unbarred room
        rwa [makeAround_of_ensured isSome (inside.1 ▸ clearance_ne_notFound _)]
      · have ensured := ensureDirectory_plain tree plain
        rw [approachTo, unbarred, if_neg Bool.false_ne_true, approach, if_neg room] at ensured
        cases blocked : files.isBlocked (files.spelled path).dropLast with
        | true =>
            rw [blocked, if_pos rfl] at ensured
            dsimp only at ensured
            have blockedWhole : files.isBlocked (files.spelled path) = true := by
              rw [← Bool.not_eq_false]
              intro clear
              rw [isBlocked_parent clear] at blocked
              cases blocked
            rw [makeAround_of_ensured isSome (by rw [ensured]; nofun), ensured]
            refine ⟨?_, openedTo_of_blocked blockedWhole⟩
            rw [clearance, blocked, if_pos rfl]
        | false =>
            rw [blocked, if_neg Bool.false_ne_true] at ensured
            dsimp only at ensured
            -- the directories around it are made first
            obtain ⟨above, isAbove⟩ := Path.exists_isAbove plain.named
            have sameSpelled : files.spelled above = (files.spelled path).dropLast :=
              spelled_above isAbove plain.named
            have named : isName above.lastPiece = true :=
              named_of_names isAbove fun single =>
                room (plain.room_of_no_names tree unbarred single)
            obtain ⟨made, opened⟩ := ih (plain.above isAbove named)
              ((isBarred_above isAbove files).trans unbarred) (by
                rw [isAbove.names, List.length_dropLast]
                omega) (Path.isEmpty_of_named named)
            have grown : Grows (fun _ => True) files (files.makeAround bound above).1 :=
              grows_makeAround tree bound above
            rw [sameSpelled, clearance_of_clear blocked] at made
            rw [sameSpelled] at opened
            generalize isMiddle : files.makeAround bound above = outcome at made opened grown
            obtain ⟨middle, result⟩ := outcome
            obtain rfl : result = .ok () := made
            dsimp only at opened grown
            have step : files.makeAround (bound + 1) path = middle.ensureDirectory path := by
              unfold makeAround
              rw [isSome, if_neg Bool.false_ne_true, ensured]
              simp only [isAbove.isParent, isMiddle]
            rw [step]
            exact opens_behind tree grown plain unbarred room blocked opened

theorem length_namesBelow_le (path : Path) : path.namesBelow.length ≤ path.text.length + 1 := by
  have cut (text gathered : List Char) :
      (Path.cutAtSlashes gathered text).length ≤ text.length + 1 := by
    induction text generalizing gathered with
    | nil => simp [Path.cutAtSlashes]
    | cons character text ih =>
        rw [Path.cutAtSlashes]
        split
        · exact Nat.succ_le_succ (ih _)
        · exact (ih _).trans (Nat.le_succ _)
  rw [← String.length_toList]
  have fewer : path.namesBelow.length ≤ path.pieces.length :=
    (List.length_filter_le _ _).trans (List.rtakeWhile_suffix _ _).length_le
  exact fewer.trans (cut _ _)

/-! ### Directories that are there -/

theorem pieces_withoutEndSlashes (path : Path) :
    ∃ fillers, path.pieces = (withoutEndSlashes path).pieces ++ fillers ∧
      ∀ filler ∈ fillers, filler = "" := by
  have ofReversed (reversed : List Char) :
      ∃ fillers, Path.pieces ⟨String.ofList reversed.reverse⟩ =
          Path.pieces ⟨String.ofList (reversed.dropWhile (· = '/')).reverse⟩ ++ fillers ∧
        ∀ filler ∈ fillers, filler = "" := by
    induction reversed with
    | nil => exact ⟨[], by simp, by simp⟩
    | cons last rest ih =>
        by_cases slash : last = '/'
        · obtain ⟨fillers, piecesEq, areFillers⟩ := ih
          refine ⟨fillers ++ [""], ?_, by simpa [or_imp, forall_and] using areFillers⟩
          rw [slash, List.reverse_cons, Path.pieces_concat_slash, piecesEq, List.append_assoc,
            List.dropWhile_cons_of_pos (by simp)]
        · exact ⟨[], by rw [List.dropWhile_cons_of_neg (by simp [slash]), List.append_nil], by simp⟩
  obtain ⟨text⟩ := path
  obtain ⟨fillers, piecesEq, areFillers⟩ := ofReversed text.toList.reverse
  rw [List.reverse_reverse, String.ofList_toList] at piecesEq
  exact ⟨fillers, piecesEq, areFillers⟩

theorem startOf_withoutEndSlashes (isSome : (withoutEndSlashes path).isEmpty = false) :
    files.startOf (withoutEndSlashes path) = files.startOf path := by
  obtain ⟨text⟩ := path
  have isPrefix : (text.toList.reverse.dropWhile (· = '/')).reverse <+: text.toList := by
    rw [← List.reverse_suffix, List.reverse_reverse]
    exact List.dropWhile_suffix _
  obtain ⟨back, isBack⟩ := isPrefix
  have sameStart : Path.isAbsolute (withoutEndSlashes ⟨text⟩) = Path.isAbsolute ⟨text⟩ := by
    unfold withoutEndSlashes Path.isAbsolute Path.isEmpty at *
    dsimp only at *
    cases isKept : (text.toList.reverse.dropWhile (· = '/')).reverse with
    | nil => rw [isKept] at isSome; cases isSome
    | cons first others => rw [← isBack, isKept]; simp
  rw [startOf, startOf, sameStart]

/-- A walk over slashes and dots stays where it is. -/
theorem walk_of_fillers {start location : FileLocation} {fillers : List String}
    (areFillers : ∀ filler ∈ fillers, filler = "" ∨ filler = ".")
    (walked : files.walk start fillers = .ok location) : location = start := by
  rw [walk_eq_foldl walked]
  clear walked
  induction fillers with
  | nil => rfl
  | cons filler rest ih =>
      rw [List.foldl_cons, follow, if_pos (areFillers filler List.mem_cons_self)]
      exact ih fun other member => areFillers other (List.mem_cons_of_mem _ member)

/-- A directory that is there is not made. -/
theorem ensureDirectory_of_directory (directory : files.lookUp path = .ok .directory) :
    files.ensureDirectory path = (files, .ok ()) := by
  have isThere : files.isDirectory path = true := by
    rw [isDirectory, directory]
  have refused : ∃ cause, files.makeDirectory path = .error cause := by
    unfold makeDirectory
    dsimp only
    cases bare : files.locate (withoutEndSlashes path) with
    | error cause => exact ⟨cause, rfl⟩
    | ok location =>
        refine ⟨.alreadyExists, if_neg ?_⟩
        suffices files.entry? location = some .directory by simp [this]
        have isSome : (withoutEndSlashes path).isEmpty = false := by
          rw [← Bool.not_eq_true]
          intro isEmpty
          rw [locate, if_pos isEmpty] at bare
          cases bare
        rw [locate, isSome, if_neg Bool.false_ne_true, startOf_withoutEndSlashes isSome] at bare
        obtain ⟨fillers, piecesEq, areFillers⟩ := pieces_withoutEndSlashes path
        unfold lookUp locate at directory
        split at directory
        · cases directory
        · next found located =>
          split at located
          · cases located
          · rw [piecesEq, walk_append, bare] at located
            rw [walk_of_fillers (fun filler member => .inl (areFillers filler member)) located]
              at directory
            cases stands : files.entry? location with
            | none => rw [stands] at directory; cases directory
            | some entry => rw [stands] at directory; cases directory; rfl
  obtain ⟨cause, refused⟩ := refused
  simp only [ensureDirectory, refused, isThere, if_true]

/-- A path that leads through no name below where it has gone up is a directory there. -/
theorem lookUp_of_no_names (tree : files.IsTree) {base : FileLocation}
    (isSome : path.isEmpty = false) (names : path.namesBelow = [])
    (walked : files.walk (files.startOf path) path.climb = .ok base) :
    files.lookUp path = .ok .directory := by
  have stands := directory_of_climb tree walked
  have areFillers : ∀ filler ∈ path.descent, filler = "" ∨ filler = "." := by
    intro filler member
    have notName := List.filter_eq_nil_iff.mp names filler member
    have notUp : filler ≠ ".." := fun isUp => path.notMem_descent (isUp ▸ member)
    by_contra other
    push Not at other
    exact notName (by simp [isName, other, notUp])
  have stays : files.walk base path.descent = .ok base := by
    generalize path.descent = fillers at areFillers
    induction fillers with
    | nil => rfl
    | cons filler rest ih =>
        rw [walk, stands]
        dsimp only
        rw [follow, if_pos (areFillers filler List.mem_cons_self)]
        exact ih fun other member => areFillers other (List.mem_cons_of_mem _ member)
  simp only [lookUp, locate, isSome, path.pieces_eq, walk_append, walked, stays, stands,
    Bool.false_eq_true, if_false]

/-- Nothing is made behind a file. -/
theorem ensureDirectory_of_barred (isSome : path.isEmpty = false)
    (barred : files.walk (files.startOf path) path.climb = .error .notADirectory) :
    files.ensureDirectory path = (files, .error .notADirectory) := by
  have located {other : Path} (isSome : other.isEmpty = false)
      (sameStart : files.startOf other = files.startOf path)
      (sameClimb : other.climb = path.climb) :
      files.locate other = .error .notADirectory := by
    rw [locate, isSome, if_neg Bool.false_ne_true, other.pieces_eq, walk_append, sameStart,
      sameClimb, barred]
  obtain ⟨fillers, piecesEq, areFillers⟩ := pieces_withoutEndSlashes path
  have sameClimb := (Path.climb_of_pieces piecesEq fun filler member => by
    rw [areFillers filler member]
    decide).1.symm
  have bareSome : (withoutEndSlashes path).isEmpty = false := by
    rw [← Bool.not_eq_true]
    intro isEmpty
    -- a path without a climb is not barred
    have isNil : withoutEndSlashes path = ⟨""⟩ := by
      rw [Path.isEmpty, String.isEmpty_iff] at isEmpty
      rw [Path.mk.injEq, isEmpty]
    rw [← sameClimb, isNil] at barred
    cases barred
  have refused : files.makeDirectory path = .error .notADirectory := by
    simp only [makeDirectory, located bareSome (startOf_withoutEndSlashes bareSome) sameClimb]
  have missing : files.isDirectory path = false := by
    simp only [isDirectory, lookUp, located isSome rfl rfl]
  simp only [ensureDirectory, refused, missing, Bool.false_eq_true, if_false]

/-- Whether the directories around a path can be made. -/
def clearanceTo (files : FileSystem) (path : Path) : Except FileError Unit :=
  if files.isBarred path then .error .notADirectory
  else files.clearance (files.spelled path).dropLast

/-- The directories around a path have been made, if that is possible. -/
def OpenedAround (path : Path) (files after : FileSystem) : Prop :=
  ∀ inner, after.entry? inner =
    if files.clearanceTo path = .ok () ∧ inner <+: (files.spelled path).dropLast then
      some .directory
    else files.entry? inner

theorem clearanceTo_eq_ok :
    files.clearanceTo path = .ok () ↔
      files.isBarred path = false ∧ files.isBlocked (files.spelled path).dropLast = false := by
  unfold clearanceTo
  cases files.isBarred path <;> simp [clearance_eq_ok]

theorem IsPlain.clearanceTo_later {fresh : String → Prop} (plain : files.IsPlain path)
    (tree : files.IsTree) (grown : Grows fresh files after) :
    after.clearanceTo path =
      if files.isBarred path then .error .notADirectory
      else after.clearance (files.spelled path).dropLast := by
  rw [clearanceTo, (plain.later tree grown).2, spelled_of_grows grown]

/-- The directories that have been made around a path are there. -/
theorem OpenedAround.approachTo_eq (opened : OpenedAround path files after)
    (tree : files.IsTree) (plain : files.IsPlain path)
    (grown : Grows (fun _ => True) files after) (clear : files.clearanceTo path = .ok ()) :
    after.entry? (files.spelled path).dropLast = some .directory ∧
      after.approachTo path = .ok () := by
  have room : after.entry? (files.spelled path).dropLast = some .directory := by
    rw [opened, if_pos ⟨clear, List.prefix_rfl⟩]
  refine ⟨room, ?_⟩
  rw [plain.approachTo_later tree grown, (clearanceTo_eq_ok.mp clear).1,
    if_neg Bool.false_ne_true, approach_of_directory room]

/-- Making directories leaves the files as they are. -/
theorem OpenedAround.textAt?_eq (opened : OpenedAround path files after) (inner : FileLocation) :
    after.textAt? inner = files.textAt? inner := by
  have stands := opened inner
  by_cases isInner : files.clearanceTo path = .ok () ∧ inner <+: (files.spelled path).dropLast
  · rw [if_pos isInner] at stands
    rw [textAt?, stands]
    cases found : files.textAt? inner with
    | none => rfl
    | some text =>
        have blocked := isBlocked_iff.mpr ⟨inner, isInner.2, text, textAt?_eq_some.mp found⟩
        rw [(clearanceTo_eq_ok.mp isInner.1).2] at blocked
        cases blocked
  · rw [if_neg isInner] at stands
    rw [textAt?, stands, textAt?]

/-- Nothing changes around a path that stands in a directory. -/
theorem openedAround_of_directory (tree : files.IsTree)
    (stands : files.entry? (files.spelled path).dropLast = some .directory) :
    OpenedAround path files files := by
  intro inner
  split
  · next isInner => exact entry?_of_prefix tree stands isInner.2
  · rfl

theorem openedAround_of_barred (barred : files.isBarred path = true) :
    OpenedAround path files files := by
  intro inner
  rw [clearanceTo, barred, if_pos rfl, if_neg (fun isClear => nomatch isClear.1)]

/-- Making the directories around a plain path. -/
theorem makeParent_plain (tree : files.IsTree) (plain : files.IsPlain path) :
    ∃ after, Grows (fun _ => True) files after ∧ OpenedAround path files after ∧
      Run.makeParent path files =
        match files.clearanceTo path with
        | .ok () => .ok () after
        | .error cause => .error (.noDirectory (path.parent?.getD ⟨""⟩) cause) after := by
  obtain ⟨above, isAbove⟩ := Path.exists_isAbove plain.named
  have sameSpelled : files.spelled above = (files.spelled path).dropLast :=
    spelled_above isAbove plain.named
  have grown : Grows (fun _ => True) files (files.makeDirectories above).1 :=
    grows_makeDirectories tree above
  by_cases isEmpty : above.isEmpty = true
  · -- the path is a single name in the working directory
    obtain rfl : above = ⟨""⟩ := by
      rw [Path.isEmpty, String.isEmpty_iff] at isEmpty
      rw [Path.mk.injEq, isEmpty]
    have unbarred : files.isBarred path = false :=
      (isBarred_above isAbove files).symm
    have room := plain.room_of_no_names tree unbarred isAbove.names.symm
    have clear := clearanceTo_eq_ok.mpr ⟨unbarred, not_isBlocked_of_directory tree room⟩
    refine ⟨files, .refl tree, openedAround_of_directory tree room, ?_⟩
    rw [clear, Run.makeParent, isAbove.isParent]
    rfl
  · have isSome := Bool.eq_false_iff.mpr isEmpty
    rw [Run.makeParent_apply isAbove.isParent isSome, isAbove.isParent, Option.getD_some]
    rcases plain.barred_or tree with ⟨barred, walked⟩ | ⟨unbarred, base, walked, stands, spelledEq⟩
    · have failed : files.makeDirectories above = (files, .error .notADirectory) := by
        have ensured := @ensureDirectory_of_barred files _ isSome
          (by rw [startOf_above isAbove, isAbove.sameClimb, walked])
        rw [makeDirectories, makeAround_of_ensured isSome (by simp [ensured]), ensured]
      refine ⟨files, .refl tree, openedAround_of_barred barred, ?_⟩
      rw [failed, clearanceTo, barred, if_pos rfl]
    · have aboveUnbarred := (isBarred_above isAbove files).trans unbarred
      by_cases names : path.namesBelow.dropLast = []
      · -- the directory where the path has gone up is there
        have room := plain.room_of_no_names tree unbarred names
        have clear := clearanceTo_eq_ok.mpr ⟨unbarred, not_isBlocked_of_directory tree room⟩
        have ensured := ensureDirectory_of_directory (lookUp_of_no_names tree isSome
          (isAbove.names.trans names) (by rw [startOf_above isAbove, isAbove.sameClimb, walked]))
        have made : files.makeDirectories above = (files, .ok ()) := by
          rw [makeDirectories, makeAround_of_ensured isSome (by simp [ensured]), ensured]
        refine ⟨files, .refl tree, openedAround_of_directory tree room, ?_⟩
        rw [made, clear]
      · have abovePlain := plain.above isAbove (named_of_names isAbove names)
        obtain ⟨made, opened⟩ := makeAround_plain tree abovePlain aboveUnbarred
          (length_namesBelow_le above)
        rw [sameSpelled] at made opened
        have sameClear :
            files.clearanceTo path = files.clearance (files.spelled path).dropLast := by
          rw [clearanceTo, unbarred, if_neg Bool.false_ne_true]
        refine ⟨_, grown, ?_, ?_⟩
        · intro inner
          simp only [makeDirectories, opened inner, sameClear, clearance_eq_ok]
        · have cleared : (files.makeDirectories above).2 = files.clearanceTo path := by
            rw [makeDirectories, made, sameClear]
          exact cleared ▸ rfl

end FileSystem

end ScriptBridge

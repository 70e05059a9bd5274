import ScriptBridge.Proofs.Files.Sources
import ScriptBridge.WorkArea
import Mathlib.Data.List.TakeWhile

/-!
# Names and places of written files

A file gets the last piece of its path as its name.  A path that was given an
extension ends with it, or with no name at all.  So whatever a run writes in its
work area or to its output has one of three extensions, and is no source.

Writing a file changes no other one.  As trees only grow, the place a path leads to
stays the same, so the places at which files were written are told by their paths
in any later tree.
-/

namespace ScriptBridge

namespace Path

/-- The text behind the last slash of a path. -/
def lastPiece (path : Path) : String :=
  String.ofList (path.text.toList.reverse.takeWhile (· ≠ '/')).reverse

theorem takeWhile_append_slash (front back : List Char) :
    (front ++ '/' :: back).takeWhile (· ≠ '/') = front.takeWhile (· ≠ '/') := by
  induction front with
  | nil => simp
  | cons character front ih => simp only [List.cons_append, List.takeWhile_cons, ih]

theorem getLast?_cutAtSlashes (text gathered : List Char) (whole : '/' ∉ gathered) :
    (cutAtSlashes gathered text).getLast? =
      some (String.ofList ((text.reverse ++ gathered).takeWhile (· ≠ '/')).reverse) := by
  induction text generalizing gathered with
  | nil =>
      have all : gathered.takeWhile (· ≠ '/') = gathered :=
        List.takeWhile_eq_self_iff.mpr fun character member => by
          simpa using ne_of_mem_of_not_mem member whole
      simp only [cutAtSlashes, List.reverse_nil, List.nil_append, all, List.getLast?_singleton]
  | cons character rest ih =>
      unfold cutAtSlashes
      split
      · next slash =>
        rw [List.getLast?_cons, ih [] (by simp), slash, List.reverse_cons, List.append_assoc,
          List.singleton_append, takeWhile_append_slash]
        simp
      · next other =>
        rw [ih (character :: gathered) (by simp [whole, Ne.symm other])]
        simp

theorem getLast?_pieces (path : Path) : path.pieces.getLast? = some path.lastPiece := by
  rw [pieces, getLast?_cutAtSlashes _ _ (by simp), List.append_nil, lastPiece]

theorem lastPiece_append_slash (front : String) (path : Path) :
    lastPiece ⟨front ++ "/" ++ path.text⟩ = path.lastPiece := by
  simp only [lastPiece, String.toList_append, List.reverse_append]
  rw [show "/".toList.reverse ++ front.toList.reverse = '/' :: front.toList.reverse from rfl,
    takeWhile_append_slash]

theorem lastPiece_join (path next : Path) : (path.join next).lastPiece = next.lastPiece := by
  unfold join
  split
  · rfl
  · split
    · next open' =>
      simp only [Bool.or_eq_true, beq_iff_eq] at open'
      rcases open' with empty | slash
      · have : path.text = "" := by simpa [isEmpty] using empty
        simp [this]
      · obtain ⟨front, ends⟩ := List.getLast?_eq_some_iff.mp slash
        have : path.text = String.ofList front ++ "/" := by
          rw [← String.toList_inj, ends]
          simp
        rw [this, lastPiece_append_slash]
    · exact lastPiece_append_slash _ _

/-! ### Extensions -/

/-- A text ends with a dot and an extension. -/
def HasExtension (text extension : String) : Prop :=
  ∃ stem, text.toList = stem ++ '.' :: extension.toList

/-- A path that ends with no name ends with a piece that is no name. -/
theorem isName_lastPiece {path : Path} (named : isName path.lastPiece = true) :
    path.splitLast.2 = path.lastPiece := by
  unfold splitLast lastPiece at *
  simp only
  generalize path.text.toList.reverse = reversed at *
  unfold dropEnd
  split
  · simp [isName] at named
  · simp [isName] at named
  · rfl

/-- Extensions are whole: they hold no slash and no dot, and something. -/
structure IsExtension (extension : String) : Prop where
  given : extension ≠ ""
  plain : ∀ character ∈ extension.toList, character ≠ '/' ∧ character ≠ '.'

theorem takeWhile_extension {extension : String} (isExtension : IsExtension extension)
    (front : List Char) :
    (extension.toList.reverse ++ '.' :: front).takeWhile (· ≠ '/') =
      extension.toList.reverse ++ '.' :: front.takeWhile (· ≠ '/') := by
  have noSlash : ∀ character ∈ extension.toList.reverse, decide (character ≠ '/') = true := by
    intro character member
    simpa using (isExtension.plain character (List.mem_reverse.mp member)).1
  rw [List.takeWhile_append_of_pos noSlash, List.takeWhile_cons_of_pos (by decide)]

theorem hasExtension_setExtension {path : Path} {extension : String}
    (isExtension : IsExtension extension)
    (named : isName (path.setExtension extension).lastPiece = true) :
    HasExtension (path.setExtension extension).lastPiece extension := by
  unfold setExtension at named ⊢
  simp only at named ⊢
  split
  · have ending : (extensionText extension).toList.reverse = extension.toList.reverse ++ ['.'] := by
      rw [extensionText, if_neg (by simpa using isExtension.given)]
      simp
    simp only [lastPiece, String.toList_append, List.reverse_append, HasExtension,
      String.toList_ofList, ending, List.append_assoc,
      List.cons_append, takeWhile_extension isExtension, List.reverse_reverse, List.reverse_cons]
    exact ⟨_, rfl⟩
  · next unnamed =>
    rw [if_neg unnamed] at named
    rw [isName_lastPiece named] at unnamed
    exact absurd named unnamed

/-- The name of a file with a given extension ends with it. -/
theorem hasExtension_withExtension {path : Path} {extension : String}
    (isExtension : IsExtension extension)
    (named : isName (path.withExtension extension).lastPiece = true) :
    HasExtension (path.withExtension extension).lastPiece extension := by
  unfold withExtension at named ⊢
  split
  · next equal =>
    rw [equal] at named
    exact hasExtension_setExtension isExtension named
  · next equal =>
    rw [equal] at named
    exact hasExtension_setExtension isExtension named

theorem dropEnd_of_plain {last : Char} (plain : last ≠ '/' ∧ last ≠ '.') (front : List Char) :
    dropEnd (last :: front) = last :: front := by
  unfold dropEnd
  split
  · next equal => exact absurd (List.cons.inj equal).1 plain.1
  · next equal => exact absurd (List.cons.inj equal).1 plain.2
  · rfl

theorem splitExtension_of_hasExtension {name extension : String}
    (isExtension : IsExtension extension) (ends : HasExtension name extension) :
    (splitExtension name).2 = none ∨ (splitExtension name).2 = some extension := by
  obtain ⟨stem, ends⟩ := ends
  have noDot : ∀ character ∈ extension.toList.reverse, decide (character ≠ '.') = true := by
    intro character member
    simpa using (isExtension.plain character (List.mem_reverse.mp member)).2
  have taken : name.toList.reverse.takeWhile (· ≠ '.') = extension.toList.reverse := by
    rw [ends, List.reverse_append, List.reverse_cons, List.append_assoc,
      List.takeWhile_append_of_pos noDot]
    simp
  unfold splitExtension
  simp only [taken]
  rw [ends]
  simp only [List.reverse_append, List.reverse_cons, List.append_assoc, List.singleton_append,
    List.drop_left, List.reverse_reverse, String.ofList_toList]
  split
  · exact .inl rfl
  · exact .inr rfl

theorem extension?_of_hasExtension {path : Path} {extension : String}
    (isExtension : IsExtension extension) (ends : HasExtension path.text extension) :
    path.extension? = none ∨ path.extension? = some extension := by
  obtain ⟨stem, ends⟩ := ends
  obtain ⟨front, last, split⟩ := List.eq_nil_or_concat extension.toList
    |>.resolve_left (by simpa using isExtension.given)
  have plain := isExtension.plain last (by simp [split])
  -- the text keeps its end, as that is neither a slash nor a dot
  have kept : dropEnd path.text.toList.reverse =
      extension.toList.reverse ++ '.' :: stem.reverse := by
    rw [ends, split]
    simp [dropEnd_of_plain plain]
  unfold extension? fileName? splitLast
  simp only [kept, takeWhile_extension isExtension]
  split
  · refine splitExtension_of_hasExtension isExtension
      ⟨(stem.reverse.takeWhile (· ≠ '/')).reverse, ?_⟩
    simp
  · exact .inl rfl

/-! ### Written files -/

/-- The extensions of the files that a run writes. -/
def writtenExtensions : List String :=
  [targetExtension, "json", "txt"]

/-- A name has one of some extensions. -/
def HasOneOf (extensions : List String) (name : String) : Prop :=
  ∃ extension ∈ extensions, HasExtension name extension

theorem isExtension_of_mem {extension : String} (written : extension ∈ writtenExtensions) :
    IsExtension extension ∧ extension.toList.map Char.toLower ≠ sourceExtension.toList := by
  simp only [writtenExtensions, List.mem_cons, List.not_mem_nil, or_false] at written
  rcases written with rfl | rfl | rfl <;> exact ⟨⟨by decide, by simp [targetExtension]⟩, by decide⟩

theorem HasExtension.join {name extension : String} (ends : HasExtension name extension)
    (base : Path) : HasExtension (base.join ⟨name⟩).text extension := by
  obtain ⟨stem, ends⟩ := ends
  unfold Path.join
  split
  · exact ⟨stem, ends⟩
  · split
    · exact ⟨base.text.toList ++ stem, by simp [ends]⟩
    · exact ⟨base.text.toList ++ '/' :: stem, by simp [ends]⟩

/-- No file that a run writes is a source. -/
theorem isSource_join_of_written {name : String} (written : HasOneOf writtenExtensions name)
    (base : Path) :
    (base.join ⟨name⟩).isSource = false := by
  obtain ⟨extension, written, ends⟩ := written
  have ⟨isExtension, other⟩ := isExtension_of_mem written
  unfold isSource
  rcases extension?_of_hasExtension isExtension (ends.join base) with found | found
  · rw [found]
  · rw [found]
    simpa using other

end Path

/-- A file whose name is not written stays as it is. -/
theorem FileSystem.read_of_grows {files after : FileSystem} {fresh : String → Prop}
    (tree : files.IsTree) (grows : Grows fresh files after) {path : Path} {text : String}
    (other : ¬fresh path.lastPiece) (found : files.read path = .ok text) :
    after.read path = .ok text := by
  unfold read lookUp at found
  cases located : files.locate path with
  | error cause => simp [located] at found
  | ok location =>
      simp only [located] at found
      have stands : files.entry? location = some (.file text) := by
        cases entry : files.entry? location with
        | none => simp [entry] at found
        | some listed => cases listed <;> simp_all
      have kept : after.entry? location = some (.file text) := by
        rcases grows.origin location (grows.file location ⟨text, stands⟩) with
          same | ⟨parent, name, rfl, named⟩
        · rw [same, stands]
        · obtain ⟨last, final, directory | ⟨-, above, equal, -⟩⟩ := ends_locate tree located
          · simp [stands] at directory
          · rw [Path.getLast?_pieces, Option.some.injEq] at final
            obtain rfl : name = last := (List.append_inj_right' equal rfl) |> List.singleton_inj.mp
            exact absurd (final ▸ named) other
      simp only [read, lookUp, locate_of_grows grows located, kept]

namespace FileSystem

/-- The text of the file at a location, if a file stands there. -/
def textAt? (files : FileSystem) (location : FileLocation) : Option String :=
  match files.entry? location with
  | some (.file text) => some text
  | _ => none

theorem textAt?_eq_some {files : FileSystem} {location : FileLocation} {text : String} :
    files.textAt? location = some text ↔ files.entry? location = some (.file text) := by
  unfold textAt?
  split <;> simp_all

/-- A file that is read stands where its path leads to. -/
theorem place_of_read {files : FileSystem} {path : Path} {text : String}
    (found : files.read path = .ok text) :
    ∃ place, files.locate path = .ok place ∧ files.textAt? place = some text := by
  unfold read lookUp at found
  cases located : files.locate path with
  | error error =>
      rw [located] at found
      cases found
  | ok place =>
      rw [located] at found
      dsimp only at found
      refine ⟨place, rfl, textAt?_eq_some.mpr ?_⟩
      cases stands : files.entry? place with
      | none =>
          rw [stands] at found
          cases found
      | some entry =>
          rw [stands] at found
          cases entry with
          | file kept =>
              cases found
              rfl
          | directory => cases found

/-- A tree has grown, and the files that are not at the places of certain paths are as
they were. -/
structure WrittenAt (allowed : Path → Prop) (files after : FileSystem) : Prop where
  grows : Grows (fun _ => True) files after
  elsewhere : ∀ location, (∀ path, allowed path → after.locate path ≠ .ok location) →
    after.textAt? location = files.textAt? location

namespace WrittenAt

variable {allowed : Path → Prop} {files middle after : FileSystem}

theorem refl (tree : files.IsTree) : WrittenAt allowed files files :=
  ⟨.refl tree, fun _ _ => rfl⟩

/-- A place that no path leads to at last is one that none has led to before. -/
theorem textAt?_of_later (written : WrittenAt allowed files middle) {fresh : String → Prop}
    (later : Grows fresh middle after) {location : FileLocation}
    (apart : ∀ path, allowed path → after.locate path ≠ .ok location) :
    middle.textAt? location = files.textAt? location :=
  written.elsewhere location fun path isAllowed located =>
    apart path isAllowed (locate_of_grows later located)

theorem trans (first : WrittenAt allowed files middle)
    (second : WrittenAt allowed middle after) : WrittenAt allowed files after where
  grows := first.grows.trans second.grows
  elsewhere location apart :=
    (second.elsewhere location apart).trans (first.textAt?_of_later second.grows apart)

theorem makeDirectories (tree : files.IsTree) (path : Path) :
    WrittenAt allowed files (files.makeDirectories path).1 := by
  have unchanged : Grows (fun _ => False) files (files.makeDirectories path).1 :=
    grows_makeDirectories tree path
  refine ⟨unchanged.mono fun _ => False.elim, fun location _ => Option.ext fun text => ?_⟩
  rw [textAt?_eq_some, textAt?_eq_some]
  have same (stands : FileSystem.HasFile (files.makeDirectories path).1 location) :
      FileSystem.entry? (files.makeDirectories path).1 location = files.entry? location :=
    (unchanged.origin location stands).resolve_right fun ⟨_, _, _, never⟩ => never
  constructor
  · intro stands
    rw [← same ⟨text, stands⟩, stands]
  · intro stands
    rw [same (unchanged.file location ⟨text, stands⟩), stands]

theorem write {path : Path} {text : String} (isAllowed : allowed path) (tree : files.IsTree)
    (written : files.write path text = .ok after) : WrittenAt allowed files after := by
  have grows : Grows (fun _ => True) files after := grows_write tree (fun _ _ _ => trivial) written
  refine ⟨grows, fun location apart => ?_⟩
  unfold FileSystem.write at written
  split at written
  · cases written
  · next place located =>
    split at written
    · cases written
    · next refused =>
      simp only [Bool.or_eq_true, decide_eq_true_eq, not_or, Bool.not_eq_true] at refused
      rw [withoutEndSlashes_of_not refused.1] at located
      have inner : place ≠ [] := by
        rintro rfl
        exact refused.2 rfl
      have other : location ≠ place := by
        rintro rfl
        exact apart path isAllowed (locate_of_grows grows located)
      cases written
      rw [textAt?, entry?_put _ _ inner, if_neg other, textAt?]

end WrittenAt

end FileSystem

end ScriptBridge

import ScriptBridge.Proofs.Files.Targets
import Mathlib.Data.List.DropRight

/-!
# Paths that go up

The pieces of a path up to the last `..` are its climb; from there it goes down through
names.  A path behind another one and the path above one go up as far as that one does.
-/

namespace ScriptBridge

namespace Path

/-- The names of a path, in order. -/
def location (path : Path) : FileLocation :=
  path.pieces.filter isName

/-- A relative path that never goes up and ends with a name. -/
structure Descends (path : Path) : Prop where
  relative : path.isAbsolute = false
  descends : ".." ∉ path.pieces
  named : isName path.lastPiece = true

instance (path : Path) : Decidable path.Descends :=
  decidable_of_iff (path.isAbsolute = false ∧ ".." ∉ path.pieces ∧ isName path.lastPiece = true)
    ⟨fun ⟨relative, descends, named⟩ => ⟨relative, descends, named⟩,
      fun ⟨relative, descends, named⟩ => ⟨relative, descends, named⟩⟩

/-- Whether a piece leads somewhere. -/
def isSolid (piece : String) : Bool :=
  piece ≠ "" && piece ≠ "."

/-- The pieces of a path that lead somewhere. -/
def solid (path : Path) : List String :=
  path.pieces.filter isSolid

theorem isSolid_of_name {piece : String} (named : isName piece = true) : isSolid piece = true := by
  simp only [isName, Bool.and_eq_true] at named
  simp only [isSolid, Bool.and_eq_true]
  exact named.1

theorem filter_isSolid_of_fillers {fillers : List String}
    (areFillers : ∀ filler ∈ fillers, filler = "" ∨ filler = ".") :
    fillers.filter isSolid = [] := by
  refine List.filter_eq_nil_iff.mpr fun filler member => ?_
  rcases areFillers filler member with rfl | rfl <;> decide

/-- Whether a piece does not go up. -/
def isDown (piece : String) : Bool :=
  piece ≠ ".."

/-- The pieces of a path up to the last one that goes up. -/
def climb (path : Path) : List String :=
  path.pieces.rdropWhile isDown

/-- The pieces of a path behind the last one that goes up. -/
def descent (path : Path) : List String :=
  path.pieces.rtakeWhile isDown

theorem pieces_eq (path : Path) : path.pieces = path.climb ++ path.descent :=
  List.rdropWhile_append_rtakeWhile.symm

theorem notMem_descent (path : Path) : ".." ∉ path.descent := fun isUp =>
  absurd (List.mem_rtakeWhile_imp isUp) (by decide)

theorem isDown_of_name {piece : String} (named : isName piece = true) : isDown piece = true := by
  rw [isDown, decide_eq_true_eq]
  rintro rfl
  exact absurd named (by decide)

/-- Pieces that do not go up belong to the way down. -/
theorem rdropWhile_append_of_down (front : List String) {more : List String}
    (down : ∀ piece ∈ more, isDown piece = true) :
    (front ++ more).rdropWhile isDown = front.rdropWhile isDown ∧
      (front ++ more).rtakeWhile isDown = front.rtakeWhile isDown ++ more := by
  induction more using List.reverseRecOn with
  | nil => simp
  | append_singleton more last ih =>
      obtain ⟨sameClimb, sameDescent⟩ :=
        ih fun piece member => down piece (List.mem_append_left _ member)
      have lastDown : isDown last = true := down last (by simp)
      rw [← List.append_assoc, List.rdropWhile_concat_pos _ _ _ lastDown,
        List.rtakeWhile_concat_pos _ _ _ lastDown, sameClimb, sameDescent, List.append_assoc]
      exact ⟨rfl, rfl⟩

theorem climb_of_pieces {path front : Path} {more : List String}
    (pieces : path.pieces = front.pieces ++ more) (down : ∀ piece ∈ more, isDown piece = true) :
    path.climb = front.climb ∧ path.descent = front.descent ++ more := by
  rw [climb, descent, pieces]
  exact rdropWhile_append_of_down _ down

variable {path : Path}

/-- The location of a path that ends with a name ends with that name. -/
theorem location_of_named (named : isName path.lastPiece = true) :
    path.location = path.location.dropLast ++ [path.lastPiece] := by
  obtain ⟨front, piecesEq⟩ := List.getLast?_eq_some_iff.mp (getLast?_pieces path)
  have locationEq : path.location = front.filter isName ++ [path.lastPiece] := by
    rw [location, piecesEq, List.filter_append, List.filter_singleton, named, cond_true]
  rw [locationEq, List.dropLast_concat]

theorem isEmpty_of_named (named : isName path.lastPiece = true) : path.isEmpty = false := by
  obtain ⟨text⟩ := path
  rw [← Bool.not_eq_true]
  intro empty
  obtain rfl : text = "" := by simpa [isEmpty] using empty
  exact absurd named (by decide)

theorem endsWithSlash_of_solid (leads : isSolid path.lastPiece = true) :
    FileSystem.endsWithSlash path = false := by
  rw [← Bool.not_eq_true]
  intro ends
  obtain ⟨front, textEq⟩ :=
    List.getLast?_eq_some_iff.mp (by simpa [FileSystem.endsWithSlash] using ends)
  rw [lastPiece, textEq, List.reverse_append] at leads
  simp [isSolid] at leads

theorem endsWithSlash_of_named (named : isName path.lastPiece = true) :
    FileSystem.endsWithSlash path = false :=
  endsWithSlash_of_solid (isSolid_of_name named)

/-- A path that ends with a name goes down to that name. -/
theorem getLast?_descent (named : isName path.lastPiece = true) :
    path.descent.getLast? = some path.lastPiece := by
  obtain ⟨front, piecesEq⟩ := List.getLast?_eq_some_iff.mp (getLast?_pieces path)
  rw [descent, piecesEq, List.rtakeWhile_concat_pos _ _ _ (isDown_of_name named),
    List.getLast?_concat]

/-- The names on the way down. -/
def namesBelow (path : Path) : FileLocation :=
  path.descent.filter isName

theorem namesBelow_of_named (named : isName path.lastPiece = true) :
    path.namesBelow = path.namesBelow.dropLast ++ [path.lastPiece] := by
  obtain ⟨front, descentEq⟩ := List.getLast?_eq_some_iff.mp (getLast?_descent named)
  have locationEq : path.namesBelow = front.filter isName ++ [path.lastPiece] := by
    rw [namesBelow, descentEq, List.filter_append, List.filter_singleton, named, cond_true]
  rw [locationEq, List.dropLast_concat]

/-! ### The path above -/

theorem pieces_concat_slash (text : List Char) :
    pieces ⟨String.ofList (text ++ ['/'])⟩ = pieces ⟨String.ofList text⟩ ++ [""] := by
  have behind := pieces_append_slash (String.ofList text) ""
  rw [show String.ofList text ++ "/" ++ "" = String.ofList (text ++ ['/']) by
    rw [← String.toList_inj]; simp] at behind
  exact behind

theorem pieces_concat_dot (text : List Char) :
    pieces ⟨String.ofList (text ++ ['/', '.'])⟩ = pieces ⟨String.ofList text⟩ ++ ["."] := by
  have behind := pieces_append_slash (String.ofList text) "."
  rw [show String.ofList text ++ "/" ++ "." = String.ofList (text ++ ['/', '.']) by
    rw [← String.toList_inj]; simp] at behind
  exact behind

/-- Only slashes and dots are taken from the end of a path. -/
theorem pieces_dropEnd (reversed : List Char) :
    ∃ fillers, pieces ⟨String.ofList reversed.reverse⟩ =
        pieces ⟨String.ofList (dropEnd reversed).reverse⟩ ++ fillers ∧
      ∀ filler ∈ fillers, filler = "" ∨ filler = "." := by
  induction reversed using dropEnd.induct with
  | case1 rest ih =>
      obtain ⟨fillers, piecesEq, areFillers⟩ := ih
      refine ⟨fillers ++ [""], ?_, ?_⟩
      · rw [dropEnd, List.reverse_cons, pieces_concat_slash, piecesEq, List.append_assoc]
      · simpa [or_imp, forall_and] using areFillers
  | case2 rest ih =>
      obtain ⟨fillers, piecesEq, areFillers⟩ := ih
      refine ⟨fillers ++ ["."], ?_, ?_⟩
      · rw [dropEnd, List.reverse_cons, List.reverse_cons, List.append_assoc,
          List.singleton_append, pieces_concat_dot, piecesEq, List.append_assoc]
      · simpa [or_imp, forall_and] using areFillers
  | case3 text notSlash notDot =>
      refine ⟨[], ?_, by simp⟩
      rw [dropEnd, List.append_nil]
      · exact notSlash
      · exact notDot

/-- A path without slashes and dots at its end ends with a name or with two dots, unless it
is the working directory itself. -/
theorem lastPiece_dropEnd {kept reversed : List Char} (isKept : dropEnd reversed = kept) :
    kept = [] ∨ kept = ['.'] ∨
      lastPiece ⟨String.ofList kept.reverse⟩ ≠ "" ∧
        lastPiece ⟨String.ofList kept.reverse⟩ ≠ "." := by
  induction reversed using dropEnd.induct with
  | case1 rest ih => exact ih (by rwa [dropEnd] at isKept)
  | case2 rest ih => exact ih (by rwa [dropEnd] at isKept)
  | case3 text notSlash notDot =>
      obtain rfl : text = kept := by
        rw [dropEnd] at isKept
        · exact isKept
        · exact notSlash
        · exact notDot
      rcases text with _ | ⟨last, rest⟩
      · exact .inl rfl
      · have slash : last ≠ '/' := fun equal => notSlash rest (by rw [equal])
        have taken : lastPiece ⟨String.ofList (last :: rest).reverse⟩ =
            String.ofList ((rest.takeWhile (· ≠ '/')).reverse ++ [last]) := by
          simp [lastPiece, slash]
        refine .inr ?_
        by_cases single : last = '.' ∧ rest = []
        · exact .inl (by rw [single.1, single.2])
        · rw [taken]
          refine .inr ⟨by simp, fun equal => ?_⟩
          rw [← String.toList_inj, String.toList_ofList] at equal
          obtain ⟨nothing, isDot⟩ := @List.append_inj' _ _ [last] [] ['.']
            equal rfl
          obtain rfl : last = '.' := by simpa using isDot
          cases rest with
          | nil => exact single ⟨rfl, rfl⟩
          | cons next rest =>
              have next_ne : next ≠ '/' := fun equal => notDot rest (by rw [equal])
              simp [next_ne] at nothing

theorem dropEnd_suffix (reversed : List Char) : dropEnd reversed <:+ reversed := by
  induction reversed using dropEnd.induct with
  | case1 rest ih =>
      rw [dropEnd]
      exact ih.trans (List.suffix_cons _ _)
  | case2 rest ih =>
      rw [dropEnd]
      exact ih.trans ((List.suffix_cons _ _).trans (List.suffix_cons _ _))
  | case3 text notSlash notDot =>
      have same : dropEnd text = text := by
        rw [dropEnd]
        · exact notSlash
        · exact notDot
      exact ⟨[], by rw [same, List.nil_append]⟩

/-- The path above another one leads as far as that one does without its last piece, and
nothing but slashes and dots stands between them.  It does not end with slashes or dots. -/
structure IsParent (path above : Path) : Prop where
  sameStart : above.isAbsolute = path.isAbsolute
  shorter : above.text.length < path.text.length
  pieces : ∃ fillers last behind, isSolid last = true ∧
    (∀ filler ∈ fillers ++ behind, filler = "" ∨ filler = ".") ∧
    (path.pieces = above.pieces ++ fillers ++ last :: behind ∨
      above.solid = [] ∧ path.pieces = fillers ++ last :: behind)
  ends : above.isEmpty = true ∨ isSolid above.lastPiece = true ∨ above.solid = []

theorem lastPiece_ofList (reversed : List Char) :
    lastPiece ⟨String.ofList reversed.reverse⟩ =
      String.ofList (reversed.takeWhile (· ≠ '/')).reverse := by
  simp [lastPiece]

/-- What is left of a path without slashes and dots at its end. -/
theorem ends_dropEnd (reversed : List Char) :
    isEmpty ⟨String.ofList (dropEnd reversed).reverse⟩ = true ∨
      isSolid (lastPiece ⟨String.ofList (dropEnd reversed).reverse⟩) = true ∨
      solid ⟨String.ofList (dropEnd reversed).reverse⟩ = [] := by
  rcases lastPiece_dropEnd (rfl : dropEnd reversed = _) with isNil | isDot | ⟨notEmpty, notDot⟩
  · rw [isNil]
    exact .inl rfl
  · rw [isDot]
    exact .inr (.inr (by decide))
  · exact .inr (.inl (by simp [isSolid, notEmpty, notDot]))

/-- How a path is cut in front of its last piece that leads somewhere.  The characters of that
piece and those before it are in reverse, and only fillers stand behind it. -/
structure IsCut (path : Path) (final before : List Char) (behind : List String) : Prop where
  isSuffix : final ++ before <:+ path.text.toList.reverse
  cut : path.pieces = pieces ⟨String.ofList (final ++ before).reverse⟩ ++ behind
  areBehind : ∀ filler ∈ behind, filler = "" ∨ filler = "."
  isLast : isSolid (String.ofList final.reverse) = true
  noSlash : '/' ∉ final
  starts : ∀ character, before.head? = some character → character = '/'
  parent : path.parent? =
    if (dropEnd before).isEmpty && path.isAbsolute then some ⟨"/"⟩
    else some ⟨String.ofList (dropEnd before).reverse⟩

theorem exists_isCut (leads : path.solid ≠ []) :
    ∃ final before behind, path.IsCut final before behind := by
  obtain ⟨text⟩ := path
  obtain ⟨behind, textPieces, areBehind⟩ := pieces_dropEnd text.toList.reverse
  rw [List.reverse_reverse, String.ofList_toList] at textPieces
  have isSuffix := dropEnd_suffix text.toList.reverse
  have ends := lastPiece_dropEnd (rfl : dropEnd text.toList.reverse = _)
  have split : splitLast ⟨text⟩ = ((dropEnd text.toList.reverse).dropWhile (· ≠ '/'),
      lastPiece ⟨String.ofList (dropEnd text.toList.reverse).reverse⟩) := by
    rw [lastPiece_ofList]
    rfl
  generalize dropEnd text.toList.reverse = kept at *
  have isLast : isSolid (lastPiece ⟨String.ofList kept.reverse⟩) = true := by
    rcases ends with rfl | rfl | ⟨notEmpty, notDot⟩
    · rw [solid, textPieces, List.filter_append, filter_isSolid_of_fillers areBehind] at leads
      exact absurd (by decide) leads
    · rw [solid, textPieces, List.filter_append, filter_isSolid_of_fillers areBehind] at leads
      exact absurd (by decide) leads
    · simp [isSolid, notEmpty, notDot]
  have whole : kept.takeWhile (· ≠ '/') ++ kept.dropWhile (· ≠ '/') = kept :=
    List.takeWhile_append_dropWhile
  rw [lastPiece_ofList] at isLast split
  refine ⟨kept.takeWhile (· ≠ '/'), kept.dropWhile (· ≠ '/'), behind, whole.symm ▸ isSuffix,
    whole.symm ▸ textPieces, areBehind, isLast, fun member => ?_, fun character isHead => ?_, ?_⟩
  · simpa using List.mem_takeWhile_imp member
  · have starts := List.head?_dropWhile_not (· ≠ '/') kept
    rw [isHead] at starts
    simpa using starts
  · unfold parent?
    rw [split]
    dsimp only
    rw [if_neg fun isNil => ?_]
    rw [isNil] at isLast
    exact absurd isLast (by decide)

namespace IsCut

variable {final before : List Char} {behind : List String}

theorem final_ne_nil (cut : path.IsCut final before behind) : final ≠ [] := by
  rintro rfl
  exact absurd cut.isLast (by decide)

theorem last_whole (cut : path.IsCut final before behind) :
    '/' ∉ (String.ofList final.reverse).toList := by
  simpa using cut.noSlash

theorem length_lt (cut : path.IsCut final before behind) :
    before.length < path.text.length := by
  have shorter := cut.isSuffix.length_le
  have finalLength := List.length_pos_iff.mpr cut.final_ne_nil
  rw [List.length_reverse, String.length_toList, List.length_append] at shorter
  omega

/-- A piece with nothing before it does not start with a slash. -/
theorem isAbsolute_alone (cut : path.IsCut final [] behind) : path.isAbsolute = false := by
  rw [← Bool.not_eq_true]
  intro absolute
  obtain ⟨taken, isText⟩ := cut.isSuffix
  have startsText : path.text.toList = final.reverse ++ taken.reverse := by
    rw [← List.reverse_reverse path.text.toList, ← isText, List.append_nil, List.reverse_append]
  rw [isAbsolute, startsText,
    List.head?_append_of_ne_nil _ (by simpa using cut.final_ne_nil)] at absolute
  have first : '/' ∈ final.reverse := List.mem_of_mem_head? (by simpa using absolute)
  exact cut.noSlash (List.mem_reverse.mp first)

/-- A single piece stands in the working directory. -/
theorem isParent_alone (cut : path.IsCut final [] behind) :
    ∃ above, path.parent? = some above ∧ path.IsParent above := by
  have relative := cut.isAbsolute_alone
  have parent := cut.parent
  rw [relative, Bool.and_false, if_neg Bool.false_ne_true] at parent
  refine ⟨⟨""⟩, parent, relative.symm, cut.length_lt,
    ⟨[], _, behind, cut.isLast, cut.areBehind, .inr ⟨rfl, ?_⟩⟩, .inl rfl⟩
  rw [cut.cut, List.append_nil, pieces_of_whole cut.last_whole]
  rfl

/-- Behind a slash, the pieces go on from those before it. -/
theorem pieces_behind (cut : path.IsCut final ('/' :: before) behind) :
    ∃ fillers, (∀ filler ∈ fillers ++ behind, filler = "" ∨ filler = ".") ∧
      path.pieces = pieces ⟨String.ofList (dropEnd before).reverse⟩ ++ fillers ++
        String.ofList final.reverse :: behind := by
  have keptText : String.ofList (final ++ '/' :: before).reverse =
      String.ofList before.reverse ++ "/" ++ String.ofList final.reverse := by
    rw [← String.toList_inj]
    simp
  obtain ⟨fillers, piecesEq, areFillers⟩ := pieces_dropEnd before
  refine ⟨fillers, ?_, ?_⟩
  · intro filler member
    exact (List.mem_append.mp member).elim (areFillers filler) (cut.areBehind filler)
  · rw [cut.cut, keptText, pieces_append_slash, pieces_of_whole cut.last_whole, piecesEq]
    simp

/-- What is kept of a path is as absolute as the path, unless nothing is kept. -/
theorem isAbsolute_behind (cut : path.IsCut final ('/' :: before) behind)
    (notRoot : ¬ (dropEnd before = [] ∧ path.isAbsolute = true)) :
    isAbsolute ⟨String.ofList (dropEnd before).reverse⟩ = path.isAbsolute := by
  cases isKept : (dropEnd before).reverse with
  | nil =>
      rw [List.reverse_eq_nil_iff] at isKept
      rw [Bool.eq_false_iff.mpr fun absolute => notRoot ⟨isKept, absolute⟩]
      rfl
  | cons first others =>
      have isPrefix : (dropEnd before).reverse <+: path.text.toList := by
        refine (List.reverse_prefix.mpr (dropEnd_suffix before)).trans ?_
        rw [← List.reverse_suffix, List.reverse_reverse]
        refine .trans ?_ cut.isSuffix
        exact (List.suffix_cons _ _).trans (List.suffix_append _ _)
      obtain ⟨back, isBack⟩ := isPrefix
      simp [isAbsolute, ← isBack, isKept]

theorem isParent_behind (cut : path.IsCut final ('/' :: before) behind) :
    ∃ above, path.parent? = some above ∧ path.IsParent above := by
  obtain ⟨fillers, areFillers, piecesEq⟩ := cut.pieces_behind
  have keptSuffix := (dropEnd_suffix before).length_le
  have shorter := cut.length_lt
  rw [List.length_cons] at shorter
  have parent := cut.parent
  rw [dropEnd] at parent
  by_cases isRoot : dropEnd before = [] ∧ path.isAbsolute = true
  · rw [isRoot.1, isRoot.2] at parent
    rw [isRoot.1] at piecesEq
    refine ⟨⟨"/"⟩, parent, isRoot.2.symm, ?_,
      ⟨"" :: fillers, _, behind, cut.isLast, ?_, .inr ⟨by decide, piecesEq⟩⟩,
      .inr (.inr (by decide))⟩
    · change 1 < path.text.length
      omega
    · simpa using areFillers
  · rw [if_neg (by simpa using isRoot)] at parent
    refine ⟨_, parent, cut.isAbsolute_behind isRoot, ?_,
      ⟨fillers, _, behind, cut.isLast, areFillers, .inl piecesEq⟩, ends_dropEnd before⟩
    change (String.ofList _).length < path.text.length
    rw [String.length_ofList, List.length_reverse]
    omega

end IsCut

/-- A path that leads somewhere has a path above it. -/
theorem exists_isParent (leads : path.solid ≠ []) :
    ∃ above, path.parent? = some above ∧ path.IsParent above := by
  obtain ⟨final, before, behind, cut⟩ := exists_isCut leads
  cases before with
  | nil => exact cut.isParent_alone
  | cons slash before =>
      obtain rfl : slash = '/' := cut.starts slash rfl
      exact cut.isParent_behind

/-- The path above leads through all pieces but the last one. -/
theorem IsParent.solid_eq {above : Path} (isParent : path.IsParent above) :
    ∃ last, path.solid = above.solid ++ [last] := by
  obtain ⟨fillers, last, behind, isSolid, areFillers, cut⟩ := isParent.pieces
  have inFront := filter_isSolid_of_fillers fun filler member =>
    areFillers filler (List.mem_append_left _ member)
  have atEnd := filter_isSolid_of_fillers fun filler member =>
    areFillers filler (List.mem_append_right _ member)
  refine ⟨last, ?_⟩
  rcases cut with cut | ⟨isNil, cut⟩
  · rw [solid, cut, List.filter_append, List.filter_append, inFront,
      List.filter_cons_of_pos isSolid, atEnd, List.append_nil, solid]
  · rw [isNil, solid, cut, List.filter_append, inFront, List.filter_cons_of_pos isSolid, atEnd]

/-- The path above a path that ends with a name: it goes up as far, and down to all names but
the last one.  It is empty, or it ends with a name, or its way down leads through no name. -/
structure IsAbove (path above : Path) : Prop where
  isParent : path.parent? = some above
  sameStart : above.isAbsolute = path.isAbsolute
  sameClimb : above.climb = path.climb
  names : above.namesBelow = path.namesBelow.dropLast
  ends : above.isEmpty = true ∨ isName above.lastPiece = true ∨ above.namesBelow = []

theorem climb_of_fillers {front fillers : List String} {last : String}
    (areFillers : ∀ filler ∈ fillers, filler = "" ∨ filler = ".") (named : isName last = true) :
    (front ++ fillers ++ [last]).rdropWhile isDown = front.rdropWhile isDown ∧
      ((front ++ fillers ++ [last]).rtakeWhile isDown).filter isName =
        (front.rtakeWhile isDown).filter isName ++ [last] := by
  have nothing : fillers.filter isName = [] := by
    refine List.filter_eq_nil_iff.mpr fun filler member => ?_
    rcases areFillers filler member with rfl | rfl <;> decide
  obtain ⟨sameClimb, sameDescent⟩ := @rdropWhile_append_of_down front (fillers ++ [last]) (by
    intro piece member
    rcases List.mem_append.mp member with isFiller | isLast
    · rcases areFillers piece isFiller with rfl | rfl <;> decide
    · rw [List.mem_singleton.mp isLast]
      exact isDown_of_name named)
  rw [List.append_assoc]
  refine ⟨sameClimb, ?_⟩
  rw [sameDescent, List.filter_append, List.filter_append, nothing, List.filter_singleton, named,
    cond_true, List.nil_append]

/-- A path that leads nowhere goes neither up nor down. -/
theorem climb_of_solid_nil (isNil : path.solid = []) : path.climb = [] ∧ path.namesBelow = [] := by
  have nowhere : ∀ piece ∈ path.pieces, isDown piece = true ∧ ¬ isName piece = true := by
    intro piece member
    have notSolid := List.filter_eq_nil_iff.mp isNil piece member
    refine ⟨?_, fun named => notSolid (isSolid_of_name named)⟩
    rw [isDown, decide_eq_true_eq]
    rintro rfl
    exact notSolid (by decide)
  have all := rdropWhile_append_of_down [] fun piece member => (nowhere piece member).1
  rw [List.nil_append] at all
  refine ⟨all.1, List.filter_eq_nil_iff.mpr fun piece member => (nowhere piece ?_).2⟩
  exact (List.rtakeWhile_suffix isDown path.pieces).mem member

/-- There is a path above each path that ends with a name. -/
theorem exists_isAbove (named : isName path.lastPiece = true) : ∃ above, path.IsAbove above := by
  have isLast := getLast?_pieces path
  have leads : path.solid ≠ [] :=
    List.ne_nil_of_mem (List.mem_filter.mpr ⟨List.mem_of_getLast? isLast, isSolid_of_name named⟩)
  obtain ⟨above, parentEq, isParent⟩ := exists_isParent leads
  obtain ⟨fillers, last, behind, -, areFillers, cut⟩ := isParent.pieces
  -- nothing stands behind a name at the end
  have nothing : behind = [] := by
    rcases List.eq_nil_or_concat behind with isNil | ⟨others, filler, rfl⟩
    · exact isNil
    · have isFiller := areFillers filler (by simp)
      have same : filler = path.lastPiece := by
        rw [List.concat_eq_append, ← List.cons_append] at cut
        rcases cut with cut | ⟨-, cut⟩
        · rw [cut, ← List.append_assoc, List.getLast?_concat] at isLast
          exact Option.some.inj isLast
        · rw [cut, ← List.append_assoc, List.getLast?_concat] at isLast
          exact Option.some.inj isLast
      rw [← same] at named
      rcases isFiller with rfl | rfl <;> exact absurd named (by decide)
  subst nothing
  rw [List.append_nil] at areFillers
  have same : last = path.lastPiece := by
    rcases cut with cut | ⟨-, cut⟩ <;> simpa [cut] using isLast
  subst same
  have ends : above.isEmpty = true ∨ isName above.lastPiece = true ∨ above.namesBelow = [] := by
    rcases isParent.ends with isEmpty | isSolid | isNil
    · exact .inl isEmpty
    · by_cases isUp : above.lastPiece = ".."
      · obtain ⟨front, piecesEq⟩ := List.getLast?_eq_some_iff.mp (getLast?_pieces above)
        refine .inr (.inr ?_)
        rw [namesBelow, descent, piecesEq, isUp, List.rtakeWhile_concat_neg _ _ _ (by decide)]
        rfl
      · refine .inr (.inl ?_)
        rw [isName, ← Path.isSolid, isSolid]
        simpa using isUp
    · exact .inr (.inr (climb_of_solid_nil isNil).2)
  rcases cut with cut | ⟨isNil, cut⟩
  · obtain ⟨sameClimb, names⟩ := @climb_of_fillers above.pieces _ _ areFillers named
    refine ⟨above, parentEq, isParent.sameStart, ?_, ?_, ends⟩
    · rw [climb, climb, cut, sameClimb]
    · rw [namesBelow, namesBelow, descent, descent, cut, names, List.dropLast_concat]
  · obtain ⟨sameClimb, names⟩ := @climb_of_fillers [] _ _ areFillers named
    rw [List.nil_append] at sameClimb names
    obtain ⟨noClimb, noNames⟩ := climb_of_solid_nil isNil
    refine ⟨above, parentEq, isParent.sameStart, ?_, ?_, ends⟩
    · rw [noClimb, climb, cut, sameClimb]
      rfl
    · rw [noNames, namesBelow, descent, cut, names]
      rfl

/-- A relative path behind another one goes on where that one ends. -/
theorem pieces_join (base : Path) {next : Path} (relative : next.isAbsolute = false) :
    (base.join next).isAbsolute = base.isAbsolute ∧ ∃ front,
      (base.join next).pieces = front ++ next.pieces ∧
        (base.pieces = front ∨ base.pieces = front ++ [""]) := by
  obtain ⟨text⟩ := base
  obtain ⟨more⟩ := next
  by_cases isNil : text = ""
  · subst isNil
    rw [join, relative, if_neg Bool.false_ne_true, if_pos (by simp [isEmpty])]
    dsimp only
    rw [String.empty_append]
    exact ⟨relative, [], rfl, .inr rfl⟩
  · rw [join, relative, if_neg Bool.false_ne_true]
    split
    · next closed =>
      have closed : text.toList.getLast? = some '/' := by simpa [isEmpty, isNil] using closed
      obtain ⟨front, textEq⟩ := List.getLast?_eq_some_iff.mp closed
      have ends : text = String.ofList front ++ "/" ++ "" := by
        rw [← String.toList_inj, textEq]
        simp
      refine ⟨isAbsolute_append isNil more, pieces ⟨String.ofList front⟩, ?_, .inr ?_⟩
      · rw [ends, String.append_empty, pieces_append_slash]
      · rw [ends, pieces_append_slash]
        rfl
    · refine ⟨?_, pieces ⟨text⟩, pieces_append_slash text more, .inl rfl⟩
      rw [String.append_assoc]
      exact isAbsolute_append isNil _

end Path

end ScriptBridge

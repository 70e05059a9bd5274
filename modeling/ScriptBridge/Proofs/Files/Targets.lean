import ScriptBridge.Proofs.Files.Name

/-!
# Paths of made files

A run keeps the normalized text and the tree of every source and writes its code, each
at a path that is the path of the source with another extension.  The extension of a
source may be written in any case, so the paths that are made for two sources are the
same if and only if the sources differ at most in the case of their extensions.
-/

namespace ScriptBridge

namespace Path

/-! ### Paths behind one another -/

theorem cutAtSlashes_append_slash (text gathered rest : List Char) :
    cutAtSlashes gathered (text ++ '/' :: rest) =
      cutAtSlashes gathered text ++ cutAtSlashes [] rest := by
  induction text generalizing gathered with
  | nil => simp [cutAtSlashes]
  | cons character text ih =>
      rw [List.cons_append, cutAtSlashes, cutAtSlashes]
      split
      · rw [ih, List.cons_append]
      · exact ih _

theorem pieces_append_slash (front back : String) :
    pieces ⟨front ++ "/" ++ back⟩ = pieces ⟨front⟩ ++ pieces ⟨back⟩ := by
  have toList : (front ++ "/" ++ back).toList = front.toList ++ '/' :: back.toList := by simp
  rw [pieces, toList, cutAtSlashes_append_slash, pieces, pieces]

theorem head?_pieces_of_isAbsolute {path : Path} (absolute : path.isAbsolute = true) :
    path.pieces.head? = some "" := by
  obtain ⟨rest, textEq⟩ := List.head?_eq_some_iff.mp (by simpa [isAbsolute] using absolute)
  simp [pieces, textEq, cutAtSlashes]

/-- A path that starts at no place of its own: not at the root, and not with a dot. -/
structure IsInner (path : Path) : Prop where
  relative : path.isAbsolute = false
  undotted : path.pieces.head? ≠ some "."

theorem isAbsolute_append {front : String} (isSome : front ≠ "") (back : String) :
    isAbsolute ⟨front ++ back⟩ = isAbsolute ⟨front⟩ := by
  obtain ⟨first, others, frontEq⟩ : ∃ first others, front.toList = first :: others :=
    List.exists_cons_of_ne_nil (by simpa using isSome)
  simp only [isAbsolute, String.toList_append, frontEq, List.cons_append, List.head?_cons]

/-- The parts of a path that goes on behind another one. -/
theorem parts_of_pieces {path base : Path} {more : List String}
    (absolute : path.isAbsolute = base.isAbsolute)
    (starts : path.pieces.head? = base.pieces.head?)
    (split : path.pieces.filterMap part? = base.pieces.filterMap part? ++ more.filterMap part?) :
    path.parts = base.parts ++ more.filterMap part? := by
  simp only [parts, absolute, starts, split, List.append_assoc]

/-- The parts of a path behind another one follow the parts of that one. -/
theorem parts_join (base : Path) {next : Path} (inner : next.IsInner) :
    (base.join next).parts = base.parts ++ next.pieces.filterMap part? := by
  obtain ⟨text⟩ := base
  by_cases isSome : text = ""
  · subst isSome
    have joined : join ⟨""⟩ next = next := by simp [join, isEmpty]
    have nothing : parts ⟨""⟩ = [] := rfl
    rw [joined, nothing, parts, inner.relative]
    simp [inner.undotted]
  · have behind (front : String) (textEq : text = front ++ "/" ∨ text = front)
        (ends : ∃ back, front ++ "/" ++ next.text = text ++ back) :
        parts ⟨front ++ "/" ++ next.text⟩ = parts ⟨text⟩ ++ next.pieces.filterMap part? := by
      have head : (pieces ⟨front⟩ ++ next.pieces).head? = (pieces ⟨text⟩).head? := by
        have pieced := FileSystem.pieces_ne_nil ⟨front⟩
        rcases textEq with rfl | rfl
        · rw [show front ++ "/" = front ++ "/" ++ "" by simp, pieces_append_slash,
            List.head?_append_of_ne_nil _ pieced, List.head?_append_of_ne_nil _ pieced]
        · rw [List.head?_append_of_ne_nil _ pieced]
      have same : (pieces ⟨text⟩).filterMap part? = (pieces ⟨front⟩).filterMap part? := by
        rcases textEq with rfl | rfl
        · rw [show front ++ "/" = front ++ "/" ++ "" by simp, pieces_append_slash]
          simp [pieces, cutAtSlashes, part?]
        · rfl
      obtain ⟨back, ends⟩ := ends
      refine parts_of_pieces ?_ (by rw [pieces_append_slash]; exact head) ?_
      · rw [ends, isAbsolute_append isSome]
      · rw [pieces_append_slash, List.filterMap_append, same]
    unfold join
    rw [inner.relative, if_neg Bool.false_ne_true]
    split
    · next closed =>
      obtain ⟨front, textEq⟩ : ∃ front : String, text = front ++ "/" := by
        have closed : text.toList.getLast? = some '/' := by simpa [isEmpty, isSome] using closed
        obtain ⟨front, textEq⟩ := List.getLast?_eq_some_iff.mp closed
        exact ⟨String.ofList front, by rw [← String.toList_inj, textEq]; simp⟩
      subst textEq
      exact behind front (.inl rfl) ⟨next.text, rfl⟩
    · exact behind text (.inr rfl) ⟨"/" ++ next.text, by simp [String.append_assoc]⟩

/-! ### Names with another extension -/

/-- The name of a file or directory, as one piece of a path. -/
structure IsPiece (name : String) : Prop where
  named : isName name = true
  whole : '/' ∉ name.toList

instance (name : String) : Decidable (IsPiece name) :=
  decidable_of_iff (isName name = true ∧ '/' ∉ name.toList)
    ⟨fun ⟨named, whole⟩ => ⟨named, whole⟩, fun ⟨named, whole⟩ => ⟨named, whole⟩⟩

theorem cutAtSlashes_of_whole {text : List Char} (whole : '/' ∉ text) (gathered : List Char) :
    cutAtSlashes gathered text = [String.ofList (gathered.reverse ++ text)] := by
  induction text generalizing gathered with
  | nil => simp [cutAtSlashes]
  | cons character text ih =>
      obtain ⟨other, whole⟩ : character ≠ '/' ∧ '/' ∉ text := by
        simpa [eq_comm] using whole
      rw [cutAtSlashes, if_neg other, ih whole]
      simp

theorem pieces_of_whole {name : String} (whole : '/' ∉ name.toList) :
    pieces ⟨name⟩ = [name] := by
  rw [pieces, cutAtSlashes_of_whole whole]
  simp

theorem relativeText_cons (first : String) {rest : FileLocation} (isSome : rest ≠ []) :
    relativeText (first :: rest) = first ++ "/" ++ relativeText rest := by
  obtain ⟨next, others, rfl⟩ := List.exists_cons_of_ne_nil isSome
  rw [relativeText, String.intercalate_cons_cons, relativeText]

theorem pieces_relativeText {location : FileLocation} (isSome : location ≠ [])
    (whole : ∀ name ∈ location, '/' ∉ name.toList) :
    pieces ⟨relativeText location⟩ = location := by
  induction location with
  | nil => exact absurd rfl isSome
  | cons first rest ih =>
      have ⟨ofFirst, ofRest⟩ := List.forall_mem_cons.mp whole
      by_cases isLast : rest = []
      · subst isLast
        rw [relativeText, String.intercalate_singleton, pieces_of_whole ofFirst]
      · rw [relativeText_cons first isLast, pieces_append_slash, ih isLast ofRest,
          pieces_of_whole ofFirst, List.singleton_append]

/-- Directories, each with the slash behind it. -/
def leading (directories : FileLocation) : List Char :=
  directories.flatMap fun name => name.toList ++ ['/']

theorem relativeText_concat (directories : FileLocation) (name : String) :
    (relativeText (directories ++ [name])).toList = leading directories ++ name.toList := by
  induction directories with
  | nil => simp [relativeText, leading, String.intercalate_singleton]
  | cons first rest ih =>
      rw [List.cons_append, relativeText_cons first (by simp)]
      simp [leading, ih]

theorem splitExtension_eq_some {name stem extension : String}
    (split : splitExtension name = (stem, some extension)) :
    name.toList = stem.toList ++ '.' :: extension.toList ∧ stem ≠ "" := by
  have dotted := List.head?_dropWhile_not (· ≠ '.') name.toList.reverse
  have whole : name.toList.reverse.takeWhile (· ≠ '.') ++ name.toList.reverse.dropWhile (· ≠ '.') =
    name.toList.reverse := List.takeWhile_append_dropWhile
  have drops : name.toList.reverse.drop (name.toList.reverse.takeWhile (· ≠ '.')).length =
      name.toList.reverse.dropWhile (· ≠ '.') := by
    conv => lhs; arg 2; rw [← whole]
    exact List.drop_left
  unfold splitExtension at split
  dsimp only at split
  rw [drops] at split
  generalize name.toList.reverse.takeWhile (· ≠ '.') = behind at *
  generalize name.toList.reverse.dropWhile (· ≠ '.') = before at *
  cases before with
  | nil => simp at split
  | cons dot front =>
      obtain rfl : dot = '.' := by simpa using dotted
      dsimp only at split
      split at split
      · simp at split
      · next isSome =>
        obtain ⟨rfl, rfl⟩ : String.ofList front.reverse = stem ∧
            String.ofList behind.reverse = extension := by simpa using split
        refine ⟨?_, by simpa using isSome⟩
        rw [← List.reverse_reverse name.toList, ← whole]
        simp

theorem splitExtension_eq_none {name stem : String}
    (split : splitExtension name = (stem, none)) : name = stem := by
  unfold splitExtension at split
  dsimp only at split
  split at split
  · split at split
    · exact (Prod.mk.inj split).1
    · cases (Prod.mk.inj split).2
  · exact (Prod.mk.inj split).1

theorem stem_splitExtension {name : String} (piece : IsPiece name) :
    (splitExtension name).1 ≠ "" ∧ '/' ∉ (splitExtension name).1.toList := by
  cases split : splitExtension name with
  | mk stem extension? =>
      cases extension? with
      | none =>
          obtain rfl := splitExtension_eq_none split
          have named := piece.named
          simp only [isName, Bool.and_eq_true, decide_eq_true_eq] at named
          exact ⟨named.1.1, piece.whole⟩
      | some extension =>
          obtain ⟨nameEq, isSome⟩ := splitExtension_eq_some split
          exact ⟨isSome, fun isSlash => piece.whole (by simp [nameEq, isSlash])⟩

theorem splitExtension_append_dot {stem : String} (isSome : stem ≠ "") :
    splitExtension (stem ++ ".") = (stem, some "") := by
  have reversed : (stem ++ ".").toList.reverse = '.' :: stem.toList.reverse := by simp
  unfold splitExtension
  rw [reversed]
  simp [isSome]

theorem fileName?_of_lastPiece {path : Path} (named : isName path.lastPiece = true) :
    path.fileName? = some path.lastPiece := by
  have last := isName_lastPiece named
  unfold fileName?
  generalize path.splitLast = split at *
  obtain ⟨before, piece⟩ := split
  obtain rfl : piece = path.lastPiece := last
  simp [named]

theorem lastPiece_relativeText {location : FileLocation} {name : String}
    (whole : ∀ other ∈ location ++ [name], '/' ∉ other.toList) :
    lastPiece ⟨relativeText (location ++ [name])⟩ = name := by
  have last := getLast?_pieces ⟨relativeText (location ++ [name])⟩
  rw [pieces_relativeText (by simp) whole] at last
  simpa using last.symm

/-- The name of a file with a given stem and an extension.  The stem of a single dot gives
the name of the directory above. -/
def nameOf (stem extension : String) : String :=
  if stem = "." then ".." else stem ++ "." ++ extension

theorem part?_nameOf {stem extension : String} (isSome : stem ≠ "") (given : extension ≠ "") :
    part? (nameOf stem extension) =
      some (if stem = "." then .parent else .name (stem ++ "." ++ extension)) := by
  unfold nameOf
  split
  · rfl
  · have long : 2 < (stem ++ "." ++ extension).length := by
      have stemLong : 0 < stem.toList.length := List.length_pos_iff.mpr (by simpa using isSome)
      have extensionLong : 0 < extension.toList.length :=
        List.length_pos_iff.mpr (by simpa using given)
      rw [← String.length_toList]
      simp only [String.toList_append, List.length_append]
      have dot : ".".toList.length = 1 := rfl
      omega
    have other (short : String) (isShort : short.length ≤ 2) :
        stem ++ "." ++ extension ≠ short := by
      rintro rfl
      omega
    rw [part?, if_neg (not_or.mpr ⟨other "" (by decide), other "." (by decide)⟩),
      if_neg (other ".." (by decide))]

/-- The last piece of a path stands behind its directories. -/
theorem splitLast_leading {directories : FileLocation} {last : String} (isSome : last ≠ "")
    (other : last ≠ ".") (whole : '/' ∉ last.toList) :
    splitLast ⟨String.ofList (leading directories ++ last.toList)⟩ =
      ((leading directories).reverse, last) := by
  obtain ⟨front, final, lastEq⟩ := List.eq_nil_or_concat last.toList
    |>.resolve_left (by simpa using isSome)
  rw [List.concat_eq_append] at lastEq
  have finalWhole : final ≠ '/' := by
    rintro rfl
    exact whole (by simp [lastEq])
  have reversed : (leading directories ++ last.toList).reverse =
      final :: (front.reverse ++ (leading directories).reverse) := by simp [lastEq]
  -- a dot at the end is part of the last piece, as this is no single dot
  have kept : dropEnd (final :: (front.reverse ++ (leading directories).reverse)) =
      final :: (front.reverse ++ (leading directories).reverse) := by
    unfold dropEnd
    split
    · next equal => exact absurd (List.cons.inj equal).1 finalWhole
    · next equal =>
      obtain ⟨rfl, equal⟩ := List.cons.inj equal
      rcases List.eq_nil_or_concat front with rfl | ⟨rest, before, rfl⟩
      · exact absurd (by rw [← String.toList_inj, lastEq]; rfl) other
      · obtain ⟨rfl, -⟩ : before = '/' ∧ _ := by simpa using equal
        exact absurd (by simp [lastEq]) whole
    · rfl
  have inside : ∀ character ∈ last.toList.reverse, decide (character ≠ '/') = true := by
    intro character member
    simpa using ne_of_mem_of_not_mem (List.mem_reverse.mp member) whole
  have back : final :: (front.reverse ++ (leading directories).reverse) =
      last.toList.reverse ++ (leading directories).reverse := by simp [lastEq]
  have stops : (leading directories).reverse.takeWhile (· ≠ '/') = [] ∧
      (leading directories).reverse.dropWhile (· ≠ '/') = (leading directories).reverse := by
    rcases List.eq_nil_or_concat directories with rfl | ⟨rest, name, rfl⟩
    · exact ⟨rfl, rfl⟩
    · simp [leading]
  unfold splitLast
  dsimp only
  rw [String.toList_ofList, reversed, kept, back, List.takeWhile_append_of_pos inside,
    List.dropWhile_append_of_pos inside, stops.1, stops.2]
  simp

theorem setExtension_of_stem {directories : FileLocation} {stem extension : String}
    (isSome : stem ≠ "") (whole : '/' ∉ stem.toList) (given : extension ≠ "") :
    setExtension ⟨String.ofList (leading directories ++ (stem ++ ".").toList)⟩ extension =
      ⟨relativeText (directories ++ [nameOf stem extension])⟩ := by
  have long : stem ++ "." ≠ "." := by
    intro equal
    rw [← String.toList_inj] at equal
    exact isSome (by simpa using equal)
  have split := @splitLast_leading directories (stem ++ ".") (by simp) long (by simpa using whole)
  unfold setExtension
  rw [split]
  dsimp only
  unfold nameOf
  split
  · next named =>
    have other : stem ≠ "." := by
      rintro rfl
      exact absurd named (by decide)
    rw [splitExtension_append_dot isSome, if_neg other, extensionText,
      if_neg (by simpa using given), List.reverse_reverse, Path.mk.injEq, ← String.toList_inj,
      relativeText_concat]
    simp
  · next unnamed =>
    have dot : stem = "." := by
      have ends : stem ++ "." = ".." := by
        simpa [isName, isSome, String.append_eq_empty_iff, or_iff_not_imp_left] using unnamed
      have twice : stem.toList ++ ['.'] = ['.'] ++ ['.'] := by
        rw [← String.toList_inj] at ends
        simpa using ends
      rw [← String.toList_inj]
      exact List.append_cancel_right twice
    rw [if_pos dot, Path.mk.injEq, ← String.toList_inj, relativeText_concat, dot]
    simp

section

variable {directories : FileLocation} {name target : String}

/-- The path of a file with another extension, or with a first one. -/
theorem withExtension_relativeText (pieces : ∀ other ∈ directories ++ [name], IsPiece other)
    (given : target ≠ "") :
    (Path.mk (relativeText (directories ++ [name]))).withExtension target =
      ⟨relativeText (directories ++ [nameOf (splitExtension name).1 target])⟩ := by
  have piece := pieces name (by simp)
  have last : lastPiece ⟨relativeText (directories ++ [name])⟩ = name :=
    lastPiece_relativeText fun other member => (pieces other member).whole
  have found : extension? ⟨relativeText (directories ++ [name])⟩ = (splitExtension name).2 := by
    rw [extension?, fileName?_of_lastPiece (last.symm ▸ piece.named), last, Option.bind_some]
  have textEq := relativeText_concat directories name
  unfold withExtension
  rw [found]
  cases split : splitExtension name with
  | mk stem extension? =>
      cases extension? with
      | none =>
          obtain rfl := splitExtension_eq_none split
          have named := piece.named
          simp only [isName, Bool.and_eq_true, decide_eq_true_eq] at named
          have asList : Path.mk (relativeText (directories ++ [name])) =
              ⟨String.ofList (leading directories ++ name.toList)⟩ := by
            rw [Path.mk.injEq, ← String.toList_inj, textEq, String.toList_ofList]
          dsimp only
          rw [asList, setExtension, splitLast_leading named.1.1 named.1.2 piece.whole]
          dsimp only
          rw [if_pos piece.named, split, nameOf, if_neg named.1.2, extensionText,
            if_neg (by simpa using given), List.reverse_reverse, Path.mk.injEq,
            ← String.toList_inj, relativeText_concat]
          simp
      | some extension =>
          obtain ⟨nameEq, isSome⟩ := splitExtension_eq_some split
          have stemWhole : '/' ∉ stem.toList :=
            fun isSlash => piece.whole (by simp [nameEq, isSlash])
          have whole : (relativeText (directories ++ [name])).toList =
              leading directories ++ (stem ++ ".").toList ++ extension.toList := by
            rw [textEq, nameEq]
            simp
          have front : (relativeText (directories ++ [name])).toList.take
              ((relativeText (directories ++ [name])).toList.length - extension.length) =
                leading directories ++ (stem ++ ".").toList := by
            rw [whole, List.length_append, String.length_toList, Nat.add_sub_cancel, List.take_left]
          dsimp only
          rw [front, setExtension_of_stem isSome stemWhole given]

/-- The parts of a path that is made for a file below a base. -/
theorem parts_join_withExtension (pieces : ∀ other ∈ directories ++ [name], IsPiece other)
    (base : Path) (given : target ≠ "") (whole : '/' ∉ target.toList) :
    (base.join ((Path.mk (relativeText (directories ++ [name]))).withExtension target)).parts =
      base.parts ++ (directories.map PathPart.name ++
        [if (splitExtension name).1 = "." then PathPart.parent
          else .name ((splitExtension name).1 ++ "." ++ target)]) := by
  have piece := pieces name (by simp)
  obtain ⟨isSome, stemWhole⟩ := stem_splitExtension piece
  generalize isStem : (splitExtension name).1 = stem at isSome stemWhole ⊢
  have wholeName : '/' ∉ (nameOf stem target).toList := by
    unfold nameOf
    split
    · decide
    · simpa [stemWhole] using whole
  have wholes : ∀ other ∈ directories ++ [nameOf stem target], '/' ∉ other.toList := by
    refine List.forall_mem_append.mpr ⟨fun other member => ?_, by simpa using wholeName⟩
    exact (pieces other (by simp [member])).whole
  have cut := pieces_relativeText (by simp) wholes
  have partOf (other : String) (member : other ∈ directories) :
      part? other = some (.name other) := by
    have named := (pieces other (by simp [member])).named
    simp only [isName, Bool.and_eq_true, decide_eq_true_eq] at named
    simp [part?, named]
  have partOfName := part?_nameOf isSome given
  have inner : IsInner ⟨relativeText (directories ++ [nameOf stem target])⟩ := by
    have first : ∀ other, (directories ++ [nameOf stem target]).head? = some other →
        (part? other).isSome := by
      intro other isFirst
      cases directories with
      | nil =>
          obtain rfl : nameOf stem target = other := by simpa using isFirst
          rw [partOfName, Option.isSome_some]
      | cons directory rest =>
          obtain rfl : directory = other := by simpa using isFirst
          rw [partOf directory (by simp), Option.isSome_some]
    constructor
    · rw [← Bool.not_eq_true]
      intro absolute
      have isFirst := head?_pieces_of_isAbsolute absolute
      rw [cut] at isFirst
      simpa [part?] using first _ isFirst
    · rw [cut]
      intro isFirst
      simpa [part?] using first _ isFirst
  have partsOf : directories.filterMap part? = directories.map PathPart.name := by
    rw [← List.filterMap_eq_map]
    exact List.filterMap_congr partOf
  rw [withExtension_relativeText pieces given, isStem, Path.parts_join base inner, cut,
    List.filterMap_append, partsOf]
  simp [partOfName]

end

end Path

/-! ### Sources -/

/-- The relative path of a source, with its directories, its name, and the parts of the
name. -/
structure SourceFile.IsAt (relative : String) (directories : FileLocation)
    (name stem extension : String) : Prop where
  text : relative = relativeText (directories ++ [name])
  pieces : ∀ other ∈ directories ++ [name], Path.IsPiece other
  split : Path.splitExtension name = (stem, some extension)
  ofSource : extension.toList.map Char.toLower = sourceExtension.toList

namespace SourceFile.IsAt

open ScriptBridge.Path

variable {relative name stem extension : String} {directories : FileLocation}

theorem isSome (source : IsAt relative directories name stem extension) : stem ≠ "" :=
  (splitExtension_eq_some source.split).2

theorem name_eq (source : IsAt relative directories name stem extension) :
    name.toList = stem.toList ++ '.' :: extension.toList :=
  (splitExtension_eq_some source.split).1

theorem toList_eq (source : IsAt relative directories name stem extension) :
    relative.toList = leading directories ++ stem.toList ++ '.' :: extension.toList := by
  rw [source.text, relativeText_concat, source.name_eq, List.append_assoc]

theorem stem_whole (source : IsAt relative directories name stem extension) :
    '/' ∉ stem.toList := by
  have whole := (source.pieces name (by simp)).whole
  rw [source.name_eq] at whole
  exact fun isSlash => whole (List.mem_append_left _ isSlash)

/-- The parts of a path that is made for a source. -/
theorem parts_join (source : IsAt relative directories name stem extension) (base : Path)
    {target : String} (given : target ≠ "") (whole : '/' ∉ target.toList) :
    (base.join ((Path.mk relative).withExtension target)).parts = base.parts ++
      (directories.map PathPart.name ++
        [if stem = "." then .parent else .name (stem ++ "." ++ target)]) := by
  have parts := parts_join_withExtension source.pieces base given whole
  rwa [source.split, ← source.text] at parts

end SourceFile.IsAt

/-- Two paths that end with the extension of sources and differ at most in its case. -/
def AlikeButCase (first second : String) : Prop :=
  ∃ front one other : List Char,
    first.toList = front ++ '.' :: one ∧ second.toList = front ++ '.' :: other ∧
      one.map Char.toLower = sourceExtension.toList ∧
      other.map Char.toLower = sourceExtension.toList

namespace SourceFile.IsAt

open ScriptBridge.Path

variable {first second name otherName stem otherStem extension otherExtension : String}
  {directories others : FileLocation}

theorem alikeButCase_iff (isFirst : IsAt first directories name stem extension)
    (isSecond : IsAt second others otherName otherStem otherExtension) :
    AlikeButCase first second ↔ directories = others ∧ stem = otherStem := by
  constructor
  · rintro ⟨front, one, other, firstEq, secondEq, ofOne, ofOther⟩
    have frontEq {relative text written : String} {directories : FileLocation} {behind : List Char}
        (textEq : relative.toList = front ++ '.' :: behind)
        (toListEq : relative.toList = leading directories ++ text.toList ++ '.' :: written.toList)
        (ofBehind : behind.map Char.toLower = sourceExtension.toList)
        (ofWritten : written.toList.map Char.toLower = sourceExtension.toList) :
        front = leading directories ++ text.toList := by
      have lengthEq := congrArg List.length (ofBehind.trans ofWritten.symm)
      rw [List.length_map, List.length_map] at lengthEq
      exact (List.append_inj' (textEq.symm.trans toListEq) (by simp [lengthEq])).1
    have same : relativeText (directories ++ [stem]) = relativeText (others ++ [otherStem]) := by
      rw [← String.toList_inj, relativeText_concat, relativeText_concat,
        ← frontEq firstEq isFirst.toList_eq ofOne isFirst.ofSource,
        ← frontEq secondEq isSecond.toList_eq ofOther isSecond.ofSource]
    have wholes {relative name stem extension : String} {directories : FileLocation}
        (source : IsAt relative directories name stem extension) :
        ∀ piece ∈ directories ++ [stem], '/' ∉ piece.toList := by
      refine List.forall_mem_append.mpr ⟨fun piece member => ?_, by simpa using source.stem_whole⟩
      exact (source.pieces piece (by simp [member])).whole
    have piecesEq := congrArg (fun text => Path.pieces ⟨text⟩) same
    rw [pieces_relativeText (by simp) (wholes isFirst),
      pieces_relativeText (by simp) (wholes isSecond)] at piecesEq
    simpa using List.append_inj' piecesEq rfl
  · rintro ⟨rfl, rfl⟩
    exact ⟨_, _, _, isFirst.toList_eq, isSecond.toList_eq, isFirst.ofSource, isSecond.ofSource⟩

/-- Behind any base, the paths made for two sources are the same if and only if the
sources are alike but for the case of their extensions. -/
theorem parts_eq_iff (isFirst : IsAt first directories name stem extension)
    (isSecond : IsAt second others otherName otherStem otherExtension) (base : Path)
    {target : String} (given : target ≠ "") (whole : '/' ∉ target.toList) :
    (base.join ((Path.mk first).withExtension target)).parts =
        (base.join ((Path.mk second).withExtension target)).parts ↔
      AlikeButCase first second := by
  rw [isFirst.parts_join base given whole, isSecond.parts_join base given whole,
    isFirst.alikeButCase_iff isSecond, List.append_cancel_left_eq]
  constructor
  · intro same
    obtain ⟨directoriesEq, lastEq⟩ := List.append_inj' same rfl
    refine ⟨List.map_injective_iff.mpr (fun _ _ => PathPart.name.inj) directoriesEq, ?_⟩
    have lastEq := List.singleton_inj.mp lastEq
    split at lastEq <;> split at lastEq
    · next isDot isDot' => rw [isDot, isDot']
    · cases lastEq
    · cases lastEq
    · simpa [← String.toList_inj] using PathPart.name.inj lastEq
  · rintro ⟨rfl, rfl⟩
    rfl

end SourceFile.IsAt

namespace FileSystem

/-- Whatever stands in a file system has the name of a file or directory. -/
def IsNamed (files : FileSystem) : Prop :=
  ∀ entry ∈ files.entries.entries, ∀ name ∈ entry.1, Path.IsPiece name

instance (files : FileSystem) : Decidable files.IsNamed :=
  inferInstanceAs (Decidable (∀ entry ∈ files.entries.entries, ∀ name ∈ entry.1,
    Path.IsPiece name))

variable {files later : FileSystem} {skip : SkipRules} {input : Path} {found : List SourceFile}

theorem isAt_of_isSource {location : FileLocation}
    (pieces : ∀ name ∈ location, Path.IsPiece name) (isSome : location ≠ [])
    (isSource : (SourceFile.below input location).path.isSource = true) :
    ∃ directories name stem extension,
      SourceFile.IsAt (relativeText location) directories name stem extension := by
  obtain ⟨directories, name, rfl⟩ := (List.eq_nil_or_concat' location).resolve_left isSome
  have piece := pieces name (by simp)
  have last : ((SourceFile.below input directories).path.join ⟨name⟩).lastPiece = name := by
    rw [Path.lastPiece_join]
    simpa [relativeText, String.intercalate_singleton] using
      @Path.lastPiece_relativeText [] name (by simpa using piece.whole)
  have named : ((SourceFile.below input directories).path.join ⟨name⟩).fileName? = some name := by
    rw [Path.fileName?_of_lastPiece (last.symm ▸ piece.named), last]
  rw [path_below_concat] at isSource
  unfold Path.isSource Path.extension? at isSource
  rw [named, Option.bind_some] at isSource
  cases split : Path.splitExtension name with
  | mk stem extension? =>
      rw [split] at isSource
      cases extension? with
      | none => cases isSource
      | some extension =>
          exact ⟨directories, name, stem, extension, rfl, pieces, split, by simpa using isSource⟩

/-- The relative path of a source below a directory ends with the extension of sources. -/
theorem isAt_of_mem_sources (tree : files.IsTree) (named : files.IsNamed)
    (directory : files.isDirectory input = true) (discovered : files.sources skip input = .ok found)
    {source : SourceFile} (isSource : source ∈ found) :
    ∃ directories name stem extension,
      SourceFile.IsAt source.relative directories name stem extension := by
  unfold isDirectory lookUp at directory
  unfold sources at discovered
  cases located : files.locate input with
  | error cause =>
      rw [located] at discovered
      cases discovered
  | ok start =>
      rw [located] at discovered directory
      dsimp only at discovered directory
      cases stands : files.entry? start with
      | none =>
          rw [stands] at discovered
          cases discovered
      | some entry =>
          rw [stands] at discovered directory
          cases entry with
          | file text => cases directory
          | directory =>
              cases discovered
              obtain ⟨isBelow, ofSource⟩ := List.mem_filter.mp isSource
              obtain ⟨location, isLocation, rfl⟩ := List.mem_map.mp isBelow
              have reaches := (mem_filesBelow tree).mp isLocation
              obtain ⟨text, isFile⟩ := reaches.hasFile
              have isSome := reaches.ne_nil
              have listed := entry?_eq_some (by simp [isSome]) isFile
              refine isAt_of_isSource (fun name member => named _ listed name ?_) isSome
                (Bool.and_eq_true_iff.mp ofSource).1
              simp [member]

/-- Of two sources below a directory, the normalized texts are kept at the same path if
and only if the sources differ at most in the case of their extensions; so are their
trees, and so is their code written.  No other source is written over. -/
theorem writtenPaths_eq_iff (tree : files.IsTree) (named : files.IsNamed)
    (directory : files.isDirectory input = true) (discovered : files.sources skip input = .ok found)
    (stays : later.isDirectory input = true) (area : WorkArea) (output : Path)
    {first second : SourceFile} (isFirst : first ∈ found) (isSecond : second ∈ found) :
    ((area.text first.relative).parts = (area.text second.relative).parts ↔
        AlikeButCase first.relative second.relative) ∧
      ((area.tree first.relative).parts = (area.tree second.relative).parts ↔
        AlikeButCase first.relative second.relative) ∧
      ((later.targetPath input output first.relative).parts =
          (later.targetPath input output second.relative).parts ↔
        AlikeButCase first.relative second.relative) := by
  obtain ⟨_, _, _, _, ofFirst⟩ := isAt_of_mem_sources tree named directory discovered isFirst
  obtain ⟨_, _, _, _, ofSecond⟩ := isAt_of_mem_sources tree named directory discovered isSecond
  have noFile : later.isFile input = false := by
    unfold isDirectory at stays
    unfold isFile
    split at stays
    · next found => rw [found]
    · cases stays
  have inside (relative : String) : later.targetPath input output relative =
      output.join ((Path.mk relative).withExtension targetExtension) := by
    simp [targetPath, noFile]
  rw [inside, inside]
  exact ⟨ofFirst.parts_eq_iff ofSecond _ (by decide) (by decide),
    ofFirst.parts_eq_iff ofSecond _ (by decide) (by decide),
    ofFirst.parts_eq_iff ofSecond _ (by decide) (by decide)⟩

/-- Sources of one name, and one in a directory. -/
def twinFiles : FileSystem :=
  .ofFiles [("src/A.AS", "first"), ("src/A.as", "second"), ("src/ui/A.as", "third")]

theorem twinFiles_eq : twinFiles = { entries :=
    ⟨[(["src"], .directory), (["src", "A.AS"], .file "first"), (["src", "A.as"], .file "second"),
      (["src", "ui"], .directory), (["src", "ui", "A.as"], .file "third")]⟩ } := by
  decide +kernel

def twinSources : List SourceFile :=
  [⟨⟨"src/A.AS"⟩, "A.AS"⟩, ⟨⟨"src/A.as"⟩, "A.as"⟩, ⟨⟨"src/ui/A.as"⟩, "ui/A.as"⟩]

theorem children_of_sorted {directory : FileLocation} {found : List (String × FileEntry)}
    (listed : (files.entries.entries.filterMap fun (location, entry) =>
      (nameIn? directory location).map fun name => (name, entry)) = found)
    (sorted : found.Pairwise fun first second => (!(second.1 < first.1 : Bool)) = true) :
    files.children directory = found := by
  unfold children
  rw [listed]
  exact List.mergeSort_of_pairwise sorted

example : nameIn? ["src"] ["src", "ui", "A.as"] = none := by
  decide

theorem twinFiles_sources : twinFiles.sources {} ⟨"src"⟩ = .ok twinSources := by
  have ⟨start, stands, depth⟩ : twinFiles.locate ⟨"src"⟩ = .ok ["src"] ∧
      twinFiles.entry? ["src"] = some .directory ∧ twinFiles.depth = 3 := by
    rw [twinFiles_eq]
    decide
  have children : twinFiles.children ["src"] =
      [("A.AS", .file "first"), ("A.as", .file "second"), ("ui", .directory)] := by
    rw [twinFiles_eq]
    exact children_of_sorted (by decide) (by decide)
  have inner : twinFiles.children ["src", "ui"] = [("A.as", .file "third")] := by
    rw [twinFiles_eq]
    exact children_of_sorted (by decide) (by decide)
  unfold sources
  simp only [start, stands, filesBelow, depth, visit, List.append_nil, children,
    List.flatMap_cons, List.flatMap_nil, List.nil_append, List.cons_append, inner]
  decide

theorem writtenPaths_eq_iff_twins :
    twinFiles.IsTree ∧ twinFiles.IsNamed ∧ twinFiles.isDirectory ⟨"src"⟩ = true ∧
      twinFiles.sources {} ⟨"src"⟩ = .ok twinSources ∧
      ((twinFiles.targetPath ⟨"src"⟩ ⟨"out"⟩ "A.as").parts =
          (twinFiles.targetPath ⟨"src"⟩ ⟨"out"⟩ "ui/A.as").parts ↔
        AlikeButCase "A.as" "ui/A.as") := by
  have ⟨tree, named, directory⟩ : twinFiles.IsTree ∧ twinFiles.IsNamed ∧
      twinFiles.isDirectory ⟨"src"⟩ = true := by
    rw [twinFiles_eq]
    decide
  exact ⟨tree, named, directory, twinFiles_sources,
    (@writtenPaths_eq_iff twinFiles twinFiles {} ⟨"src"⟩ twinSources tree named directory
      twinFiles_sources directory ⟨⟨"tmp"⟩⟩ ⟨"out"⟩ ⟨⟨"src/A.as"⟩, "A.as"⟩
      ⟨⟨"src/ui/A.as"⟩, "ui/A.as"⟩ (by decide) (by decide)).2.2⟩

/-- Two sources of one batch with different paths, whose texts, trees and code are put at
the same paths. -/
theorem writtenPaths_of_twins :
    twinFiles.sources {} ⟨"src"⟩ = .ok twinSources ∧
      ∃ first ∈ twinSources, ∃ second ∈ twinSources, first.relative ≠ second.relative ∧
        WorkArea.text ⟨⟨"tmp"⟩⟩ first.relative = WorkArea.text ⟨⟨"tmp"⟩⟩ second.relative ∧
        WorkArea.tree ⟨⟨"tmp"⟩⟩ first.relative = WorkArea.tree ⟨⟨"tmp"⟩⟩ second.relative ∧
        twinFiles.targetPath ⟨"src"⟩ ⟨"out"⟩ first.relative =
          twinFiles.targetPath ⟨"src"⟩ ⟨"out"⟩ second.relative := by
  refine ⟨twinFiles_sources, ?_⟩
  rw [twinFiles_eq]
  decide +kernel

end FileSystem

end ScriptBridge

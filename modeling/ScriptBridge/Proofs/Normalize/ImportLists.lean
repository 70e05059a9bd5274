import ScriptBridge.Proofs.Normalize.ImportLines

/-!
# Lists of imports

Imports stand one behind the other, with spaces, tabs and line feeds between them.  The rule
for imports takes each of them that is the first one of its line from its path.  The others
stand where a remark would, and nothing is left of them.
-/

namespace ScriptBridge

namespace Normalize

/-- A text of spaces, tabs and line feeds. -/
def IsSpacing (text : List Char) : Prop :=
  ∀ character ∈ text, character = ' ' ∨ character = '\t' ∨ character = '\n'

instance (text : List Char) : Decidable (IsSpacing text) :=
  List.decidableBAll (fun character => character = ' ' ∨ character = '\t' ∨ character = '\n') text

/-- An import with the spacing in front of it. -/
structure SpacedImport where
  spacing : List Char
  name : QualifiedName
  isSpacing : IsSpacing spacing := by decide

/-- Imports one behind the other. -/
structure ImportList where
  imports : List SpacedImport
  closing : List Char
  isSpacing : IsSpacing closing := by decide

/-- A text from its first line feed on. -/
def fromNewLine (text : List Char) : List Char :=
  text.dropWhile (· != '\n')

namespace SpacedImport

def source (item : SpacedImport) : List Char :=
  item.spacing ++ item.name.statement

/-- Whether a line ends in front of the import. -/
def startsLine (item : SpacedImport) : Bool :=
  item.spacing.contains '\n'

/-- What becomes of an import behind others. -/
def target (item : SpacedImport) : List Char :=
  if item.startsLine then fromNewLine item.spacing ++ item.name.imported else []

end SpacedImport

namespace ImportList

def source (list : ImportList) : List Char :=
  list.imports.flatMap SpacedImport.source ++ list.closing

/-- The text with the imports taken from their paths. -/
def target (list : ImportList) : List Char :=
  match list.imports with
  | [] => list.closing
  | first :: others =>
      first.spacing ++ (first.name.imported ++
        (others.flatMap SpacedImport.target ++ fromNewLine list.closing))

/-- The names of the imports. -/
def names (list : ImportList) : List QualifiedName :=
  list.imports.map SpacedImport.name

/-- The names of the imports that are the first ones of their lines. -/
def keptNames (list : ImportList) : List QualifiedName :=
  match list.imports with
  | [] => []
  | first :: others => first.name :: (others.filter SpacedImport.startsLine).map SpacedImport.name

end ImportList

/-! ## Lines of spacing -/

theorem IsSpacing.of_append {front rest : List Char} (isSpacing : IsSpacing (front ++ rest)) :
    IsSpacing front ∧ IsSpacing rest :=
  ⟨fun character isIn => isSpacing character (List.mem_append_left _ isIn),
    fun character isIn => isSpacing character (List.mem_append_right _ isIn)⟩

theorem IsSpacing.not_mem {text : List Char} (isSpacing : IsSpacing text) {character : Char}
    (outside : ¬ (character = ' ' ∨ character = '\t' ∨ character = '\n') := by decide) :
    character ∉ text :=
  fun isIn => outside (isSpacing character isIn)

theorem IsSpacing.isLineBlank {text : List Char} (isSpacing : IsSpacing text)
    (oneLine : '\n' ∉ text) : IsLineBlank text := by
  intro character isIn
  rcases isSpacing character isIn with isSpace | isTab | rfl
  · exact Or.inl isSpace
  · exact Or.inr isTab
  · exact absurd isIn oneLine

/-- A blank line stays. -/
theorem run_of_isLineBlank {line : List Char} (isBlank : IsLineBlank line) :
    destructureImports.run line = line := by
  refine Becomes.run_eq (Or.inr ⟨fun statement lineEq => ?_, rfl⟩) fun isIn =>
    absurd (isBlank '\n' isIn) (by decide)
  have isIn : 'i' ∈ line := by
    rw [lineEq, ImportStatement.source]
    exact List.mem_append_right _ (List.mem_append_left _ (by decide))
  exact absurd (isBlank 'i' isIn) (by decide)

/-- The lines of a spacing stay; behind them stands an indentation. -/
theorem exists_indent {spacing : List Char} (isSpacing : IsSpacing spacing) :
    ∃ lines indent, spacing = lines ++ indent ∧ IsLineBlank indent ∧
      ∀ rest, destructureImports.run (lines ++ rest) = lines ++ destructureImports.run rest := by
  induction spacing using line_induction with
  | last line oneLine => exact ⟨[], line, rfl, isSpacing.isLineBlank oneLine, fun _ => rfl⟩
  | more line rest oneLine ih =>
      obtain ⟨lineIsSpacing, behind⟩ := isSpacing.of_append
      obtain ⟨lines, indent, rfl, isIndent, stays⟩ :=
        ih fun character isIn => behind character (List.mem_cons_of_mem _ isIn)
      refine ⟨line ++ '\n' :: lines, indent, by simp, isIndent, fun rest => ?_⟩
      have textEq : line ++ '\n' :: lines ++ rest = line ++ '\n' :: (lines ++ rest) := by simp
      rw [textEq, run_destructureImports_cons oneLine, stays,
        run_of_isLineBlank (lineIsSpacing.isLineBlank oneLine), List.append_assoc,
        List.cons_append]

theorem run_of_isSpacing {spacing : List Char} (isSpacing : IsSpacing spacing) :
    destructureImports.run spacing = spacing := by
  obtain ⟨lines, indent, rfl, isIndent, stays⟩ := exists_indent isSpacing
  rw [stays, run_of_isLineBlank isIndent]

theorem fromNewLine_append {line : List Char} (oneLine : '\n' ∉ line) (rest : List Char) :
    fromNewLine (line ++ rest) = fromNewLine rest :=
  List.dropWhile_append_of_pos fun _ isIn =>
    bne_iff_ne.mpr fun same => oneLine (same ▸ isIn)

theorem fromNewLine_of_not_mem {text : List Char} (oneLine : '\n' ∉ text) :
    fromNewLine text = [] := by
  rw [← text.append_nil, fromNewLine_append oneLine]
  rfl

theorem fromNewLine_append_cons {line : List Char} (oneLine : '\n' ∉ line) (rest : List Char) :
    fromNewLine (line ++ '\n' :: rest) = '\n' :: rest :=
  fromNewLine_append oneLine _

/-! ## What becomes of a list -/

theorem IsRemark.append {first second : List Char} (isFirst : IsRemark first)
    (isSecond : IsRemark second) : IsRemark (first ++ second) :=
  ⟨List.not_mem_append isFirst.1 isSecond.1, List.not_mem_append isFirst.2 isSecond.2⟩

theorem IsRemark.of_isSpacing {spacing : List Char} (isSpacing : IsSpacing spacing)
    (oneLine : '\n' ∉ spacing) : IsRemark spacing :=
  ⟨isSpacing.not_mem, oneLine⟩

theorem IsRemark.statement (name : QualifiedName) : IsRemark name.statement := by
  have notIn {character : Char} (outside : inDottedName character = false)
      (notInWord : character ∉ importText)
      (notMark : character ≠ ' ' ∧ character ≠ ';') : character ∉ name.statement := by
    have notInName : character ∉ name.dotted := fun isIn => by
      simp [List.all_eq_true.mp name.inDottedName_dotted character isIn] at outside
    simp [QualifiedName.statement, notInWord, notInName, notMark]
  exact ⟨notIn (by decide) (by decide) (by decide), notIn (by decide) (by decide) (by decide)⟩

/-- An import takes the rest of its line away. -/
theorem run_statement {indent remark : List Char} (name : QualifiedName)
    (isIndent : IsLineBlank indent) (isRemark : IsRemark remark) :
    destructureImports.run (indent ++ (name.statement ++ remark)) = indent ++ name.imported := by
  rw [← name.source_onLine isIndent isRemark]
  exact Becomes.run_eq (Or.inl ⟨_, rfl, rfl⟩) (ImportStatement.newline_not_mem_source _)

theorem run_statement_cons {indent remark : List Char} (name : QualifiedName)
    (isIndent : IsLineBlank indent) (isRemark : IsRemark remark) (rest : List Char) :
    destructureImports.run (indent ++ (name.statement ++ remark) ++ '\n' :: rest) =
      indent ++ (name.imported ++ '\n' :: destructureImports.run rest) := by
  have oneLine : '\n' ∉ indent ++ (name.statement ++ remark) := by
    rw [← name.source_onLine isIndent isRemark]
    exact ImportStatement.newline_not_mem_source _
  rw [run_destructureImports_cons oneLine, run_statement name isIndent isRemark, List.append_assoc]

/-- Behind an import with its remark, others are kept if they start lines. -/
theorem run_list (others : List SpacedImport) {closing : List Char} (isSpacing : IsSpacing closing)
    {indent remark : List Char} (name : QualifiedName) (isIndent : IsLineBlank indent)
    (isRemark : IsRemark remark) :
    destructureImports.run (indent ++ (name.statement ++ (remark ++
        (others.flatMap SpacedImport.source ++ closing)))) =
      indent ++ (name.imported ++
        (others.flatMap SpacedImport.target ++ fromNewLine closing)) := by
  induction others generalizing indent remark name with
  | nil =>
      by_cases hasLine : '\n' ∈ closing
      · obtain ⟨line, rest, rfl, oneLine⟩ := List.eq_append_cons_of_mem hasLine
        obtain ⟨lineIsSpacing, behind⟩ := isSpacing.of_append
        have restIsSpacing : IsSpacing rest := fun character isIn =>
          behind character (List.mem_cons_of_mem _ isIn)
        have whole := run_statement_cons name isIndent
          (isRemark.append (.of_isSpacing lineIsSpacing oneLine)) rest
        rw [run_of_isSpacing restIsSpacing] at whole
        simpa [fromNewLine_append_cons oneLine] using whole
      · have whole := run_statement name isIndent
          (isRemark.append (.of_isSpacing isSpacing hasLine))
        simpa [fromNewLine_of_not_mem hasLine] using whole
  | cons item others ih =>
      by_cases hasLine : '\n' ∈ item.spacing
      · obtain ⟨line, rest, spacingEq, oneLine⟩ := List.eq_append_cons_of_mem hasLine
        have itemIsSpacing := item.isSpacing
        rw [spacingEq] at itemIsSpacing
        obtain ⟨lineIsSpacing, behind⟩ := itemIsSpacing.of_append
        obtain ⟨lines, itemIndent, rfl, isItemIndent, stays⟩ :=
          exists_indent fun character isIn => behind character (List.mem_cons_of_mem _ isIn)
        have behindItem := ih item.name isItemIndent
          (by decide : IsRemark [])
        have whole := run_statement_cons name isIndent
          (isRemark.append (.of_isSpacing lineIsSpacing oneLine))
          (lines ++ (itemIndent ++ (item.name.statement ++ ([] ++
            (others.flatMap SpacedImport.source ++ closing)))))
        rw [stays, behindItem] at whole
        have starts : item.startsLine = true := by simpa [SpacedImport.startsLine] using hasLine
        rw [List.flatMap_cons, List.flatMap_cons, SpacedImport.target, if_pos starts,
          SpacedImport.source, spacingEq, fromNewLine_append_cons oneLine]
        simpa using whole
      · -- The import belongs to the remark.
        have starts : ¬ item.startsLine = true := by simpa [SpacedImport.startsLine] using hasLine
        have whole := ih name isIndent ((isRemark.append
          (.of_isSpacing item.isSpacing hasLine)).append (.statement item.name))
        rw [List.flatMap_cons, List.flatMap_cons, SpacedImport.target, if_neg starts,
          SpacedImport.source]
        simpa using whole

theorem ImportList.run_source (list : ImportList) :
    destructureImports.run list.source = list.target := by
  obtain ⟨imports, closing, isSpacing⟩ := list
  cases imports with
  | nil => exact run_of_isSpacing isSpacing
  | cons first others =>
      obtain ⟨lines, indent, spacingEq, isIndent, stays⟩ := exists_indent first.isSpacing
      have whole := run_list others isSpacing first.name isIndent
        (by decide : IsRemark [])
      have sourceEq : source ⟨first :: others, closing, isSpacing⟩ =
          lines ++ (indent ++ (first.name.statement ++ ([] ++
            (others.flatMap SpacedImport.source ++ closing)))) := by
        simp [source, SpacedImport.source, spacingEq]
      have targetEq : target ⟨first :: others, closing, isSpacing⟩ =
          first.spacing ++ (first.name.imported ++
            (others.flatMap SpacedImport.target ++ fromNewLine closing)) := rfl
      rw [sourceEq, stays, whole, targetEq, spacingEq, List.append_assoc]

/-! ## The imports that are kept -/

/-- A text holds just the imports of the given names, in their order. -/
inductive HoldsImports : List QualifiedName → List Char → Prop where
  | done {text : List Char} (noOther : '\x7b' ∉ text) : HoldsImports [] text
  | next {name : QualifiedName} {names : List QualifiedName} {before rest : List Char}
      (noOther : '\x7b' ∉ before) (behind : HoldsImports names rest) :
      HoldsImports (name :: names) (before ++ (name.imported ++ rest))

theorem QualifiedName.count_brace_imported (name : QualifiedName) :
    name.imported.count '\x7b' = 1 := by
  have inLast : name.last.count '\x7b' = 0 := List.count_eq_zero_of_not_mem fun isIn =>
    absurd (name.isWord_of_mem name.last_mem isIn) (by decide)
  have inPath : name.path.count '\x7b' = 0 := by
    refine List.count_eq_zero_of_not_mem fun isIn => ?_
    rcases name.of_mem_intercalate isIn with isWord | isSlash
    · exact absurd isWord (by decide)
    · exact absurd isSlash (by decide)
  have inWord : "import \x7b".toList.count '\x7b' = 1 := by decide
  have inMiddle : "\x7d from \"".toList.count '\x7b' = 0 := by decide
  have inEnd : "\";".toList.count '\x7b' = 0 := by decide
  unfold imported
  rw [List.count_append, List.count_append, List.count_append, List.count_append, inWord, inLast,
    inMiddle, inPath, inEnd]

/-- An import has one opening brace. -/
theorem HoldsImports.count_brace {names : List QualifiedName} {text : List Char}
    (holds : HoldsImports names text) : text.count '\x7b' = names.length := by
  induction holds with
  | done noOther => exact List.count_eq_zero_of_not_mem noOther
  | next noOther behind ih =>
      rw [List.count_append, List.count_append, List.count_eq_zero_of_not_mem noOther,
        QualifiedName.count_brace_imported, ih, List.length_cons]
      omega

theorem IsSpacing.fromNewLine {text : List Char} (isSpacing : IsSpacing text) :
    IsSpacing (fromNewLine text) :=
  fun character isIn => isSpacing character ((List.dropWhile_sublist _).subset isIn)

theorem holdsImports_others (others : List SpacedImport) {closing : List Char}
    (isSpacing : IsSpacing closing) :
    HoldsImports ((others.filter SpacedImport.startsLine).map SpacedImport.name)
      (others.flatMap SpacedImport.target ++ fromNewLine closing) := by
  induction others with
  | nil => exact .done isSpacing.fromNewLine.not_mem
  | cons item others ih =>
      rw [List.flatMap_cons, SpacedImport.target]
      by_cases starts : item.startsLine = true
      · rw [if_pos starts, List.filter_cons_of_pos starts, List.map_cons, List.append_assoc,
          List.append_assoc]
        exact .next item.isSpacing.fromNewLine.not_mem ih
      · rw [if_neg starts, List.filter_cons_of_neg starts, List.nil_append]
        exact ih

theorem ImportList.holdsImports_target (list : ImportList) :
    HoldsImports list.keptNames list.target := by
  obtain ⟨imports, closing, isSpacing⟩ := list
  cases imports with
  | nil => exact .done isSpacing.not_mem
  | cons first others => exact .next first.isSpacing.not_mem (holdsImports_others others isSpacing)

namespace ImportList

/-- All imports are kept if each of them starts a line. -/
theorem keptNames_eq_names {list : ImportList}
    (allStart : ∀ item ∈ list.imports.tail, item.startsLine = true) :
    list.keptNames = list.names := by
  obtain ⟨imports, closing, isSpacing⟩ := list
  cases imports with
  | nil => rfl
  | cons first others =>
      have allKept : others.filter SpacedImport.startsLine = others :=
        List.filter_eq_self.mpr allStart
      simp [keptNames, names, allKept]

theorem startsLine_of_length_eq {list : ImportList}
    (same : list.keptNames.length = list.names.length) :
    ∀ item ∈ list.imports.tail, item.startsLine = true := by
  obtain ⟨imports, closing, isSpacing⟩ := list
  cases imports with
  | nil => exact nofun
  | cons first others =>
      have sameOthers : (others.filter SpacedImport.startsLine).length = others.length := by
        simpa [keptNames, names] using same
      exact List.length_filter_eq_length_iff.mp sameOthers

end ImportList

/-- Of imports one behind the other, those that are the first ones of their lines are taken
from their paths, in their order, and nothing is left of the others.  So all imports are kept
exactly if a line feed stands between every two of them. -/
theorem run_destructureImports_list (list : ImportList) :
    destructureImports.run list.source = list.target ∧
      HoldsImports list.keptNames (destructureImports.run list.source) ∧
      (HoldsImports list.names (destructureImports.run list.source) ↔
        ∀ item ∈ list.imports.tail, item.startsLine = true) := by
  have holds := list.holdsImports_target
  rw [list.run_source]
  refine ⟨rfl, holds, fun holdsAll => ?_, fun allStart => ?_⟩
  · refine ImportList.startsLine_of_length_eq ?_
    rw [← holds.count_brace, holdsAll.count_brace]
  · rw [← ImportList.keptNames_eq_names allStart]
    exact holds

/-- Two imports on one line. -/
def importPair : ImportList where
  imports := [⟨[], ⟨[['a'], ['B']], by decide, by decide⟩, by decide⟩,
    ⟨[' '], ⟨[['c'], ['D']], by decide, by decide⟩, by decide⟩]
  closing := []

/-- Nothing is left of the second import of a line. -/
theorem run_destructureImports_pair :
    importPair.source = "import a.B; import c.D;".toList ∧
      destructureImports.run importPair.source = "import \x7bB\x7d from \"a/B\";".toList ∧
      ¬ HoldsImports importPair.names (destructureImports.run importPair.source) := by
  have ran : destructureImports.run importPair.source =
      "import \x7bB\x7d from \"a/B\";".toList := by decide
  refine ⟨by decide, ran, fun holds => ?_⟩
  rw [ran] at holds
  exact absurd holds.count_brace (by decide)

end Normalize

end ScriptBridge

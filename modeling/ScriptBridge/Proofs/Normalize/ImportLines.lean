import ScriptBridge.Normalize.Declarations
import ScriptBridge.Proofs.Pattern.Fitting

/-!
# Imports line by line

The rule for imports looks at the lines of a text one by one.  A line that is an import
statement, with its indentation, its name and perhaps a remark, takes the last word of the
name from a path; every other line stays.
-/

namespace ScriptBridge

namespace Normalize

open Pattern

/-! ## Dotted names -/

/-- Whether a character stands in a dotted name. -/
def inDottedName (character : Char) : Bool :=
  Text.isWord character || character == '.'

theorem not_inDottedName_of_lineBlank {character : Char}
    (isBlank : lineBlank.contains character = true) : inDottedName character = false := by
  have isEither : ' ' = character ∨ '\t' = character := by
    simpa [lineBlank, CharClass.ofList, CharClass.contains] using isBlank
  rcases isEither with rfl | rfl <;> decide

theorem any_head?_not_inDottedName {blanks rest : List Char}
    (allBlank : blanks.all lineBlank.contains = true)
    (ends : rest.head?.any inDottedName = false) :
    (blanks ++ rest).head?.any inDottedName = false := by
  cases blanks with
  | nil => exact ends
  | cons character blanks =>
      exact not_inDottedName_of_lineBlank (List.all_eq_true.mp allBlank character (by simp))

theorem any_head?_not_lineBlank {name rest : List Char} (isSome : name ≠ [])
    (inName : name.all inDottedName = true) :
    (name ++ rest).head?.any lineBlank.contains = false := by
  obtain ⟨character, name, rfl⟩ := List.exists_cons_of_ne_nil isSome
  have inName : inDottedName character = true := List.all_eq_true.mp inName character (by simp)
  cases isBlank : lineBlank.contains character with
  | false => exact isBlank
  | true => simp [not_inDottedName_of_lineBlank isBlank] at inName

/-- Words with separators between them. -/
structure QualifiedName where
  words : List (List Char)
  isSome : words ≠ [] := by decide
  areWords : AreWords words := by decide

namespace QualifiedName

/-- The name with dots between its words. -/
def dotted (name : QualifiedName) : List Char :=
  ['.'].intercalate name.words

/-- The path to what is named. -/
def path (name : QualifiedName) : List Char :=
  ['/'].intercalate name.words

/-- The last word. -/
def last (name : QualifiedName) : List Char :=
  name.words.getLast name.isSome

/-- The name imported from its path, in the target language. -/
def imported (name : QualifiedName) : List Char :=
  "import \x7b".toList ++ (name.last ++ ("\x7d from \"".toList ++ (name.path ++ "\";".toList)))

/-- Words in front of the last one have a separator behind them. -/
theorem intercalate_concat (separator : Char) (front : List (List Char)) (last : List Char) :
    [separator].intercalate (front ++ [last]) = front.flatMap (· ++ [separator]) ++ last := by
  induction front with
  | nil => exact List.intercalate_singleton
  | cons word front ih =>
      obtain ⟨next, others, restEq⟩ : ∃ next others, front ++ [last] = next :: others :=
        List.exists_cons_of_ne_nil (by simp)
      rw [List.cons_append, restEq, List.intercalate_cons_cons, ← restEq, ih, List.flatMap_cons,
        List.append_assoc, List.append_assoc, List.append_assoc]

/-- The words of a name in front of its last one, and that one. -/
theorem exists_front (name : QualifiedName) : ∃ front, name.words = front ++ [name.last] :=
  ⟨name.words.dropLast, (List.dropLast_append_getLast name.isSome).symm⟩

theorem isWord_of_mem (name : QualifiedName) {word : List Char} (isMember : word ∈ name.words)
    {character : Char} (isIn : character ∈ word) : Text.isWord character = true :=
  List.all_eq_true.mp (name.areWords word isMember).2 character isIn

theorem last_mem (name : QualifiedName) : name.last ∈ name.words :=
  List.getLast_mem name.isSome

theorem dotted_ne_nil (name : QualifiedName) : name.dotted ≠ [] := by
  obtain ⟨front, wordsEq⟩ := name.exists_front
  rw [dotted, wordsEq, intercalate_concat]
  exact List.append_ne_nil_of_right_ne_nil _ (name.areWords _ name.last_mem).1

/-- Words with a separator between them hold word characters and the separator. -/
theorem of_mem_intercalate (name : QualifiedName) {separator character : Char}
    (isIn : character ∈ [separator].intercalate name.words) :
    Text.isWord character = true ∨ character = separator := by
  obtain ⟨front, wordsEq⟩ := name.exists_front
  rw [wordsEq, intercalate_concat, List.mem_append] at isIn
  rcases isIn with inFront | inLast
  · obtain ⟨word, isWord, inWord⟩ := List.mem_flatMap.mp inFront
    rcases List.mem_append.mp inWord with inWord | isSeparator
    · exact Or.inl (name.isWord_of_mem (by simp [wordsEq, isWord]) inWord)
    · exact Or.inr (List.mem_singleton.mp isSeparator)
  · exact Or.inl (name.isWord_of_mem name.last_mem inLast)

theorem inDottedName_dotted (name : QualifiedName) : name.dotted.all inDottedName = true := by
  rw [List.all_eq_true]
  intro character isIn
  rcases name.of_mem_intercalate isIn with isWord | rfl
  · simp [inDottedName, isWord]
  · decide

theorem dottedPath_dotted (name : QualifiedName) : dottedPath name.dotted = name.path := by
  have ofWord {word : List Char} (isMember : word ∈ name.words) : dottedPath word = word := by
    refine (List.map_congr_left fun character isIn => if_neg ?_).trans (List.map_id _)
    rintro rfl
    exact absurd (name.isWord_of_mem isMember isIn) (by decide)
  have append (first second : List Char) :
      dottedPath (first ++ second) = dottedPath first ++ dottedPath second := List.map_append
  obtain ⟨front, wordsEq⟩ := name.exists_front
  have frontEq : dottedPath (front.flatMap (· ++ ['.'])) = front.flatMap (· ++ ['/']) := by
    have areFront : ∀ word ∈ front, dottedPath word = word :=
      fun word isMember => ofWord (by simp [wordsEq, isMember])
    clear wordsEq
    induction front with
    | nil => rfl
    | cons word front ih =>
        rw [List.forall_mem_cons] at areFront
        rw [List.flatMap_cons, List.flatMap_cons, append, append, areFront.1, ih areFront.2]
        rfl
  rw [dotted, path, wordsEq, intercalate_concat, intercalate_concat, append, frontEq,
    ofWord name.last_mem]

theorem lastSegment_dotted (name : QualifiedName) : lastSegment name.dotted = name.last := by
  obtain ⟨front, wordsEq⟩ := name.exists_front
  have noDot : ∀ character ∈ name.last.reverse, (character != '.') = true := by
    intro character isIn
    refine bne_iff_ne.mpr ?_
    rintro rfl
    exact absurd (name.isWord_of_mem name.last_mem (List.mem_reverse.mp isIn)) (by decide)
  have stops : (front.flatMap (· ++ ['.'])).reverse.takeWhile (· != '.') = [] := by
    rcases List.eq_nil_or_concat front with rfl | ⟨before, word, rfl⟩
    · rfl
    · simp
  rw [lastSegment, dotted, wordsEq, intercalate_concat, List.reverse_append,
    List.takeWhile_append_of_pos noDot, stops, List.append_nil, List.reverse_reverse]

theorem newline_not_mem_imported (name : QualifiedName) : '\n' ∉ name.imported := by
  have ofLast : '\n' ∉ name.last := fun isIn =>
    absurd (name.isWord_of_mem name.last_mem isIn) (by decide)
  have ofPath : '\n' ∉ name.path := by
    intro isIn
    rcases name.of_mem_intercalate isIn with isWord | isSlash
    · exact absurd isWord (by decide)
    · exact absurd isSlash (by decide)
  unfold imported
  simp only [List.mem_append, not_or]
  exact ⟨by decide, ofLast, by decide, ofPath, by decide⟩

end QualifiedName

/-- The pattern for dotted names covers just these. -/
theorem covers_dotted_iff {previous : Option Char} {covered rest : List Char}
    {notes : List NotedText} :
    (inOrder [.chain .word '.', .oneOrMore .word]).Covers previous covered rest notes ↔
      notes = [] ∧ ∃ name : QualifiedName, covered = name.dotted := by
  constructor
  · intro covers
    obtain ⟨_, last, _, _, rfl, rfl, ⟨⟨front, areFront, rfl⟩, rfl⟩, isLast⟩ := covers
    obtain ⟨lastIsWord, lastIsSome, rfl⟩ := covers_words.mp isLast
    have areWords : AreWords (front ++ [last]) := by
      intro word isMember
      rcases List.mem_append.mp isMember with inFront | isLast
      · exact ⟨(areFront word inFront).1, List.all_eq_true.mpr (areFront word inFront).2⟩
      · obtain rfl := List.mem_singleton.mp isLast
        exact ⟨lastIsSome, lastIsWord⟩
    exact ⟨rfl, ⟨front ++ [last], by simp, areWords⟩,
      (QualifiedName.intercalate_concat '.' front last).symm⟩
  · rintro ⟨rfl, name, rfl⟩
    obtain ⟨front, wordsEq⟩ := name.exists_front
    have areWords := name.areWords
    rw [wordsEq] at areWords
    rw [QualifiedName.dotted, wordsEq, QualifiedName.intercalate_concat]
    refine ⟨_, _, [], [], rfl, rfl, ⟨⟨front, fun word isMember => ?_, rfl⟩, rfl⟩,
      covers_words.mpr ⟨(areWords _ (by simp)).2, (areWords _ (by simp)).1, rfl⟩⟩
    obtain ⟨isSome, isWord⟩ := areWords word (by simp [isMember])
    exact ⟨isSome, List.all_eq_true.mp isWord⟩

/-! ## Import statements -/

/-- The word that imports start with. -/
def importText : List Char := "import".toList

/-- A text of spaces and tabs. -/
def IsLineBlank (text : List Char) : Prop :=
  ∀ character ∈ text, character = ' ' ∨ character = '\t'

instance (text : List Char) : Decidable (IsLineBlank text) :=
  List.decidableBAll (fun character => character = ' ' ∨ character = '\t') text

/-- What may stand in a remark. -/
def IsRemark (text : List Char) : Prop :=
  '\r' ∉ text ∧ '\n' ∉ text

instance (text : List Char) : Decidable (IsRemark text) :=
  inferInstanceAs (Decidable (_ ∧ _))

/-- What may stand behind a name on its line: a semicolon with a remark, and a carriage return. -/
def closingText (remark? : Option (List Char)) (endsInReturn : Bool) : List Char :=
  (match remark? with
    | some remark => ';' :: remark
    | none => []) ++ if endsInReturn then ['\r'] else []

/-- A line that imports a name. -/
structure ImportStatement where
  indent : List Char
  gap : List Char
  name : QualifiedName
  blanks : List Char
  /-- What stands behind the semicolon, if there is one. -/
  remark? : Option (List Char)
  endsInReturn : Bool
  isIndent : IsLineBlank indent := by decide
  isGap : IsLineBlank gap := by decide
  gapIsSome : gap ≠ [] := by decide
  areBlanks : IsLineBlank blanks := by decide
  isRemark : ∀ remark ∈ remark?, IsRemark remark := by decide

namespace ImportStatement

/-- The statement as a line of the source language. -/
def source (statement : ImportStatement) : List Char :=
  statement.indent ++ (importText ++ (statement.gap ++ (statement.name.dotted ++
    (statement.blanks ++ closingText statement.remark? statement.endsInReturn))))

/-- The statement as a line of the target language. -/
def target (statement : ImportStatement) : List Char :=
  statement.indent ++ statement.name.imported

end ImportStatement

/-- The name in an import of the source language. -/
def QualifiedName.statement (name : QualifiedName) : List Char :=
  importText ++ (' ' :: (name.dotted ++ [';']))

theorem wordGap_ne_nil : [' '] ≠ [] := List.cons_ne_nil ' ' []

/-- The line that imports a name and goes on with a remark. -/
def QualifiedName.onLine (name : QualifiedName) {indent remark : List Char}
    (isIndent : IsLineBlank indent) (isRemark : IsRemark remark) :
    ImportStatement where
  indent := indent
  gap := [' ']
  name := name
  blanks := []
  remark? := some remark
  endsInReturn := false
  isIndent := isIndent
  gapIsSome := wordGap_ne_nil
  isRemark := by simpa using isRemark

theorem QualifiedName.source_onLine (name : QualifiedName) {indent remark : List Char}
    (isIndent : IsLineBlank indent) (isRemark : IsRemark remark) :
    (name.onLine isIndent isRemark).source = indent ++ (name.statement ++ remark) := by
  have statementEq : name.statement ++ remark =
      importText ++ ([' '] ++ (name.dotted ++ ([] ++ closingText (some remark) false))) := by
    simp [statement, closingText]
  rw [statementEq]
  rfl

theorem isLineBlank_iff {text : List Char} :
    IsLineBlank text ↔ text.all lineBlank.contains = true := by
  rw [List.all_eq_true]
  refine forall₂_congr fun character _ => ?_
  have contains : lineBlank.contains character = ((' ' == character) || ('\t' == character)) := rfl
  rw [contains, Bool.or_eq_true, beq_iff_eq, beq_iff_eq, eq_comm, @eq_comm _ character '\t']

/-- What is covered behind a name and its blanks. -/
theorem covers_closing_iff {previous : Option Char} {covered rest : List Char}
    {notes : List NotedText} :
    (inOrder [optional (inOrder [text ";", zeroOrMore (.complement (.ofList ['\r', '\n']))]),
      optional (text "\r"), .condition .lineEnd]).Covers previous covered rest notes ↔
    notes = [] ∧ rest.head?.all (· == '\n') = true ∧ ∃ remark? endsInReturn,
      (∀ remark ∈ remark?, IsRemark remark) ∧
      covered = closingText remark? endsInReturn := by
  have ofReturn {previous : Option Char} {covered : List Char} {notes : List NotedText} :
      (inOrder [optional (text "\r"), .condition .lineEnd]).Covers previous covered rest notes ↔
        notes = [] ∧ rest.head?.all (· == '\n') = true ∧ ∃ endsInReturn : Bool,
          covered = if endsInReturn then ['\r'] else [] := by
    simp only [inOrder, covers_optional_sequence, covers_text_sequence, covers_condition]
    constructor
    · rintro (⟨_, rfl, atEnd, rfl, rfl⟩ | ⟨atEnd, rfl, rfl⟩)
      · exact ⟨rfl, atEnd, true, rfl⟩
      · exact ⟨rfl, atEnd, false, rfl⟩
    · rintro ⟨rfl, atEnd, endsInReturn, rfl⟩
      cases endsInReturn with
      | true => exact Or.inl ⟨[], rfl, atEnd, rfl, rfl⟩
      | false => exact Or.inr ⟨atEnd, rfl, rfl⟩
  have inRemark (remark : List Char) :
      remark.all (CharClass.complement (.ofList ['\r', '\n'])).contains = true ↔
        IsRemark remark := by
    have contains (character : Char) : (CharClass.complement (.ofList ['\r', '\n'])).contains
        character = !(('\r' == character) || ('\n' == character)) := rfl
    rw [List.all_eq_true]
    constructor
    · intro allMembers
      exact ⟨fun isIn => absurd (allMembers '\r' isIn) (by decide),
        fun isIn => absurd (allMembers '\n' isIn) (by decide)⟩
    · rintro ⟨noReturn, noLine⟩ character isIn
      have notReturn : '\r' ≠ character := fun same => noReturn (same ▸ isIn)
      have notLine : '\n' ≠ character := fun same => noLine (same ▸ isIn)
      simp [contains, notReturn, notLine]
  have behindName : inOrder [optional (inOrder [text ";",
      zeroOrMore (.complement (.ofList ['\r', '\n']))]), optional (text "\r"),
        .condition .lineEnd] =
      sequence (optional (inOrder [text ";", zeroOrMore (.complement (.ofList ['\r', '\n']))]))
        (inOrder [optional (text "\r"), .condition .lineEnd]) := rfl
  rw [behindName, covers_optional_sequence, covers_sequence]
  simp only [ofReturn]
  constructor
  · rintro (⟨_, _, _, _, rfl, rfl, isRemark, rfl, atEnd, endsInReturn, rfl⟩ |
      ⟨rfl, atEnd, endsInReturn, rfl⟩)
    · obtain ⟨remark, rfl, isRun⟩ := covers_text_sequence.mp isRemark
      obtain ⟨allMembers, -, rfl⟩ := covers_run.mp isRun
      exact ⟨rfl, atEnd, some remark, endsInReturn,
        by simpa using (inRemark remark).mp allMembers, rfl⟩
    · exact ⟨rfl, atEnd, none, endsInReturn, by simp, rfl⟩
  · rintro ⟨rfl, atEnd, remark?, endsInReturn, isRemark, rfl⟩
    cases remark? with
    | none => exact Or.inr ⟨rfl, atEnd, endsInReturn, rfl⟩
    | some remark =>
        refine Or.inl ⟨';' :: remark, _, [], [], rfl, rfl, ?_, rfl, atEnd, endsInReturn, rfl⟩
        exact covers_text_sequence.mpr ⟨remark, rfl, covers_run.mpr
          ⟨(inRemark remark).mpr (isRemark remark rfl), Nat.zero_le _, rfl⟩⟩

/-- The pattern for imports covers just the lines that are import statements. -/
theorem covers_importLine_iff {previous : Option Char} {covered rest : List Char}
    {notes : List NotedText} :
    importLine.Covers previous covered rest notes ↔
      previous.all (· == '\n') = true ∧ rest.head?.all (· == '\n') = true ∧
      ∃ statement : ImportStatement, covered = statement.source ∧
        notes = [⟨2, statement.name.dotted⟩, ⟨1, statement.indent⟩] := by
  have partsEq : importLine = .sequence (.condition .lineStart) (.sequence
      (.group 1 (zeroOrMore lineBlank)) (.sequence (text "import") (.sequence
        (.oneOrMore lineBlank) (.sequence (.group 2 (inOrder [.chain .word '.', .oneOrMore .word]))
          (.sequence (zeroOrMore lineBlank) (inOrder [
            optional (inOrder [text ";", zeroOrMore (.complement (.ofList ['\r', '\n']))]),
            optional (text "\r"), .condition .lineEnd])))))) := rfl
  rw [partsEq]
  simp only [covers_condition_sequence, covers_group_sequence, covers_text_sequence,
    covers_oneOrMore_sequence, covers_dotted_iff, zeroOrMore, covers_run, covers_run_sequence]
  constructor
  · rintro ⟨atStart, indent, _, _, _, rfl, rfl, ⟨isIndent, -, rfl⟩, _, rfl, gap, _, isGap,
      gapIsSome, rfl, _, _, _, _, rfl, rfl, ⟨rfl, name, rfl⟩, blanks, _, areBlanks, -, rfl,
      behind⟩
    obtain ⟨rfl, atEnd, remark?, endsInReturn, isRemark, rfl⟩ := covers_closing_iff.mp behind
    exact ⟨atStart, atEnd, ⟨indent, gap, name, blanks, remark?, endsInReturn,
      isLineBlank_iff.mpr isIndent, isLineBlank_iff.mpr isGap, gapIsSome,
      isLineBlank_iff.mpr areBlanks, isRemark⟩, rfl, rfl⟩
  · rintro ⟨atStart, atEnd, statement, rfl, rfl⟩
    refine ⟨atStart, _, _, [], [⟨2, statement.name.dotted⟩], rfl, rfl,
      ⟨isLineBlank_iff.mp statement.isIndent, Nat.zero_le _, rfl⟩, _, rfl, _, _,
      isLineBlank_iff.mp statement.isGap, statement.gapIsSome, rfl, _, _, [], [], rfl, rfl,
      ⟨rfl, statement.name, rfl⟩, _, _, isLineBlank_iff.mp statement.areBlanks,
      Nat.zero_le _, rfl, ?_⟩
    exact covers_closing_iff.mpr ⟨rfl, atEnd, _, _, statement.isRemark, rfl⟩

/-- What takes the place of the line of an import. -/
def importedFrom (found : Match) : List Char :=
  found.group 1 ++ "import \x7b".toList ++ lastSegment (found.group 2) ++ "\x7d from \"".toList ++
    dottedPath (found.group 2) ++ "\";".toList

namespace ImportStatement

theorem newline_not_mem_source (statement : ImportStatement) : '\n' ∉ statement.source := by
  have ofBlank {text : List Char} (isBlank : IsLineBlank text) : '\n' ∉ text := by
    intro isIn
    exact absurd (isBlank '\n' isIn) (by decide)
  have ofName : '\n' ∉ statement.name.dotted := by
    intro isIn
    exact absurd (List.all_eq_true.mp statement.name.inDottedName_dotted '\n' isIn) (by decide)
  have ofClosing : '\n' ∉ closingText statement.remark? statement.endsInReturn := by
    have isRemark := statement.isRemark
    unfold closingText
    cases remarkEq : statement.remark? with
    | none => cases statement.endsInReturn <;> simp
    | some remark =>
        obtain ⟨-, noLine⟩ := isRemark remark remarkEq
        cases statement.endsInReturn <;> simp [noLine]
  have ofWord : '\n' ∉ importText := by decide
  simp only [source, List.mem_append, not_or]
  exact ⟨ofBlank statement.isIndent, ofWord, ofBlank statement.isGap, ofName,
    ofBlank statement.areBlanks, ofClosing⟩

theorem newline_not_mem_target (statement : ImportStatement) : '\n' ∉ statement.target := by
  have ofIndent : '\n' ∉ statement.indent := fun isIn =>
    absurd (statement.isIndent '\n' isIn) (by decide)
  rw [target, List.mem_append, not_or]
  exact ⟨ofIndent, statement.name.newline_not_mem_imported⟩

theorem source_ne_nil (statement : ImportStatement) : statement.source ≠ [] :=
  List.append_ne_nil_of_right_ne_nil _ (List.cons_ne_nil _ _)

/-- Behind a name on its line the name does not go on. -/
theorem any_head?_closing (statement : ImportStatement) :
    (statement.blanks ++ closingText statement.remark? statement.endsInReturn).head?.any
      inDottedName = false := by
  have stops : (closingText statement.remark? statement.endsInReturn).head?.any inDottedName =
      false := by
    unfold closingText
    cases statement.remark? with
    | none => cases statement.endsInReturn <;> decide
    | some remark => exact (by decide : inDottedName ';' = false)
  exact any_head?_not_inDottedName (isLineBlank_iff.mp statement.areBlanks) stops

/-- The indentation and the name are known from the line. -/
theorem source_inj {statement other : ImportStatement} (same : statement.source = other.source) :
    statement.indent = other.indent ∧ statement.name.dotted = other.name.dotted := by
  have noBlank (rest : List Char) : (importText ++ rest).head?.any lineBlank.contains = false :=
    (by decide : lineBlank.contains 'i' = false)
  obtain ⟨sameIndent, behindIndent⟩ := append_inj_of_runs
    (isLineBlank_iff.mp statement.isIndent) (isLineBlank_iff.mp other.isIndent)
    (noBlank _) (noBlank _) same
  obtain ⟨-, behindGap⟩ := append_inj_of_runs
    (isLineBlank_iff.mp statement.isGap) (isLineBlank_iff.mp other.isGap)
    (any_head?_not_lineBlank statement.name.dotted_ne_nil statement.name.inDottedName_dotted)
    (any_head?_not_lineBlank other.name.dotted_ne_nil other.name.inDottedName_dotted)
    (List.append_cancel_left behindIndent)
  exact ⟨sameIndent, (append_inj_of_runs statement.name.inDottedName_dotted
    other.name.inDottedName_dotted statement.any_head?_closing other.any_head?_closing
    behindGap).1⟩

theorem importedFrom_eq {statement : ImportStatement} {found : Match}
    (ofIndent : found.group 1 = statement.indent)
    (ofName : found.group 2 = statement.name.dotted) : importedFrom found = statement.target := by
  unfold importedFrom target QualifiedName.imported
  rewrite [ofIndent, ofName, QualifiedName.lastSegment_dotted, QualifiedName.dottedPath_dotted]
  simp only [List.append_assoc]

/-- Behind the word `import` a statement goes on with its name, its rewritten form with a
brace. -/
theorem target_ne_source (statement : ImportStatement) : statement.target ≠ statement.source := by
  intro same
  have oneBlank : [' '].all lineBlank.contains = true := by decide
  have targetEq : statement.target = statement.indent ++ (importText ++ ([' '] ++
      ('\x7b' :: (statement.name.last ++ ("\x7d from \"".toList ++ (statement.name.path ++
        "\";".toList)))))) := rfl
  rw [targetEq] at same
  have behindIndent := List.append_cancel_left (List.append_cancel_left same)
  have atBrace (rest : List Char) : ('\x7b' :: rest).head?.any lineBlank.contains = false :=
    (by decide : lineBlank.contains '\x7b' = false)
  obtain ⟨-, behindGap⟩ := append_inj_of_runs oneBlank (isLineBlank_iff.mp statement.isGap)
    (atBrace _)
    (any_head?_not_lineBlank statement.name.dotted_ne_nil statement.name.inDottedName_dotted)
    behindIndent
  obtain ⟨character, rest, dottedEq⟩ := List.exists_cons_of_ne_nil statement.name.dotted_ne_nil
  have inName := statement.name.inDottedName_dotted
  rw [dottedEq] at behindGap inName
  obtain ⟨rfl, -⟩ := List.cons.inj behindGap
  exact absurd (Bool.and_eq_true_iff.mp inName).1 (by decide)

end ImportStatement

/-! ## Lines -/

/-- The edit of the rule for imports. -/
def importEdit : Edit :=
  ⟨importLine, importedFrom⟩

theorem run_destructureImports_eq (text : List Char) :
    destructureImports.run text = importEdit.run text :=
  Rule.run_ofEdits _ _ _

/-- What becomes of a line: an import statement is rewritten, another line stays. -/
def Becomes (line new : List Char) : Prop :=
  (∃ statement : ImportStatement, line = statement.source ∧ new = statement.target) ∨
    ((∀ statement : ImportStatement, line ≠ statement.source) ∧ new = line)

theorem exists_becomes (line : List Char) : ∃ new, Becomes line new := by
  by_cases isStatement : ∃ statement : ImportStatement, line = statement.source
  · obtain ⟨statement, lineEq⟩ := isStatement
    exact ⟨_, Or.inl ⟨statement, lineEq, rfl⟩⟩
  · exact ⟨line, Or.inr ⟨fun statement lineEq => isStatement ⟨statement, lineEq⟩, rfl⟩⟩

/-- Equal texts that start with lines start with the same line, if both lines end. -/
theorem append_inj_of_lines {first second firstRest secondRest : List Char}
    (isFirst : '\n' ∉ first) (isSecond : '\n' ∉ second)
    (firstEnds : firstRest.head?.all (· == '\n') = true)
    (secondEnds : secondRest.head?.all (· == '\n') = true)
    (same : first ++ firstRest = second ++ secondRest) :
    first = second ∧ firstRest = secondRest := by
  have inLine {line : List Char} (isLine : '\n' ∉ line) : line.all (· != '\n') = true := by
    rw [List.all_eq_true]
    intro character isIn
    exact bne_iff_ne.mpr fun same => isLine (same ▸ isIn)
  have ends {rest : List Char} (isEnd : rest.head?.all (· == '\n') = true) :
      rest.head?.any (· != '\n') = false := by
    cases rest with
    | nil => rfl
    | cons character rest => simpa using isEnd
  exact append_inj_of_runs (inLine isFirst) (inLine isSecond) (ends firstEnds) (ends secondEnds)
    same

/-- Where a line starts, an import statement is replaced. -/
theorem ImportStatement.replaces (statement : ImportStatement) {previous : Option Char}
    {rest : List Char} (starts : previous.all (· == '\n') = true)
    (ends : rest.head?.all (· == '\n') = true) :
    importEdit.Replaces previous statement.source rest statement.target := by
  refine Edit.replaces_of_covers (by decide) statement.source_ne_nil
    (covers_importLine_iff.mpr ⟨starts, ends, statement, rfl, rfl⟩) ?_
  intro _ behind _ found same covers groupEq
  obtain ⟨-, behindEnds, other, rfl, rfl⟩ := covers_importLine_iff.mp covers
  obtain ⟨sourceEq, -⟩ := append_inj_of_lines statement.newline_not_mem_source
    other.newline_not_mem_source ends behindEnds same
  obtain ⟨indentEq, nameEq⟩ := ImportStatement.source_inj sourceEq
  exact ⟨sourceEq.symm, ImportStatement.importedFrom_eq ((groupEq 1).trans indentEq.symm)
    ((groupEq 2).trans nameEq.symm)⟩

/-- Where no import statement starts nothing is found. -/
theorem ways_importLine_eq_nil {attempt : Attempt}
    (noStatement : ∀ statement : ImportStatement, ∀ rest,
      attempt.cursor.previous.all (· == '\n') = true → rest.head?.all (· == '\n') = true →
        attempt.cursor.after ≠ statement.source ++ rest) :
    importLine.ways attempt = [] := by
  refine ways_eq_nil_of_not_covers fun covered rest notes afterEq covers => ?_
  obtain ⟨starts, ends, statement, rfl, -⟩ := covers_importLine_iff.mp covers
  exact noStatement statement rest starts ends afterEq

/-- Each line is rewritten where it stands. -/
theorem Becomes.rewrites {line new : List Char} (becomes : Becomes line new)
    (oneLine : '\n' ∉ line) {previous : Option Char} {rest out : List Char}
    (starts : previous.all (· == '\n') = true) (ends : rest.head?.all (· == '\n') = true)
    (behind : importEdit.Rewrites (line.getLast?.or previous) rest out) :
    importEdit.Rewrites previous (line ++ rest) (new ++ out) := by
  rcases becomes with ⟨statement, rfl, rfl⟩ | ⟨noStatement, rfl⟩
  · exact .replace (statement.replaces starts ends) behind
  · refine .keepAll (fun before after position split isSome => ?_) behind
    refine ways_importLine_eq_nil fun statement behind startsHere endsBehind afterEq => ?_
    have afterOneLine : '\n' ∉ after := fun isIn => oneLine (by simp [split, isIn])
    obtain ⟨isSource, -⟩ := append_inj_of_lines afterOneLine statement.newline_not_mem_source ends
      endsBehind afterEq
    cases last : before.getLast? with
    | none =>
        obtain rfl := List.getLast?_eq_none_iff.mp last
        exact noStatement statement (split.trans isSource)
    | some character =>
        -- Within a line no other line starts.
        rw [last] at startsHere
        obtain rfl : character = '\n' := by simpa using startsHere
        exact oneLine (by simp [split, List.mem_of_getLast? last])

/-- A text is made of lines. -/
theorem line_induction {motive : List Char → Prop}
    (last : ∀ line, '\n' ∉ line → motive line)
    (more : ∀ line rest, '\n' ∉ line → motive rest → motive (line ++ '\n' :: rest))
    (text : List Char) : motive text := by
  induction lengthEq : text.length using Nat.strongRecOn generalizing text with
  | _ length ih =>
      subst lengthEq
      by_cases isIn : '\n' ∈ text
      · obtain ⟨line, rest, textEq, oneLine⟩ := List.eq_append_cons_of_mem isIn
        rw [textEq]
        refine more line rest oneLine (ih rest.length ?_ rest rfl)
        rw [textEq, List.length_append, List.length_cons]
        omega
      · exact last text isIn

/-- A line feed stays. -/
theorem rewrites_newLine {previous : Option Char} {rest out : List Char}
    (behind : importEdit.Rewrites (some '\n') rest out) :
    importEdit.Rewrites previous ('\n' :: rest) ('\n' :: out) := by
  refine .keep (fun position => ?_) behind
  refine ways_importLine_eq_nil fun statement after _ _ afterEq => ?_
  obtain ⟨character, source, sourceEq⟩ := List.exists_cons_of_ne_nil statement.source_ne_nil
  rw [sourceEq] at afterEq
  obtain ⟨rfl, -⟩ := List.cons.inj afterEq
  exact statement.newline_not_mem_source (by simp [sourceEq])

theorem exists_rewrites (text : List Char) :
    ∃ out, ∀ previous : Option Char, previous.all (· == '\n') = true →
      importEdit.Rewrites previous text out := by
  induction text using line_induction with
  | last line oneLine =>
      obtain ⟨new, becomes⟩ := exists_becomes line
      refine ⟨new, fun previous starts => ?_⟩
      have rewrites := becomes.rewrites oneLine starts rfl (.done _)
      simpa using rewrites
  | more line rest oneLine ih =>
      obtain ⟨new, becomes⟩ := exists_becomes line
      obtain ⟨out, rewrites⟩ := ih
      exact ⟨new ++ '\n' :: out, fun previous starts =>
        becomes.rewrites oneLine starts rfl (rewrites_newLine (rewrites (some '\n') rfl))⟩

theorem Becomes.run_eq {line new : List Char} (becomes : Becomes line new)
    (oneLine : '\n' ∉ line) : destructureImports.run line = new := by
  have rewrites : importEdit.Rewrites none (line ++ []) (new ++ []) :=
    becomes.rewrites oneLine rfl rfl (.done _)
  rw [List.append_nil, List.append_nil] at rewrites
  rw [run_destructureImports_eq]
  exact rewrites.run_eq

/-- A line becomes what the rule makes of it alone. -/
theorem becomes_run {line : List Char} (oneLine : '\n' ∉ line) :
    Becomes line (destructureImports.run line) := by
  obtain ⟨new, becomes⟩ := exists_becomes line
  rwa [becomes.run_eq oneLine]

/-- The first line and the others are rewritten on their own. -/
theorem run_destructureImports_cons {line : List Char} (oneLine : '\n' ∉ line)
    (rest : List Char) : destructureImports.run (line ++ '\n' :: rest) =
      destructureImports.run line ++ '\n' :: destructureImports.run rest := by
  obtain ⟨out, rewrites⟩ := exists_rewrites rest
  have restEq : destructureImports.run rest = out := by
    rw [run_destructureImports_eq]
    exact (rewrites none rfl).run_eq
  rw [restEq, run_destructureImports_eq (line ++ '\n' :: rest)]
  have starts : (none : Option Char).all (· == '\n') = true := rfl
  exact ((becomes_run oneLine).rewrites oneLine starts rfl
    (rewrites_newLine (rewrites (some '\n') rfl))).run_eq

theorem newline_not_mem_run {line : List Char} (oneLine : '\n' ∉ line) :
    '\n' ∉ destructureImports.run line := by
  rcases becomes_run oneLine with ⟨statement, -, newEq⟩ | ⟨-, newEq⟩
  · rw [newEq]
    exact statement.newline_not_mem_target
  · rwa [newEq]

theorem splitOn_append_cons {line : List Char} (oneLine : '\n' ∉ line) (rest : List Char) :
    (line ++ '\n' :: rest).splitOn '\n' = line :: rest.splitOn '\n' := by
  have inLine : ∀ character ∈ line, (character == '\n') = false := fun character isIn =>
    beq_eq_false_iff_ne.mpr fun same => oneLine (same ▸ isIn)
  simp only [List.splitOn_eq_splitOnP]
  exact List.splitOnP_append_cons_of_forall_mem inLine '\n' (beq_self_eq_true _) rest

/-- The rule rewrites each line on its own. -/
theorem splitOn_run_destructureImports (text : List Char) :
    (destructureImports.run text).splitOn '\n' =
      (text.splitOn '\n').map destructureImports.run := by
  induction text using line_induction with
  | last line oneLine =>
      rw [List.splitOn_eq_singleton oneLine,
        List.splitOn_eq_singleton (newline_not_mem_run oneLine), List.map_singleton]
  | more line rest oneLine ih =>
      rw [run_destructureImports_cons oneLine, splitOn_append_cons (newline_not_mem_run oneLine),
        splitOn_append_cons oneLine, ih, List.map_cons]

theorem newline_not_mem_of_mem_splitOn {text line : List Char}
    (isLine : line ∈ text.splitOn '\n') : '\n' ∉ line := by
  induction text using line_induction with
  | last only oneLine =>
      rw [List.splitOn_eq_singleton oneLine, List.mem_singleton] at isLine
      exact isLine ▸ oneLine
  | more first rest oneLine ih =>
      rw [splitOn_append_cons oneLine, List.mem_cons] at isLine
      rcases isLine with rfl | isLater
      · exact oneLine
      · exact ih isLater

/-- The rule for imports works line by line: a text is split at its line feeds, each line is
rewritten on its own, and the lines are joined again.  A line changes exactly if it is an import
statement; then it takes the last word of the name from the path to it. -/
theorem run_destructureImports_lines (text : List Char) :
    destructureImports.run text =
        ['\n'].intercalate ((text.splitOn '\n').map destructureImports.run) ∧
      (destructureImports.run text).splitOn '\n' =
        (text.splitOn '\n').map destructureImports.run ∧
      ∀ line ∈ text.splitOn '\n',
        (destructureImports.run line ≠ line ↔
          ∃ statement : ImportStatement, line = statement.source) ∧
        ∀ statement : ImportStatement, line = statement.source →
          destructureImports.run line = statement.target := by
  have lines := splitOn_run_destructureImports text
  refine ⟨?_, lines, fun line isLine => ?_⟩
  · rw [← lines, List.intercalate_splitOn]
  · have oneLine := newline_not_mem_of_mem_splitOn isLine
    have ofStatement (statement : ImportStatement) (lineEq : line = statement.source) :
        destructureImports.run line = statement.target :=
      Becomes.run_eq (Or.inl ⟨statement, lineEq, rfl⟩) oneLine
    refine ⟨⟨fun changes => ?_, ?_⟩, ofStatement⟩
    · rcases becomes_run oneLine with ⟨statement, lineEq, -⟩ | ⟨-, stays⟩
      · exact ⟨statement, lineEq⟩
      · exact absurd stays changes
    · rintro ⟨statement, lineEq⟩
      rw [ofStatement statement lineEq, lineEq]
      exact statement.target_ne_source

/-- An import with a remark, on a line that ends in a carriage return. -/
def spriteImport : ImportStatement where
  indent := ['\t']
  gap := "  ".toList
  name := ⟨["flash", "display", "Sprite"].map String.toList, by decide, by decide⟩
  blanks := [' ']
  remark? := some " // import a.B;".toList
  endsInReturn := true

/-- A text that holds it. -/
def spriteText : List Char :=
  "package;\n\timport  flash.display.Sprite ; // import a.B;\r\n".toList

theorem run_destructureImports_lines_sprite :
    spriteImport.source ∈ spriteText.splitOn '\n' ∧
      destructureImports.run spriteImport.source ≠ spriteImport.source ∧
      destructureImports.run spriteText =
        "package;\n\timport \x7bSprite\x7d from \"flash/display/Sprite\";\n".toList := by
  have isLine : spriteImport.source ∈ spriteText.splitOn '\n' := by decide +kernel
  have lines := run_destructureImports_lines spriteText
  refine ⟨isLine, (lines.2.2 _ isLine).1.mpr ⟨spriteImport, rfl⟩, ?_⟩
  rw [lines.1]
  decide +kernel

end Normalize

end ScriptBridge

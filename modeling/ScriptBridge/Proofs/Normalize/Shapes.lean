import ScriptBridge.Normalize.Pipeline
import ScriptBridge.Proofs.Pattern.Covering

/-!
# What the rules look for

The stretches that the patterns of the rules cover, in words, blanks and marks, with what
stands around them.
-/

namespace ScriptBridge

namespace Normalize

open Pattern

/-- A word of the rules other than `import` and `each`, which stand for more. -/
structure IsPlain (word : List Char) : Prop where
  isSome : word ≠ []
  isWord : word.all Text.isWord = true
  notImport : word ≠ "import".toList
  notEach : word ≠ "each".toList

instance (word : List Char) : Decidable (IsPlain word) :=
  decidable_of_iff (word ≠ [] ∧ word.all Text.isWord = true ∧ word ≠ "import".toList ∧
      word ≠ "each".toList)
    ⟨fun ⟨isSome, isWord, notImport, notEach⟩ => ⟨isSome, isWord, notImport, notEach⟩,
      fun ⟨isSome, isWord, notImport, notEach⟩ => ⟨isSome, isWord, notImport, notEach⟩⟩

/-- A modifier in front of a word covers both and the blanks between them. -/
theorem of_covers_modified {previous : Option Char} {covered rest : List Char}
    {notes : List NotedText} {words : List (List Char)} {word : String}
    (covers : (modified (anyOf (words.map .literal)) word).Covers previous covered rest notes)
    (arePlain : ∀ modifier ∈ words, IsPlain modifier) (isPlain : IsPlain word.toList) :
    ∃ modifier ∈ words, ∃ gap, gap.all Text.isBlank = true ∧ gap ≠ [] ∧
      covered = modifier ++ (gap ++ word.toList) ∧ previous.any Text.isWord = false ∧
      rest.head?.any Text.isWord = false ∧ notedUnder 1 notes = modifier := by
  simp only [modified, inOrder, covers_boundary_sequence, covers_group_sequence,
    covers_blanks_sequence, covers_text_sequence, covers_boundary] at covers
  obtain ⟨begins, modifier, _, _, _, rfl, rfl, isModifier, gap, _, isBlank, isSome, rfl, _, rfl,
    ends, rfl, rfl⟩ := covers
  obtain ⟨isOne, rfl⟩ := mem_of_covers_anyOf isModifier
  have plain := arePlain modifier isOne
  rw [List.append_assoc] at begins
  refine ⟨modifier, isOne, gap, isBlank, isSome, by simp,
    begins_of_edge plain.isSome plain.isWord begins,
    ends_of_edge isPlain.isSome isPlain.isWord ends, by simp [notedUnder]⟩

/-- A word in front of one of several words covers both and the blanks between them. -/
theorem of_covers_chosen {previous : Option Char} {covered rest : List Char}
    {notes : List NotedText} {words : List (List Char)} {word : String}
    (covers : (inOrder [boundary, text word, blanks, .group 1 (anyOf (words.map .literal)),
      boundary]).Covers previous covered rest notes)
    (arePlain : ∀ chosen ∈ words, IsPlain chosen) (isPlain : IsPlain word.toList) :
    ∃ chosen ∈ words, ∃ gap, gap.all Text.isBlank = true ∧ gap ≠ [] ∧
      covered = word.toList ++ (gap ++ chosen) ∧ previous.any Text.isWord = false ∧
      rest.head?.any Text.isWord = false ∧ notedUnder 1 notes = chosen := by
  simp only [inOrder, covers_boundary_sequence, covers_group_sequence,
    covers_blanks_sequence, covers_text_sequence, covers_boundary] at covers
  obtain ⟨begins, _, rfl, gap, _, isBlank, isSome, rfl, chosen, _, _, _, rfl, rfl, isChosen,
    ends, rfl, rfl⟩ := covers
  obtain ⟨isOne, rfl⟩ := mem_of_covers_anyOf isChosen
  have plain := arePlain chosen isOne
  rw [List.append_assoc] at begins
  refine ⟨chosen, isOne, gap, isBlank, isSome, by simp,
    begins_of_edge isPlain.isSome isPlain.isWord begins,
    ends_of_edge plain.isSome plain.isWord ends, by simp [notedUnder]⟩

/-- How access words are written. -/
def accessTexts : List (List Char) :=
  ["public".toList, "protected".toList, "private".toList]

/-- How access words and `static` are written. -/
def modifierTexts : List (List Char) :=
  ["public".toList, "protected".toList, "private".toList, "static".toList]

theorem isPlain_of_mem_modifierTexts {word : List Char} (isModifier : word ∈ modifierTexts) :
    IsPlain word := by
  have allPlain : ∀ word ∈ modifierTexts, word ≠ [] ∧ word.all Text.isWord = true ∧
      word ≠ "import".toList ∧ word ≠ "each".toList := by decide
  obtain ⟨isSome, isWord, notImport, notEach⟩ := allPlain word isModifier
  exact ⟨isSome, isWord, notImport, notEach⟩

theorem isPlain_of_mem_accessTexts {word : List Char} (isAccess : word ∈ accessTexts) :
    IsPlain word :=
  isPlain_of_mem_modifierTexts (by revert word; decide)

/-! ## Type tests -/

/-- A type test in a condition: only the blank behind `if` may be missing. -/
theorem of_covers_testInCondition {previous : Option Char} {covered rest : List Char}
    {notes : List NotedText} (covers : testInCondition.Covers previous covered rest notes) :
    ∃ opening gap behind, (opening = [] ∨ ∃ blank, Text.isBlank blank = true ∧ opening = [blank]) ∧
      gap.all Text.isBlank = true ∧ gap ≠ [] ∧ behind.all Text.isBlank = true ∧ behind ≠ [] ∧
      covered = "if".toList ++ (opening ++ ('(' :: (notedUnder 1 notes ++ (gap ++ ("is".toList ++
        (behind ++ (notedUnder 2 notes ++ [')']))))))) ∧
      previous.any Text.isWord = false := by
  have ofTest {previous : Option Char} {covered : List Char}
      (covers : (inOrder [text "(", .group 1 (.oneOrMore .notLineFeed), blanks, text "is", blanks,
        .group 2 (.oneOrMore (.complement .blank)), text ")"]).Covers previous covered rest
          notes) :
      ∃ gap behind, gap.all Text.isBlank = true ∧ gap ≠ [] ∧ behind.all Text.isBlank = true ∧
        behind ≠ [] ∧ covered = '(' :: (notedUnder 1 notes ++ (gap ++ ("is".toList ++ (behind ++
          (notedUnder 2 notes ++ [')']))))) := by
    simp only [inOrder, covers_text_sequence, covers_group_sequence, covers_oneOrMore,
      covers_blanks_sequence, covers_text] at covers
    obtain ⟨_, rfl, tested, _, _, _, rfl, rfl, ⟨-, -, rfl⟩, gap, _, isBlank, isSome, rfl, _, rfl,
      behind, _, behindIsBlank, behindIsSome, rfl, type, _, _, _, rfl, rfl, ⟨-, -, rfl⟩, rfl,
      rfl⟩ := covers
    exact ⟨gap, behind, isBlank, isSome, behindIsBlank, behindIsSome, rfl⟩
  have plain : IsPlain "if".toList := by decide
  obtain ⟨edge, behindEdge⟩ := covers_boundary_sequence.mp covers
  obtain ⟨_, rfl, behindWord⟩ := covers_text_sequence.mp behindEdge
  rw [List.append_assoc] at edge
  have begins := begins_of_edge plain.isSome plain.isWord edge
  rcases covers_optional_sequence.mp behindWord with withBlank | without
  · obtain ⟨blank, _, isBlank, rfl, isTest⟩ := covers_one_sequence.mp withBlank
    obtain ⟨gap, behind, gapIsBlank, isSome, behindIsBlank, behindIsSome, rfl⟩ := ofTest isTest
    exact ⟨[blank], gap, behind, Or.inr ⟨blank, isBlank, rfl⟩, gapIsBlank, isSome, behindIsBlank,
      behindIsSome, rfl, begins⟩
  · obtain ⟨gap, behind, gapIsBlank, isSome, behindIsBlank, behindIsSome, rfl⟩ := ofTest without
    exact ⟨[], gap, behind, Or.inl rfl, gapIsBlank, isSome, behindIsBlank, behindIsSome, rfl,
      begins⟩

/-- A type test in an assignment. -/
theorem of_covers_testInAssignment {previous : Option Char} {covered rest : List Char}
    {notes : List NotedText} (covers : testInAssignment.Covers previous covered rest notes) :
    ∃ character opening gap behind, opening.all Text.isBlank = true ∧
      gap.all Text.isBlank = true ∧ gap ≠ [] ∧ behind.all Text.isBlank = true ∧ behind ≠ [] ∧
      covered = character :: '=' :: (opening ++ (notedUnder 2 notes ++ (gap ++ ("is".toList ++
        (behind ++ notedUnder 3 notes))))) ∧
      notedUnder 1 notes = [character, '='] := by
  simp only [testInAssignment, inOrder, covers_group_sequence, covers_one_sequence, covers_text,
    covers_maybeBlanks_sequence, covers_run, covers_blanks_sequence, covers_text_sequence,
    covers_group, covers_oneOrMore] at covers
  obtain ⟨_, _, _, _, rfl, rfl, ⟨character, _, -, rfl, rfl, rfl⟩, opening, _, openingIsBlank, rfl,
    tested, _, _, _, rfl, rfl, ⟨-, -, rfl⟩, gap, _, isBlank, isSome, rfl, _, rfl, behind, type,
    behindIsBlank, behindIsSome, rfl, _, rfl, -, -, rfl⟩ := covers
  exact ⟨character, opening, gap, behind, openingIsBlank, isBlank, isSome, behindIsBlank,
    behindIsSome, rfl, rfl⟩

/-! ## Loops -/

/-- The head of a loop over values. -/
theorem of_covers_forEachHead {next : Pattern} {previous : Option Char}
    {covered rest : List Char} {notes : List NotedText}
    (covers : (sequence forEachHead next).Covers previous covered rest notes) :
    ∃ gap before behind other, gap.all Text.isBlank = true ∧ gap ≠ [] ∧
      before.all Text.isBlank = true ∧ behind.all Text.isBlank = true ∧
      covered = "for".toList ++ (gap ++ ("each".toList ++ (before ++ '(' :: (behind ++ other)))) ∧
      previous.any Text.isWord = false ∧ ∃ last, next.Covers last other rest notes := by
  obtain ⟨_, other, _, _, rfl, rfl, isHead, behindHead⟩ := covers_sequence.mp covers
  simp only [forEachHead, inOrder, covers_boundary_sequence, covers_text_sequence,
    covers_blanks_sequence, covers_maybeBlanks_sequence, covers_maybeBlanks] at isHead
  obtain ⟨edge, _, rfl, gap, _, isBlank, isSome, rfl, _, rfl, before, _, beforeIsBlank, rfl, behind,
    rfl, behindIsBlank, rfl⟩ := isHead
  have plain : IsPlain "for".toList := by decide
  rw [List.append_assoc] at edge
  refine ⟨gap, before, behind, other, isBlank, isSome, beforeIsBlank, behindIsBlank, by simp,
    begins_of_edge plain.isSome plain.isWord edge, _, by simpa using behindHead⟩

/-- What stands behind the variable of a loop, perhaps its type first. -/
theorem of_covers_behindVariable {previous : Option Char} {covered rest : List Char}
    {notes : List NotedText}
    (covers : (inOrder [
      optional (inOrder [maybeBlanks, text ":", maybeBlanks,
        .oneOrMore (.union .word (.ofList ['.', '<', '>', '*']))]),
      blanks, text "in", blanks]).Covers previous covered rest notes) :
    ∃ tail gap, gap.all Text.isBlank = true ∧ gap ≠ [] ∧ covered = tail ++ gap ∧
      (∀ out, (tail ++ (gap ++ out)).head?.any Text.isWord = false) ∧ notes = [] := by
  have behindType {previous : Option Char} {covered : List Char}
      (covers : (inOrder [blanks, text "in", blanks]).Covers previous covered rest notes) :
      ∃ first gap, first.all Text.isBlank = true ∧ first ≠ [] ∧ gap.all Text.isBlank = true ∧
        gap ≠ [] ∧ covered = first ++ ("in".toList ++ gap) := by
    simp only [inOrder, covers_blanks_sequence, covers_text_sequence, covers_blanks] at covers
    obtain ⟨first, _, firstIsBlank, firstIsSome, rfl, gap, rfl, isBlank, isSome, -⟩ := covers
    exact ⟨first, gap, firstIsBlank, firstIsSome, isBlank, isSome, rfl⟩
  have noNotes := notes_eq_nil covers rfl
  rcases covers_optional_sequence.mp covers with withType | without
  · obtain ⟨_, _, _, _, rfl, notesEq, isType, behind⟩ := covers_sequence.mp withType
    obtain ⟨rfl, rfl⟩ := List.append_eq_nil_iff.mp (notesEq.symm.trans noNotes)
    subst noNotes
    obtain ⟨first, gap, firstIsBlank, firstIsSome, isBlank, isSome, rfl⟩ := behindType behind
    simp only [inOrder, covers_maybeBlanks_sequence, covers_text_sequence] at isType
    obtain ⟨opening, _, openingIsBlank, rfl, type, rfl, -⟩ := isType
    refine ⟨opening ++ (":".toList ++ (type ++ (first ++ "in".toList))), gap, isBlank, isSome,
      by simp, fun out => ?_, rfl⟩
    rw [List.append_assoc]
    exact any_head?_maybeBlanks openingIsBlank (any_head?_mark (by decide))
  · obtain ⟨first, gap, firstIsBlank, firstIsSome, isBlank, isSome, rfl⟩ := behindType without
    refine ⟨first ++ "in".toList, gap, isBlank, isSome, by simp, fun out => ?_, noNotes⟩
    rw [List.append_assoc]
    exact any_head?_blanks firstIsBlank firstIsSome

/-! ## Imports -/

theorem isBlank_of_lineBlank {stretch : List Char}
    (isBlank : stretch.all lineBlank.contains = true) : stretch.all Text.isBlank = true := by
  rw [List.all_eq_true] at isBlank ⊢
  intro character isMember
  have inLine := isBlank character isMember
  simp only [lineBlank, CharClass.ofList, CharClass.contains, Bool.or_eq_true,
    beq_iff_eq] at inLine
  rcases inLine with rfl | rfl <;> decide

theorem isWord_lastSegment {name : List Char}
    (isDotted : name.all (fun character => Text.isWord character || character == '.') = true) :
    (lastSegment name).all Text.isWord = true := by
  rw [List.all_eq_true] at isDotted ⊢
  intro character isMember
  rw [lastSegment, List.mem_reverse] at isMember
  have notDot : character ≠ '.' := by
    simpa using List.all_eq_true.mp List.all_takeWhile character isMember
  have inName := List.mem_reverse.mp ((List.takeWhile_prefix _).subset isMember)
  simpa [notDot] using isDotted character inName

/-- What stands on a line behind an imported name does not go on with it. -/
theorem of_covers_behindName {previous : Option Char} {covered rest : List Char}
    {notes : List NotedText}
    (covers : (inOrder [zeroOrMore lineBlank,
      optional (inOrder [text ";", zeroOrMore (.complement (.ofList ['\r', '\n']))]),
      optional (text "\r"), .condition .lineEnd]).Covers previous covered rest notes) :
    (∀ out : List Char, out.head?.any Text.isWord = false →
      (covered ++ out).head?.any Text.isWord = false) ∧ rest.head?.all (· == '\n') = true := by
  have behindDropped {previous : Option Char} {covered : List Char} {notes : List NotedText}
      (covers : (inOrder [optional (text "\r"), .condition .lineEnd]).Covers previous covered rest
        notes) :
      (∀ out : List Char, out.head?.any Text.isWord = false →
        (covered ++ out).head?.any Text.isWord = false) ∧ rest.head?.all (· == '\n') = true := by
    simp only [inOrder, covers_optional_sequence, covers_text_sequence, covers_condition] at covers
    rcases covers with ⟨_, rfl, atEnd, rfl, -⟩ | ⟨atEnd, rfl, -⟩
    · exact ⟨fun out _ => any_head?_mark (by decide), atEnd⟩
    · exact ⟨fun out ends => ends, atEnd⟩
  simp only [inOrder, zeroOrMore, covers_run_sequence] at covers
  obtain ⟨gap, _, isBlank, -, rfl, covers⟩ := covers
  have isBlank := isBlank_of_lineBlank isBlank
  rcases covers_optional_sequence.mp covers with dropped | kept
  · obtain ⟨_, _, _, _, rfl, -, isDropped, behind⟩ := covers_sequence.mp dropped
    obtain ⟨_, rfl, -⟩ := covers_text_sequence.mp isDropped
    refine ⟨fun out _ => ?_, (behindDropped behind).2⟩
    rw [List.append_assoc]
    exact any_head?_maybeBlanks isBlank (any_head?_mark (by decide))
  · obtain ⟨goesOn, atEnd⟩ := behindDropped kept
    refine ⟨fun out ends => ?_, atEnd⟩
    rw [List.append_assoc]
    exact any_head?_maybeBlanks isBlank (goesOn out ends)

/-- The line of an import: what stands behind the name is dropped. -/
theorem of_covers_importLine {previous : Option Char} {covered rest : List Char}
    {notes : List NotedText} (covers : importLine.Covers previous covered rest notes) :
    ∃ gap tail, (notedUnder 1 notes).all Text.isBlank = true ∧
      gap.all Text.isBlank = true ∧ gap ≠ [] ∧
      (notedUnder 2 notes).all (fun character => Text.isWord character || character == '.') = true ∧
      (∀ rest, (notedUnder 2 notes ++ rest).head?.any Text.isWord = true) ∧
      (∀ out : List Char, out.head?.any Text.isWord = false →
        (tail ++ out).head?.any Text.isWord = false) ∧
      covered = notedUnder 1 notes ++ ("import".toList ++ (gap ++ (notedUnder 2 notes ++ tail))) ∧
      previous.any Text.isWord = false ∧ rest.head?.all (· == '\n') = true := by
  simp only [importLine, inOrder, covers_condition_sequence, covers_group_sequence, zeroOrMore,
    covers_run, covers_text_sequence, covers_oneOrMore_sequence] at covers
  obtain ⟨atStart, indent, _, _, _, rfl, rfl, ⟨indentIsBlank, -, rfl⟩, _, rfl, gap, _, isBlank,
    isSome, rfl, name, tail, _, _, rfl, rfl, isName, behind⟩ := covers
  obtain ⟨goesOn, atEnd⟩ := of_covers_behindName behind
  obtain rfl := notes_eq_nil isName rfl
  obtain rfl := notes_eq_nil behind rfl
  obtain ⟨chain, last, _, _, rfl, -, ⟨⟨runs, areRuns, rfl⟩, -⟩, isLast⟩ := isName
  obtain ⟨lastIsWord, lastIsSome, -⟩ := covers_words.mp isLast
  refine ⟨gap, tail, isBlank_of_lineBlank indentIsBlank, isBlank_of_lineBlank isBlank, isSome, ?_,
    fun rest => ?_, goesOn, rfl, ?_, atEnd⟩
  · have inRuns : (runs.flatMap (· ++ ['.'])).all
        (fun character => Text.isWord character || character == '.') = true := by
      rw [List.all_eq_true]
      intro character isMember
      obtain ⟨run, isRun, inRun⟩ := List.mem_flatMap.mp isMember
      rcases List.mem_append.mp inRun with inRun | isDot
      · have isWord : Text.isWord character = true := (areRuns run isRun).2 character inRun
        simp [isWord]
      · simp [List.mem_singleton.mp isDot]
    have inLast : last.all (fun character => Text.isWord character || character == '.') = true := by
      rw [List.all_eq_true] at lastIsWord ⊢
      intro character isMember
      simp [lastIsWord character isMember]
    simpa [notedUnder] using And.intro inRuns inLast
  · have startsWord : ∀ rest, (runs.flatMap (· ++ ['.']) ++ last ++ rest).head?.any Text.isWord =
        true := by
      intro rest
      cases runs with
      | nil => exact any_head?_word lastIsSome lastIsWord
      | cons run runs =>
          obtain ⟨runIsSome, inRun⟩ := areRuns run (by simp)
          rw [List.flatMap_cons, List.append_assoc, List.append_assoc, List.append_assoc]
          exact any_head?_word runIsSome (List.all_eq_true.mpr inRun)
    exact startsWord rest
  · have atStart : previous.all (· == '\n') = true := atStart
    cases previous with
    | none => rfl
    | some character =>
        have isLineFeed : character = '\n' := by simpa using atStart
        rw [isLineFeed]
        decide

/-! ## Classes -/

/-- The first class is named by a word. -/
theorem isWord_of_classHead {source : List Char} {head : Match}
    (isFound : classHead.find? source = some head) :
    (head.group 1).all Text.isWord = true ∧ head.group 1 ≠ [] := by
  obtain ⟨before, covered, rest, notes, -, -, -, covers, groupEq⟩ := covers_of_find? isFound
  simp only [classHead, inOrder, covers_boundary_sequence, covers_text_sequence,
    covers_blanks_sequence, covers_group, covers_words] at covers
  obtain ⟨-, _, rfl, gap, name, -, -, rfl, _, rfl, isWord, isSome, rfl⟩ := covers
  have nameEq : head.group 1 = name := groupEq 1
  rw [nameEq]
  exact ⟨isWord, isSome⟩

end Normalize

end ScriptBridge

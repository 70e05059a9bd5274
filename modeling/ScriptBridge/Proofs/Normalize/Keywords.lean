import ScriptBridge.Proofs.Normalize.ImportLines
import ScriptBridge.Proofs.Normalize.Shapes

/-!
# Whole keywords

Every pattern of the rules covers one of a few keywords as a whole word, so that a word
that only contains a keyword makes no rule fit.  A text without whole keywords stays as it
is.
-/

namespace ScriptBridge

/-! ## Where a pattern covers nothing -/

namespace Pattern

/-- A pattern covers no stretch of a text. -/
def CoversNothingIn (pattern : Pattern) (text : List Char) : Prop :=
  ∀ before covered rest notes, text = before ++ (covered ++ rest) →
    ¬ pattern.Covers before.getLast? covered rest notes

namespace CoversNothingIn

variable {pattern : Pattern} {text : List Char}

theorem matchAt_eq_none (nothing : pattern.CoversNothingIn text) {place : Cursor}
    (lies : place.LiesIn text) : pattern.plainSearch.matchAt place = none := by
  obtain ⟨before, textEq, -, previousEq⟩ := lies
  have noWay : pattern.ways ⟨place, []⟩ = [] :=
    ways_eq_nil_of_not_covers fun covered rest notes afterEq => by
      have nothingHere := nothing before covered rest notes (by rw [textEq, afterEq])
      rwa [← previousEq] at nothingHere
  simp [Searcher.matchAt, plainSearch, noWay]

theorem replaceAll_eq_none (nothing : pattern.CoversNothingIn text)
    (replacement : Match → List Char) : pattern.replaceAll replacement text = none := by
  rw [replaceAll_eq]
  exact replaceFrom_of_no_match (fun _ lies => nothing.matchAt_eq_none lies) replacement 0 none []
    text (Cursor.start_liesIn text)

theorem replaceFirst_eq_none (nothing : pattern.CoversNothingIn text)
    (replacement : Match → List Char) : pattern.replaceFirst replacement text = none := by
  rw [replaceFirst, Option.map_eq_none_iff, find?_eq_findSome?, List.findSome?_eq_none_iff]
  intro place isPlace
  exact nothing.matchAt_eq_none (placesOf_liesIn text place isPlace)

end CoversNothingIn

end Pattern

/-- Edits of which none finds anything report that none fits. -/
theorem Edit.applyAll_eq_none {edits : List Edit} {text : List Char}
    (nothing : ∀ edit ∈ edits, edit.pattern.CoversNothingIn text) :
    Edit.applyAll edits text = none := by
  induction edits with
  | nil => rfl
  | cons edit edits ih =>
      rw [List.forall_mem_cons] at nothing
      rw [Edit.applyAll, nothing.1.replaceAll_eq_none]
      exact ih nothing.2

namespace Normalize

open Pattern

/-! ## Whole words -/

/-- A stretch holds a word, and no character beside the word goes on with it. -/
def HoldsWhole (word : List Char) (previous : Option Char) (covered rest : List Char) : Prop :=
  ∃ before after, covered = before ++ (word ++ after) ∧
    (before.getLast?.or previous).any Text.isWord = false ∧
    (after ++ rest).head?.any Text.isWord = false

/-- A word stands in a text, and no character beside it goes on with it. -/
def StandsWhole (word text : List Char) : Prop :=
  HoldsWhole word none text []

theorem standsWhole_iff {word text : List Char} :
    StandsWhole word text ↔ ∃ place < text.length + 1, word <+: text.drop place ∧
      (text.take place).getLast?.any Text.isWord = false ∧
      (text.drop (place + word.length)).head?.any Text.isWord = false := by
  constructor
  · rintro ⟨before, after, rfl, begins, ends⟩
    refine ⟨before.length, by simp only [List.length_append]; omega, ?_, ?_, ?_⟩
    · rw [List.drop_left]
      exact List.prefix_append _ _
    · rw [List.take_left]
      simpa using begins
    · rw [← List.drop_drop, List.drop_left, List.drop_left]
      simpa using ends
  · rintro ⟨place, -, ⟨after, behindEq⟩, begins, ends⟩
    rw [← List.drop_drop, ← behindEq, List.drop_left] at ends
    refine ⟨text.take place, after, ?_, by simpa using begins, by simpa using ends⟩
    rw [behindEq, List.take_append_drop]

instance (word text : List Char) : Decidable (StandsWhole word text) :=
  decidable_of_iff _ standsWhole_iff.symm

/-- The words that the rules look for. -/
def keywords : List String :=
  ["function", "final", "public", "package", "import", "protected", "private", "static",
    "override", "is", "Vector", "each", "new"]

/-- A stretch holds a keyword as a whole word. -/
def HoldsKeyword (previous : Option Char) (covered rest : List Char) : Prop :=
  ∃ keyword ∈ keywords, HoldsWhole keyword.toList previous covered rest

theorem HoldsWhole.standsWhole {word before covered rest : List Char}
    (holds : HoldsWhole word before.getLast? covered rest) :
    StandsWhole word (before ++ (covered ++ rest)) := by
  obtain ⟨front, after, rfl, begins, ends⟩ := holds
  exact ⟨before ++ front, after ++ rest, by simp, by simpa [List.getLast?_append] using begins,
    by simpa using ends⟩

/-- A pattern covers only stretches that hold a keyword. -/
def SeeksKeyword (pattern : Pattern) : Prop :=
  ∀ {previous covered rest notes}, pattern.Covers previous covered rest notes →
    HoldsKeyword previous covered rest

theorem SeeksKeyword.coversNothingIn {pattern : Pattern} (seeks : SeeksKeyword pattern)
    {text : List Char} (without : ∀ keyword ∈ keywords, ¬ StandsWhole keyword.toList text) :
    pattern.CoversNothingIn text := by
  intro before covered rest notes textEq covers
  obtain ⟨keyword, isKeyword, holds⟩ := seeks covers
  exact without keyword isKeyword (textEq ▸ holds.standsWhole)

/-! ## What the patterns cover -/

theorem isWord_of_mem_keywords {keyword : String} (isKeyword : keyword ∈ keywords) :
    keyword.toList ≠ [] ∧ keyword.toList.all Text.isWord = true := by
  revert keyword
  decide

/-- A pattern that starts with a keyword at an edge, behind which no word goes on. -/
theorem seeksKeyword_of_word {word : String} {next : Pattern} (isKeyword : word ∈ keywords)
    (ends : ∀ {last other rest notes}, next.Covers (word.toList.getLast?.or last) other rest notes →
      (other ++ rest).head?.any Text.isWord = false) :
    SeeksKeyword (sequence boundary (sequence (text word) next)) := by
  intro previous covered rest notes covers
  obtain ⟨isSome, isWord⟩ := isWord_of_mem_keywords isKeyword
  obtain ⟨edge, behindEdge⟩ := covers_boundary_sequence.mp covers
  obtain ⟨other, rfl, behindWord⟩ := covers_text_sequence.mp behindEdge
  rw [List.append_assoc] at edge
  exact ⟨word, isKeyword, [], other, rfl, by simpa using begins_of_edge isSome isWord edge,
    ends behindWord⟩

theorem any_head?_of_covers_blanks {next : Pattern} {previous : Option Char}
    {covered rest : List Char} {notes : List NotedText}
    (covers : (sequence blanks next).Covers previous covered rest notes) :
    (covered ++ rest).head?.any Text.isWord = false := by
  obtain ⟨gap, other, isBlank, isSome, rfl, -⟩ := covers_blanks_sequence.mp covers
  rw [List.append_assoc]
  exact any_head?_blanks isBlank isSome

theorem any_head?_of_covers_boundary {word : List Char} {next : Pattern} {last : Option Char}
    {covered rest : List Char} {notes : List NotedText} (isSome : word ≠ [])
    (isWord : word.all Text.isWord = true)
    (covers : (sequence boundary next).Covers (word.getLast?.or last) covered rest notes) :
    (covered ++ rest).head?.any Text.isWord = false :=
  ends_of_edge isSome isWord (covers_boundary_sequence.mp covers).1

theorem seeksKeyword_modified {words : List (List Char)} {word : String}
    (areModifiers : ∀ modifier ∈ words, modifier ∈ modifierTexts) (isPlain : IsPlain word.toList) :
    SeeksKeyword (modified (anyOf (words.map .literal)) word) := by
  intro previous covered rest notes covers
  obtain ⟨modifier, isModifier, gap, isBlank, isSome, rfl, begins, -, -⟩ :=
    of_covers_modified covers
      (fun modifier isOne => isPlain_of_mem_modifierTexts (areModifiers modifier isOne)) isPlain
  have areKeywords : ∀ modifier ∈ modifierTexts, modifier ∈ keywords.map String.toList := by decide
  obtain ⟨keyword, isKeyword, rfl⟩ :=
    List.mem_map.mp (areKeywords modifier (areModifiers modifier isModifier))
  refine ⟨keyword, isKeyword, [], gap ++ word.toList, rfl, begins, ?_⟩
  rw [List.append_assoc]
  exact any_head?_blanks isBlank isSome

theorem seeksKeyword_importLine : SeeksKeyword importLine := by
  intro previous covered rest notes covers
  obtain ⟨gap, tail, indentIsBlank, isBlank, isSome, -, -, -, rfl, begins, -⟩ :=
    of_covers_importLine covers
  refine ⟨"import", by decide, notedUnder 1 notes, gap ++ (notedUnder 2 notes ++ tail), rfl, ?_, ?_⟩
  · by_cases isNone : notedUnder 1 notes = []
    · rw [isNone]
      exact begins
    · exact @any_getLast?_blanks [] _ _ indentIsBlank isNone
  · rw [List.append_assoc]
    exact any_head?_blanks isBlank isSome

theorem seeksKeyword_namedFunction : SeeksKeyword namedFunction := by
  intro previous covered rest notes covers
  simp only [namedFunction, inOrder, covers_group_sequence, covers_text_sequence] at covers
  obtain ⟨lead, _, _, _, rfl, -, atLead, behind, rfl, behindWord⟩ := covers
  refine ⟨"function", by decide, lead, behind, rfl, ?_, any_head?_of_covers_blanks behindWord⟩
  rcases atLead with ⟨atStart, rfl, -⟩ | ⟨blank, isBlank, rfl, -⟩
  · obtain rfl : previous = none := by
      simpa [Condition.holdsBetween, Condition.holds] using atStart
    rfl
  · exact Text.isWord_of_isBlank isBlank

/-- The word of a type test stands between blanks. -/
theorem holdsKeyword_test {previous : Option Char} {front gap behind other rest : List Char}
    (isBlank : gap.all Text.isBlank = true) (isSome : gap ≠ [])
    (behindIsBlank : behind.all Text.isBlank = true) (behindIsSome : behind ≠ []) :
    HoldsKeyword previous (front ++ (gap ++ ("is".toList ++ (behind ++ other)))) rest := by
  refine ⟨"is", by decide, front ++ gap, behind ++ other, (List.append_assoc _ _ _).symm,
    any_getLast?_blanks isBlank isSome, ?_⟩
  rw [List.append_assoc]
  exact any_head?_blanks behindIsBlank behindIsSome

theorem seeksKeyword_testInCondition : SeeksKeyword testInCondition := by
  intro previous covered rest notes covers
  obtain ⟨opening, gap, behind, -, isBlank, isSome, behindIsBlank, behindIsSome, rfl, -⟩ :=
    of_covers_testInCondition covers
  have holds := @holdsKeyword_test previous
    ("if".toList ++ (opening ++ ('(' :: notedUnder 1 notes)))
    gap behind (notedUnder 2 notes ++ [')']) rest isBlank isSome behindIsBlank behindIsSome
  simpa using holds

theorem seeksKeyword_testInAssignment : SeeksKeyword testInAssignment := by
  intro previous covered rest notes covers
  obtain ⟨character, opening, gap, behind, -, isBlank, isSome, behindIsBlank, behindIsSome, rfl,
    -⟩ := of_covers_testInAssignment covers
  have holds := @holdsKeyword_test previous (character :: '=' :: (opening ++ notedUnder 2 notes))
    gap behind (notedUnder 3 notes) rest isBlank isSome behindIsBlank behindIsSome
  simpa using holds

theorem seeksKeyword_forEachHead {next : Pattern} : SeeksKeyword (sequence forEachHead next) := by
  intro previous covered rest notes covers
  obtain ⟨gap, before, behind, other, isBlank, isSome, beforeIsBlank, -, rfl, -, -⟩ :=
    of_covers_forEachHead covers
  refine ⟨"each", by decide, "for".toList ++ gap, before ++ '(' :: (behind ++ other), by simp,
    any_getLast?_blanks isBlank isSome, ?_⟩
  rw [List.append_assoc]
  exact any_head?_maybeBlanks beforeIsBlank (any_head?_mark (by decide))

/-- The prefix of a vector, with a mark behind the word. -/
theorem seeksKeyword_vector {mark : String} (isMark : mark = "." ∨ mark = ".<") :
    SeeksKeyword (inOrder [boundary, text ("Vector" ++ mark)]) := by
  intro previous covered rest notes covers
  simp only [inOrder, covers_boundary_sequence, covers_text, String.toList_append] at covers
  obtain ⟨edge, rfl, -⟩ := covers
  rw [List.append_assoc] at edge
  refine ⟨"Vector", by decide, [], mark.toList, rfl,
    begins_of_edge (by decide) (by decide) edge, ?_⟩
  rcases isMark with rfl | rfl <;> exact any_head?_mark (by decide)

/-! ## The patterns of the rules -/

/-- The patterns of the rules that are the same for all texts. -/
def fixedPatterns : List Pattern :=
  [inOrder [boundary, text "final", boundary, blanks],
    inOrder [boundary, text "public", blanks, .group 1 (anyOf [text "class", text "interface"]),
      boundary],
    packageHead, importLine, modified modifierWord "var", modified modifierWord "const",
    modified accessWord "override",
    inOrder [boundary, text "override", blanks, .group 1 accessWord, boundary],
    modified modifierWord "function", namedFunction, testInCondition, testInAssignment,
    inOrder [boundary, text "Vector.<"], inOrder [boundary, text "Vector."],
    forEachDeclared, forEachBare,
    inOrder [boundary, text "new", blanks, text "Array<",
      .group 1 (.oneOrMore (.union .word (.ofList ['.', '<', '>']))), text ">",
      maybeBlanks, text ";"],
    inOrder [boundary, text "new", maybeBlanks, text "<",
      .oneOrMore (.union .word (.only '.')), text ">", maybeBlanks, text "["]]

/-- What the rules look for in a text: also the head of a function named like its first
class. -/
def sought (source : List Char) : List Pattern :=
  (classHead.find? source).toList.map (fun head => functionHead (head.group 1)) ++ fixedPatterns

/-- Every pattern of the rules covers a keyword. -/
theorem seeksKeyword_of_mem_sought {source : List Char} {pattern : Pattern}
    (isSought : pattern ∈ sought source) : SeeksKeyword pattern := by
  rcases List.mem_append.mp isSought with isHead | isFixed
  · obtain ⟨head, -, rfl⟩ := List.mem_map.mp isHead
    exact seeksKeyword_of_word (by decide) any_head?_of_covers_blanks
  · simp only [fixedPatterns, List.mem_cons, List.not_mem_nil, or_false] at isFixed
    obtain rfl | rfl | rfl | rfl | rfl | rfl | rfl | rfl | rfl | rfl | rfl | rfl | rfl | rfl | rfl |
      rfl | rfl | rfl := isFixed
    · exact seeksKeyword_of_word (by decide)
        (any_head?_of_covers_boundary (by decide) (by decide))
    · exact seeksKeyword_of_word (by decide) any_head?_of_covers_blanks
    · exact seeksKeyword_of_word (by decide)
        (any_head?_of_covers_boundary (by decide) (by decide))
    · exact seeksKeyword_importLine
    · exact @seeksKeyword_modified modifierTexts _ (fun _ => id) (by decide)
    · exact @seeksKeyword_modified modifierTexts _ (fun _ => id) (by decide)
    · exact @seeksKeyword_modified accessTexts _ (by decide) (by decide)
    · exact seeksKeyword_of_word (by decide) any_head?_of_covers_blanks
    · exact @seeksKeyword_modified modifierTexts _ (fun _ => id) (by decide)
    · exact seeksKeyword_namedFunction
    · exact seeksKeyword_testInCondition
    · exact seeksKeyword_testInAssignment
    · exact seeksKeyword_vector (.inr rfl)
    · exact seeksKeyword_vector (.inl rfl)
    · exact seeksKeyword_forEachHead
    · exact seeksKeyword_forEachHead
    · exact seeksKeyword_of_word (by decide) any_head?_of_covers_blanks
    · refine seeksKeyword_of_word (by decide) fun covers => ?_
      simp only [inOrder, covers_maybeBlanks_sequence, covers_text_sequence] at covers
      obtain ⟨gap, _, isBlank, rfl, other, rfl, -⟩ := covers
      rw [List.append_assoc]
      exact any_head?_maybeBlanks isBlank (any_head?_mark (by decide))

/-- Where no pattern of the rules covers anything, no rule fits. -/
theorem apply_eq_none_of_sought {source : List Char}
    (nothing : ∀ pattern ∈ sought source, pattern.CoversNothingIn source) {rule : Rule}
    (isRule : rule ∈ rules) : rule.apply source = none := by
  have ofFixed (pattern : Pattern) (isFixed : pattern ∈ fixedPatterns) :
      pattern.CoversNothingIn source :=
    nothing pattern (List.mem_append_right _ isFixed)
  have ofOne (edit : Edit) (isFixed : edit.pattern ∈ fixedPatterns) :
      Edit.applyAll [edit] source = none :=
    Edit.applyAll_eq_none (List.forall_mem_singleton.mpr (ofFixed _ isFixed))
  have ofTwo (one other : Edit) (oneIsFixed : one.pattern ∈ fixedPatterns)
      (otherIsFixed : other.pattern ∈ fixedPatterns) :
      Edit.applyAll [one, other] source = none :=
    Edit.applyAll_eq_none (List.forall_mem_cons.mpr ⟨ofFixed _ oneIsFixed,
      List.forall_mem_singleton.mpr (ofFixed _ otherIsFixed)⟩)
  simp only [rules, List.mem_cons, List.not_mem_nil, or_false] at isRule
  obtain rfl | rfl | rfl | rfl | rfl | rfl | rfl | rfl | rfl | rfl | rfl | rfl := isRule
  · simp only [renameConstructor]
    cases isFound : classHead.find? source with
    | none => rfl
    | some head =>
        have isSought : functionHead (head.group 1) ∈ sought source :=
          List.mem_append_left _ (List.mem_map.mpr ⟨head, by simp [isFound], rfl⟩)
        dsimp only
        split
        · exact (nothing _ isSought).replaceFirst_eq_none _
        · rfl
  · exact ofOne _ (by decide)
  · exact ofOne _ (by decide)
  · exact (ofFixed packageHead (by decide)).replaceFirst_eq_none _
  · exact ofOne _ (by decide)
  · exact ofTwo _ _ (by decide) (by decide)
  · exact ofTwo _ _ (by decide) (by decide)
  · exact ofTwo _ _ (by decide) (by decide)
  · exact ofTwo _ _ (by decide) (by decide)
  · exact ofTwo _ _ (by decide) (by decide)
  · exact ofTwo _ _ (by decide) (by decide)
  · exact ofTwo _ _ (by decide) (by decide)

/-- A text that no rule fits stays. -/
theorem normalizeText_eq_self {source : List Char}
    (noneFits : ∀ rule ∈ rules, rule.apply source = none) : normalizeText source = source := by
  have stays (some : List Rule) (noneFits : ∀ rule ∈ some, rule.apply source = none) :
      some.foldl (fun text rule => rule.run text) source = source := by
    induction some with
    | nil => rfl
    | cons rule others ih =>
        rw [List.forall_mem_cons] at noneFits
        rw [List.foldl_cons, Rule.run, noneFits.1]
        exact ih noneFits.2
  exact stays rules noneFits

/-- A text without whole keywords stays, and no rule fits it.  In any text, what a pattern of
the rules covers holds a keyword as a whole word. -/
theorem normalize_without_keywords (source : String) :
    ((∀ keyword ∈ keywords, ¬ StandsWhole keyword.toList source.toList) →
        normalize source = source ∧ ∀ rule ∈ rules, rule.apply source.toList = none) ∧
      ∀ text, ∀ pattern ∈ sought text, ∀ previous covered rest notes,
        pattern.Covers previous covered rest notes → HoldsKeyword previous covered rest := by
  refine ⟨fun without => ?_, fun _ _ isSought _ _ _ _ => seeksKeyword_of_mem_sought isSought⟩
  have noneFits : ∀ rule ∈ rules, rule.apply source.toList = none := fun _ isRule =>
    apply_eq_none_of_sought (fun _ isSought =>
      SeeksKeyword.coversNothingIn (seeksKeyword_of_mem_sought isSought) without) isRule
  refine ⟨?_, noneFits⟩
  rw [normalize, normalizeText_eq_self noneFits, String.ofList_toList]

theorem normalize_without_keywords_call :
    (∀ keyword ∈ keywords,
        ¬ StandsWhole keyword.toList "finalize(newValue, isPublic) as MyVector;".toList) ∧
      normalize "finalize(newValue, isPublic) as MyVector;" =
        "finalize(newValue, isPublic) as MyVector;" := by
  have without : ∀ keyword ∈ keywords,
      ¬ StandsWhole keyword.toList "finalize(newValue, isPublic) as MyVector;".toList := by
    decide +kernel
  exact ⟨without, ((normalize_without_keywords _).1 without).1⟩

end Normalize

end ScriptBridge

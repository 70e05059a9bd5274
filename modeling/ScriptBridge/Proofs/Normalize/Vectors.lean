import ScriptBridge.Normalize.Expressions
import ScriptBridge.Proofs.Normalize.Skeleton

/-!
# The types of a skeleton

In the types of a skeleton vectors become arrays.  The other rules for expressions and
statements find nothing in a skeleton, which has neither.
-/

namespace ScriptBridge

namespace Normalize

open Pattern

/-! ## Rules that find nothing -/

/-- All words that the rules look for in skeletons. -/
def skeletonWords : List String :=
  ["public", "protected", "private", "static", "final", "override", "function", "var", "const",
    "get", "set", "class", "interface", "package", "import", "Vector"]

/-- The words in the pieces of a skeleton. -/
theorem areOrdinary_outline (width : Nat) (packages imports heads types : Language)
    (skeleton : Skeleton) (named : List (Identifier × Member)) :
    AreOrdinary skeletonWords (skeleton.opening width packages imports ++
      ((skeleton.lines width heads types named).flatMap Line.pieces ++
        Skeleton.closing width)) := by
  refine forall_mem_outline
    ((skeleton.areOrdinary_opening width packages imports).mono (by decide)) ?_
    (fun line isLine => (skeleton.areOrdinary_lines width heads types named line isLine).mono
      (by decide)) (Skeleton.areOrdinary_closing width)
  intro line _ word _
  cases word <;> exact ⟨by decide, by decide, by decide⟩

/-- An edit that looks for a word of statements finds nothing in ordinary pieces. -/
theorem run_of_startsWith {edit : Edit} {word : String} {pieces : List SpacedWord}
    (starts : edit.pattern.StartsWith [word.toList])
    (isStatement : word ∈ ["if", "for", "new"]) (ordinary : AreOrdinary skeletonWords pieces) :
    edit.run (SpacedWord.textOf pieces) = SpacedWord.textOf pieces := by
  have apart : ∀ word ∈ ["if", "for", "new"], AreWords [word.toList] ∧
      word.toList ∈ lookedFor ∧ word.toList ∉ skeletonWords.map String.toList := by
    decide
  obtain ⟨areWords, isKnown, notAllowed⟩ := apart word isStatement
  refine Edit.run_of_misses (starts.missesIn areWords fun piece isPiece isWord => ?_)
  exact ordinary.word_ne isKnown notAllowed piece isPiece (List.mem_singleton.mp isWord)

/-- An assignment is found only where the text has a sign of assignment. -/
theorem run_testInAssignment {replacement : Match → List Char} {pieces : List SpacedWord}
    (ordinary : AreOrdinary skeletonWords pieces) :
    (Edit.mk testInAssignment replacement).run (SpacedWord.textOf pieces) =
      SpacedWord.textOf pieces := by
  have unsigned : '=' ∉ SpacedWord.textOf pieces := by
    intro isIn
    obtain ⟨piece, isPiece, isIn⟩ := List.mem_flatMap.mp isIn
    rcases List.mem_append.mp isIn with inWord | inGap
    · exact absurd (List.all_eq_true.mp piece.isWord '=' inWord) (by decide)
    · exact (ordinary piece isPiece).unsigned inGap
  refine Edit.run_of_misses ?_
  intro before after position split _
  rw [List.eq_nil_iff_forall_not_mem]
  intro way isWay
  obtain ⟨_, isSign, -⟩ := mem_ways_sequence.mp isWay
  obtain ⟨_, isPair, -⟩ := mem_ways_group.mp isSign
  obtain ⟨_, isFirst, isSecond⟩ := mem_ways_sequence.mp isPair
  obtain ⟨character, rest, afterEq, -, rfl⟩ := mem_ways_one.mp isFirst
  obtain ⟨rest, rfl, -⟩ := mem_ways_literal.mp isSecond
  have afterEq : after ++ [] = character :: ('=' :: rest) := afterEq
  rw [List.append_nil] at afterEq
  exact unsigned (by simp [split, afterEq])

variable {pieces : List SpacedWord}

theorem run_isToInstanceof (ordinary : AreOrdinary skeletonWords pieces) :
    isToInstanceof.run (SpacedWord.textOf pieces) = SpacedWord.textOf pieces := by
  have starts : testInCondition.StartsWith ["if".toList] :=
    (Picks.literal "if".toList).startsWith (by decide)
      (FailsInWords.optionalBlank ((FailsInWords.literal (by decide)).sequence _))
  rw [isToInstanceof, Rule.run_ofEdits]
  exact (congrArg _ (run_of_startsWith starts (by decide) ordinary)).trans
    (run_testInAssignment ordinary)

theorem run_forEachToForOf (ordinary : AreOrdinary skeletonWords pieces) :
    forEachToForOf.run (SpacedWord.textOf pieces) = SpacedWord.textOf pieces := by
  have starts : forEachHead.StartsWith ["for".toList] :=
    (Picks.literal "for".toList).startsWith (by decide) (FailsInWords.blanks.sequence _)
  rw [forEachToForOf, Rule.run_ofEdits]
  exact (congrArg _ (run_of_startsWith (starts.sequence _) (by decide) ordinary)).trans
    (run_of_startsWith (starts.sequence _) (by decide) ordinary)

theorem run_newShorthands (ordinary : AreOrdinary skeletonWords pieces) :
    newShorthands.run (SpacedWord.textOf pieces) = SpacedWord.textOf pieces := by
  have areWords : AreWords ["new".toList] := by decide
  rw [newShorthands, Rule.run_ofEdits]
  refine (congrArg _ (run_of_startsWith ((Picks.literal "new".toList).startsWith areWords
    (FailsInWords.blanks.sequence _)) (by decide) ordinary)).trans
    (run_of_startsWith ((Picks.literal "new".toList).startsWith areWords
      (FailsInWords.maybeBlanks ((FailsInWords.literal ?_).sequence _))) (by decide) ordinary)
  decide

/-! ## Vectors -/

def vectorText : List Char := "Vector".toList

theorem areWords_vector : AreWords [vectorText] := by decide

/-- A piece after vectors have become arrays. -/
def arrayed (piece : SpacedWord) : SpacedWord :=
  if piece.word = vectorText then vectorPiece .target else piece

theorem arrayed_word_ne (piece : SpacedWord) : (arrayed piece).word ≠ vectorText := by
  unfold arrayed
  split
  · decide
  · assumption

theorem map_arrayed_of_apart {pieces : List SpacedWord}
    (apart : ∀ piece ∈ pieces, piece.word ≠ vectorText) : pieces.map arrayed = pieces :=
  (List.map_congr_left fun piece isPiece => if_neg (apart piece isPiece)).trans (List.map_id _)

/-- A pattern for a word with other characters behind it starts with the word. -/
theorem startsWith_vector {closing : List Char} (isSome : closing ≠ [])
    (isGap : closing.all (!Text.isWord ·) = true) :
    (Pattern.sequence boundary (.literal (vectorText ++ closing))).StartsWith [vectorText] := by
  intro attempt way isWay
  obtain ⟨_, isEdge, isText⟩ := mem_ways_sequence.mp isWay
  obtain ⟨edge, rfl⟩ := mem_ways_boundary.mp isEdge
  obtain ⟨rest, afterEq, -⟩ := mem_ways_literal.mp isText
  rw [List.append_assoc] at afterEq
  refine ⟨vectorText, List.mem_singleton_self _, _, afterEq, ?_, ?_⟩
  · have begins : (vectorText ++ (closing ++ rest)).head?.any Text.isWord = true := by
      show Text.isWord 'V' = true
      decide
    rw [afterEq, begins] at edge
    simpa using edge
  · obtain ⟨character, closing, rfl⟩ := List.exists_cons_of_ne_nil isSome
    simpa using List.all_eq_true.mp isGap character (by simp)

/-- The edit for vectors with a type of elements. -/
def vectorEdit : Edit :=
  ⟨inOrder [boundary, text "Vector.<"], fun _ => "Array<".toList⟩

theorem replaces_vector {previous : Option Char} (begins : previous.any Text.isWord = false)
    (rest : List Char) :
    vectorEdit.Replaces previous (vectorText ++ ".<".toList) rest "Array<".toList := by
  refine ⟨by decide, fun position => ⟨[], ?_, rfl⟩⟩
  have edge : previous.any Text.isWord ≠
      (vectorText ++ ".<".toList ++ rest).head?.any Text.isWord := by
    rw [begins]
    show false ≠ Text.isWord 'V'
    decide
  have ways := (@ways_sequence_of_eq boundary (.literal (vectorText ++ ".<".toList))
    ⟨⟨position, previous, vectorText ++ ".<".toList ++ rest⟩, []⟩ _
      (ways_boundary_of_edge edge)).trans (ways_literal_of_eq rfl _)
  exact congrArg List.head? ways

/-- Each vector becomes an array. -/
theorem rewrites_vectors {pieces : List SpacedWord} {previous : Option Char}
    (begins : previous.any Text.isWord = false)
    (opens : ∀ piece ∈ pieces, piece.word = vectorText → piece.gap = ".<".toList) :
    vectorEdit.Rewrites previous (SpacedWord.textOf pieces)
      (SpacedWord.textOf (pieces.map arrayed)) := by
  have starts : vectorEdit.pattern.StartsWith [vectorText] :=
    @startsWith_vector ".<".toList (by decide) (by decide)
  induction pieces generalizing previous with
  | nil => exact .done _
  | cons piece pieces ih =>
      obtain ⟨opensHere, opens⟩ := List.forall_mem_cons.mp opens
      rw [List.map_cons, SpacedWord.textOf_cons, SpacedWord.textOf_cons, ← List.append_assoc,
        ← List.append_assoc]
      by_cases isVector : piece.word = vectorText
      · rw [arrayed, if_pos isVector, isVector, opensHere isVector]
        exact .replace (replaces_vector begins _)
          (ih (show Text.isWord '<' = false by decide) opens)
      · rw [arrayed, if_neg isVector]
        have apart : ∀ one ∈ [piece], one.word ∉ [vectorText] := by simpa using isVector
        have misses : vectorEdit.pattern.MissesIn previous (piece.word ++ piece.gap)
            (SpacedWord.textOf pieces) := by
          have missed : vectorEdit.pattern.MissesIn previous (SpacedWord.textOf [piece])
              (SpacedWord.textOf pieces) := starts.missesIn areWords_vector apart
          simpa using missed
        refine .keepAll misses (ih ?_ opens)
        have ends := @SpacedWord.getLast?_textOf [piece] previous begins
        simpa using ends

/-- The rule for vectors changes the pieces with vectors. -/
theorem run_vectorToArray {pieces : List SpacedWord}
    (ordinary : AreOrdinary skeletonWords pieces) :
    vectorToArray.run (SpacedWord.textOf pieces) = SpacedWord.textOf (pieces.map arrayed) := by
  have starts := @startsWith_vector ".".toList (by decide) (by decide)
  rw [vectorToArray, Rule.run_ofEdits]
  refine (congrArg _ (rewrites_vectors rfl fun piece isPiece =>
    (ordinary piece isPiece).vector).run_eq).trans (Edit.run_of_misses ?_)
  refine starts.missesIn areWords_vector fun piece isPiece isVector => ?_
  obtain ⟨former, -, rfl⟩ := List.mem_map.mp isPiece
  exact arrayed_word_ne former (List.mem_singleton.mp isVector)

/-! ## The types of members -/

theorem word_ne_vector {allowed : List String} {pieces : List SpacedWord}
    (ordinary : AreOrdinary allowed pieces) (notAllowed : vectorText ∉ allowed.map String.toList) :
    ∀ piece ∈ pieces, piece.word ≠ vectorText :=
  ordinary.word_ne (by decide) notAllowed

theorem TypeName.map_arrayed (gap : Gap) (type : TypeName) :
    (type.pieces .source gap).map arrayed = type.pieces .target gap := by
  induction type generalizing gap with
  | named name =>
      exact map_arrayed_of_apart (@word_ne_vector [] _ (name.areOrdinary .dot gap) (by decide))
  | vector element ih =>
      rw [pieces, List.map_cons, ih]
      rfl

theorem Identifier.arrayed_before (name : Identifier) (gap : Gap) :
    arrayed (name.before gap) = name.before gap := by
  have isKnown : vectorText ∈ lookedFor := by decide
  refine if_neg fun isVector : name.text = vectorText => name.isFree ?_
  rwa [isVector]

theorem Parameter.map_arrayed (gap : Gap) (parameter : Parameter) :
    (parameter.pieces .source gap).map arrayed = parameter.pieces .target gap := by
  unfold pieces
  split
  · rw [List.map_cons, Identifier.arrayed_before, TypeName.map_arrayed]
  · rw [List.map_cons, Identifier.arrayed_before, List.map_nil]

theorem map_arrayed_parameterPieces (gap : Gap) (parameters : List Parameter) :
    (parameterPieces .source gap parameters).map arrayed =
      parameterPieces .target gap parameters := by
  fun_induction parameterPieces .source gap parameters with
  | case1 => rfl
  | case2 parameter => exact parameter.map_arrayed gap
  | case3 parameter rest isSome ih =>
      rw [List.map_append, ih, Parameter.map_arrayed]
      exact (parameterPieces.eq_3 .target gap parameter rest isSome).symm

theorem Member.map_arrayed (member : Member) :
    (member.pieces .source).map arrayed = member.pieces .target := by
  cases member with
  | field declared => exact declared.type.map_arrayed _
  | constructor parameters => exact map_arrayed_parameterPieces _ parameters
  | method declared =>
      simp only [pieces, List.map_append, map_arrayed_parameterPieces, TypeName.map_arrayed]

theorem HeadWord.map_arrayed (head : List HeadWord) :
    (HeadWord.pieces head).map arrayed = HeadWord.pieces head := by
  refine map_arrayed_of_apart fun piece isPiece => ?_
  obtain ⟨word, -, rfl⟩ := List.mem_map.mp isPiece
  cases word <;> decide

theorem Member.map_arrayed_line (width : Nat) (heads : Language) (name : Identifier)
    (member : Member) :
    (member.line width heads .source name).pieces.map arrayed =
      (member.line width heads .target name).pieces := by
  simp only [Line.pieces, line, List.map_cons, List.map_append, HeadWord.map_arrayed,
    Identifier.arrayed_before, Member.map_arrayed]
  rfl

namespace Skeleton

theorem map_arrayed_classLine (width : Nat) (heads : Language) (skeleton : Skeleton) :
    (skeleton.classLine width heads).pieces.map arrayed =
      (skeleton.classLine width heads).pieces := by
  have around := @word_ne_vector [] _ (skeleton.areOrdinary_classLine width heads) (by decide)
  obtain ⟨ofLead, ofRest⟩ := List.forall_mem_cons.mp around
  rw [Line.pieces, List.map_cons, List.map_append, HeadWord.map_arrayed,
    map_arrayed_of_apart ofRest]
  exact congrArg (· :: _) (if_neg ofLead)

/-- In the types of a skeleton vectors become arrays. -/
theorem run_vectorToArray (width : Nat) (packages imports heads : Language)
    (skeleton : Skeleton) (named : List (Identifier × Member)) :
    vectorToArray.run (outline (skeleton.opening width packages imports)
        (skeleton.lines width heads .source named) (closing width)) =
      outline (skeleton.opening width packages imports)
        (skeleton.lines width heads .target named) (closing width) := by
  have ofOpening := map_arrayed_of_apart (word_ne_vector
    (skeleton.areOrdinary_opening width packages imports) (by decide))
  have ofClosing := map_arrayed_of_apart (@word_ne_vector [] _ (areOrdinary_closing width)
    (by decide))
  have ofLines : ((skeleton.lines width heads .source named).flatMap Line.pieces).map arrayed =
      (skeleton.lines width heads .target named).flatMap Line.pieces := by
    simp only [lines, List.flatMap_cons, List.map_append, map_arrayed_classLine]
    congr 1
    induction named with
    | nil => rfl
    | cons first named ih =>
        simp only [List.map_cons, List.flatMap_cons, List.map_append, Member.map_arrayed_line, ih]
  refine (Normalize.run_vectorToArray
    (areOrdinary_outline width packages imports heads .source skeleton named)).trans ?_
  simp only [outline, List.map_append, ofOpening, ofClosing, ofLines]

end Skeleton

end Normalize

end ScriptBridge

import ScriptBridge.Normalize.Expressions
import ScriptBridge.Proofs.Normalize.Shapes

/-!
# Type tests, one of several

The rule for type tests looks for a whole condition or a whole assignment, and matches do
not overlap.  In a condition it takes as much as possible in front of the test, so it finds
the last test; in an assignment it takes as little as possible, so it finds the first one.
The other tests of a chain are left alone.
-/

namespace ScriptBridge

namespace Normalize

open Pattern

/-! ## Texts without a test -/

/-- No `is` stands between white space. -/
def Untested (text : List Char) : Prop :=
  ∀ before behind first second, text = before ++ first :: 'i' :: 's' :: second :: behind →
    Text.isBlank first = true → Text.isBlank second = false

namespace Untested

theorem of_append {before text : List Char} (untested : Untested (before ++ text)) :
    Untested text := by
  rintro earlier behind first second rfl
  exact untested (before ++ earlier) behind first second (List.append_assoc _ _ _).symm

/-- A test has white space on both sides. -/
theorem of_countP_le {text : List Char} (few : text.countP Text.isBlank ≤ 1) : Untested text := by
  rintro before behind first second rfl isBlank
  cases isSecond : Text.isBlank second with
  | false => rfl
  | true =>
      simp only [List.countP_append, List.countP_cons, isBlank, isSecond, if_true] at few
      omega

/-- No test goes across a mark that is neither white space nor a letter of the keyword. -/
theorem append {front rest : List Char} {mark : Char} (inFront : Untested front)
    (inRest : Untested rest) (notBlank : Text.isBlank mark = false)
    (apart : mark ≠ 'i' ∧ mark ≠ 's') :
    Untested (front ++ mark :: rest) := by
  intro before behind first second split isBlank
  rcases List.append_eq_append_iff.mp split with ⟨more, beforeEq, restEq⟩ | ⟨more, frontEq, testEq⟩
  · cases more with
    | nil =>
        obtain ⟨rfl, -⟩ := List.cons.inj restEq
        simp [notBlank] at isBlank
    | cons character more =>
        rw [List.cons_append, List.cons.injEq] at restEq
        exact inRest more behind first second restEq.2 isBlank
  · -- The mark is one of the four characters of the test, or it lies behind them.
    rcases more with _ | ⟨_, _ | ⟨_, _ | ⟨_, _ | ⟨_, more⟩⟩⟩⟩ <;>
      simp only [List.nil_append, List.cons_append, List.cons.injEq] at testEq
    · obtain ⟨rfl, -⟩ := testEq
      simp [notBlank] at isBlank
    · exact absurd testEq.2.1.symm apart.1
    · exact absurd testEq.2.2.1.symm apart.2
    · exact testEq.2.2.2.1 ▸ notBlank
    · obtain ⟨rfl, rfl, rfl, rfl, -⟩ := testEq
      exact inFront before more _ _ frontEq isBlank

/-- Where a mark stands only in a text without a test, no test follows it. -/
theorem of_mark {front rest before tail : List Char} {mark : Char} (untested : Untested rest)
    (unmarked : mark ∉ front) (split : front ++ rest = before ++ mark :: tail) :
    Untested tail := by
  rcases List.append_eq_append_iff.mp split with ⟨more, rfl, rfl⟩ | ⟨more, rfl, moreEq⟩
  · exact (List.append_cons more mark tail ▸ untested).of_append
  · cases more with
    | nil =>
        obtain rfl : mark :: tail = rest := moreEq
        exact @of_append [mark] _ untested
    | cons character more =>
        obtain ⟨rfl, -⟩ := List.cons.inj moreEq
        simp at unmarked

/-- The keyword between white space is a test. -/
theorem not_keyword {before gap behind rest : List Char} (isBlank : gap.all Text.isBlank = true)
    (isSome : gap ≠ []) (behindIsBlank : behind.all Text.isBlank = true)
    (behindIsSome : behind ≠ []) :
    ¬ Untested (before ++ (gap ++ ("is".toList ++ (behind ++ rest)))) := by
  intro untested
  obtain ⟨second, behind, rfl⟩ := List.exists_cons_of_ne_nil behindIsSome
  have tested : before ++ (gap ++ ("is".toList ++ (second :: behind ++ rest))) =
      (before ++ gap.dropLast) ++ gap.getLast isSome :: 'i' :: 's' :: second ::
        (behind ++ rest) := by
    conv_lhs => rw [← List.dropLast_append_getLast isSome]
    simp
  have isFirst := List.all_eq_true.mp isBlank _ (List.getLast_mem isSome)
  have isSecond := List.all_eq_true.mp behindIsBlank second (by simp)
  rw [untested _ _ _ _ tested isFirst] at isSecond
  exact Bool.noConfusion isSecond

end Untested

/-! ## Where the edits find nothing -/

theorem ways_keyword_eq_nil {next : Pattern} {attempt : Attempt}
    (untested : Untested attempt.cursor.after) :
    (sequence blanks (sequence (text "is") (sequence blanks next))).ways attempt = [] := by
  rw [List.eq_nil_iff_forall_not_mem]
  intro way isWay
  obtain ⟨covered, rest, notes, afterEq, covers⟩ := covers_of_way isWay
  simp only [covers_blanks_sequence, covers_text_sequence] at covers
  obtain ⟨gap, _, isBlank, isSome, rfl, _, rfl, behind, type, behindIsBlank, behindIsSome, rfl,
    -⟩ := covers
  refine @Untested.not_keyword [] _ _ (type ++ rest) isBlank isSome behindIsBlank
    behindIsSome ?_
  simpa [afterEq] using untested

/-- A condition has a test behind its opening parenthesis. -/
theorem missesIn_testInCondition {previous : Option Char} {stretch rest : List Char}
    (untested : ∀ before tail, stretch ++ rest = before ++ '(' :: tail → Untested tail) :
    testInCondition.MissesIn previous stretch rest := by
  rintro before after position rfl -
  rw [List.eq_nil_iff_forall_not_mem]
  intro way isWay
  obtain ⟨covered, later, notes, afterEq, covers⟩ := covers_of_way isWay
  obtain ⟨opening, gap, behind, -, isBlank, isSome, behindIsBlank, behindIsSome, rfl, -⟩ :=
    of_covers_testInCondition covers
  refine @Untested.not_keyword (notedUnder 1 notes) _ _
    (notedUnder 2 notes ++ ')' :: later) isBlank isSome behindIsBlank behindIsSome
    (untested (before ++ ("if".toList ++ opening)) _ ?_)
  have afterEq : after ++ rest = _ := afterEq
  rw [List.append_assoc, afterEq]
  simp

/-- An assignment has a test behind its sign. -/
theorem missesIn_testInAssignment {previous : Option Char} {stretch rest : List Char}
    (untested : ∀ before tail, stretch ++ rest = before ++ '=' :: tail → Untested tail) :
    testInAssignment.MissesIn previous stretch rest := by
  rintro before after position rfl -
  rw [List.eq_nil_iff_forall_not_mem]
  intro way isWay
  obtain ⟨covered, later, notes, afterEq, covers⟩ := covers_of_way isWay
  obtain ⟨character, opening, gap, behind, -, isBlank, isSome, behindIsBlank, behindIsSome, rfl,
    -⟩ := of_covers_testInAssignment covers
  refine @Untested.not_keyword (opening ++ notedUnder 2 notes) _ _
    (notedUnder 3 notes ++ later) isBlank isSome behindIsBlank behindIsSome
    (untested (before ++ [character]) _ ?_)
  have afterEq : after ++ rest = _ := afterEq
  rw [List.append_assoc, afterEq]
  simp

/-- No assignment starts in a stretch without a sign. -/
theorem missesIn_target {previous : Option Char} {stretch rest : List Char}
    (unsigned : '=' ∉ stretch) (restUnsigned : rest.head? ≠ some '=') :
    testInAssignment.MissesIn previous stretch rest := by
  rintro before after position rfl isSome
  rw [List.eq_nil_iff_forall_not_mem]
  intro way isWay
  obtain ⟨covered, later, notes, afterEq, covers⟩ := covers_of_way isWay
  obtain ⟨character, opening, gap, behind, -, -, -, -, -, rfl, -⟩ :=
    of_covers_testInAssignment covers
  have afterEq : after ++ rest = character :: ('=' :: _ ++ later) := afterEq
  match after, isSome with
  | [_], _ => simp_all
  | _ :: next :: after, _ =>
      obtain rfl : next = '=' := (List.cons.inj (List.cons.inj afterEq).2).1
      simp at unsigned

/-! ## What the edits find -/

/-- Behind a closing parenthesis there may be others; one of them is the last before white
space. -/
theorem exists_lastClosing (rest : List Char) :
    ∃ more later, ')' :: rest = more ++ ')' :: later ∧
      (∀ character ∈ more, Text.isBlank character = false) ∧
      ∀ further beyond, later = further ++ ')' :: beyond →
        ¬ ∀ character ∈ further, Text.isBlank character = false := by
  induction lengthEq : rest.length using Nat.strongRecOn generalizing rest with
  | _ length ih =>
      subst lengthEq
      by_cases goesOn : ∃ further beyond, rest = further ++ ')' :: beyond ∧
          ∀ character ∈ further, Text.isBlank character = false
      · obtain ⟨further, beyond, rfl, solid⟩ := goesOn
        obtain ⟨more, later, beyondEq, moreSolid, isLast⟩ :=
          ih beyond.length (by simp only [List.length_append, List.length_cons]; omega) beyond rfl
        refine ⟨')' :: further ++ more, later, by simp [beyondEq], ?_, isLast⟩
        intro character isMember
        rcases List.mem_append.mp isMember with isMember | isMember
        · rcases List.mem_cons.mp isMember with rfl | isMember
          · decide
          · exact solid character isMember
        · exact moreSolid character isMember
      · refine ⟨[], rest, rfl, by simp, fun further beyond restEq solid => ?_⟩
        exact goesOn ⟨further, beyond, restEq, solid⟩

/-- The edit for conditions. -/
def conditionEdit : Edit :=
  ⟨testInCondition, fun found =>
    "if(".toList ++ found.group 1 ++ " instanceof ".toList ++ found.group 2 ++ [')']⟩

/-- The edit for assignments. -/
def assignmentEdit : Edit :=
  ⟨testInAssignment, fun found =>
    found.group 1 ++ [' '] ++ found.group 2 ++ " instanceof ".toList ++ found.group 3⟩

theorem run_isToInstanceof_eq (text : List Char) :
    isToInstanceof.run text = assignmentEdit.run (conditionEdit.run text) :=
  Rule.run_ofEdits _ [conditionEdit, assignmentEdit] text

/-- A keyword in front of something else. -/
theorem ways_keyword {cursor : Cursor} {rest : List Char} {next : Pattern} {groups : List Group}
    (afterEq : cursor.after = " is ".toList ++ rest)
    (stops : rest.head?.any Text.isBlank = false) :
    (sequence blanks (sequence (text "is") (sequence blanks next))).ways ⟨cursor, groups⟩ =
      next.ways ⟨cursor.past " is ".toList rest, groups⟩ := by
  have space : blanks.ways ⟨cursor, groups⟩ =
      [⟨cursor.past [' '] ("is ".toList ++ rest), groups⟩] :=
    ways_space (by show Text.isBlank 'i' = false; decide) afterEq groups
  rw [ways_sequence_of_eq space, text,
    ways_sequence_of_eq (@ways_literal_of_eq _ _ (' ' :: rest) rfl groups),
    ways_sequence_of_eq (ways_space stops rfl groups), Cursor.past_past, Cursor.past_past]
  rfl

/-- A single blank that may be missing. -/
theorem head?_ways_maybeBlank {cursor : Cursor} {opening rest : List Char} {next : Pattern}
    {groups : List Group} (afterEq : cursor.after = opening ++ rest)
    (isOpening : opening = [] ∨ ∃ blank, Text.isBlank blank = true ∧ opening = [blank])
    (stops : rest.head?.any Text.isBlank = false) {way : Attempt}
    (fits : (next.ways ⟨cursor.past opening rest, groups⟩).head? = some way) :
    ((sequence (optional (.one .blank)) next).ways ⟨cursor, groups⟩).head? = some way := by
  have contains : CharClass.blank.contains = Text.isBlank := rfl
  refine head?_ways_sequence ?_ fits
  obtain ⟨position, previous, after⟩ := cursor
  obtain rfl : after = opening ++ rest := afterEq
  rcases isOpening with rfl | ⟨blank, isBlank, rfl⟩
  · rw [Pattern.optional, head?_ways_choice_right]
    · rfl
    · cases rest with
      | nil => rfl
      | cons character rest =>
          have stops : Text.isBlank character = false := by simpa using stops
          simp [ways, Attempt.goOn, Cursor.take?, contains, stops]
  · refine head?_ways_choice_left ?_
    simp [ways, Attempt.goOn, Cursor.take?, contains, isBlank, Cursor.past]

/-- The keyword with the type behind it, up to the last parenthesis before white space. -/
theorem head?_ways_testedAs {cursor : Cursor} {type later : List Char} {groups : List Group}
    (afterEq : cursor.after = " is ".toList ++ (type ++ (")".toList ++ later)))
    (typeSolid : ∀ character ∈ type, Text.isBlank character = false) (typeIsSome : type ≠ [])
    (isLast : ∀ further beyond, later = further ++ ')' :: beyond →
      ¬ ∀ character ∈ further, Text.isBlank character = false) :
    ((inOrder [blanks, text "is", blanks, .group 2 (.oneOrMore (.complement .blank)),
        text ")"]).ways ⟨cursor, groups⟩).head? =
      some ⟨cursor.past (" is ".toList ++ (type ++ ")".toList)) later,
        ⟨2, cursor.position + 4, cursor.position + 4 + type.length⟩ :: groups⟩ := by
  have stops : (type ++ (")".toList ++ later)).head?.any Text.isBlank = false := by
    obtain ⟨character, type, rfl⟩ := List.exists_cons_of_ne_nil typeIsSome
    simpa using typeSolid character (by simp)
  have typeInside : ∀ character ∈ type,
      (CharClass.complement .blank).contains character = true := by
    intro character isMember
    simpa [CharClass.contains] using typeSolid character isMember
  refine (congrArg List.head? (ways_keyword afterEq stops)).trans ?_
  refine head?_ways_longest rfl typeInside (List.length_pos_iff.mpr typeIsSome) ?_ ?_
  · -- A longer type would stop at a later parenthesis.
    rintro more beyond moreEq moreIsSome moreInside ⟨_, _⟩ rfl
    rw [List.eq_nil_iff_forall_not_mem]
    intro way isWay
    obtain ⟨behind, closingEq, -⟩ := mem_ways_literal.mp isWay
    obtain ⟨character, more, rfl⟩ := List.exists_cons_of_ne_nil moreIsSome
    have laterEq : later = more ++ _ := (List.cons.inj moreEq).2
    rw [closingEq] at laterEq
    refine isLast more behind laterEq fun other isOther => ?_
    simpa [CharClass.contains] using moreInside other (by simp [isOther])
  · refine (congrArg List.head? (@ways_literal_of_eq _ _ later rfl _)).trans ?_
    rw [List.head?_cons, Cursor.past_past, Cursor.past_past]
    rfl

/-- In a condition the last test is found. -/
theorem replaces_inCondition {previous : Option Char} {opening tested type later : List Char}
    (begins : previous.any Text.isWord = false)
    (isOpening : opening = [] ∨ ∃ blank, Text.isBlank blank = true ∧ opening = [blank])
    (inLine : ∀ character ∈ tested, character ≠ '\n') (testedIsSome : tested ≠ [])
    (typeSolid : ∀ character ∈ type, Text.isBlank character = false) (typeIsSome : type ≠ [])
    (untested : Untested ("is ".toList ++ (type ++ (")".toList ++ later))))
    (isLast : ∀ further beyond, later = further ++ ')' :: beyond →
      ¬ ∀ character ∈ further, Text.isBlank character = false) :
    conditionEdit.Replaces previous
      ("if".toList ++ (opening ++ ("(".toList ++
        (tested ++ (" is ".toList ++ (type ++ ")".toList))))))
      later ("if(".toList ++ (tested ++ (" instanceof ".toList ++ (type ++ ")".toList)))) := by
  refine ⟨by simp, fun position => ?_⟩
  obtain ⟨start, startEq⟩ : ∃ start : Cursor, start = ⟨position, previous,
      "if".toList ++ (opening ++
      ("(".toList ++ (tested ++ (" is ".toList ++ (type ++ ")".toList))))) ++ later⟩ := ⟨_, rfl⟩
  have afterEq : start.after = "if".toList ++ (opening ++ ("(".toList ++ (tested ++
      (" is ".toList ++ (type ++ (")".toList ++ later)))))) := by
    simp [startEq]
  obtain ⟨opened, openedEq⟩ : ∃ opened, opened = "if".toList ++ (opening ++ "(".toList) := ⟨_, rfl⟩
  have inside : ∀ character ∈ tested, CharClass.notLineFeed.contains character = true := by
    intro character isMember
    simpa [CharClass.notLineFeed, CharClass.contains] using (inLine character isMember).symm
  have fits : (testInCondition.ways ⟨start, []⟩).head? = some
      ⟨start.past (opened ++ (tested ++ (" is ".toList ++ (type ++ ")".toList)))) later,
        [⟨2, start.position + opened.length + tested.length + 4,
            start.position + opened.length + tested.length + 4 + type.length⟩,
          ⟨1, start.position + opened.length,
            start.position + opened.length + tested.length⟩]⟩ := by
    have isWord := @ways_word start _ _ (by decide) (by decide)
      (by rw [startEq]; exact begins) afterEq (inOrder [.optional (.one .blank), text "(",
        .group 1 (.oneOrMore .notLineFeed), blanks, text "is", blanks,
        .group 2 (.oneOrMore (.complement .blank)), text ")"]) []
    refine (congrArg List.head? isWord).trans (head?_ways_maybeBlank rfl isOpening
      (by show Text.isBlank '(' = false; decide) ?_)
    refine (congrArg List.head? (ways_sequence_of_eq (ways_literal_of_eq rfl []))).trans ?_
    rw [Cursor.past_past, Cursor.past_past, ← openedEq]
    refine head?_ways_longest rfl inside (List.length_pos_iff.mpr testedIsSome) ?_
      ((head?_ways_testedAs rfl typeSolid typeIsSome isLast).trans ?_)
    · -- No keyword stands behind the last one.
      intro more beyond restEq moreIsSome _ attempt beyondEq
      obtain ⟨character, more, rfl⟩ := List.exists_cons_of_ne_nil moreIsSome
      have behindEq : "is ".toList ++ (type ++ (")".toList ++ later)) = more ++ beyond :=
        (List.cons.inj restEq).2
      rw [behindEq, ← beyondEq] at untested
      exact ways_keyword_eq_nil untested.of_append
    · rw [Cursor.past_past, Cursor.past_past]
      rfl
  have coveredEq : "if".toList ++ (opening ++ ("(".toList ++ (tested ++ (" is ".toList ++
      (type ++ ")".toList))))) = opened ++ (tested ++ (" is ".toList ++ (type ++ ")".toList))) := by
    simp [openedEq]
  rw [← startEq, coveredEq]
  refine ⟨_, fits, ?_⟩
  have startAfter : start.after = opened ++ (tested ++ (" is ".toList ++
      (type ++ (")".toList ++ later)))) := by
    simp [afterEq, openedEq]
  generalize foundEq : Match.mk start _ _ = found
  have foundAfter : found.start.after = opened ++ (tested ++ (" is ".toList ++
      (type ++ (")".toList ++ later)))) := by rw [← foundEq, startAfter]
  have firstGroup : found.group 1 = tested :=
    group_of_find opened tested foundAfter (by rw [← foundEq]; rfl)
  have secondGroup : found.group 2 = type :=
    group_of_find (opened ++ (tested ++ " is ".toList)) type (by simpa using foundAfter) (by
      rw [← foundEq]
      simp only [List.length_append, ← Nat.add_assoc]
      rfl)
  simp only [conditionEdit, firstGroup, secondGroup]
  simp

/-- The sign of an assignment with the character in front of it. -/
theorem ways_sign {cursor : Cursor} {sign : Char} {rest : List Char}
    (isSign : sign ∉ ['=', '!', '<', '>']) (afterEq : cursor.after = [sign, '='] ++ rest) :
    (Pattern.group 1 (inOrder [.one (.complement (.ofList ['=', '!', '<', '>'])),
        text "="])).ways ⟨cursor, []⟩ =
      [⟨cursor.past [sign, '='] rest, [⟨1, cursor.position, cursor.position + 2⟩]⟩] := by
  simp only [List.mem_cons, List.not_mem_nil, or_false, not_or] at isSign
  have inside : (CharClass.complement (.ofList ['=', '!', '<', '>'])).contains sign = true := by
    simp [CharClass.ofList, CharClass.contains, Ne.symm isSign.1, Ne.symm isSign.2.1,
      Ne.symm isSign.2.2.1, Ne.symm isSign.2.2.2]
  have signIs : (one (.complement (.ofList ['=', '!', '<', '>']))).ways ⟨cursor, []⟩ =
      [⟨cursor.past [sign] ('=' :: rest), []⟩] := by
    simp [ways, Attempt.goOn, Cursor.take?, afterEq, inside, Cursor.past]
  have both : (inOrder [.one (.complement (.ofList ['=', '!', '<', '>'])), text "="]).ways
      ⟨cursor, []⟩ = [⟨cursor.past [sign, '='] rest, []⟩] := by
    refine (ways_sequence_of_eq signIs).trans ((@ways_literal_of_eq _ _ rest rfl _).trans ?_)
    rw [Cursor.past_past]
    rfl
  exact congrArg (List.map (Attempt.close 1 cursor.position)) both

/-- White space does not fit where something else stands. -/
theorem ways_blanks_eq_nil {next : Pattern} {attempt : Attempt} {character : Char}
    {after : List Char} (attemptEq : attempt.cursor.after = character :: after)
    (solid : Text.isBlank character = false) : (sequence blanks next).ways attempt = [] := by
  rw [List.eq_nil_iff_forall_not_mem]
  intro way isWay
  obtain ⟨_, isGap, -⟩ := mem_ways_sequence.mp isWay
  obtain ⟨gap, later, gapEq, isBlank, isSome, -⟩ := mem_ways_run.mp isGap
  obtain ⟨first, gap, rfl⟩ := List.exists_cons_of_ne_nil (List.length_pos_iff.mp isSome)
  rw [attemptEq] at gapEq
  obtain ⟨rfl, -⟩ := List.cons.inj gapEq
  have blank : Text.isBlank character = true := isBlank character (by simp)
  simp [blank] at solid

/-- In an assignment the first test is found. -/
theorem replaces_inAssignment {previous : Option Char} {sign : Char}
    {gap tested type rest : List Char} (isSign : sign ∉ ['=', '!', '<', '>'])
    (gapIsBlank : ∀ character ∈ gap, Text.isBlank character = true)
    (testedSolid : ∀ character ∈ tested, Text.isBlank character = false)
    (inStatement : ∀ character ∈ tested, character ∉ ['=', ';', '\r', '\n'])
    (testedIsSome : tested ≠ [])
    (typeInside : ∀ character ∈ type, (CharClass.union .word (.only '.')).contains character)
    (typeSolid : ∀ character ∈ type, Text.isBlank character = false)
    (typeIsSome : type ≠ [])
    (stops : rest.head?.any (CharClass.union .word (.only '.')).contains = false) :
    assignmentEdit.Replaces previous
      ([sign, '='] ++ (gap ++ (tested ++ (" is ".toList ++ type)))) rest
      ([sign, '='] ++ ' ' :: (tested ++ (" instanceof ".toList ++ type))) := by
  refine ⟨by simp, fun position => ?_⟩
  obtain ⟨start, startEq⟩ : ∃ start : Cursor, start = ⟨position, previous,
      ([sign, '='] ++ (gap ++ (tested ++ (" is ".toList ++ type)))) ++ rest⟩ := ⟨_, rfl⟩
  have afterEq : start.after = [sign, '='] ++ (gap ++ (tested ++ (" is ".toList ++
      (type ++ rest)))) := by
    simp [startEq]
  have fits : (testInAssignment.ways ⟨start, []⟩).head? = some
      ⟨start.past ([sign, '='] ++ (gap ++ (tested ++ (" is ".toList ++ type)))) rest,
        [⟨3, start.position + 2 + gap.length + tested.length + 4,
            start.position + 2 + gap.length + tested.length + 4 + type.length⟩,
          ⟨2, start.position + 2 + gap.length, start.position + 2 + gap.length + tested.length⟩,
          ⟨1, start.position, start.position + 2⟩]⟩ := by
    have blankStops : (tested ++ (" is ".toList ++ (type ++ rest))).head?.any Text.isBlank =
        false := by
      obtain ⟨character, tested, rfl⟩ := List.exists_cons_of_ne_nil testedIsSome
      simpa using testedSolid character (by simp)
    have typeStops : (type ++ rest).head?.any Text.isBlank = false := by
      obtain ⟨character, type, rfl⟩ := List.exists_cons_of_ne_nil typeIsSome
      simpa using typeSolid character (by simp)
    have inside : ∀ character ∈ tested,
        (CharClass.complement (.ofList ['=', ';', '\r', '\n'])).contains character = true := by
      intro character isMember
      have apart := inStatement character isMember
      simp only [List.mem_cons, List.not_mem_nil, or_false, not_or] at apart
      simp [CharClass.ofList, CharClass.contains, Ne.symm apart.1, Ne.symm apart.2.1,
        Ne.symm apart.2.2.1, Ne.symm apart.2.2.2]
    refine (congrArg List.head? (ways_sequence_of_eq (ways_sign isSign afterEq))).trans ?_
    refine head?_ways_sequence (@head?_ways_run .blank _ _ _ _ gapIsBlank blankStops
      (Nat.zero_le _) rfl _) ?_
    refine head?_ways_shortest rfl inside (List.length_pos_iff.mpr testedIsSome) ?_ ?_
    · -- No white space stands in what is tested.
      rintro before after rfl afterIsSome - attempt attemptEq
      obtain ⟨character, after, rfl⟩ := List.exists_cons_of_ne_nil afterIsSome
      exact ways_blanks_eq_nil attemptEq (testedSolid character (by simp))
    · refine (congrArg List.head? (ways_keyword rfl typeStops)).trans ?_
      refine (head?_ways_group _ _ _).trans ?_
      rw [oneOrMore, head?_ways_run typeInside stops (List.length_pos_iff.mpr typeIsSome) rfl]
      simp only [Option.map_some, Attempt.close, Cursor.past_past, Cursor.past_position,
        List.append_assoc, List.length_append, ← Nat.add_assoc]
      rfl
  refine ⟨_, startEq ▸ fits, ?_⟩
  generalize foundEq : Match.mk _ _ _ = found
  have foundAfter : found.start.after = [sign, '='] ++ (gap ++ (tested ++ (" is ".toList ++
      (type ++ rest)))) := by rw [← foundEq, ← startEq, afterEq]
  have firstGroup : found.group 1 = [sign, '='] :=
    group_of_find [] [sign, '='] foundAfter (by rw [← foundEq, ← startEq]; rfl)
  have secondGroup : found.group 2 = tested :=
    group_of_find ([sign, '='] ++ gap) tested (by simpa using foundAfter) (by
      rw [← foundEq, ← startEq]
      simp only [List.length_append, ← Nat.add_assoc]
      rfl)
  have thirdGroup : found.group 3 = type :=
    group_of_find ([sign, '='] ++ (gap ++ (tested ++ " is ".toList))) type
      (by simpa using foundAfter) (by
        rw [← foundEq, ← startEq]
        simp only [List.length_append, ← Nat.add_assoc]
        rfl)
  simp only [assignmentEdit, firstGroup, secondGroup, thirdGroup]
  simp

/-! ## Chains of tests -/

/-- A name, perhaps with dots. -/
def IsDotted (text : List Char) : Prop :=
  text ≠ [] ∧ text.all (CharClass.union .word (.only '.')).contains = true

instance (text : List Char) : Decidable (IsDotted text) :=
  inferInstanceAs (Decidable (_ ∧ _))

/-- A name that is tested against a type. -/
structure TypeTest where
  tested : List Char
  type : List Char
  isTested : IsDotted tested := by decide
  isType : IsDotted type := by decide

/-- How tests are joined. -/
inductive Connective where
  | both
  | either

/-- A connective with the spaces around it. -/
def Connective.text : Connective → List Char
  | .both => " && ".toList
  | .either => " || ".toList

/-- The text of a test with the given keyword. -/
def TypeTest.spelled (keyword : String) (test : TypeTest) : List Char :=
  test.tested ++ (keyword.toList ++ test.type)

/-- The keyword of a test in the source language, with the spaces around it. -/
def sourceTest : String := " is "

/-- The keyword of a test in the target language, with the spaces around it. -/
def targetTest : String := " instanceof "

/-- Tests with the connectives behind them. -/
def leadingTests (keyword : String) (tests : List (TypeTest × Connective)) : List Char :=
  tests.flatMap fun (test, connective) => test.spelled keyword ++ connective.text

/-- Tests with the connectives in front of them. -/
def followingTests (keyword : String) (tests : List (Connective × TypeTest)) : List Char :=
  tests.flatMap fun (connective, test) => connective.text ++ test.spelled keyword

/-- A condition with tests, up to the closing parenthesis and beyond. -/
def conditionText (opening : List Char) (earlier : List (TypeTest × Connective)) (last : TypeTest)
    (rest : List Char) (earlierKeyword lastKeyword : String) : List Char :=
  "if".toList ++ (opening ++ ("(".toList ++ (leadingTests earlierKeyword earlier ++
    (last.spelled lastKeyword ++ (")".toList ++ rest)))))

/-- An assignment of tests to a target, up to the semicolon and beyond. -/
def assignmentText (target gap : List Char) (first : TypeTest)
    (later : List (Connective × TypeTest)) (rest : List Char)
    (firstKeyword laterKeyword : String) : List Char :=
  target ++ ("=".toList ++ (gap ++ (first.spelled firstKeyword ++
    (followingTests laterKeyword later ++ (";".toList ++ rest)))))

/-- What may stand in front of the sign of an assignment, the space before the sign
included. -/
structure IsTarget (target : List Char) : Prop where
  isSome : target ≠ []
  unsigned : '=' ∉ target
  unopened : '(' ∉ target
  apart : ∀ front sign, target = front ++ [sign] → sign ∉ ['=', '!', '<', '>']

/-- The characters of a chain of tests. -/
def testClass : CharClass :=
  .union (.union .word (.only '.')) (.ofList [' ', '&', '|'])

theorem IsDotted.not_isBlank {text : List Char} (dotted : IsDotted text) {character : Char}
    (isMember : character ∈ text) : Text.isBlank character = false := by
  cases isBlank : Text.isBlank character with
  | false => rfl
  | true =>
      have inside := List.all_eq_true.mp dotted.2 character isMember
      have notWord := Text.isWord_of_isBlank isBlank
      simp only [CharClass.contains, notWord, Bool.false_or, beq_iff_eq] at inside
      rw [← inside] at isBlank
      exact absurd isBlank (by decide)

theorem testClass_of_dotted {text : List Char} (dotted : IsDotted text) :
    ∀ character ∈ text, testClass.contains character = true := by
  intro character isMember
  have inside := List.all_eq_true.mp dotted.2 character isMember
  simp only [testClass, CharClass.contains] at inside ⊢
  rw [inside, Bool.true_or]

variable {keyword : String}

theorem testClass_spelled (inKeyword : keyword.toList.all testClass.contains = true)
    (test : TypeTest) :
    ∀ character ∈ test.spelled keyword, testClass.contains character = true := by
  simp only [TypeTest.spelled, List.forall_mem_append]
  exact ⟨testClass_of_dotted test.isTested, List.all_eq_true.mp inKeyword,
    testClass_of_dotted test.isType⟩

theorem testClass_connective (connective : Connective) :
    ∀ character ∈ connective.text, testClass.contains character = true := by
  have inside : connective.text.all testClass.contains = true := by cases connective <;> decide
  exact List.all_eq_true.mp inside

theorem testClass_leading (inKeyword : keyword.toList.all testClass.contains = true)
    (tests : List (TypeTest × Connective)) :
    ∀ character ∈ leadingTests keyword tests, testClass.contains character = true := by
  intro character isMember
  obtain ⟨⟨test, connective⟩, -, isMember⟩ := List.mem_flatMap.mp isMember
  exact (List.mem_append.mp isMember).elim (testClass_spelled inKeyword test character)
    (testClass_connective connective character)

theorem testClass_following (inKeyword : keyword.toList.all testClass.contains = true)
    (tests : List (Connective × TypeTest)) :
    ∀ character ∈ followingTests keyword tests, testClass.contains character = true := by
  intro character isMember
  obtain ⟨⟨connective, test⟩, -, isMember⟩ := List.mem_flatMap.mp isMember
  exact (List.mem_append.mp isMember).elim (testClass_connective connective character)
    (testClass_spelled inKeyword test character)

/-- A character that is no part of tests stands in no chain of them. -/
theorem not_mem_of_testClass {text : List Char} {mark : Char}
    (inside : ∀ character ∈ text, testClass.contains character = true)
    (outside : testClass.contains mark = false) : mark ∉ text := by
  intro isMember
  rw [inside mark isMember] at outside
  exact Bool.noConfusion outside

theorem length_leading (tests : List (TypeTest × Connective)) :
    (leadingTests targetTest tests).length =
      (leadingTests sourceTest tests).length + 8 * tests.length := by
  have lengths : targetTest.toList.length = 12 ∧ sourceTest.toList.length = 4 := by decide
  induction tests with
  | nil => rfl
  | cons pair tests ih =>
      simp only [leadingTests, List.flatMap_cons, List.length_append, List.length_cons,
        TypeTest.spelled] at ih ⊢
      omega

theorem length_following (tests : List (Connective × TypeTest)) :
    (followingTests targetTest tests).length =
      (followingTests sourceTest tests).length + 8 * tests.length := by
  have lengths : targetTest.toList.length = 12 ∧ sourceTest.toList.length = 4 := by decide
  induction tests with
  | nil => rfl
  | cons pair tests ih =>
      simp only [followingTests, List.flatMap_cons, List.length_append, List.length_cons,
        TypeTest.spelled] at ih ⊢
      omega

variable {rest : List Char}

/-- In a condition the last test is rewritten. -/
theorem run_conditionEdit (untested : Untested rest) {opening : List Char}
    (isOpening : opening = [] ∨ ∃ blank, Text.isBlank blank = true ∧ opening = [blank])
    (earlier : List (TypeTest × Connective)) (last : TypeTest) :
    conditionEdit.run (conditionText opening earlier last rest sourceTest sourceTest) =
      conditionText [] earlier last rest sourceTest targetTest := by
  obtain ⟨more, later, closingEq, moreSolid, isLast⟩ := exists_lastClosing rest
  have typeSolid : ∀ character ∈ last.type ++ more, Text.isBlank character = false :=
    List.forall_mem_append.mpr ⟨fun _ => last.isType.not_isBlank, moreSolid⟩
  have inLine : ∀ character ∈ leadingTests sourceTest earlier ++ last.tested, character ≠ '\n' := by
    intro character isMember isFeed
    subst isFeed
    rcases List.mem_append.mp isMember with isMember | isMember
    · exact not_mem_of_testClass (testClass_leading (by decide) earlier) (by decide) isMember
    · exact not_mem_of_testClass (testClass_of_dotted last.isTested) (by decide) isMember
  have behind : Untested ("is ".toList ++ ((last.type ++ more) ++ (")".toList ++ later))) := by
    have one : ("is ".toList ++ last.type).countP Text.isBlank ≤ 1 := by
      have none : last.type.countP Text.isBlank = 0 := by
        rw [List.countP_eq_zero]
        intro character isMember
        simp [last.isType.not_isBlank isMember]
      rw [List.countP_append, none]
      decide
    have closed : more ++ (")".toList ++ later) = ')' :: rest := closingEq.symm
    rw [List.append_assoc, closed, ← List.append_assoc]
    exact (Untested.of_countP_le one).append untested (by decide) (by decide)
  have found := @replaces_inCondition none _ _ _ _ rfl isOpening inLine
    (List.append_ne_nil_of_right_ne_nil _ last.isTested.1) typeSolid
    (List.append_ne_nil_of_left_ne_nil last.isType.1 _) behind isLast
  have untestedLater : Untested later := by
    refine @Untested.of_append ("is ".toList ++ (last.type ++ more) ++ ")".toList) _ ?_
    rwa [List.append_assoc, List.append_assoc]
  have rewrites := Edit.Rewrites.replace found (.keepRest (missesIn_testInCondition ?_))
  · simpa [conditionText, TypeTest.spelled, sourceTest, targetTest, closingEq] using rewrites.run_eq
  · rw [List.append_nil]
    rintro before tail rfl
    exact @Untested.of_mark [] _ _ _ _ untestedLater (by simp) rfl

/-- In an assignment the first test is rewritten. -/
theorem run_assignmentEdit (untested : Untested rest) {target gap : List Char}
    (isTarget : IsTarget target) (gapIsBlank : ∀ character ∈ gap, Text.isBlank character = true)
    (first : TypeTest) (later : List (Connective × TypeTest)) :
    assignmentEdit.run (assignmentText target gap first later rest sourceTest sourceTest) =
      assignmentText target [' '] first later rest targetTest sourceTest := by
  obtain ⟨front, sign, rfl⟩ : ∃ front sign, target = front ++ [sign] :=
    ⟨_, _, (List.dropLast_append_getLast isTarget.isSome).symm⟩
  have stops : (followingTests sourceTest later ++ (";".toList ++ rest)).head?.any
      (CharClass.union .word (.only '.')).contains = false := by
    rcases later with _ | ⟨⟨_ | _, test⟩, later⟩ <;> rfl
  have inStatement : ∀ character ∈ first.tested, character ∉ ['=', ';', '\r', '\n'] := by
    intro character isMember isMark
    have outside : ['=', ';', '\r', '\n'].all (!testClass.contains ·) = true := by decide
    have isOutside := List.all_eq_true.mp outside character isMark
    exact not_mem_of_testClass (testClass_of_dotted first.isTested)
      ((Bool.not_eq_true' _).mp isOutside) isMember
  have found := @replaces_inAssignment (front.getLast?.or none) _ _ _ _ _
    (isTarget.apart front sign rfl) gapIsBlank (fun _ => first.isTested.not_isBlank) inStatement
    first.isTested.1 (List.all_eq_true.mp first.isType.2) (fun _ => first.isType.not_isBlank)
    first.isType.1 stops
  have behindEq : followingTests sourceTest later ++ (";".toList ++ rest) =
      (followingTests sourceTest later ++ ";".toList) ++ rest := (List.append_assoc _ _ _).symm
  have unsigned : '=' ∉ followingTests sourceTest later ++ ";".toList :=
    List.not_mem_append (not_mem_of_testClass (testClass_following (by decide) later) (by decide))
      (by decide)
  have rewrites := @Edit.Rewrites.keepAll _ none front _ _
    (missesIn_target ?_ ?_) (Edit.Rewrites.replace found (.keepRest (missesIn_testInAssignment ?_)))
  · simpa [assignmentText, TypeTest.spelled, sourceTest, targetTest] using rewrites.run_eq
  · exact fun isMember => isTarget.unsigned (by simp [isMember])
  · have apart := isTarget.unsigned
    simp only [List.mem_append, List.mem_singleton, not_or] at apart
    simpa [eq_comm] using apart.2
  · rw [List.append_nil, behindEq]
    exact fun before tail => untested.of_mark unsigned

/-- Of several tests one is rewritten: the last one of a condition, the first one of an
assignment.  So all of them are rewritten only if there is just one. -/
theorem run_isToInstanceof_tests {rest : List Char} (untested : Untested rest) :
    (∀ (opening : List Char) (earlier : List (TypeTest × Connective)) (last : TypeTest),
      (opening = [] ∨ ∃ blank, Text.isBlank blank = true ∧ opening = [blank]) →
        isToInstanceof.run (conditionText opening earlier last rest sourceTest sourceTest) =
          conditionText [] earlier last rest sourceTest targetTest ∧
        (isToInstanceof.run (conditionText opening earlier last rest sourceTest sourceTest) =
          conditionText [] earlier last rest targetTest targetTest ↔ earlier = [])) ∧
    ∀ (target gap : List Char) (first : TypeTest) (later : List (Connective × TypeTest)),
      IsTarget target → (∀ character ∈ gap, Text.isBlank character = true) →
        isToInstanceof.run (assignmentText target gap first later rest sourceTest sourceTest) =
          assignmentText target [' '] first later rest targetTest sourceTest ∧
        (isToInstanceof.run (assignmentText target gap first later rest sourceTest sourceTest) =
          assignmentText target [' '] first later rest targetTest targetTest ↔ later = []) := by
  constructor
  · intro opening earlier last isOpening
    have run := run_conditionEdit untested isOpening earlier last
    have unsigned : '=' ∉ "if".toList ++ ("(".toList ++ (leadingTests sourceTest earlier ++
        last.spelled targetTest ++ ")".toList)) := by
      simp only [List.mem_append, not_or]
      exact ⟨by decide, by decide,
        ⟨not_mem_of_testClass (testClass_leading (by decide) earlier) (by decide),
          not_mem_of_testClass (testClass_spelled (by decide) last) (by decide)⟩, by decide⟩
    have stays : assignmentEdit.run (conditionText [] earlier last rest sourceTest targetTest) =
          conditionText [] earlier last rest sourceTest targetTest := by
      refine Edit.run_of_misses (missesIn_testInAssignment fun before tail split => ?_)
      refine untested.of_mark unsigned (Eq.trans ?_ split)
      simp [conditionText]
    rw [run_isToInstanceof_eq, run, stays]
    refine ⟨rfl, fun same => ?_, fun none => by rw [none]; rfl⟩
    have lengths := congrArg List.length same
    simp only [conditionText, List.length_append, length_leading] at lengths
    exact List.length_eq_zero_iff.mp (by omega)
  · intro target gap first later isTarget gapIsBlank
    have unopened : '(' ∉ target ++ ("=".toList ++ (gap ++ (first.spelled sourceTest ++
        followingTests sourceTest later ++ ";".toList))) := by
      simp only [List.mem_append, not_or]
      exact ⟨isTarget.unopened, by decide, fun inGap => absurd (gapIsBlank '(' inGap) (by decide),
        ⟨not_mem_of_testClass (testClass_spelled (by decide) first) (by decide),
          not_mem_of_testClass (testClass_following (by decide) later) (by decide)⟩, by decide⟩
    have stays :
        conditionEdit.run (assignmentText target gap first later rest sourceTest sourceTest) =
          assignmentText target gap first later rest sourceTest sourceTest := by
      refine Edit.run_of_misses (missesIn_testInCondition fun before tail split => ?_)
      refine untested.of_mark unopened (Eq.trans ?_ split)
      simp [assignmentText]
    rw [run_isToInstanceof_eq, stays, run_assignmentEdit untested isTarget gapIsBlank first later]
    refine ⟨rfl, fun same => ?_, fun none => by rw [none]; rfl⟩
    have lengths := congrArg List.length same
    simp only [assignmentText, List.length_append, length_following] at lengths
    exact List.length_eq_zero_iff.mp (by omega)

theorem run_isToInstanceof_tests_pair :
    Untested " {}".toList ∧
      isToInstanceof.run "if (a is A && b is B) {}".toList =
        "if(a is A && b instanceof B) {}".toList ∧
      isToInstanceof.run "ok = a is A || b is B; {}".toList =
        "ok = a instanceof A || b is B; {}".toList := by
  have untested : Untested " {}".toList := Untested.of_countP_le (by decide)
  have isTarget : IsTarget "ok ".toList := by
    refine ⟨by decide, by decide, by decide, fun front sign targetEq => ?_⟩
    obtain rfl : ' ' = sign := by simpa using congrArg List.getLast? targetEq
    decide
  exact ⟨untested,
    ((run_isToInstanceof_tests untested).1 [' '] [({ tested := ['a'], type := ['A'] }, .both)]
      { tested := ['b'], type := ['B'] } (Or.inr ⟨' ', by decide, rfl⟩)).1,
    ((run_isToInstanceof_tests untested).2 "ok ".toList [' '] { tested := ['a'], type := ['A'] }
      [(.either, { tested := ['b'], type := ['B'] })] isTarget
      (List.forall_mem_singleton.mpr (by decide))).1⟩

/-- The first of two tests in a condition stays as it is, and so does the second of two tests in
an assignment. -/
theorem run_isToInstanceof_keeps :
    isToInstanceof.run "if (a is A && b is B) {}".toList ≠
        "if(a instanceof A && b instanceof B) {}".toList ∧
      isToInstanceof.run "ok = a is A || b is B;".toList ≠
        "ok = a instanceof A || b instanceof B;".toList := by
  decide +kernel

end Normalize

end ScriptBridge

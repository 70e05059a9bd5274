import ScriptBridge.Proofs.Pattern.Replacing

/-!
# Whole words

A text is cut into pieces, each a word with the gap behind it, so that words never
touch.  A pattern that looks for whole words fits only where one of the pieces starts
with such a word; where no piece has one of its words, it misses the text.
-/

namespace ScriptBridge

/-- Equal texts that start with runs start with the same run, if both runs end. -/
theorem append_inj_of_runs {Item : Type} {inside : Item → Bool}
    {first second firstRest secondRest : List Item}
    (isFirst : first.all inside = true) (isSecond : second.all inside = true)
    (firstEnds : firstRest.head?.any inside = false)
    (secondEnds : secondRest.head?.any inside = false)
    (same : first ++ firstRest = second ++ secondRest) :
    first = second ∧ firstRest = secondRest := by
  induction first generalizing second with
  | nil =>
      cases second with
      | nil => exact ⟨rfl, same⟩
      | cons item second =>
          obtain rfl : firstRest = item :: (second ++ secondRest) := same
          simp_all
  | cons item first ih =>
      cases second with
      | nil =>
          obtain rfl : secondRest = item :: (first ++ firstRest) := same.symm
          simp_all
      | cons other second =>
          obtain ⟨rfl, sameTail⟩ := List.cons.inj same
          simp only [List.all_cons, Bool.and_eq_true] at isFirst isSecond
          obtain ⟨rfl, rfl⟩ := ih isFirst.2 isSecond.2 sameTail
          exact ⟨rfl, rfl⟩

namespace Text

/-- A code point that is found in a table lies in one of its ranges. -/
theorem CodeTable.exists_of_containsBetween {table : CodeTable} {code steps low high : Nat}
    (found : table.containsBetween code steps low high = true) :
    ∃ range ∈ table.toList, range.1 ≤ code ∧ code ≤ range.2 := by
  induction steps generalizing low high with
  | zero => simp [containsBetween] at found
  | succ steps ih =>
      rw [containsBetween] at found
      split at found
      · simp at found
      · rename_i first last here
        split at found
        · simp at found
        · split at found
          · exact ih found
          · split at found
            · exact ih found
            · exact ⟨(first, last), by simpa using Array.mem_of_getElem? here, by omega, by omega⟩

/-- No white space belongs to a word. -/
theorem isWord_of_isBlank {character : Char} (blank : isBlank character = true) :
    isWord character = false := by
  have codes : ∀ range ∈ (9, 13) :: blankTable.toList,
      ∀ code ∈ List.range' range.1 (range.2 + 1 - range.1), isWord (Char.ofNat code) = false := by
    decide +kernel
  have inRange : ∃ range ∈ (9, 13) :: blankTable.toList,
      range.1 ≤ character.toNat ∧ character.toNat ≤ range.2 := by
    rw [isBlank] at blank
    split at blank
    · simp only [Bool.or_eq_true, beq_iff_eq, Bool.and_eq_true, decide_eq_true_eq] at blank
      rcases blank with rfl | ⟨low, high⟩
      · exact ⟨(0x20, 0x20), by decide, by decide, by decide⟩
      · exact ⟨(9, 13), by simp, low, high⟩
    · obtain ⟨range, isRange, bounds⟩ := CodeTable.exists_of_containsBetween blank
      exact ⟨range, List.mem_cons_of_mem _ isRange, bounds⟩
  obtain ⟨range, isRange, low, high⟩ := inRange
  have code := codes range isRange character.toNat
    (by rw [List.mem_range'_1]; omega)
  rwa [Char.ofNat_toNat] at code

end Text

/-- A piece of a text: a word, which may be empty, and the characters behind it that
belong to no word. -/
structure SpacedWord where
  word : List Char
  gap : List Char
  isWord : word.all Text.isWord = true := by decide
  isSome : gap ≠ [] := by decide
  isGap : gap.all (!Text.isWord ·) = true := by decide

namespace SpacedWord

/-- The text of a piece. -/
def text (piece : SpacedWord) : List Char :=
  piece.word ++ piece.gap

/-- The text of several pieces. -/
def textOf (pieces : List SpacedWord) : List Char :=
  pieces.flatMap text

@[simp] theorem textOf_nil : textOf [] = [] := rfl

@[simp] theorem textOf_cons (piece : SpacedWord) (pieces : List SpacedWord) :
    textOf (piece :: pieces) = piece.word ++ (piece.gap ++ textOf pieces) := by
  simp [textOf, text]

@[simp] theorem textOf_append (first second : List SpacedWord) :
    textOf (first ++ second) = textOf first ++ textOf second :=
  List.flatMap_append

theorem head?_gap (piece : SpacedWord) (rest : List Char) :
    (piece.gap ++ rest).head?.any Text.isWord = false := by
  obtain ⟨word, gap, -, isSome, isGap⟩ := piece
  cases gap with
  | nil => exact absurd rfl isSome
  | cons character gap =>
      have inGap := List.all_eq_true.mp isGap character (by simp)
      simpa using inGap

theorem getLast?_gap (piece : SpacedWord) : piece.gap.getLast?.any Text.isWord = false := by
  obtain ⟨word, gap, -, isSome, isGap⟩ := piece
  cases last : gap.getLast? with
  | none => rfl
  | some character =>
      have inGap := List.all_eq_true.mp isGap character (List.mem_of_getLast? last)
      simpa using inGap

theorem getLast?_gap_or (piece : SpacedWord) (previous : Option Char) :
    piece.gap.getLast?.or previous = piece.gap.getLast? := by
  have isSome := piece.isSome
  cases last : piece.gap.getLast? with
  | none => exact absurd (List.getLast?_eq_none_iff.mp last) isSome
  | some character => rfl

/-- No word goes on behind pieces. -/
theorem getLast?_textOf {pieces : List SpacedWord} {previous : Option Char}
    (apart : previous.any Text.isWord = false) :
    ((textOf pieces).getLast?.or previous).any Text.isWord = false := by
  induction pieces generalizing previous with
  | nil => exact apart
  | cons piece pieces ih =>
      rw [textOf_cons, List.getLast?_append, List.getLast?_append, Option.or_assoc,
        Option.or_assoc]
      apply ih
      rw [getLast?_gap_or]
      exact piece.getLast?_gap

/-- A word that stands in a text of pieces as a whole is the word of a piece. -/
theorem exists_of_append {pieces : List SpacedWord} {before word after : List Char}
    (isSome : word ≠ []) (isWord : word.all Text.isWord = true)
    (split : textOf pieces = before ++ (word ++ after))
    (starts : before.getLast?.any Text.isWord = false)
    (ends : after.head?.any Text.isWord = false) :
    ∃ piece ∈ pieces, piece.word = word := by
  induction pieces generalizing before with
  | nil =>
      have none : word = [] := by
        simp only [textOf_nil, List.nil_eq, List.append_eq_nil_iff] at split
        exact split.2.1
      exact absurd none isSome
  | cons piece pieces ih =>
      rw [textOf_cons] at split
      rcases List.append_eq_append_iff.mp split with
        ⟨more, beforeEq, split⟩ | ⟨more, wordEq, split⟩
      · -- The word starts behind the word of the piece.
        rcases List.append_eq_append_iff.mp split with
          ⟨later, moreEq, split⟩ | ⟨later, gapEq, split⟩
        · have startsLater : later.getLast?.any Text.isWord = false := by
            cases last : later.getLast? with
            | none => rfl
            | some character =>
                rw [beforeEq, moreEq, List.getLast?_append, List.getLast?_append, last] at starts
                exact starts
          obtain ⟨found, isFound, same⟩ := ih split startsLater
          exact ⟨found, List.mem_cons_of_mem _ isFound, same⟩
        · cases later with
          | nil =>
              have splitRest : textOf pieces = [] ++ (word ++ after) := by
                simpa using split.symm
              obtain ⟨found, isFound, same⟩ := ih splitRest rfl
              exact ⟨found, List.mem_cons_of_mem _ isFound, same⟩
          | cons character later =>
              obtain ⟨first, word, rfl⟩ := List.exists_cons_of_ne_nil isSome
              obtain ⟨rfl, -⟩ := List.cons.inj split
              have inGap := List.all_eq_true.mp piece.isGap first (by simp [gapEq])
              simp_all
      · -- The word starts in the word of the piece, so it is that word.
        cases last : before.getLast? with
        | some character =>
            have inWord := List.all_eq_true.mp piece.isWord character
              (by simp [wordEq, List.mem_of_getLast? last])
            simp [last, inWord] at starts
        | none =>
            rw [List.getLast?_eq_none_iff.mp last, List.nil_append] at wordEq
            rw [← wordEq] at split
            exact ⟨piece, by simp,
              (append_inj_of_runs isWord piece.isWord ends (piece.head?_gap _) split).1.symm⟩

end SpacedWord

/-! ## Patterns of whole words -/

namespace Pattern

/-- Every match starts with one of the given words as a whole. -/
def StartsWith (pattern : Pattern) (words : List (List Char)) : Prop :=
  ∀ attempt way : Attempt, way ∈ pattern.ways attempt → ∃ word ∈ words, ∃ rest,
    attempt.cursor.after = word ++ rest ∧ attempt.cursor.previous.any Text.isWord = false ∧
      rest.head?.any Text.isWord = false

/-- Every match comes to one of the given words as a whole, perhaps behind some
characters that belong to no word. -/
def LeadsTo (pattern : Pattern) (words : List (List Char)) : Prop :=
  ∀ attempt way : Attempt, way ∈ pattern.ways attempt → ∃ word ∈ words, ∃ skipped rest,
    attempt.cursor.after = skipped ++ (word ++ rest) ∧
      (skipped.getLast?.or attempt.cursor.previous).any Text.isWord = false ∧
      rest.head?.any Text.isWord = false

theorem any_head?_word {word rest : List Char} (isSome : word ≠ [])
    (isWord : word.all Text.isWord = true) :
    (word ++ rest).head?.any Text.isWord = true := by
  obtain ⟨character, word, rfl⟩ := List.exists_cons_of_ne_nil isSome
  simp_all

/-- The given texts are words. -/
def AreWords (words : List (List Char)) : Prop :=
  ∀ word ∈ words, word ≠ [] ∧ word.all Text.isWord = true

instance (words : List (List Char)) : Decidable (AreWords words) :=
  List.decidableBAll (fun word => word ≠ [] ∧ word.all Text.isWord = true) words

theorem LeadsTo.missesIn {pattern : Pattern} {words : List (List Char)}
    {previous : Option Char} {pieces : List SpacedWord} (leads : pattern.LeadsTo words)
    (areWords : AreWords words) (apart : ∀ piece ∈ pieces, piece.word ∉ words) :
    pattern.MissesIn previous (SpacedWord.textOf pieces) [] := by
  intro before after position split _
  rw [List.eq_nil_iff_forall_not_mem]
  intro way isWay
  obtain ⟨word, isWord, skipped, rest, textEq, begins, ends⟩ := leads _ way isWay
  obtain rfl : after = skipped ++ (word ++ rest) := by simpa using textEq
  have startsWord : (before ++ skipped).getLast?.any Text.isWord = false := by
    rw [List.getLast?_append]
    cases skippedLast : skipped.getLast? with
    | some character => simpa [skippedLast] using begins
    | none =>
        cases last : before.getLast? with
        | some character => simpa [skippedLast, last] using begins
        | none => rfl
  obtain ⟨piece, isPiece, rfl⟩ := SpacedWord.exists_of_append (areWords word isWord).1
    (areWords word isWord).2 (by rw [split, List.append_assoc]) startsWord ends
  exact apart piece isPiece isWord

/-- No match starts with a character that belongs to no word. -/
theorem StartsWith.ways_eq_nil {pattern : Pattern} {words : List (List Char)}
    (starts : pattern.StartsWith words) (areWords : AreWords words) {character : Char}
    (outside : Text.isWord character = false) {position : Nat} {previous : Option Char}
    {rest : List Char} {groups : List Group} :
    pattern.ways ⟨⟨position, previous, character :: rest⟩, groups⟩ = [] := by
  rw [List.eq_nil_iff_forall_not_mem]
  intro way isWay
  obtain ⟨word, isWord, behind, textEq, -, -⟩ := starts _ way isWay
  have inWord : (word ++ behind).head?.any Text.isWord = true :=
    any_head?_word (areWords word isWord).1 (areWords word isWord).2
  rw [← textEq] at inWord
  have inWord : Text.isWord character = true := inWord
  simp [inWord] at outside

/-- No match starts at the end of a text. -/
theorem StartsWith.ways_nil {pattern : Pattern} {words : List (List Char)}
    (starts : pattern.StartsWith words) (areWords : AreWords words) (position : Nat)
    (previous : Option Char) (groups : List Group) :
    pattern.ways ⟨⟨position, previous, []⟩, groups⟩ = [] := by
  rw [List.eq_nil_iff_forall_not_mem]
  intro way isWay
  obtain ⟨word, isWord, rest, textEq, -, -⟩ := starts _ way isWay
  exact (areWords word isWord).1 (List.append_eq_nil_iff.mp textEq.symm).1

/-- A piece is missed where it is missed at its start: a word stands only there. -/
theorem StartsWith.missesIn_piece {pattern : Pattern} {words : List (List Char)}
    {previous : Option Char} {piece : SpacedWord} {rest : List Char}
    (starts : pattern.StartsWith words) (areWords : AreWords words)
    (atStart : ∀ position,
      pattern.ways ⟨⟨position, previous, piece.word ++ (piece.gap ++ rest)⟩, []⟩ = []) :
    pattern.MissesIn previous piece.text rest := by
  intro before after position split isSome
  rw [List.eq_nil_iff_forall_not_mem]
  intro way isWay
  obtain ⟨word, isWord, behind, textEq, begins, ends⟩ := starts _ way isWay
  obtain ⟨wordIsSome, wordAll⟩ := areWords word isWord
  rcases List.append_eq_append_iff.mp split with ⟨more, beforeEq, gapEq⟩ | ⟨more, wordEq, afterEq⟩
  · -- Behind the word of the piece no other word starts.
    obtain ⟨character, after, rfl⟩ := List.exists_cons_of_ne_nil isSome
    have inGap := List.all_eq_true.mp piece.isGap character (by simp [gapEq])
    rw [List.cons_append, starts.ways_eq_nil areWords (by simpa using inGap)] at isWay
    simp at isWay
  · cases last : before.getLast? with
    | some character =>
        have inWord := List.all_eq_true.mp piece.isWord character
          (by simp [wordEq, List.mem_of_getLast? last])
        simp [last, inWord] at begins
    | none =>
        obtain rfl := List.getLast?_eq_none_iff.mp last
        obtain rfl : piece.word = more := wordEq
        rw [afterEq, List.append_assoc] at isWay
        simp [atStart position] at isWay

/-- Pieces are missed if none of them has one of the words. -/
theorem StartsWith.missesIn {pattern : Pattern} {words : List (List Char)}
    {previous : Option Char} {pieces : List SpacedWord} {rest : List Char}
    (starts : pattern.StartsWith words) (areWords : AreWords words)
    (apart : ∀ piece ∈ pieces, piece.word ∉ words) :
    pattern.MissesIn previous (SpacedWord.textOf pieces) rest := by
  induction pieces generalizing previous with
  | nil => exact .nil
  | cons piece pieces ih =>
      refine MissesIn.append (starts.missesIn_piece areWords fun position => ?_)
        (ih fun other isOther => apart other (by simp [isOther]))
      rw [List.eq_nil_iff_forall_not_mem]
      intro way isWay
      obtain ⟨word, isWord, behind, textEq, -, ends⟩ := starts _ way isWay
      obtain ⟨rfl, -⟩ := append_inj_of_runs piece.isWord (areWords word isWord).2
        (piece.head?_gap _) ends textEq
      exact apart piece (by simp) isWord

/-- No way where a word goes on. -/
def FailsInWords (pattern : Pattern) : Prop :=
  ∀ attempt : Attempt, attempt.cursor.previous.any Text.isWord = true →
    attempt.cursor.after.head?.any Text.isWord = true → pattern.ways attempt = []

namespace FailsInWords

theorem sequence {first : Pattern} (fails : first.FailsInWords) (second : Pattern) :
    (Pattern.sequence first second).FailsInWords := by
  intro attempt inside goesOn
  simp [ways, fails attempt inside goesOn]

/-- A part that can take no word character leaves it to the next part. -/
theorem behind {first second : Pattern} (fails : second.FailsInWords)
    (stays : ∀ attempt way : Attempt, attempt.cursor.after.head?.any Text.isWord = true →
      way ∈ first.ways attempt → way.cursor = attempt.cursor) :
    (Pattern.sequence first second).FailsInWords := by
  intro attempt inside goesOn
  rw [List.eq_nil_iff_forall_not_mem]
  intro way isWay
  obtain ⟨middle, isMiddle, isWay⟩ := mem_ways_sequence.mp isWay
  have same := stays attempt middle goesOn isMiddle
  rw [fails middle (same ▸ inside) (same ▸ goesOn)] at isWay
  simp at isWay

theorem boundary : Pattern.boundary.FailsInWords := by
  intro attempt inside goesOn
  have contains : CharClass.word.contains = Text.isWord := rfl
  simp [Pattern.boundary, ways, Attempt.goOn, Cursor.stay?, Condition.holds,
    WordEdge.liesBetween, contains, inside, goesOn]

theorem literal {character : Char} {text : List Char}
    (outside : Text.isWord character = false) :
    (Pattern.literal (character :: text)).FailsInWords := by
  intro attempt _ goesOn
  rw [List.eq_nil_iff_forall_not_mem]
  intro way isWay
  obtain ⟨rest, afterEq, -⟩ := mem_ways_literal.mp isWay
  simp [afterEq, outside] at goesOn

theorem blanks : Pattern.blanks.FailsInWords := by
  intro attempt _ goesOn
  rw [List.eq_nil_iff_forall_not_mem]
  intro way isWay
  obtain ⟨text, rest, afterEq, allBlank, long, -⟩ := mem_ways_run.mp isWay
  cases text with
  | nil => simp at long
  | cons character text =>
      have blank : Text.isBlank character = true := allBlank character (by simp)
      simp [afterEq, Text.isWord_of_isBlank blank] at goesOn

theorem maybeBlanks {next : Pattern} (fails : next.FailsInWords) :
    (Pattern.sequence Pattern.maybeBlanks next).FailsInWords := by
  refine behind fails fun attempt way goesOn isWay => ?_
  obtain ⟨text, rest, afterEq, allBlank, -, rfl⟩ := mem_ways_run.mp isWay
  cases text with
  | nil =>
      obtain rfl : attempt.cursor.after = rest := afterEq
      exact attempt.cursor.past_nil
  | cons character text =>
      have blank : Text.isBlank character = true := allBlank character (by simp)
      simp [afterEq, Text.isWord_of_isBlank blank] at goesOn

theorem optionalBlank {next : Pattern} (fails : next.FailsInWords) :
    (Pattern.sequence (.optional (.one .blank)) next).FailsInWords := by
  refine behind fails fun attempt way goesOn isWay => ?_
  rcases mem_ways_choice.mp isWay with isBlank | isEmpty
  · obtain ⟨character, rest, afterEq, blank, -⟩ := mem_ways_one.mp isBlank
    have blank : Text.isBlank character = true := blank
    simp [afterEq, Text.isWord_of_isBlank blank] at goesOn
  · rw [mem_ways_empty.mp isEmpty]

end FailsInWords

/-- The pattern fits the given words and nothing else, and notes groups that depend on
where the word starts and stops. -/
def Picks (pattern : Pattern) (words : List (List Char)) (notes : Nat → Nat → List Group) :
    Prop :=
  ∀ attempt way : Attempt, way ∈ pattern.ways attempt ↔ ∃ word ∈ words, ∃ rest,
    attempt.cursor.after = word ++ rest ∧
      way = ⟨attempt.cursor.past word rest,
        notes attempt.cursor.position (attempt.cursor.position + word.length) ++
          attempt.groups⟩

namespace Picks

/-- Nothing is noted. -/
def noNotes (_start _stop : Nat) : List Group := []

/-- The word is noted as a group. -/
def asGroup (index start stop : Nat) : List Group := [⟨index, start, stop⟩]

theorem literal (word : List Char) : (Pattern.literal word).Picks [word] noNotes := by
  intro attempt way
  simp [mem_ways_literal, noNotes]

theorem anyOf (words : List (List Char)) :
    (Pattern.anyOf (words.map .literal)).Picks words noNotes := by
  intro attempt way
  induction words with
  | nil => simp [Pattern.anyOf, mem_ways_one, CharClass.contains]
  | cons word words ih =>
      cases words with
      | nil => exact literal word attempt way
      | cons other words =>
          rw [List.map_cons, List.map_cons, Pattern.anyOf, mem_ways_choice, literal word,
            ← List.map_cons, ih]
          · simp
          · simp

theorem group {pattern : Pattern} {words : List (List Char)} (picks : pattern.Picks words noNotes)
    (index : Nat) : (Pattern.group index pattern).Picks words (asGroup index) := by
  intro attempt way
  rw [mem_ways_group]
  constructor
  · rintro ⟨covered, isCovered, rfl⟩
    obtain ⟨word, isWord, rest, afterEq, rfl⟩ := (picks _ covered).mp isCovered
    exact ⟨word, isWord, rest, afterEq, rfl⟩
  · rintro ⟨word, isWord, rest, afterEq, rfl⟩
    exact ⟨_, (picks attempt _).mpr ⟨word, isWord, rest, afterEq, rfl⟩, rfl⟩

end Picks

theorem mem_ways_boundary {attempt way : Attempt} :
    way ∈ boundary.ways attempt ↔
      (attempt.cursor.previous.any Text.isWord ≠ attempt.cursor.after.head?.any Text.isWord) ∧
        way = attempt := by
  have contains : CharClass.word.contains = Text.isWord := rfl
  rw [boundary, mem_ways_condition]
  simp [Condition.holds, WordEdge.liesBetween, contains]

/-- At an edge the boundary fits in one way. -/
theorem ways_boundary_of_edge {attempt : Attempt}
    (edge : attempt.cursor.previous.any Text.isWord ≠ attempt.cursor.after.head?.any Text.isWord) :
    boundary.ways attempt = [attempt] := by
  have contains : CharClass.word.contains = Text.isWord := rfl
  have holds : (Condition.edge .boundary .word).holds attempt.cursor = true := by
    simpa [Condition.holds, WordEdge.liesBetween, contains] using edge
  simp [boundary, ways, Attempt.goOn, Cursor.stay?, holds]

/-- Behind a word the last character belongs to a word. -/
theorem previous_past_word {cursor : Cursor} {word rest : List Char} (isSome : word ≠ [])
    (isWord : word.all Text.isWord = true) :
    (cursor.past word rest).previous.any Text.isWord = true := by
  obtain ⟨character, last⟩ : ∃ character, word.getLast? = some character :=
    Option.isSome_iff_exists.mp (by simpa using isSome)
  rw [Cursor.past_previous, last]
  exact List.all_eq_true.mp isWord character (List.mem_of_getLast? last)

/-- Where a word starts, a pattern goes on behind it. -/
theorem ways_word {cursor : Cursor} {word rest : List Char} (isSome : word ≠ [])
    (isWord : word.all Text.isWord = true) (begins : cursor.previous.any Text.isWord = false)
    (afterEq : cursor.after = word ++ rest) (next : Pattern) (groups : List Group) :
    (sequence boundary (sequence (literal word) next)).ways ⟨cursor, groups⟩ =
      next.ways ⟨cursor.past word rest, groups⟩ := by
  have edge : cursor.previous.any Text.isWord ≠ cursor.after.head?.any Text.isWord := by
    rw [begins, afterEq, any_head?_word isSome isWord]
    exact Bool.false_ne_true
  have atEdge : boundary.ways ⟨cursor, groups⟩ = [⟨cursor, groups⟩] := ways_boundary_of_edge edge
  rw [ways_sequence_of_eq atEdge, ways_sequence_of_eq (ways_literal_of_eq afterEq groups)]

/-- A single space is a run of blanks. -/
theorem blank_space : ∀ character ∈ [' '], CharClass.blank.contains character :=
  List.forall_mem_singleton.mpr (by decide)

/-- A space in front of something else is covered. -/
theorem ways_space {cursor : Cursor} {rest : List Char}
    (stops : rest.head?.any Text.isBlank = false) (afterEq : cursor.after = [' '] ++ rest)
    (groups : List Group) :
    blanks.ways ⟨cursor, groups⟩ = [⟨cursor.past [' '] rest, groups⟩] :=
  @ways_run_of_eq .blank cursor [' '] rest blank_space stops afterEq groups

/-- A word between edges stands as a whole. -/
theorem Picks.startsWith {first second : Pattern} {words : List (List Char)}
    {notes : Nat → Nat → List Group} (picks : first.Picks words notes)
    (areWords : AreWords words) (fails : second.FailsInWords) :
    (sequence boundary (sequence first second)).StartsWith words := by
  intro attempt way isWay
  obtain ⟨_, isEdge, behindEdge⟩ := mem_ways_sequence.mp isWay
  obtain ⟨edge, rfl⟩ := mem_ways_boundary.mp isEdge
  obtain ⟨_, isFirst, behindFirst⟩ := mem_ways_sequence.mp behindEdge
  obtain ⟨word, isWord, rest, afterEq, rfl⟩ := (picks _ _).mp isFirst
  obtain ⟨wordSome, wordAll⟩ := areWords word isWord
  refine ⟨word, isWord, rest, afterEq, ?_, ?_⟩
  · rw [afterEq, any_head?_word wordSome wordAll] at edge
    simpa using edge
  · cases goesOn : rest.head?.any Text.isWord with
    | false => rfl
    | true =>
        rw [fails _ (previous_past_word wordSome wordAll) goesOn] at behindFirst
        simp at behindFirst

theorem StartsWith.sequence {first : Pattern} {words : List (List Char)}
    (starts : first.StartsWith words) (second : Pattern) :
    (Pattern.sequence first second).StartsWith words := by
  intro attempt way isWay
  obtain ⟨middle, isMiddle, -⟩ := mem_ways_sequence.mp isWay
  exact starts _ middle isMiddle

/-- The only member of a list is its first. -/
theorem head?_of_forall_eq {Item : Type} {items : List Item} {item other : Item}
    (isItem : other ∈ items) (same : ∀ other ∈ items, other = item) : items.head? = some item := by
  cases items with
  | nil => simp at isItem
  | cons first items => rw [List.head?_cons, same first (by simp)]

/-- The text of a group that is noted. -/
theorem group_of_find {found : Match} {index : Nat} (before covered : List Char)
    {rest : List Char} (textEq : found.start.after = before ++ (covered ++ rest))
    (isNoted : found.groups.find? (·.index == index) = some
      ⟨index, found.start.position + before.length,
        found.start.position + before.length + covered.length⟩) :
    found.group index = covered := by
  have lengthEq : found.start.position + before.length + covered.length -
      (found.start.position + before.length) = covered.length := by omega
  simp [Match.group, isNoted, textEq, lengthEq]

/-- The text of a group that is noted alone. -/
theorem group_of_note {found : Match} {index : Nat} (before covered : List Char)
    {rest : List Char} (textEq : found.start.after = before ++ (covered ++ rest))
    (groupsEq : found.groups = [⟨index, found.start.position + before.length,
      found.start.position + before.length + covered.length⟩]) :
    found.group index = covered :=
  group_of_find before covered textEq (by simp [groupsEq])

/-! ## Pairs of words -/

/-- Two words with white space between them. -/
def pair (first second : Pattern) : Pattern :=
  inOrder [boundary, first, blanks, second, boundary]

variable {first second : Pattern} {firsts seconds : List (List Char)}
  {firstNotes secondNotes : Nat → Nat → List Group}

theorem startsWith_pair (picksFirst : first.Picks firsts firstNotes)
    (areFirsts : AreWords firsts) : (pair first second).StartsWith firsts :=
  picksFirst.startsWith areFirsts (FailsInWords.blanks.sequence _)

/-- A way of a pair covers a first word, white space and a second word. -/
theorem of_mem_ways_pair (picksFirst : first.Picks firsts firstNotes)
    (picksSecond : second.Picks seconds secondNotes) (areSeconds : AreWords seconds)
    {attempt way : Attempt} (isWay : way ∈ (pair first second).ways attempt) :
    ∃ one ∈ firsts, ∃ other ∈ seconds, ∃ gap rest,
      attempt.cursor.after = one ++ (gap ++ (other ++ rest)) ∧ gap.all Text.isBlank = true ∧
        gap ≠ [] ∧ rest.head?.any Text.isWord = false ∧
        way = ⟨attempt.cursor.past (one ++ gap ++ other) rest,
          secondNotes (attempt.cursor.position + one.length + gap.length)
              (attempt.cursor.position + one.length + gap.length + other.length) ++
            (firstNotes attempt.cursor.position (attempt.cursor.position + one.length) ++
              attempt.groups)⟩ := by
  obtain ⟨_, isEdge, behindEdge⟩ := mem_ways_sequence.mp isWay
  obtain ⟨-, rfl⟩ := mem_ways_boundary.mp isEdge
  obtain ⟨_, isOne, behindOne⟩ := mem_ways_sequence.mp behindEdge
  obtain ⟨one, oneFirst, _, afterEq, rfl⟩ := (picksFirst _ _).mp isOne
  obtain ⟨_, isGap, behindGap⟩ := mem_ways_sequence.mp behindOne
  obtain ⟨gap, _, rfl, allBlank, long, rfl⟩ := mem_ways_run.mp isGap
  obtain ⟨_, isOther, behindOther⟩ := mem_ways_sequence.mp behindGap
  obtain ⟨other, otherSecond, rest, rfl, rfl⟩ := (picksSecond _ _).mp isOther
  obtain ⟨edge, rfl⟩ := mem_ways_boundary.mp behindOther
  refine ⟨one, oneFirst, other, otherSecond, gap, rest, afterEq, List.all_eq_true.mpr allBlank,
    List.length_pos_iff.mp long, ?_, ?_⟩
  · rw [previous_past_word (areSeconds other otherSecond).1 (areSeconds other otherSecond).2,
      Cursor.past_after] at edge
    cases goesOn : rest.head?.any Text.isWord with
    | false => rfl
    | true => exact absurd goesOn.symm edge
  · simp only [Cursor.past_past, Cursor.past_position, List.append_assoc, List.length_append,
      Nat.add_assoc]

/-- Where white space follows, no word goes on. -/
theorem any_head?_blanks {gap rest : List Char} (isBlank : gap.all Text.isBlank = true)
    (isSome : gap ≠ []) : (gap ++ rest).head?.any Text.isWord = false := by
  obtain ⟨character, gap, rfl⟩ := List.exists_cons_of_ne_nil isSome
  simp only [List.all_cons, Bool.and_eq_true] at isBlank
  exact Text.isWord_of_isBlank isBlank.1

/-- Behind white space no word goes on. -/
theorem any_getLast?_blanks {front gap : List Char} {previous : Option Char}
    (isBlank : gap.all Text.isBlank = true) (isSome : gap ≠ []) :
    ((front ++ gap).getLast?.or previous).any Text.isWord = false := by
  obtain ⟨gap, character, rfl⟩ := (List.eq_nil_or_concat gap).resolve_left isSome
  have blank := List.all_eq_true.mp isBlank character (by simp)
  rw [List.concat_eq_append, ← List.append_assoc, List.getLast?_concat, Option.some_or]
  exact Text.isWord_of_isBlank blank

/-- Where a word follows, white space does not go on. -/
theorem any_isBlank_head?_word {word rest : List Char} (isSome : word ≠ [])
    (isWord : word.all Text.isWord = true) :
    (word ++ rest).head?.any Text.isBlank = false := by
  obtain ⟨character, word, rfl⟩ := List.exists_cons_of_ne_nil isSome
  simp only [List.all_cons, Bool.and_eq_true] at isWord
  cases blank : Text.isBlank character with
  | false => exact blank
  | true => simp [Text.isWord_of_isBlank blank] at isWord

/-- Two words and the white space between them are known from their text. -/
theorem spaced_inj {one gap other rest one' gap' other' rest' : List Char}
    (oneIsWord : one.all Text.isWord = true) (oneIsWord' : one'.all Text.isWord = true)
    (gapIsBlank : gap.all Text.isBlank = true) (gapIsBlank' : gap'.all Text.isBlank = true)
    (gapIsSome : gap ≠ []) (gapIsSome' : gap' ≠ [])
    (otherIsSome : other ≠ []) (otherIsSome' : other' ≠ [])
    (otherIsWord : other.all Text.isWord = true) (otherIsWord' : other'.all Text.isWord = true)
    (ends : rest.head?.any Text.isWord = false) (ends' : rest'.head?.any Text.isWord = false)
    (same : one ++ (gap ++ (other ++ rest)) = one' ++ (gap' ++ (other' ++ rest'))) :
    one = one' ∧ gap = gap' ∧ other = other' ∧ rest = rest' := by
  obtain ⟨sameOne, gapsEq⟩ := append_inj_of_runs oneIsWord oneIsWord'
    (any_head?_blanks gapIsBlank gapIsSome) (any_head?_blanks gapIsBlank' gapIsSome') same
  obtain ⟨sameGap, othersEq⟩ := append_inj_of_runs gapIsBlank gapIsBlank'
    (any_isBlank_head?_word otherIsSome otherIsWord)
    (any_isBlank_head?_word otherIsSome' otherIsWord') gapsEq
  exact ⟨sameOne, sameGap, append_inj_of_runs otherIsWord otherIsWord' ends ends' othersEq⟩

/-- Where a word and white space stand, the pair is this word and the next one. -/
theorem pair_at (picksFirst : first.Picks firsts firstNotes)
    (picksSecond : second.Picks seconds secondNotes) (areFirsts : AreWords firsts)
    (areSeconds : AreWords seconds) {position : Nat} {previous : Option Char}
    {one gap other rest : List Char} (oneIsWord : one.all Text.isWord = true)
    (gapIsBlank : gap.all Text.isBlank = true) (gapIsSome : gap ≠ [])
    (otherIsSome : other ≠ []) (otherIsWord : other.all Text.isWord = true)
    (ends : rest.head?.any Text.isWord = false) {way : Attempt}
    (isWay : way ∈ (pair first second).ways
      ⟨⟨position, previous, one ++ (gap ++ (other ++ rest))⟩, []⟩) :
    one ∈ firsts ∧ other ∈ seconds ∧
      way = ⟨(⟨position, previous, one ++ (gap ++ (other ++ rest))⟩ : Cursor).past
          (one ++ gap ++ other) rest,
        secondNotes (position + one.length + gap.length)
            (position + one.length + gap.length + other.length) ++
          (firstNotes position (position + one.length) ++ [])⟩ := by
  obtain ⟨one', oneFirst, other', otherSecond, gap', rest', afterEq, blank', some', ends', rfl⟩ :=
    of_mem_ways_pair picksFirst picksSecond areSeconds isWay
  obtain ⟨otherIsSome', otherIsWord'⟩ := areSeconds other' otherSecond
  obtain ⟨rfl, rfl, rfl, rfl⟩ := spaced_inj oneIsWord (areFirsts one' oneFirst).2 gapIsBlank
    blank' gapIsSome some' otherIsSome otherIsSome' otherIsWord otherIsWord' ends ends' afterEq
  exact ⟨oneFirst, otherSecond, rfl⟩

/-- A pair of one of the first words and one of the second words fits. -/
theorem exists_mem_ways_pair (picksFirst : first.Picks firsts firstNotes)
    (picksSecond : second.Picks seconds secondNotes) (areFirsts : AreWords firsts)
    (areSeconds : AreWords seconds) {position : Nat} {previous : Option Char}
    {one gap other rest : List Char} (oneFirst : one ∈ firsts) (otherSecond : other ∈ seconds)
    (gapIsBlank : gap.all Text.isBlank = true) (gapIsSome : gap ≠ [])
    (begins : previous.any Text.isWord = false) (ends : rest.head?.any Text.isWord = false) :
    ∃ way, way ∈ (pair first second).ways
      ⟨⟨position, previous, one ++ (gap ++ (other ++ rest))⟩, []⟩ := by
  obtain ⟨oneIsSome, oneIsWord⟩ := areFirsts one oneFirst
  obtain ⟨otherIsSome, otherIsWord⟩ := areSeconds other otherSecond
  refine ⟨_, mem_ways_sequence.mpr ⟨_, mem_ways_boundary.mpr ⟨?_, rfl⟩,
    mem_ways_sequence.mpr ⟨_, (picksFirst _ _).mpr ⟨one, oneFirst, _, rfl, rfl⟩,
    mem_ways_sequence.mpr ⟨_, mem_ways_run.mpr ⟨gap, _, rfl, List.all_eq_true.mp gapIsBlank,
      List.length_pos_iff.mpr gapIsSome, rfl⟩,
    mem_ways_sequence.mpr ⟨_, (picksSecond _ _).mpr ⟨other, otherSecond, rest, rfl, rfl⟩,
    mem_ways_boundary.mpr ⟨?_, rfl⟩⟩⟩⟩⟩⟩
  · rw [begins, any_head?_word oneIsSome oneIsWord]
    simp
  · simp only [Cursor.past_after]
    rw [previous_past_word otherIsSome otherIsWord, ends]
    simp

end Pattern

end ScriptBridge

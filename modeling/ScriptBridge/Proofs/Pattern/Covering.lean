import Mathlib.Data.List.Forall2
import ScriptBridge.Proofs.Pattern.Words

/-!
# Coverings

Each way of a pattern covers a stretch of the text and notes parts of it under numbers.
What a pattern covers is told here by the texts alone: the character before the stretch,
the stretch, the text behind it and the noted parts.  An edit then strikes stretches and
keeps the characters between them, whatever their positions are.
-/

namespace ScriptBridge

/-- A part of a text that is noted under a number. -/
structure NotedText where
  index : Nat
  text : List Char
  deriving DecidableEq

/-- The text that was noted last under a number, empty if there is none. -/
def notedUnder (index : Nat) (notes : List NotedText) : List Char :=
  match notes.find? (·.index == index) with
  | some note => note.text
  | none => []

/-- Whether a place between two texts is of a kind. -/
def Condition.holdsBetween (kind : Condition) (previous : Option Char) (after : List Char) :
    Bool :=
  kind.holds ⟨0, previous, after⟩

theorem Condition.holds_eq_holdsBetween (kind : Condition) (cursor : Cursor) :
    kind.holds cursor = kind.holdsBetween cursor.previous cursor.after := by
  cases kind <;> rfl

namespace Pattern

/-- A pattern covers a stretch behind a character and in front of a text, and notes parts
of it, the last one first. -/
def Covers : Pattern → Option Char → List Char → List Char → List NotedText → Prop
  | .empty, _, covered, _, notes => covered = [] ∧ notes = []
  | .literal text, _, covered, _, notes => covered = text ∧ notes = []
  | .one members, _, covered, _, notes =>
      ∃ character, members.contains character = true ∧ covered = [character] ∧ notes = []
  | .run members least _, _, covered, _, notes =>
      (∀ character ∈ covered, members.contains character = true) ∧ least ≤ covered.length ∧
        notes = []
  | .chain members separator, _, covered, _, notes =>
      (∃ runs : List (List Char), (∀ run ∈ runs, run ≠ [] ∧
        ∀ character ∈ run, members.contains character = true) ∧
        covered = runs.flatMap (· ++ [separator])) ∧ notes = []
  | .condition kind, previous, covered, rest, notes =>
      kind.holdsBetween previous rest = true ∧ covered = [] ∧ notes = []
  | .sequence first second, previous, covered, rest, notes =>
      ∃ one other oneNotes otherNotes, covered = one ++ other ∧
        notes = otherNotes ++ oneNotes ∧
        first.Covers previous one (other ++ rest) oneNotes ∧
        second.Covers (one.getLast?.or previous) other rest otherNotes
  | .choice first second, previous, covered, rest, notes =>
      first.Covers previous covered rest notes ∨ second.Covers previous covered rest notes
  | .group index inner, previous, covered, rest, notes =>
      ∃ innerNotes, notes = ⟨index, covered⟩ :: innerNotes ∧
        inner.Covers previous covered rest innerNotes

end Pattern

/-- A remembered stretch is a noted part of the text that stands at a place. -/
def Group.Marks (start : Cursor) (group : Group) (note : NotedText) : Prop :=
  group.index = note.index ∧ ∃ before rest, start.after = before ++ (note.text ++ rest) ∧
    group.start = start.position + before.length ∧
    group.stop = start.position + before.length + note.text.length

/-- The runs of a chain, the first of which may have been started before. -/
theorem runs_of_mem_chainEnds {members : CharClass} {separator : Char} {inside : Bool}
    {position : Nat} (previous : Option Char) {after : List Char} {next : Cursor}
    (isEnd : next ∈ chainEnds members separator inside position [] after) :
    ∃ first runs rest, (inside = true ∨ first ≠ []) ∧
      (∀ run ∈ first :: runs, ∀ character ∈ run, members.contains character = true) ∧
      (∀ run ∈ runs, run ≠ []) ∧
      after = (first :: runs).flatMap (· ++ [separator]) ++ rest ∧
      next = (⟨position, previous, after⟩ : Cursor).past
        ((first :: runs).flatMap (· ++ [separator])) rest := by
  induction after generalizing inside position previous next with
  | nil => simp [chainEnds] at isEnd
  | cons character after ih =>
      simp only [chainEnds] at isEnd
      split at isEnd
      · rename_i isMember
        obtain ⟨first, runs, rest, -, allMembers, allSome, afterEq, rfl⟩ :=
          ih (some character) isEnd
        refine ⟨character :: first, runs, rest, Or.inr (by simp), ?_, allSome, ?_, ?_⟩
        · intro run isRun other isOther
          rcases List.mem_cons.mp isRun with rfl | isLater
          · rcases List.mem_cons.mp isOther with rfl | isOther
            · exact isMember
            · exact allMembers first (by simp) other isOther
          · exact allMembers run (by simp [isLater]) other isOther
        · rw [afterEq]
          rfl
        · rw [afterEq]
          exact (Cursor.past_cons _ _ _ _ _ _).symm
      · split at isEnd
        · rename_i ends
          obtain ⟨started, isSeparator⟩ := Bool.and_eq_true_iff.mp ends
          obtain rfl : character = separator := by simpa using isSeparator
          rw [chainEnds_gathered, List.mem_append, List.mem_singleton] at isEnd
          rcases isEnd with goesOn | rfl
          · obtain ⟨first, runs, rest, firstSome, allMembers, allSome, afterEq, rfl⟩ :=
              ih (some character) goesOn
            have firstSome : first ≠ [] := by simpa using firstSome
            refine ⟨[], first :: runs, rest, Or.inl started, ?_, ?_, ?_, ?_⟩
            · intro run isRun
              rcases List.mem_cons.mp isRun with rfl | isLater
              · simp
              · exact allMembers run isLater
            · exact List.forall_mem_cons.mpr ⟨firstSome, allSome⟩
            · rw [afterEq]
              rfl
            · rw [afterEq]
              exact (Cursor.past_cons _ _ _ _ _ _).symm
          · exact ⟨[], [], after, Or.inl started, by simp, by simp, rfl, rfl⟩
        · simp at isEnd

namespace Pattern

/-- Each way covers what its pattern covers, and its groups mark what is noted. -/
theorem covers_of_mem_ways (pattern : Pattern) {start : Cursor} {before after : List Char}
    {groups : List Group} {way : Attempt} (startEq : start.after = before ++ after)
    (isWay : way ∈ pattern.ways ⟨start.past before after, groups⟩) :
    ∃ covered rest marked notes, after = covered ++ rest ∧
      way = ⟨start.past (before ++ covered) rest, marked ++ groups⟩ ∧
      List.Forall₂ (Group.Marks start) marked notes ∧
      pattern.Covers (before.getLast?.or start.previous) covered rest notes := by
  induction pattern generalizing before after groups way with
  | empty =>
      obtain rfl := mem_ways_empty.mp isWay
      exact ⟨[], after, [], [], rfl, by simp, .nil, rfl, rfl⟩
  | literal text =>
      obtain ⟨rest, afterEq, rfl⟩ := mem_ways_literal.mp isWay
      exact ⟨text, rest, [], [], afterEq, by simp, .nil, rfl, rfl⟩
  | one members =>
      obtain ⟨character, rest, afterEq, isMember, rfl⟩ := mem_ways_one.mp isWay
      exact ⟨[character], rest, [], [], afterEq, by simp, .nil, character, isMember, rfl, rfl⟩
  | run members least greedy =>
      obtain ⟨text, rest, afterEq, allMembers, longEnough, rfl⟩ := mem_ways_run.mp isWay
      exact ⟨text, rest, [], [], afterEq, by simp, .nil, allMembers, longEnough, rfl⟩
  | chain members separator =>
      simp only [ways, List.mem_map] at isWay
      obtain ⟨next, isEnd, rfl⟩ := isWay
      rw [chainEnds_gathered, List.mem_append, List.mem_singleton] at isEnd
      rcases isEnd with isEnd | rfl
      · obtain ⟨first, runs, rest, firstSome, allMembers, allSome, afterEq, rfl⟩ :=
          runs_of_mem_chainEnds (start.past before after).previous isEnd
        have afterEq : after = (first :: runs).flatMap (· ++ [separator]) ++ rest := afterEq
        have allSome : ∀ run ∈ first :: runs, run ≠ [] :=
          List.forall_mem_cons.mpr ⟨by simpa using firstSome, allSome⟩
        refine ⟨_, rest, [], [], afterEq, ?_, .nil,
          ⟨first :: runs, fun run isRun => ⟨allSome run isRun, allMembers run isRun⟩, rfl⟩, rfl⟩
        rw [List.nil_append, ← Cursor.past_past start before _ after rest]
      · exact ⟨[], after, [], [], rfl, by simp, .nil, ⟨[], by simp, rfl⟩, rfl⟩
  | condition kind =>
      obtain ⟨holds, rfl⟩ := mem_ways_condition.mp isWay
      rw [kind.holds_eq_holdsBetween] at holds
      exact ⟨[], after, [], [], rfl, by simp, .nil, holds, rfl, rfl⟩
  | sequence first second firstIh secondIh =>
      obtain ⟨_, isFirst, isSecond⟩ := mem_ways_sequence.mp isWay
      obtain ⟨one, _, oneMarked, oneNotes, rfl, rfl, oneMarks, oneCovers⟩ :=
        firstIh startEq isFirst
      rw [← List.append_assoc] at startEq
      obtain ⟨other, rest, otherMarked, otherNotes, rfl, rfl, otherMarks, otherCovers⟩ :=
        secondIh startEq isSecond
      refine ⟨one ++ other, rest, otherMarked ++ oneMarked, otherNotes ++ oneNotes, ?_, ?_,
        List.rel_append otherMarks oneMarks, one, other, oneNotes, otherNotes, rfl, rfl,
        oneCovers, ?_⟩
      · rw [List.append_assoc]
      · simp only [List.append_assoc]
      · rw [List.getLast?_append, Option.or_assoc] at otherCovers
        exact otherCovers
  | choice first second firstIh secondIh =>
      rcases mem_ways_choice.mp isWay with isFirst | isSecond
      · obtain ⟨covered, rest, marked, notes, afterEq, wayEq, marks, covers⟩ :=
          firstIh startEq isFirst
        exact ⟨covered, rest, marked, notes, afterEq, wayEq, marks, Or.inl covers⟩
      · obtain ⟨covered, rest, marked, notes, afterEq, wayEq, marks, covers⟩ :=
          secondIh startEq isSecond
        exact ⟨covered, rest, marked, notes, afterEq, wayEq, marks, Or.inr covers⟩
  | group index inner ih =>
      obtain ⟨_, isInner, rfl⟩ := mem_ways_group.mp isWay
      obtain ⟨covered, rest, marked, notes, rfl, rfl, marks, covers⟩ := ih startEq isInner
      refine ⟨covered, rest, ⟨index, start.position + before.length,
        start.position + (before ++ covered).length⟩ :: marked, ⟨index, covered⟩ :: notes, rfl,
        rfl, .cons ⟨rfl, before, rest, startEq, rfl, ?_⟩ marks, notes, rfl, covers⟩
      simp only [List.length_append, Nat.add_assoc]

/-! ### Parts in front of others -/

section Parts

variable {next : Pattern} {previous : Option Char} {covered rest : List Char}
  {notes : List NotedText}

@[simp] theorem covers_text {word : String} :
    (text word).Covers previous covered rest notes ↔ covered = word.toList ∧ notes = [] :=
  Iff.rfl

@[simp] theorem covers_one {members : CharClass} :
    (one members).Covers previous covered rest notes ↔
      ∃ character, members.contains character = true ∧ covered = [character] ∧ notes = [] :=
  Iff.rfl

@[simp] theorem covers_empty :
    Pattern.empty.Covers previous covered rest notes ↔ covered = [] ∧ notes = [] :=
  Iff.rfl

@[simp] theorem covers_choice {first second : Pattern} :
    (choice first second).Covers previous covered rest notes ↔
      first.Covers previous covered rest notes ∨ second.Covers previous covered rest notes :=
  Iff.rfl

@[simp] theorem covers_group {index : Nat} {inner : Pattern} :
    (group index inner).Covers previous covered rest notes ↔
      ∃ innerNotes, notes = ⟨index, covered⟩ :: innerNotes ∧
        inner.Covers previous covered rest innerNotes :=
  Iff.rfl

@[simp] theorem covers_run {members : CharClass} {least : Nat} {greedy : Bool} :
    (run members least greedy).Covers previous covered rest notes ↔
      covered.all members.contains = true ∧ least ≤ covered.length ∧ notes = [] := by
  rw [List.all_eq_true]
  exact Iff.rfl

/-- Two parts cover one stretch after the other. -/
theorem covers_sequence {first second : Pattern} :
    (sequence first second).Covers previous covered rest notes ↔
      ∃ one other oneNotes otherNotes, covered = one ++ other ∧
        notes = otherNotes ++ oneNotes ∧
        first.Covers previous one (other ++ rest) oneNotes ∧
        second.Covers (one.getLast?.or previous) other rest otherNotes :=
  Iff.rfl

@[simp] theorem covers_boundary :
    boundary.Covers previous covered rest notes ↔
      previous.any Text.isWord ≠ rest.head?.any Text.isWord ∧ covered = [] ∧ notes = [] := by
  have contains : CharClass.word.contains = Text.isWord := rfl
  simp [boundary, Covers, Condition.holdsBetween, Condition.holds, WordEdge.liesBetween, contains]

theorem covers_condition {kind : Condition} :
    (condition kind).Covers previous covered rest notes ↔
      kind.holdsBetween previous rest = true ∧ covered = [] ∧ notes = [] :=
  Iff.rfl

theorem covers_condition_sequence {kind : Condition} :
    (sequence (condition kind) next).Covers previous covered rest notes ↔
      kind.holdsBetween previous (covered ++ rest) = true ∧
        next.Covers previous covered rest notes := by
  rw [covers_sequence]
  constructor
  · rintro ⟨one, other, oneNotes, otherNotes, rfl, rfl, ⟨holds, rfl, rfl⟩, covers⟩
    rw [List.append_nil]
    exact ⟨holds, covers⟩
  · rintro ⟨holds, covers⟩
    exact ⟨[], covered, [], notes, rfl, (List.append_nil _).symm, ⟨holds, rfl, rfl⟩, covers⟩

@[simp] theorem covers_boundary_sequence :
    (sequence boundary next).Covers previous covered rest notes ↔
      previous.any Text.isWord ≠ (covered ++ rest).head?.any Text.isWord ∧
        next.Covers previous covered rest notes := by
  have contains : CharClass.word.contains = Text.isWord := rfl
  rw [boundary, covers_condition_sequence]
  simp [Condition.holdsBetween, Condition.holds, WordEdge.liesBetween, contains]

theorem covers_literal_sequence {word : List Char} :
    (sequence (literal word) next).Covers previous covered rest notes ↔
      ∃ other, covered = word ++ other ∧
        next.Covers (word.getLast?.or previous) other rest notes := by
  rw [covers_sequence]
  constructor
  · rintro ⟨_, other, _, otherNotes, rfl, rfl, ⟨rfl, rfl⟩, covers⟩
    rw [List.append_nil]
    exact ⟨other, rfl, covers⟩
  · rintro ⟨other, rfl, covers⟩
    exact ⟨_, other, [], notes, rfl, (List.append_nil _).symm, ⟨rfl, rfl⟩, covers⟩

@[simp] theorem covers_text_sequence {word : String} :
    (sequence (text word) next).Covers previous covered rest notes ↔
      ∃ other, covered = word.toList ++ other ∧
        next.Covers (word.toList.getLast?.or previous) other rest notes :=
  covers_literal_sequence

@[simp] theorem covers_one_sequence {members : CharClass} :
    (sequence (one members) next).Covers previous covered rest notes ↔
      ∃ character other, members.contains character = true ∧ covered = character :: other ∧
        next.Covers (some character) other rest notes := by
  rw [covers_sequence]
  constructor
  · rintro ⟨_, other, _, otherNotes, rfl, rfl, ⟨character, isMember, rfl, rfl⟩, covers⟩
    rw [List.append_nil]
    exact ⟨character, other, isMember, rfl, covers⟩
  · rintro ⟨character, other, isMember, rfl, covers⟩
    exact ⟨[character], other, [], notes, rfl, (List.append_nil _).symm,
      ⟨character, isMember, rfl, rfl⟩, covers⟩

@[simp] theorem covers_run_sequence {members : CharClass} {least : Nat} {greedy : Bool} :
    (sequence (run members least greedy) next).Covers previous covered rest notes ↔
      ∃ run other, run.all members.contains = true ∧ least ≤ run.length ∧
        covered = run ++ other ∧ next.Covers (run.getLast?.or previous) other rest notes := by
  rw [covers_sequence]
  constructor
  · rintro ⟨stretch, other, _, otherNotes, rfl, rfl, isRun, covers⟩
    obtain ⟨allMembers, long, rfl⟩ := covers_run.mp isRun
    rw [List.append_nil]
    exact ⟨stretch, other, allMembers, long, rfl, covers⟩
  · rintro ⟨stretch, other, allMembers, long, rfl, covers⟩
    exact ⟨stretch, other, [], notes, rfl, (List.append_nil _).symm,
      covers_run.mpr ⟨allMembers, long, rfl⟩, covers⟩

theorem covers_oneOrMore {members : CharClass} :
    (oneOrMore members).Covers previous covered rest notes ↔
      covered.all members.contains = true ∧ covered ≠ [] ∧ notes = [] := by
  rw [oneOrMore, covers_run, ← List.length_pos_iff]
  exact Iff.rfl

theorem covers_oneOrMore_sequence {members : CharClass} :
    (sequence (oneOrMore members) next).Covers previous covered rest notes ↔
      ∃ run other, run.all members.contains = true ∧ run ≠ [] ∧ covered = run ++ other ∧
        next.Covers (run.getLast?.or previous) other rest notes := by
  simp only [oneOrMore, covers_run_sequence, ← List.length_pos_iff]
  exact Iff.rfl

@[simp] theorem covers_words :
    (oneOrMore .word).Covers previous covered rest notes ↔
      covered.all Text.isWord = true ∧ covered ≠ [] ∧ notes = [] :=
  covers_oneOrMore

@[simp] theorem covers_words_sequence :
    (sequence (oneOrMore .word) next).Covers previous covered rest notes ↔
      ∃ word other, word.all Text.isWord = true ∧ word ≠ [] ∧ covered = word ++ other ∧
        next.Covers (word.getLast?.or previous) other rest notes :=
  covers_oneOrMore_sequence

@[simp] theorem covers_blanks :
    blanks.Covers previous covered rest notes ↔
      covered.all Text.isBlank = true ∧ covered ≠ [] ∧ notes = [] :=
  covers_oneOrMore

@[simp] theorem covers_blanks_sequence :
    (sequence blanks next).Covers previous covered rest notes ↔
      ∃ gap other, gap.all Text.isBlank = true ∧ gap ≠ [] ∧ covered = gap ++ other ∧
        next.Covers (gap.getLast?.or previous) other rest notes :=
  covers_oneOrMore_sequence

@[simp] theorem covers_maybeBlanks :
    maybeBlanks.Covers previous covered rest notes ↔
      covered.all Text.isBlank = true ∧ notes = [] := by
  simp only [maybeBlanks, zeroOrMore, covers_run, Nat.zero_le, true_and]
  exact Iff.rfl

@[simp] theorem covers_maybeBlanks_sequence :
    (sequence maybeBlanks next).Covers previous covered rest notes ↔
      ∃ gap other, gap.all Text.isBlank = true ∧ covered = gap ++ other ∧
        next.Covers (gap.getLast?.or previous) other rest notes := by
  simp only [maybeBlanks, zeroOrMore, covers_run_sequence, Nat.zero_le, true_and]
  exact Iff.rfl

@[simp] theorem covers_group_sequence {index : Nat} {inner : Pattern} :
    (sequence (group index inner) next).Covers previous covered rest notes ↔
      ∃ one other oneNotes otherNotes, covered = one ++ other ∧
        notes = otherNotes ++ ⟨index, one⟩ :: oneNotes ∧
        inner.Covers previous one (other ++ rest) oneNotes ∧
        next.Covers (one.getLast?.or previous) other rest otherNotes := by
  rw [covers_sequence]
  constructor
  · rintro ⟨one, other, _, otherNotes, rfl, rfl, ⟨oneNotes, rfl, inside⟩, covers⟩
    exact ⟨one, other, oneNotes, otherNotes, rfl, rfl, inside, covers⟩
  · rintro ⟨one, other, oneNotes, otherNotes, rfl, rfl, inside, covers⟩
    exact ⟨one, other, _, otherNotes, rfl, rfl, ⟨oneNotes, rfl, inside⟩, covers⟩

@[simp] theorem covers_optional_sequence {pattern : Pattern} :
    (sequence (optional pattern) next).Covers previous covered rest notes ↔
      (sequence pattern next).Covers previous covered rest notes ∨
        next.Covers previous covered rest notes := by
  simp only [optional, covers_sequence, covers_choice, covers_empty]
  constructor
  · rintro ⟨one, other, oneNotes, otherNotes, rfl, rfl, covers | ⟨rfl, rfl⟩, behind⟩
    · exact Or.inl ⟨one, other, oneNotes, otherNotes, rfl, rfl, covers, behind⟩
    · right
      rw [List.append_nil]
      exact behind
  · rintro (⟨one, other, oneNotes, otherNotes, rfl, rfl, covers, behind⟩ | behind)
    · exact ⟨one, other, oneNotes, otherNotes, rfl, rfl, Or.inl covers, behind⟩
    · exact ⟨[], covered, [], notes, rfl, (List.append_nil _).symm, Or.inr ⟨rfl, rfl⟩, behind⟩

/-- The numbers under which a pattern notes parts. -/
def groupIndices : Pattern → List Nat
  | .sequence first second => first.groupIndices ++ second.groupIndices
  | .choice first second => first.groupIndices ++ second.groupIndices
  | .group index inner => index :: inner.groupIndices
  | _ => []

/-- Notes are made by groups only. -/
theorem index_mem_groupIndices {pattern : Pattern}
    (covers : pattern.Covers previous covered rest notes) :
    ∀ note ∈ notes, note.index ∈ pattern.groupIndices := by
  induction pattern generalizing previous covered rest notes with
  | empty => simp [covers.2]
  | literal text => simp [covers.2]
  | one members =>
      obtain ⟨_, _, _, rfl⟩ := covers
      simp
  | run members least greedy => simp [covers.2.2]
  | chain members separator => simp [covers.2]
  | condition kind => simp [covers.2.2]
  | sequence first second firstIh secondIh =>
      obtain ⟨_, _, _, _, -, rfl, inFirst, inSecond⟩ := covers
      intro note isNote
      rw [groupIndices, List.mem_append]
      rcases List.mem_append.mp isNote with isSecond | isFirst
      · exact Or.inr (secondIh inSecond note isSecond)
      · exact Or.inl (firstIh inFirst note isFirst)
  | choice first second firstIh secondIh =>
      intro note isNote
      rw [groupIndices, List.mem_append]
      exact covers.imp (fun inFirst => firstIh inFirst note isNote)
        fun inSecond => secondIh inSecond note isNote
  | group index inner ih =>
      obtain ⟨_, rfl, inside⟩ := covers
      intro note isNote
      rw [groupIndices]
      rcases List.mem_cons.mp isNote with rfl | isInner
      · simp
      · exact List.mem_cons_of_mem _ (ih inside note isInner)

theorem notes_eq_nil {pattern : Pattern} (covers : pattern.Covers previous covered rest notes)
    (groupless : pattern.groupIndices = []) : notes = [] := by
  rw [List.eq_nil_iff_forall_not_mem]
  intro note isNote
  have isGroup := index_mem_groupIndices covers note isNote
  simp [groupless] at isGroup

/-- One of several words is covered. -/
theorem mem_of_covers_anyOf {words : List (List Char)}
    (covers : (anyOf (words.map literal)).Covers previous covered rest notes) :
    covered ∈ words ∧ notes = [] := by
  induction words with
  | nil =>
      obtain ⟨_, none, _⟩ := covers
      simp [CharClass.contains] at none
  | cons word words ih =>
      cases words with
      | nil =>
          obtain ⟨rfl, rfl⟩ := covers
          simp
      | cons other words =>
          rcases covers with ⟨rfl, rfl⟩ | covers
          · simp
          · exact ⟨List.mem_cons_of_mem _ (ih covers).1, (ih covers).2⟩

/-- Where a word starts, no word goes on. -/
theorem begins_of_edge {word : List Char} (isSome : word ≠ [])
    (isWord : word.all Text.isWord = true)
    (edge : previous.any Text.isWord ≠ (word ++ rest).head?.any Text.isWord) :
    previous.any Text.isWord = false := by
  rw [any_head?_word isSome isWord] at edge
  simpa using edge

/-- Where a mark follows, no word goes on. -/
theorem any_head?_mark {mark : Char} (outside : Text.isWord mark = false) :
    (mark :: rest).head?.any Text.isWord = false :=
  outside

/-- Where blanks follow, perhaps none, and then a mark, no word goes on. -/
theorem any_head?_maybeBlanks {gap : List Char} (isBlank : gap.all Text.isBlank = true)
    (ends : rest.head?.any Text.isWord = false) :
    (gap ++ rest).head?.any Text.isWord = false := by
  by_cases none : gap = []
  · rw [none]
    exact ends
  · exact any_head?_blanks isBlank none

/-- Where a word stops, no word goes on. -/
theorem ends_of_edge {word : List Char} (isSome : word ≠ [])
    (isWord : word.all Text.isWord = true)
    (edge : (word.getLast?.or previous).any Text.isWord ≠ rest.head?.any Text.isWord) :
    rest.head?.any Text.isWord = false := by
  have inWord := @previous_past_word ⟨0, previous, []⟩ word rest isSome isWord
  rw [Cursor.past_previous] at inWord
  rw [inWord] at edge
  simpa using edge.symm

end Parts

end Pattern

/-- The groups of a match are its notes. -/
theorem group_eq_notedUnder {found : Match} {notes : List NotedText}
    (marks : List.Forall₂ (Group.Marks found.start) found.groups notes) (index : Nat) :
    found.group index = notedUnder index notes := by
  obtain ⟨start, stop, groups⟩ := found
  change List.Forall₂ (Group.Marks start) groups notes at marks
  induction marks with
  | nil => rfl
  | @cons group note groups notes mark later ih =>
      obtain ⟨sameIndex, before, rest, startEq, startAt, stopAt⟩ := mark
      by_cases isHere : note.index = index
      · have isFirst : (group :: groups).find? (·.index == index) = some
            ⟨index, start.position + before.length,
              start.position + before.length + note.text.length⟩ := by
          rw [List.find?_cons_of_pos (by simp [sameIndex, isHere])]
          obtain ⟨_, _, _⟩ := group
          simp_all
        rw [Pattern.group_of_find before note.text startEq isFirst]
        simp [notedUnder, isHere]
      · have laterGroup : (group :: groups).find? (·.index == index) =
            groups.find? (·.index == index) :=
          List.find?_cons_of_neg (by simpa [sameIndex] using isHere)
        have laterNote : (note :: notes).find? (·.index == index) =
            notes.find? (·.index == index) :=
          List.find?_cons_of_neg (by simpa using isHere)
        simp only [Match.group, notedUnder, laterGroup, laterNote] at ih ⊢
        exact ih

/-- What a way covers stands at its place. -/
theorem Pattern.covers_of_way {pattern : Pattern} {attempt way : Attempt}
    (isWay : way ∈ pattern.ways attempt) :
    ∃ covered rest notes, attempt.cursor.after = covered ++ rest ∧
      pattern.Covers attempt.cursor.previous covered rest notes := by
  obtain ⟨cursor, groups⟩ := attempt
  rw [← cursor.past_nil] at isWay
  obtain ⟨covered, rest, -, notes, afterEq, -, -, covers⟩ :=
    covers_of_mem_ways pattern (List.nil_append _).symm isWay
  exact ⟨covered, rest, notes, afterEq, covers⟩

/-- Where a pattern covers nothing no way starts. -/
theorem Pattern.ways_eq_nil_of_not_covers {pattern : Pattern} {attempt : Attempt}
    (nothing : ∀ covered rest notes, attempt.cursor.after = covered ++ rest →
      ¬ pattern.Covers attempt.cursor.previous covered rest notes) :
    pattern.ways attempt = [] := by
  rw [List.eq_nil_iff_forall_not_mem]
  intro way isWay
  obtain ⟨covered, rest, notes, afterEq, covers⟩ := covers_of_way isWay
  exact nothing covered rest notes afterEq covers

/-- A match covers a stretch behind its place, and its groups are the notes. -/
theorem Pattern.covers_of_matchAt {pattern : Pattern} {place : Cursor} {found : Match}
    (isMatch : pattern.plainSearch.matchAt place = some found) :
    ∃ covered rest notes, place.after = covered ++ rest ∧ found.start = place ∧
      found.stop = place.past covered rest ∧
      pattern.Covers place.previous covered rest notes ∧
      ∀ index, found.group index = notedUnder index notes := by
  obtain ⟨way, isFirst, rfl⟩ := Option.map_eq_some_iff.mp isMatch
  have isWay : way ∈ pattern.ways ⟨place.past [] place.after, []⟩ := by
    rw [Cursor.past_nil]
    exact List.mem_of_mem_head? isFirst
  obtain ⟨covered, rest, marked, notes, afterEq, rfl, marks, covers⟩ :=
    pattern.covers_of_mem_ways (List.nil_append _).symm isWay
  refine ⟨covered, rest, notes, afterEq, rfl, rfl, covers, group_eq_notedUnder ?_⟩
  simpa using marks

/-- The first match in a text covers a stretch of it. -/
theorem Pattern.covers_of_find? {pattern : Pattern} {text : List Char} {found : Match}
    (isFound : pattern.find? text = some found) :
    ∃ before covered rest notes, text = before ++ (covered ++ rest) ∧
      found.start.position = before.length ∧ found.stop.after = rest ∧
      pattern.Covers before.getLast? covered rest notes ∧
      ∀ index, found.group index = notedUnder index notes := by
  rw [find?_eq_findSome?] at isFound
  obtain ⟨place, isPlace, isMatch⟩ := List.exists_of_findSome?_eq_some isFound
  obtain ⟨before, textEq, positionEq, previousEq⟩ := placesOf_liesIn text place isPlace
  obtain ⟨covered, rest, notes, afterEq, startEq, stopEq, covers, groupEq⟩ :=
    covers_of_matchAt isMatch
  refine ⟨before, covered, rest, notes, ?_, ?_, ?_, previousEq ▸ covers, groupEq⟩
  · rw [textEq, afterEq]
  · rw [startEq, positionEq]
  · rw [stopEq, Cursor.past_after]

/-! ## Strikes -/

/-- An edit strikes a stretch that its pattern covers and puts a new text in its place. -/
def Edit.Strikes (edit : Edit) (previous : Option Char) (covered rest new : List Char) : Prop :=
  ∃ notes found, edit.pattern.Covers previous covered rest notes ∧
    (∀ index, found.group index = notedUnder index notes) ∧ new = edit.replacement found

/-- A text becomes another one: some stretches are struck, the other characters stay. -/
inductive Struck (strikes : Option Char → List Char → List Char → List Char → Prop) :
    Option Char → List Char → List Char → Prop where
  | done (previous : Option Char) : Struck strikes previous [] []
  | keep {previous : Option Char} {rest out : List Char} (character : Char)
      (behind : Struck strikes (some character) rest out) :
      Struck strikes previous (character :: rest) (character :: out)
  | strike {previous : Option Char} {covered rest new out : List Char}
      (struck : strikes previous covered rest new)
      (behind : Struck strikes (covered.getLast?.or previous) rest out) :
      Struck strikes previous (covered ++ rest) (new ++ out)

namespace Struck

variable {strikes : Option Char → List Char → List Char → List Char → Prop}

theorem keepAll {previous : Option Char} {rest out : List Char} (stretch : List Char)
    (behind : Struck strikes (stretch.getLast?.or previous) rest out) :
    Struck strikes previous (stretch ++ rest) (stretch ++ out) := by
  induction stretch generalizing previous with
  | nil => exact behind
  | cons character stretch ih =>
      rw [getLast?_cons_or] at behind
      exact .keep character (ih behind)

theorem refl (previous : Option Char) (text : List Char) : Struck strikes previous text text := by
  have nothing : Struck strikes (text.getLast?.or previous) [] [] := .done _
  simpa using keepAll text nothing

theorem mono {others : Option Char → List Char → List Char → List Char → Prop}
    {previous : Option Char} {text out : List Char}
    (weaker : ∀ previous covered rest new,
      strikes previous covered rest new → others previous covered rest new)
    (struck : Struck strikes previous text out) : Struck others previous text out := by
  induction struck with
  | done previous => exact .done previous
  | keep character behind ih => exact .keep character ih
  | strike here behind ih => exact .strike (weaker _ _ _ _ here) ih

end Struck

end ScriptBridge

import ScriptBridge.Proofs.Pattern.Covering

/-!
# Where a pattern fits

What a pattern covers is also covered by one of its ways, wherever the stretch lies.  Some
characters can be told to stand in no match from the pattern alone, and what a match notes
stands in it.
-/

namespace ScriptBridge

/-- The first run of a chain may have been started before. -/
theorem mem_chainEnds_flatMap {members : CharClass} {separator : Char}
    (outside : members.contains separator = false) {runs : List (List Char)}
    (areRuns : ∀ run ∈ runs, run ≠ [] ∧ ∀ character ∈ run, members.contains character = true)
    (isSome : runs ≠ []) (position : Nat) (previous : Option Char) (rest : List Char) :
    (⟨position, previous, runs.flatMap (· ++ [separator]) ++ rest⟩ : Cursor).past
        (runs.flatMap (· ++ [separator])) rest ∈
      chainEnds members separator false position []
        (runs.flatMap (· ++ [separator]) ++ rest) := by
  induction runs generalizing position previous with
  | nil => exact absurd rfl isSome
  | cons run runs ih =>
      obtain ⟨runIsSome, inRun⟩ := areRuns run (by simp)
      have textEq : (run :: runs).flatMap (· ++ [separator]) ++ rest =
          run ++ separator :: (runs.flatMap (· ++ [separator]) ++ rest) := by
        simp
      rw [textEq]
      refine mem_chainEnds_append inRun (Or.inr runIsSome) outside ?_
      by_cases isLast : runs = []
      · left
        subst isLast
        simp [Cursor.past, Nat.add_assoc]
      · right
        have later := ih (fun other isOther => areRuns other (by simp [isOther])) isLast
          (position + run.length + 1) (some separator)
        have moved : (⟨position, previous, run ++ separator ::
            (runs.flatMap (· ++ [separator]) ++ rest)⟩ : Cursor).past (run ++ [separator])
              (runs.flatMap (· ++ [separator]) ++ rest) =
            ⟨position + run.length + 1, some separator,
              runs.flatMap (· ++ [separator]) ++ rest⟩ := by
          simp [Cursor.past, Nat.add_assoc]
        rw [List.flatMap_cons,
          ← Cursor.past_past _ _ _ (runs.flatMap (· ++ [separator]) ++ rest), moved]
        exact later

namespace Pattern

/-- Every chain of a pattern is made of characters that are not its separator. -/
def chainsApart : Pattern → Bool
  | .chain members separator => !members.contains separator
  | .sequence first second => first.chainsApart && second.chainsApart
  | .choice first second => first.chainsApart && second.chainsApart
  | .group _ inner => inner.chainsApart
  | _ => true

/-- What a pattern covers is covered by one of its ways, wherever it lies. -/
theorem exists_way_of_covers (pattern : Pattern) (apart : pattern.chainsApart = true)
    {previous : Option Char} {covered rest : List Char} {notes : List NotedText}
    (covers : pattern.Covers previous covered rest notes) (position : Nat) (groups : List Group) :
    ∃ more, ⟨(⟨position, previous, covered ++ rest⟩ : Cursor).past covered rest, more⟩ ∈
      pattern.ways ⟨⟨position, previous, covered ++ rest⟩, groups⟩ := by
  induction pattern generalizing previous covered rest notes position groups with
  | empty =>
      obtain ⟨rfl, -⟩ := covers
      exact ⟨groups, mem_ways_empty.mpr (by simp [Cursor.past])⟩
  | literal text =>
      obtain ⟨rfl, -⟩ := covers
      exact ⟨groups, mem_ways_literal.mpr ⟨rest, rfl, rfl⟩⟩
  | one members =>
      obtain ⟨character, isMember, rfl, -⟩ := covers
      exact ⟨groups, mem_ways_one.mpr ⟨character, rest, rfl, isMember, rfl⟩⟩
  | run members least greedy =>
      obtain ⟨allMembers, long, -⟩ := covers
      exact ⟨groups, mem_ways_run.mpr ⟨covered, rest, rfl, allMembers, long, rfl⟩⟩
  | chain members separator =>
      obtain ⟨⟨runs, areRuns, rfl⟩, -⟩ := covers
      have outside : members.contains separator = false := by simpa [chainsApart] using apart
      refine ⟨groups, List.mem_map.mpr ⟨_, ?_, rfl⟩⟩
      rw [chainEnds_gathered, List.mem_append, List.mem_singleton]
      by_cases none : runs = []
      · subst none
        exact Or.inr (by simp [Cursor.past])
      · exact Or.inl (mem_chainEnds_flatMap outside areRuns none position previous rest)
  | condition kind =>
      obtain ⟨holds, rfl, -⟩ := covers
      refine ⟨groups, mem_ways_condition.mpr ⟨?_, by simp [Cursor.past]⟩⟩
      rw [kind.holds_eq_holdsBetween]
      exact holds
  | sequence first second firstIh secondIh =>
      simp only [chainsApart, Bool.and_eq_true] at apart
      obtain ⟨one, other, _, _, rfl, -, inFirst, inSecond⟩ := covers
      obtain ⟨middle, isFirst⟩ := firstIh apart.1 inFirst position groups
      obtain ⟨more, isSecond⟩ := secondIh apart.2 inSecond (position + one.length) middle
      refine ⟨more, mem_ways_sequence.mpr ⟨_, by simpa only [List.append_assoc] using isFirst, ?_⟩⟩
      rw [← Cursor.past_past _ one other (other ++ rest)]
      exact isSecond
  | choice first second firstIh secondIh =>
      simp only [chainsApart, Bool.and_eq_true] at apart
      rcases covers with inFirst | inSecond
      · obtain ⟨more, isWay⟩ := firstIh apart.1 inFirst position groups
        exact ⟨more, mem_ways_choice.mpr (Or.inl isWay)⟩
      · obtain ⟨more, isWay⟩ := secondIh apart.2 inSecond position groups
        exact ⟨more, mem_ways_choice.mpr (Or.inr isWay)⟩
  | group index inner ih =>
      obtain ⟨_, -, inside⟩ := covers
      obtain ⟨more, isWay⟩ := ih apart inside position groups
      exact ⟨_, mem_ways_group.mpr ⟨_, isWay, rfl⟩⟩

/-! ## Characters of a match -/

/-- No match of a pattern contains the given character. -/
def avoids (character : Char) : Pattern → Bool
  | .empty => true
  | .literal text => !text.contains character
  | .one members => !members.contains character
  | .run members _ _ => !members.contains character
  | .chain members separator => !members.contains character && separator != character
  | .condition _ => true
  | .sequence first second => first.avoids character && second.avoids character
  | .choice first second => first.avoids character && second.avoids character
  | .group _ inner => inner.avoids character

theorem Covers.not_mem {pattern : Pattern} {character : Char} {previous : Option Char}
    {covered rest : List Char} {notes : List NotedText}
    (covers : pattern.Covers previous covered rest notes)
    (avoids : pattern.avoids character = true) :
    character ∉ covered ∧ ∀ note ∈ notes, character ∉ note.text := by
  induction pattern generalizing previous covered rest notes with
  | empty => simp [covers.1, covers.2]
  | literal text =>
      obtain ⟨rfl, rfl⟩ := covers
      simpa [Pattern.avoids] using avoids
  | one members =>
      obtain ⟨other, isMember, rfl, rfl⟩ := covers
      have outside : members.contains character = false := by simpa [Pattern.avoids] using avoids
      refine ⟨fun isHere => ?_, by simp⟩
      rw [List.mem_singleton.mp isHere, isMember] at outside
      exact Bool.noConfusion outside
  | run members least greedy =>
      obtain ⟨allMembers, -, rfl⟩ := covers
      have outside : members.contains character = false := by simpa [Pattern.avoids] using avoids
      refine ⟨fun isHere => ?_, by simp⟩
      rw [allMembers character isHere] at outside
      exact Bool.noConfusion outside
  | chain members separator =>
      obtain ⟨⟨runs, areRuns, rfl⟩, rfl⟩ := covers
      simp only [Pattern.avoids, Bool.and_eq_true, Bool.not_eq_true', bne_iff_ne] at avoids
      refine ⟨fun isHere => ?_, by simp⟩
      obtain ⟨run, isRun, inRun⟩ := List.mem_flatMap.mp isHere
      rcases List.mem_append.mp inRun with inRun | isSeparator
      · have isMember := (areRuns run isRun).2 character inRun
        rw [avoids.1] at isMember
        exact Bool.noConfusion isMember
      · exact avoids.2 (List.mem_singleton.mp isSeparator).symm
  | condition kind => simp [covers.2.1, covers.2.2]
  | sequence first second firstIh secondIh =>
      simp only [Pattern.avoids, Bool.and_eq_true] at avoids
      obtain ⟨one, other, oneNotes, otherNotes, rfl, rfl, inFirst, inSecond⟩ := covers
      obtain ⟨notOne, notOneNotes⟩ := firstIh inFirst avoids.1
      obtain ⟨notOther, notOtherNotes⟩ := secondIh inSecond avoids.2
      refine ⟨by simp [notOne, notOther], fun note isNote => ?_⟩
      exact (List.mem_append.mp isNote).elim (notOtherNotes note) (notOneNotes note)
  | choice first second firstIh secondIh =>
      simp only [Pattern.avoids, Bool.and_eq_true] at avoids
      rcases covers with inFirst | inSecond
      · exact firstIh inFirst avoids.1
      · exact secondIh inSecond avoids.2
  | group index inner ih =>
      obtain ⟨innerNotes, rfl, inside⟩ := covers
      obtain ⟨notCovered, notNotes⟩ := ih inside avoids
      exact ⟨notCovered, List.forall_mem_cons.mpr ⟨notCovered, notNotes⟩⟩

/-- No note of a match contains a character that the pattern avoids. -/
theorem Covers.not_mem_noted {pattern : Pattern} {character : Char} {previous : Option Char}
    {covered rest : List Char} {notes : List NotedText}
    (covers : pattern.Covers previous covered rest notes)
    (avoids : pattern.avoids character = true) (index : Nat) :
    character ∉ notedUnder index notes := by
  rw [notedUnder]
  split
  · rename_i note isNote
    exact (covers.not_mem avoids).2 note (List.mem_of_find?_eq_some isNote)
  · simp

/-- What a match notes stands in it. -/
theorem Covers.mem_of_mem_noted {pattern : Pattern} {previous : Option Char}
    {covered rest : List Char} {notes : List NotedText}
    (covers : pattern.Covers previous covered rest notes) {character : Char} {index : Nat}
    (isNoted : character ∈ notedUnder index notes) : character ∈ covered := by
  suffices inNotes : ∀ note ∈ notes, ∀ character ∈ note.text, character ∈ covered by
    rw [notedUnder] at isNoted
    split at isNoted
    · rename_i note isNote
      exact inNotes note (List.mem_of_find?_eq_some isNote) character isNoted
    · cases isNoted
  clear isNoted
  induction pattern generalizing previous covered rest notes with
  | empty => simp [covers.2]
  | literal text => simp [covers.2]
  | one members =>
      obtain ⟨_, -, -, rfl⟩ := covers
      exact List.forall_mem_nil _
  | run members least greedy => simp [covers.2.2]
  | chain members separator => simp [covers.2]
  | condition kind => simp [covers.2.2]
  | sequence first second firstIh secondIh =>
      obtain ⟨one, other, oneNotes, otherNotes, rfl, rfl, inFirst, inSecond⟩ := covers
      intro note isNote character isMember
      rw [List.mem_append]
      exact (List.mem_append.mp isNote).symm.imp (firstIh inFirst note · character isMember)
        (secondIh inSecond note · character isMember)
  | choice first second firstIh secondIh => exact covers.elim firstIh secondIh
  | group index inner ih =>
      obtain ⟨innerNotes, rfl, inside⟩ := covers
      exact List.forall_mem_cons.mpr ⟨fun _ => id, ih inside⟩

end Pattern

/-! ## Edits -/

/-- A stretch that is covered gives way to its replacement, if nothing else is covered there. -/
theorem Edit.replaces_of_covers {edit : Edit} (apart : edit.pattern.chainsApart = true)
    {previous : Option Char} {covered rest new : List Char} {notes : List NotedText}
    (isSome : covered ≠ []) (covers : edit.pattern.Covers previous covered rest notes)
    (only : ∀ other behind otherNotes found, covered ++ rest = other ++ behind →
      edit.pattern.Covers previous other behind otherNotes →
      (∀ index, found.group index = notedUnder index otherNotes) →
        other = covered ∧ edit.replacement found = new) :
    edit.Replaces previous covered rest new := by
  refine ⟨isSome, fun position => ?_⟩
  obtain ⟨more, isWay⟩ := Pattern.exists_way_of_covers edit.pattern apart covers position []
  obtain ⟨way, first⟩ : ∃ way, (edit.pattern.ways
      ⟨⟨position, previous, covered ++ rest⟩, []⟩).head? = some way :=
    Option.ne_none_iff_exists'.mp fun none =>
      List.ne_nil_of_mem isWay (List.head?_eq_none_iff.mp none)
  have isMatch : edit.pattern.plainSearch.matchAt ⟨position, previous, covered ++ rest⟩ =
      some ⟨⟨position, previous, covered ++ rest⟩, way.cursor, way.groups⟩ := by
    simp [Searcher.matchAt, Pattern.plainSearch, first]
  obtain ⟨other, behind, otherNotes, afterEq, -, stopEq, otherCovers, groupEq⟩ :=
    Pattern.covers_of_matchAt isMatch
  obtain ⟨rfl, newEq⟩ := only other behind otherNotes _ afterEq otherCovers groupEq
  obtain rfl : rest = behind := List.append_cancel_left afterEq
  refine ⟨way.groups, ?_, ?_⟩
  · rw [first]
    exact congrArg some (congrArg (Attempt.mk · way.groups) stopEq)
  · rw [← newEq]
    exact congrArg (fun stop => edit.replacement ⟨_, stop, way.groups⟩) stopEq.symm

end ScriptBridge

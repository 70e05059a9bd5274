import ScriptBridge.Pattern.SearchLaws

/-!
# What the ways of a pattern cover

Each way of a pattern covers a stretch of the text that stands at its place.  For
every form of pattern, the stretches that it covers are described by the characters
they are made of, so that a way is known from the text alone.
-/

namespace ScriptBridge

/-- The last character of a text that starts with a character comes from the rest, unless
that is empty. -/
theorem getLast?_cons_or (character : Char) (text : List Char) (previous : Option Char) :
    (character :: text).getLast?.or previous = text.getLast?.or (some character) := by
  rw [List.getLast?_cons]
  cases text.getLast? <;> rfl

/-- The place behind a text that stands at a place, given what follows it. -/
def Cursor.past (cursor : Cursor) (text rest : List Char) : Cursor :=
  ⟨cursor.position + text.length, text.getLast?.or cursor.previous, rest⟩

namespace Cursor

@[simp] theorem past_after (cursor : Cursor) (text rest : List Char) :
    (cursor.past text rest).after = rest := rfl

@[simp] theorem past_position (cursor : Cursor) (text rest : List Char) :
    (cursor.past text rest).position = cursor.position + text.length := rfl

theorem past_previous (cursor : Cursor) (text rest : List Char) :
    (cursor.past text rest).previous = text.getLast?.or cursor.previous := rfl

theorem past_nil (cursor : Cursor) : cursor.past [] cursor.after = cursor := rfl

theorem past_cons (position : Nat) (previous : Option Char) (character : Char)
    (after text rest : List Char) :
    (⟨position, previous, after⟩ : Cursor).past (character :: text) rest =
      (⟨position + 1, some character, text ++ rest⟩ : Cursor).past text rest := by
  simp only [past, getLast?_cons_or, List.length_cons, Nat.add_comm, Nat.add_left_comm]

@[simp] theorem past_past (cursor : Cursor) (first second middle rest : List Char) :
    (cursor.past first middle).past second rest = cursor.past (first ++ second) rest := by
  simp only [past, List.length_append, List.getLast?_append, Option.or_assoc, Nat.add_assoc]

theorem skip?_eq_some {cursor next : Cursor} {text : List Char} :
    cursor.skip? text = some next ↔
      ∃ rest, cursor.after = text ++ rest ∧ next = cursor.past text rest := by
  induction text generalizing cursor with
  | nil =>
      obtain ⟨position, previous, after⟩ := cursor
      constructor
      · intro skips
        exact ⟨after, rfl, (Option.some.inj skips).symm⟩
      · rintro ⟨rest, afterEq, rfl⟩
        obtain rfl : after = rest := afterEq
        rfl
  | cons character text ih =>
      obtain ⟨position, previous, after⟩ := cursor
      cases after with
      | nil => simp [skip?]
      | cons head tail =>
          simp only [skip?]
          split
          · rename_i same
            subst same
            rw [ih]
            simp only [List.cons_append, List.cons.injEq, true_and]
            refine exists_congr fun rest => and_congr_right fun tailEq => ?_
            subst tailEq
            rw [past_cons]
          · rename_i different
            simp [different]

end Cursor

/-! ## Runs -/

theorem runEnds_gathered (members : CharClass) (least position : Nat) (previous : Option Char)
    (gathered : List Cursor) (after : List Char) :
    runEnds members least position previous gathered after =
      runEnds members least position previous [] after ++ gathered := by
  induction after generalizing least position previous gathered with
  | nil => by_cases isZero : least = 0 <;> simp [runEnds, isZero]
  | cons character rest ih =>
      simp only [runEnds]
      split
      · rw [ih _ _ _ (if least = 0 then _ else gathered), ih _ _ _ (if least = 0 then _ else [])]
        by_cases isZero : least = 0 <;> simp [isZero]
      · by_cases isZero : least = 0 <;> simp [isZero]

/-- Runs that go on come before the one that stops here. -/
theorem runEnds_cons (members : CharClass) (least position : Nat) (previous : Option Char)
    (character : Char) (rest : List Char) :
    runEnds members least position previous [] (character :: rest) =
      (if members.contains character then
        runEnds members (least - 1) (position + 1) (some character) [] rest else []) ++
      (if least = 0 then [⟨position, previous, character :: rest⟩] else []) := by
  simp only [runEnds]
  split
  · rw [runEnds_gathered]
  · rfl

/-- The places behind runs are those behind enough characters of the set. -/
theorem mem_runEnds {members : CharClass} {least position : Nat} {previous : Option Char}
    {after : List Char} {next : Cursor} :
    next ∈ runEnds members least position previous [] after ↔
      ∃ text rest, after = text ++ rest ∧ (∀ character ∈ text, members.contains character) ∧
        least ≤ text.length ∧
        next = (⟨position, previous, after⟩ : Cursor).past text rest := by
  induction after generalizing least position previous next with
  | nil =>
      constructor
      · intro isEnd
        obtain ⟨isZero, here⟩ : least = 0 ∧ next = ⟨position, previous, []⟩ := by
          by_cases isZero : least = 0
          · simpa [runEnds, isZero] using isEnd
          · simp [runEnds, isZero] at isEnd
        exact ⟨[], [], rfl, by simp, by simp [isZero], here⟩
      · rintro ⟨text, rest, split, -, longEnough, rfl⟩
        obtain ⟨rfl, rfl⟩ := List.append_eq_nil_iff.mp split.symm
        have isZero : least = 0 := by simpa using longEnough
        simp [runEnds, isZero, Cursor.past]
  | cons character after ih =>
      rw [runEnds_cons, List.mem_append]
      constructor
      · rintro (goesOn | stops)
        · split at goesOn
          · rename_i inside
            obtain ⟨text, rest, rfl, allInside, longEnough, rfl⟩ := ih.mp goesOn
            refine ⟨character :: text, rest, rfl, ?_, ?_, (Cursor.past_cons _ _ _ _ _ _).symm⟩
            · simpa [inside] using allInside
            · simp only [List.length_cons]
              omega
          · simp at goesOn
        · split at stops
          · rename_i isZero
            rw [List.mem_singleton] at stops
            exact ⟨[], character :: after, rfl, by simp, by simp [isZero], stops⟩
          · simp at stops
      · rintro ⟨text, rest, split, allInside, longEnough, rfl⟩
        cases text with
        | nil =>
            obtain rfl : character :: after = rest := split
            have isZero : least = 0 := by simpa using longEnough
            exact Or.inr (by simp [isZero, Cursor.past])
        | cons first text =>
            obtain ⟨rfl, tailEq⟩ := List.cons.inj split
            obtain rfl : after = text ++ rest := tailEq
            have inside : members.contains character = true := allInside character (by simp)
            refine Or.inl ?_
            rw [if_pos inside, Cursor.past_cons, ih]
            refine ⟨text, rest, rfl, fun other isOther => allInside other (by simp [isOther]),
              ?_, rfl⟩
            simp only [List.length_cons] at longEnough
            omega

/-- The first run is the longest one. -/
theorem head?_runEnds {members : CharClass} {least position : Nat} {previous : Option Char}
    {text rest : List Char} (allInside : ∀ character ∈ text, members.contains character)
    (outside : rest.head?.any members.contains = false) (longEnough : least ≤ text.length) :
    (runEnds members least position previous [] (text ++ rest)).head? =
      some ((⟨position, previous, text ++ rest⟩ : Cursor).past text rest) := by
  induction text generalizing least position previous with
  | nil =>
      have isZero : least = 0 := by simpa using longEnough
      cases rest with
      | nil => simp [runEnds, isZero, Cursor.past]
      | cons character rest =>
          have outside : members.contains character = false := by simpa using outside
          simp [runEnds_cons, outside, isZero, Cursor.past]
  | cons character text ih =>
      have inside : members.contains character = true := allInside character (by simp)
      have stillLong : least - 1 ≤ text.length := by
        simp only [List.length_cons] at longEnough
        omega
      rw [List.cons_append, runEnds_cons, if_pos inside, List.head?_append,
        ih (fun other isOther => allInside other (by simp [isOther])) stillLong,
        Cursor.past_cons]
      rfl

/-- Of the runs behind which something fits the longest is taken. -/
theorem head?_flatMap_runEnds {Item : Type} {members : CharClass} {least position : Nat}
    {previous : Option Char} {text rest : List Char} {behind : Cursor → List Item} {item : Item}
    (allInside : ∀ character ∈ text, members.contains character) (longEnough : least ≤ text.length)
    (noLonger : ∀ more later, rest = more ++ later → more ≠ [] →
      (∀ character ∈ more, members.contains character) →
        behind ((⟨position, previous, text ++ rest⟩ : Cursor).past (text ++ more) later) = [])
    (fits : (behind ((⟨position, previous, text ++ rest⟩ : Cursor).past text rest)).head? =
      some item) :
    ((runEnds members least position previous [] (text ++ rest)).flatMap behind).head? =
      some item := by
  induction text generalizing least position previous with
  | nil =>
      have isZero : least = 0 := by simpa using longEnough
      have fits : (behind ⟨position, previous, rest⟩).head? = some item := fits
      cases rest with
      | nil => simp [runEnds, isZero, fits]
      | cons character rest =>
          have longer : (if members.contains character then
              runEnds members (least - 1) (position + 1) (some character) [] rest
              else []).flatMap behind = [] := by
            rw [List.flatMap_eq_nil_iff]
            intro next isNext
            split at isNext
            · rename_i inside
              obtain ⟨more, later, rfl, moreInside, -, rfl⟩ := mem_runEnds.mp isNext
              rw [← Cursor.past_cons position previous character
                (character :: (more ++ later)) more later]
              exact noLonger (character :: more) later rfl (by simp)
                (List.forall_mem_cons.mpr ⟨inside, moreInside⟩)
            · simp at isNext
          rw [List.nil_append, runEnds_cons, List.flatMap_append, longer]
          simp [isZero, fits]
  | cons character text ih =>
      have inside : members.contains character = true := allInside character (by simp)
      have stillLong : least - 1 ≤ text.length := by
        simp only [List.length_cons] at longEnough
        omega
      rw [List.cons_append, runEnds_cons, if_pos inside, List.flatMap_append, List.head?_append,
        ih (fun other isOther => allInside other (by simp [isOther])) stillLong ?_ ?_]
      · rfl
      · intro more later restEq isSome moreInside
        rw [restEq, ← List.append_assoc, ← Cursor.past_cons position previous character
          (character :: (text ++ rest)) (text ++ more) later]
        exact noLonger more later restEq isSome moreInside
      · rwa [← Cursor.past_cons position previous character (character :: (text ++ rest))]

/-- Of the runs that prefer few characters the shortest is taken behind which something fits. -/
theorem head?_flatMap_reverse_runEnds {Item : Type} {members : CharClass} {least position : Nat}
    {previous : Option Char} {text rest : List Char} {behind : Cursor → List Item} {item : Item}
    (allInside : ∀ character ∈ text, members.contains character) (longEnough : least ≤ text.length)
    (noShorter : ∀ before after, text = before ++ after → after ≠ [] → least ≤ before.length →
      behind ((⟨position, previous, text ++ rest⟩ : Cursor).past before (after ++ rest)) = [])
    (fits : (behind ((⟨position, previous, text ++ rest⟩ : Cursor).past text rest)).head? =
      some item) :
    ((runEnds members least position previous [] (text ++ rest)).reverse.flatMap behind).head? =
      some item := by
  induction text generalizing least position previous with
  | nil =>
      have isZero : least = 0 := by simpa using longEnough
      have fits : (behind ⟨position, previous, rest⟩).head? = some item := fits
      cases rest with
      | nil => simp [runEnds, isZero, fits]
      | cons character rest => simp [runEnds_cons, isZero, fits]
  | cons character text ih =>
      have inside : members.contains character = true := allInside character (by simp)
      have stillLong : least - 1 ≤ text.length := by
        simp only [List.length_cons] at longEnough
        omega
      have here : (if least = 0 then
          [(⟨position, previous, character :: (text ++ rest)⟩ : Cursor)] else []).reverse.flatMap
            behind = [] := by
        split
        · rename_i isZero
          have stops := noShorter [] (character :: text) rfl (by simp) (by simp [isZero])
          simpa [Cursor.past] using stops
        · rfl
      rw [List.cons_append, runEnds_cons, if_pos inside, List.reverse_append, List.flatMap_append,
        here, List.nil_append]
      refine ih (fun other isOther => allInside other (by simp [isOther])) stillLong ?_ ?_
      · rintro before after rfl isSome enough
        have stops := noShorter (character :: before) after rfl isSome
          (by simp only [List.length_cons]; omega)
        rw [Cursor.past_cons] at stops
        rwa [List.append_assoc]
      · rwa [← Cursor.past_cons position previous character (character :: (text ++ rest))]

/-! ## Chains -/

theorem chainEnds_gathered (members : CharClass) (separator : Char) (inside : Bool)
    (position : Nat) (gathered : List Cursor) (after : List Char) :
    chainEnds members separator inside position gathered after =
      chainEnds members separator inside position [] after ++ gathered := by
  induction after generalizing inside position gathered with
  | nil => simp [chainEnds]
  | cons character rest ih =>
      simp only [chainEnds]
      split
      · exact ih _ _ _
      · split
        · rw [ih _ _ (_ :: gathered), ih _ _ [_]]
          simp
        · simp

/-- A chain goes on behind a run with its separator. -/
theorem mem_chainEnds_append {members : CharClass} {separator : Char} {inside : Bool}
    {position : Nat} {run after : List Char} {next : Cursor}
    (isRun : ∀ character ∈ run, members.contains character)
    (isStarted : inside = true ∨ run ≠ []) (outside : members.contains separator = false)
    (isEnd : next = ⟨position + run.length + 1, some separator, after⟩ ∨
      next ∈ chainEnds members separator false (position + run.length + 1) [] after) :
    next ∈ chainEnds members separator inside position [] (run ++ separator :: after) := by
  induction run generalizing inside position with
  | nil =>
      have started : inside = true := by simpa using isStarted
      simp only [List.nil_append, chainEnds, outside, started, beq_self_eq_true, Bool.and_self,
        if_true, Bool.false_eq_true, if_false]
      rw [chainEnds_gathered, List.mem_append, List.mem_singleton]
      simpa [or_comm] using isEnd
  | cons character run ih =>
      have isMember : members.contains character = true := isRun character (by simp)
      rw [List.cons_append, chainEnds, if_pos isMember]
      refine ih (fun other isOther => isRun other (by simp [isOther])) (Or.inl rfl) ?_
      simpa [Nat.add_comm, Nat.add_left_comm, Nat.add_assoc] using isEnd

/-! ## Patterns -/

namespace Pattern

theorem mem_ways_literal {text : List Char} {attempt way : Attempt} :
    way ∈ (literal text).ways attempt ↔ ∃ rest, attempt.cursor.after = text ++ rest ∧
      way = ⟨attempt.cursor.past text rest, attempt.groups⟩ := by
  simp only [ways, Attempt.goOn]
  cases skips : attempt.cursor.skip? text with
  | none =>
      simp only [List.not_mem_nil, false_iff]
      rintro ⟨rest, afterEq, -⟩
      rw [Cursor.skip?_eq_some.mpr ⟨rest, afterEq, rfl⟩] at skips
      simp at skips
  | some next =>
      obtain ⟨rest, afterEq, rfl⟩ := Cursor.skip?_eq_some.mp skips
      rw [List.mem_singleton, afterEq]
      simp

theorem mem_ways_one {members : CharClass} {attempt way : Attempt} :
    way ∈ (one members).ways attempt ↔ ∃ character rest,
      attempt.cursor.after = character :: rest ∧ members.contains character = true ∧
        way = ⟨attempt.cursor.past [character] rest, attempt.groups⟩ := by
  obtain ⟨⟨position, previous, after⟩, groups⟩ := attempt
  cases after with
  | nil => simp [ways, Attempt.goOn, Cursor.take?]
  | cons character rest =>
      by_cases inside : members.contains character = true
      · simp only [ways, Attempt.goOn, Cursor.take?, inside, if_true, List.mem_singleton,
          List.cons.injEq]
        constructor
        · rintro rfl
          exact ⟨character, rest, ⟨rfl, rfl⟩, inside, rfl⟩
        · rintro ⟨_, _, ⟨rfl, rfl⟩, -, rfl⟩
          rfl
      · simp [ways, Attempt.goOn, Cursor.take?, inside]

theorem mem_ways_run {members : CharClass} {least : Nat} {greedy : Bool}
    {attempt way : Attempt} :
    way ∈ (run members least greedy).ways attempt ↔ ∃ text rest,
      attempt.cursor.after = text ++ rest ∧ (∀ character ∈ text, members.contains character) ∧
        least ≤ text.length ∧ way = ⟨attempt.cursor.past text rest, attempt.groups⟩ := by
  obtain ⟨⟨position, previous, after⟩, groups⟩ := attempt
  have isEnd (next : Cursor) :
      (next ∈ if greedy then runEnds members least position previous [] after
        else (runEnds members least position previous [] after).reverse) ↔
        next ∈ runEnds members least position previous [] after := by
    cases greedy <;> simp
  simp only [ways, List.mem_map, isEnd, mem_runEnds]
  constructor
  · rintro ⟨next, ⟨text, rest, afterEq, allInside, longEnough, rfl⟩, rfl⟩
    exact ⟨text, rest, afterEq, allInside, longEnough, rfl⟩
  · rintro ⟨text, rest, afterEq, allInside, longEnough, rfl⟩
    exact ⟨_, ⟨text, rest, afterEq, allInside, longEnough, rfl⟩, rfl⟩

theorem mem_ways_condition {kind : Condition} {attempt way : Attempt} :
    way ∈ (condition kind).ways attempt ↔ kind.holds attempt.cursor = true ∧ way = attempt := by
  simp only [ways, Attempt.goOn, Cursor.stay?]
  by_cases holds : kind.holds attempt.cursor = true <;> simp [holds]

theorem mem_ways_empty {attempt way : Attempt} : way ∈ empty.ways attempt ↔ way = attempt := by
  simp [ways]

theorem mem_ways_sequence {first second : Pattern} {attempt way : Attempt} :
    way ∈ (sequence first second).ways attempt ↔
      ∃ middle ∈ first.ways attempt, way ∈ second.ways middle := by
  simp [ways]

theorem mem_ways_choice {first second : Pattern} {attempt way : Attempt} :
    way ∈ (choice first second).ways attempt ↔
      way ∈ first.ways attempt ∨ way ∈ second.ways attempt := by
  simp [ways]

theorem mem_ways_group {index : Nat} {inner : Pattern} {attempt way : Attempt} :
    way ∈ (group index inner).ways attempt ↔
      ∃ covered ∈ inner.ways attempt, way = covered.close index attempt.cursor.position := by
  simp [ways, eq_comm]

/-! ### Parts that fit in one way -/

theorem ways_sequence_of_eq {first second : Pattern} {attempt middle : Attempt}
    (only : first.ways attempt = [middle]) :
    (sequence first second).ways attempt = second.ways middle := by
  simp [ways, only]

theorem ways_literal_of_eq {cursor : Cursor} {text rest : List Char}
    (afterEq : cursor.after = text ++ rest) (groups : List Group) :
    (literal text).ways ⟨cursor, groups⟩ = [⟨cursor.past text rest, groups⟩] := by
  have skips : cursor.skip? text = some _ := Cursor.skip?_eq_some.mpr ⟨rest, afterEq, rfl⟩
  simp [ways, Attempt.goOn, skips]

/-- A run that can be no longer and must not be shorter. -/
theorem ways_run_of_eq {members : CharClass} {cursor : Cursor} {text rest : List Char}
    (allInside : ∀ character ∈ text, members.contains character)
    (outside : rest.head?.any members.contains = false) (afterEq : cursor.after = text ++ rest)
    (groups : List Group) :
    (run members text.length true).ways ⟨cursor, groups⟩ = [⟨cursor.past text rest, groups⟩] := by
  obtain ⟨position, previous, after⟩ := cursor
  obtain rfl : after = text ++ rest := afterEq
  suffices ends : runEnds members text.length position previous [] (text ++ rest) =
      [(⟨position, previous, text ++ rest⟩ : Cursor).past text rest] by
    simp [ways, ends]
  induction text generalizing position previous with
  | nil =>
      cases rest with
      | nil => rfl
      | cons character rest =>
          have outside : members.contains character = false := by simpa using outside
          simp [runEnds_cons, outside, Cursor.past]
  | cons character text ih =>
      have inside : members.contains character = true := allInside character (by simp)
      rw [List.cons_append, runEnds_cons, if_pos inside, List.length_cons, Nat.add_sub_cancel,
        ih (fun other isOther => allInside other (by simp [isOther])), Cursor.past_cons]
      simp

/-- The first way of a run covers as much as possible. -/
theorem head?_ways_run {members : CharClass} {cursor : Cursor} {least : Nat}
    {text rest : List Char} (allInside : ∀ character ∈ text, members.contains character)
    (outside : rest.head?.any members.contains = false) (longEnough : least ≤ text.length)
    (afterEq : cursor.after = text ++ rest) (groups : List Group) :
    ((run members least true).ways ⟨cursor, groups⟩).head? =
      some ⟨cursor.past text rest, groups⟩ := by
  obtain ⟨position, previous, after⟩ := cursor
  obtain rfl : after = text ++ rest := afterEq
  simp only [ways, if_true, List.head?_map, head?_runEnds allInside outside longEnough,
    Option.map_some]

theorem head?_ways_group (index : Nat) (inner : Pattern) (attempt : Attempt) :
    ((group index inner).ways attempt).head? =
      (inner.ways attempt).head?.map (Attempt.close index attempt.cursor.position) := by
  simp only [ways, List.head?_map]

theorem head?_ways_sequence {first second : Pattern} {attempt middle way : Attempt}
    (isFirst : (first.ways attempt).head? = some middle)
    (isSecond : (second.ways middle).head? = some way) :
    ((sequence first second).ways attempt).head? = some way := by
  obtain ⟨later, waysEq⟩ := List.head?_eq_some_iff.mp isFirst
  simp [ways, waysEq, isSecond]

theorem head?_ways_choice_left {first second : Pattern} {attempt way : Attempt}
    (isFirst : (first.ways attempt).head? = some way) :
    ((choice first second).ways attempt).head? = some way := by
  simp [ways, isFirst]

theorem head?_ways_choice_right {first second : Pattern} {attempt : Attempt}
    (none : first.ways attempt = []) :
    ((choice first second).ways attempt).head? = (second.ways attempt).head? := by
  simp [ways, none]

/-- A noted run that prefers many characters stops where the next part fits for the last time. -/
theorem head?_ways_longest {members : CharClass} {index least : Nat} {next : Pattern}
    {cursor : Cursor} {groups : List Group} {text rest : List Char} {way : Attempt}
    (afterEq : cursor.after = text ++ rest)
    (allInside : ∀ character ∈ text, members.contains character) (longEnough : least ≤ text.length)
    (noLonger : ∀ more later, rest = more ++ later → more ≠ [] →
      (∀ character ∈ more, members.contains character) →
        ∀ attempt : Attempt, attempt.cursor.after = later → next.ways attempt = [])
    (fits : (next.ways ⟨cursor.past text rest,
      ⟨index, cursor.position, cursor.position + text.length⟩ :: groups⟩).head? = some way) :
    ((sequence (group index (run members least true)) next).ways ⟨cursor, groups⟩).head? =
      some way := by
  obtain ⟨position, previous, after⟩ := cursor
  obtain rfl : after = text ++ rest := afterEq
  simp only [ways, if_true, List.map_map, List.flatMap_map]
  exact head?_flatMap_runEnds allInside longEnough
    (fun more later restEq isSome moreInside => noLonger more later restEq isSome moreInside _ rfl)
    fits

/-- A noted run that prefers few characters stops where the next part fits for the first time. -/
theorem head?_ways_shortest {members : CharClass} {index least : Nat} {next : Pattern}
    {cursor : Cursor} {groups : List Group} {text rest : List Char} {way : Attempt}
    (afterEq : cursor.after = text ++ rest)
    (allInside : ∀ character ∈ text, members.contains character) (longEnough : least ≤ text.length)
    (noShorter : ∀ before after, text = before ++ after → after ≠ [] → least ≤ before.length →
      ∀ attempt : Attempt, attempt.cursor.after = after ++ rest → next.ways attempt = [])
    (fits : (next.ways ⟨cursor.past text rest,
      ⟨index, cursor.position, cursor.position + text.length⟩ :: groups⟩).head? = some way) :
    ((sequence (group index (run members least false)) next).ways ⟨cursor, groups⟩).head? =
      some way := by
  obtain ⟨position, previous, after⟩ := cursor
  obtain rfl : after = text ++ rest := afterEq
  simp only [ways, Bool.false_eq_true, if_false, List.map_map, List.flatMap_map]
  exact head?_flatMap_reverse_runEnds allInside longEnough
    (fun before after textEq isSome enough => noShorter before after textEq isSome enough _ rfl)
    fits

end Pattern

end ScriptBridge

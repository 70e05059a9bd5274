import ScriptBridge.Pattern.Match

/-!
# Laws of searching

A prepared search finds what the list of ways says: the first way that leads to
the goal.  So a match at a place is the most preferred way of the pattern there,
and a pattern whose needs are not met has no way at all.
-/

namespace ScriptBridge

/-- A place that lies in the given text. -/
def Cursor.LiesIn (cursor : Cursor) (text : List Char) : Prop :=
  ∃ before : List Char, text = before ++ cursor.after ∧ cursor.position = before.length ∧
    cursor.previous = before.getLast?

namespace Cursor

theorem start_liesIn (text : List Char) : (start text).LiesIn text :=
  ⟨[], rfl, rfl, rfl⟩

/-- The place behind the next character. -/
theorem LiesIn.next {text : List Char} {position : Nat} {previous : Option Char}
    {character : Char} {after : List Char}
    (lies : (⟨position, previous, character :: after⟩ : Cursor).LiesIn text) :
    (⟨position + 1, some character, after⟩ : Cursor).LiesIn text := by
  obtain ⟨before, textEq, positionEq, -⟩ := lies
  refine ⟨before ++ [character], ?_, ?_, ?_⟩
  · simpa using textEq
  · simpa using positionEq
  · simp

theorem LiesIn.skip {text wanted : List Char} {cursor next : Cursor}
    (lies : cursor.LiesIn text) (skips : cursor.skip? wanted = some next) :
    next.LiesIn text := by
  induction wanted generalizing cursor with
  | nil =>
      simp only [skip?, Option.some.injEq] at skips
      exact skips ▸ lies
  | cons character rest ih =>
      obtain ⟨position, previous, after⟩ := cursor
      cases after with
      | nil => simp [skip?] at skips
      | cons head tail =>
          simp only [skip?] at skips
          split at skips
          · exact ih lies.next skips
          · simp at skips

theorem LiesIn.take {text : List Char} {members : CharClass} {cursor next : Cursor}
    (lies : cursor.LiesIn text) (takes : cursor.take? members = some next) :
    next.LiesIn text := by
  obtain ⟨position, previous, after⟩ := cursor
  cases after with
  | nil => simp [take?] at takes
  | cons head tail =>
      simp only [take?] at takes
      split at takes
      · simp only [Option.some.injEq] at takes
        exact takes ▸ lies.next
      · simp at takes

theorem LiesIn.stay {text : List Char} {kind : Condition} {cursor next : Cursor}
    (lies : cursor.LiesIn text) (stays : cursor.stay? kind = some next) :
    next.LiesIn text := by
  simp only [stay?] at stays
  split at stays
  · simp only [Option.some.injEq] at stays
    exact stays ▸ lies
  · simp at stays

end Cursor

/-! ## Places and marks -/

theorem placesFrom_eq (gathered : List Cursor) (position : Nat) (previous : Option Char)
    (text : List Char) :
    placesFrom gathered position previous text =
      gathered.reverse ++ placesFrom [] position previous text := by
  induction text generalizing gathered position previous with
  | nil => simp [placesFrom]
  | cons character rest ih =>
      simp only [placesFrom]
      rw [ih, ih [_]]
      simp

theorem placesFrom_cons (position : Nat) (previous : Option Char) (character : Char)
    (rest : List Char) :
    placesFrom [] position previous (character :: rest) =
      ⟨position, previous, character :: rest⟩ ::
        placesFrom [] (position + 1) (some character) rest := by
  rw [placesFrom, placesFrom_eq]
  rfl

theorem placesFrom_append (position : Nat) (previous : Option Char)
    (before after : List Char) :
    ∃ earlier : List Cursor, earlier.length = before.length ∧
      placesFrom [] position previous (before ++ after) =
        earlier ++ placesFrom [] (position + before.length) (before.getLast?.or previous)
          after := by
  induction before generalizing position previous with
  | nil => exact ⟨[], rfl, by simp⟩
  | cons character rest ih =>
      obtain ⟨earlier, lengthEq, placesEq⟩ := ih (position + 1) (some character)
      refine ⟨⟨position, previous, character :: (rest ++ after)⟩ :: earlier, by simp [lengthEq], ?_⟩
      rw [List.cons_append, placesFrom_cons, placesEq]
      have lastEq : (rest.getLast?.or (some character)) =
          ((character :: rest).getLast?.or previous) := by
        rw [List.getLast?_cons]
        cases rest.getLast? <;> rfl
      rw [lastEq]
      simp [Nat.add_comm, Nat.add_left_comm]

/-- The marks of places in a list. -/
def markList {Mark : Type} (mark : Cursor → Mark → Mark) (last : Mark)
    (places : List Cursor) : List Mark :=
  places.foldr (fun place marks => mark place (marks.headD last) :: marks) []

theorem markList_append {Mark : Type} (mark : Cursor → Mark → Mark) (last : Mark)
    (earlier later : List Cursor) :
    ∃ marks : List Mark, marks.length = earlier.length ∧
      markList mark last (earlier ++ later) = marks ++ markList mark last later := by
  induction earlier with
  | nil => exact ⟨[], rfl, rfl⟩
  | cons place rest ih =>
      obtain ⟨marks, lengthEq, marksEq⟩ := ih
      refine ⟨mark place ((markList mark last (rest ++ later)).headD last) :: marks,
        by simp [lengthEq], ?_⟩
      rw [List.cons_append, List.cons_append, ← marksEq]
      rfl

/-- The mark of a place in a text, made from the places behind it alone. -/
def markAt {Mark : Type} (mark : Cursor → Mark → Mark) (last : Mark) (position : Nat)
    (previous : Option Char) : List Char → Mark
  | [] => mark ⟨position, previous, []⟩ last
  | character :: rest =>
      mark ⟨position, previous, character :: rest⟩
        (markAt mark last (position + 1) (some character) rest)

theorem markList_head {Mark : Type} (mark : Cursor → Mark → Mark) (last : Mark)
    (position : Nat) (previous : Option Char) (text : List Char) :
    ∃ rest : List Mark, markList mark last (placesFrom [] position previous text) =
      markAt mark last position previous text :: rest := by
  induction text generalizing position previous with
  | nil => exact ⟨[], rfl⟩
  | cons character rest ih =>
      obtain ⟨marks, marksEq⟩ := ih (position + 1) (some character)
      refine ⟨markAt mark last (position + 1) (some character) rest :: marks, ?_⟩
      rw [placesFrom_cons, ← marksEq]
      show mark _ ((markList mark last _).headD last) :: markList mark last _ = _
      rw [marksEq]
      rfl

theorem marksBackwards_getD {Mark : Type} (mark : Cursor → Mark → Mark) (last other : Mark)
    {text : List Char} {cursor : Cursor} (lies : cursor.LiesIn text) :
    (marksBackwards mark last (placesOf text)).getD cursor.position other =
      markAt mark last cursor.position cursor.previous cursor.after := by
  obtain ⟨before, textEq, positionEq, previousEq⟩ := lies
  obtain ⟨earlier, earlierLength, placesEq⟩ := placesFrom_append 0 none before cursor.after
  obtain ⟨marks, marksLength, marksEq⟩ :=
    markList_append mark last earlier (placesFrom [] (0 + before.length)
      (before.getLast?.or none) cursor.after)
  obtain ⟨rest, headEq⟩ := markList_head mark last (0 + before.length) (before.getLast?.or none)
    cursor.after
  have listEq : markList mark last (placesOf text) =
      marks ++ markAt mark last (0 + before.length) (before.getLast?.or none) cursor.after ::
        rest := by
    rw [placesOf, textEq, placesEq, marksEq, headEq]
  have arrayEq : marksBackwards mark last (placesOf text) =
      (markList mark last (placesOf text)).toArray := rfl
  have positionLength : cursor.position = marks.length := by
    rw [positionEq, marksLength, earlierLength]
  rw [arrayEq, listEq, positionLength]
  simp only [Array.getD_eq_getD_getElem?, List.getElem?_toArray]
  rw [List.getElem?_append_right (Nat.le_refl _)]
  simp only [Nat.sub_self, List.getElem?_cons_zero, Option.getD_some, Nat.zero_add,
    Option.or_none]
  rw [previousEq, marksLength, earlierLength]

/-! ## Runs -/

theorem runEnds_any (members : CharClass) (goal : Cursor → Bool) (least position : Nat)
    (previous : Option Char) (gathered : List Cursor) (after : List Char) :
    (runEnds members least position previous gathered after).any goal =
      (gathered.any goal || (runEnds members least position previous [] after).any goal) := by
  induction after generalizing least position previous gathered with
  | nil =>
      by_cases none : least = 0
      · simp [runEnds, none, Bool.or_comm]
      · simp [runEnds, none]
  | cons character rest ih =>
      by_cases none : least = 0
      · simp only [runEnds, none, if_true]
        split
        · rw [ih, ih 0 _ _ [_]]
          simp [Bool.or_comm, Bool.or_left_comm]
        · simp [Bool.or_comm]
      · simp only [runEnds, none, if_false]
        split
        · exact ih _ _ _ _
        · simp

theorem markAt_runLeads (members : CharClass) (started : Bool) (goal : Cursor → Bool)
    (position : Nat) (previous : Option Char) (after : List Char)
    (ready : started = true → previous.any members.contains = true) :
    markAt (runLeads members started goal) false position previous after =
      (runEnds members 0 position previous [] after).any goal := by
  have mayEnd : (!started || previous.any members.contains) = true := by
    cases started with
    | false => rfl
    | true => simpa using ready rfl
  induction after generalizing position previous with
  | nil => simp [markAt, runLeads, runEnds, mayEnd]
  | cons character rest ih =>
      simp only [markAt, runLeads, runEnds, mayEnd, if_true, List.head?_cons, Option.any_some,
        Bool.true_and]
      split
      · rename_i inside
        have insideNext : (some character).any members.contains = true := by simpa using inside
        rw [ih (position + 1) (some character) (fun _ => insideNext) (by simp [inside]),
          runEnds_any members goal 0 (position + 1) (some character) [_]]
        simp [inside, Bool.or_comm]
      · rename_i outside
        simp [outside]

theorem leadsBehind_eq (members : CharClass) (started : Bool) (goal leads : Cursor → Bool)
    {text : List Char}
    (leadsEq : ∀ cursor : Cursor, cursor.LiesIn text →
      (started = true → cursor.previous.any members.contains = true) →
      leads cursor =
        (runEnds members 0 cursor.position cursor.previous [] cursor.after).any goal)
    (least : Nat) {cursor : Cursor} (lies : cursor.LiesIn text)
    (ready : started = true → least = 0 → cursor.previous.any members.contains = true) :
    Pattern.leadsBehind members leads least cursor =
      (runEnds members least cursor.position cursor.previous [] cursor.after).any goal := by
  induction least generalizing cursor with
  | zero => exact leadsEq cursor lies fun isStarted => ready isStarted rfl
  | succ least ih =>
      obtain ⟨position, previous, after⟩ := cursor
      cases after with
      | nil => simp [Pattern.leadsBehind, Cursor.take?, runEnds]
      | cons character rest =>
          simp only [Pattern.leadsBehind, Cursor.take?, runEnds, Nat.succ_ne_zero, if_false,
            Nat.add_sub_cancel]
          by_cases inside : members.contains character = true
          · simp only [inside, if_true]
            exact ih lies.next fun _ _ => by simpa using inside
          · simp [inside]

theorem runEnds_liesIn {text : List Char} (members : CharClass) (least position : Nat)
    (previous : Option Char) (gathered : List Cursor) (after : List Char)
    (lies : (⟨position, previous, after⟩ : Cursor).LiesIn text)
    (gatheredLie : ∀ cursor ∈ gathered, cursor.LiesIn text) :
    ∀ cursor ∈ runEnds members least position previous gathered after, cursor.LiesIn text := by
  induction after generalizing least position previous gathered with
  | nil =>
      simp only [runEnds]
      split
      · simpa using ⟨lies, gatheredLie⟩
      · exact gatheredLie
  | cons character rest ih =>
      have reachedLie : ∀ cursor ∈ (if least = 0 then
          (⟨position, previous, character :: rest⟩ : Cursor) :: gathered else gathered),
          cursor.LiesIn text := by
        split
        · simpa using ⟨lies, gatheredLie⟩
        · exact gatheredLie
      simp only [runEnds]
      split
      · exact ih _ _ _ _ lies.next reachedLie
      · exact reachedLie

/-! ## Chains -/

theorem chainEnds_any (members : CharClass) (separator : Char) (goal : Cursor → Bool)
    (inside : Bool) (position : Nat) (gathered : List Cursor) (after : List Char) :
    (chainEnds members separator inside position gathered after).any goal =
      (gathered.any goal || (chainEnds members separator inside position [] after).any goal) := by
  induction after generalizing inside position gathered with
  | nil => simp [chainEnds]
  | cons character rest ih =>
      simp only [chainEnds]
      split
      · exact ih _ _ _
      · split
        · rw [ih, ih _ _ [_]]
          simp [Bool.or_comm, Bool.or_left_comm]
        · simp

theorem markAt_chainLeads (members : CharClass) (separator : Char) (goal : Cursor → Bool)
    (position : Nat) (previous : Option Char) (after : List Char) :
    markAt (chainLeads members separator goal) ⟨false, false⟩ position previous after =
      ⟨goal ⟨position, previous, after⟩ ||
          (chainEnds members separator false position [] after).any goal,
        (chainEnds members separator true position [] after).any goal⟩ := by
  induction after generalizing position previous with
  | nil => simp [markAt, chainLeads, chainEnds]
  | cons character rest ih =>
      simp only [markAt, chainLeads, chainEnds, ih, Bool.false_and, Bool.true_and]
      split
      · simp
      · by_cases same : character == separator
        · simp only [same, Bool.true_and, if_true]
          rw [chainEnds_any members separator goal false (position + 1) [_]]
          simp
        · simp [same]

theorem chainEnds_liesIn {text : List Char} (members : CharClass) (separator : Char)
    (inside : Bool) (position : Nat) (previous : Option Char) (gathered : List Cursor)
    (after : List Char) (lies : (⟨position, previous, after⟩ : Cursor).LiesIn text)
    (gatheredLie : ∀ cursor ∈ gathered, cursor.LiesIn text) :
    ∀ cursor ∈ chainEnds members separator inside position gathered after,
      cursor.LiesIn text := by
  induction after generalizing inside position previous gathered with
  | nil => exact gatheredLie
  | cons character rest ih =>
      simp only [chainEnds]
      split
      · exact ih _ _ _ _ lies.next gatheredLie
      · split
        · exact ih _ _ _ _ lies.next (by simpa using ⟨lies.next, gatheredLie⟩)
        · exact gatheredLie

/-! ## Patterns -/

theorem goOn_liesIn {text : List Char} {attempt : Attempt} {next : Option Cursor}
    (lies : ∀ cursor, next = some cursor → cursor.LiesIn text) :
    ∀ way ∈ attempt.goOn next, way.cursor.LiesIn text := by
  cases next with
  | none => simp [Attempt.goOn]
  | some cursor => simpa [Attempt.goOn] using lies cursor rfl

/-- All ways of a pattern stay in the text. -/
theorem ways_liesIn {text : List Char} (pattern : Pattern) {attempt : Attempt}
    (lies : attempt.cursor.LiesIn text) :
    ∀ way ∈ pattern.ways attempt, way.cursor.LiesIn text := by
  induction pattern generalizing attempt with
  | empty => simpa [Pattern.ways] using lies
  | literal wanted =>
      rw [Pattern.ways]
      exact goOn_liesIn fun cursor skips => lies.skip skips
  | one members =>
      rw [Pattern.ways]
      exact goOn_liesIn fun cursor takes => lies.take takes
  | condition kind =>
      rw [Pattern.ways]
      exact goOn_liesIn fun cursor stays => lies.stay stays
  | run members least greedy =>
      intro way isWay
      rw [Pattern.ways] at isWay
      simp only [List.mem_map] at isWay
      obtain ⟨next, isNext, rfl⟩ := isWay
      have isEnd : next ∈ runEnds members least attempt.cursor.position
          attempt.cursor.previous [] attempt.cursor.after := by
        split at isNext
        · exact isNext
        · exact List.mem_reverse.mp isNext
      exact runEnds_liesIn members least _ _ [] _ lies (by simp) next isEnd
  | chain members separator =>
      intro way isWay
      rw [Pattern.ways] at isWay
      simp only [List.mem_map] at isWay
      obtain ⟨next, isNext, rfl⟩ := isWay
      exact chainEnds_liesIn members separator false _ _ _ _ lies (by simpa using lies) next isNext
  | sequence first second firstIh secondIh =>
      intro way isWay
      rw [Pattern.ways] at isWay
      obtain ⟨middle, isMiddle, isLast⟩ := List.mem_flatMap.mp isWay
      exact secondIh (firstIh lies middle isMiddle) way isLast
  | choice first second firstIh secondIh =>
      intro way isWay
      rw [Pattern.ways] at isWay
      rcases List.mem_append.mp isWay with isFirst | isSecond
      · exact firstIh lies way isFirst
      · exact secondIh lies way isSecond
  | group index inner ih =>
      intro way isWay
      rw [Pattern.ways] at isWay
      obtain ⟨innerWay, isInner, rfl⟩ := List.mem_map.mp isWay
      exact ih lies innerWay isInner

/-- What a prepared search is to do for a pattern: it finds the first way to the goal. -/
structure Searcher.Serves (search : Searcher) (pattern : Pattern) (goal : Cursor → Bool)
    (text : List Char) : Prop where
  leads : ∀ attempt : Attempt, attempt.cursor.LiesIn text →
    search.leads attempt.cursor = (pattern.ways attempt).any fun way => goal way.cursor
  walk : ∀ attempt : Attempt, attempt.cursor.LiesIn text →
    search.walk attempt = (pattern.ways attempt).find? fun way => goal way.cursor

theorem ofStep_serves {pattern : Pattern} {goal : Cursor → Bool} {text : List Char}
    {step : Cursor → Option Cursor}
    (waysEq : ∀ attempt, pattern.ways attempt = attempt.goOn (step attempt.cursor)) :
    (Searcher.ofStep goal step).Serves pattern goal text where
  leads attempt _ := by
    rw [waysEq]
    simp only [Searcher.ofStep, Attempt.goOn]
    cases step attempt.cursor <;> simp
  walk attempt _ := by
    rw [waysEq]
    simp only [Searcher.ofStep, Attempt.goOn]
    cases step attempt.cursor with
    | none => rfl
    | some cursor => cases reaches : goal cursor <;> simp [reaches]

theorem ofWays_serves {pattern : Pattern} {goal leads : Cursor → Bool} {text : List Char}
    (leadsEq : ∀ attempt : Attempt, attempt.cursor.LiesIn text →
      leads attempt.cursor = (pattern.ways attempt).any fun way => goal way.cursor) :
    (Searcher.ofWays goal leads pattern.ways).Serves pattern goal text where
  leads attempt lies := leadsEq attempt lies
  walk attempt lies := by
    simp only [Searcher.ofWays, leadsEq attempt lies]
    split
    · rfl
    · rename_i noWay
      symm
      rw [List.find?_eq_none]
      simpa using noWay

theorem find_bind_find {First Second : Type} (ways : First → List Second)
    (goal : Second → Bool) (leads : First → Bool) (walk : First → Option Second)
    (firsts : List First)
    (leadsEq : ∀ first ∈ firsts, leads first = (ways first).any goal)
    (walkEq : ∀ first ∈ firsts, walk first = (ways first).find? goal) :
    (firsts.find? leads).bind walk = (firsts.flatMap ways).find? goal := by
  induction firsts with
  | nil => rfl
  | cons first rest ih =>
      have restIh := ih (fun other isOther => leadsEq other (by simp [isOther]))
        (fun other isOther => walkEq other (by simp [isOther]))
      rw [List.flatMap_cons, List.find?_append, List.find?_cons, leadsEq first (by simp)]
      cases anyWay : (ways first).any goal with
      | true =>
          obtain ⟨way, isWay, reaches⟩ := List.any_eq_true.mp anyWay
          have found : ((ways first).find? goal).isSome := by
            rw [List.find?_isSome]
            exact ⟨way, isWay, reaches⟩
          obtain ⟨result, resultEq⟩ := Option.isSome_iff_exists.mp found
          simp [walkEq first (by simp), resultEq]
      | false =>
          have none : (ways first).find? goal = none := by
            rw [List.find?_eq_none]
            simpa using anyWay
          simpa [none] using restIh

/-- A prepared search finds the first way to the goal. -/
theorem prepare_serves (pattern : Pattern) (goal : Cursor → Bool) (text : List Char) :
    (pattern.prepare (placesOf text) goal).Serves pattern goal text := by
  induction pattern generalizing goal with
  | empty => exact ofStep_serves fun _ => rfl
  | literal wanted => exact ofStep_serves fun _ => rfl
  | one members => exact ofStep_serves fun _ => rfl
  | condition kind => exact ofStep_serves fun _ => rfl
  | run members least greedy =>
      refine ofWays_serves fun attempt lies => ?_
      rw [leadsBehind_eq members (0 < least) goal _ (fun cursor cursorLies ready => ?_) least lies
        (fun isStarted isZero => absurd (of_decide_eq_true isStarted) (by simp [isZero]))]
      · simp only [Pattern.ways, List.any_map, Function.comp_def]
        split
        · rfl
        · rw [List.any_reverse]
      · rw [marksBackwards_getD (runLeads members (0 < least) goal) false false cursorLies,
          markAt_runLeads members (0 < least) goal _ _ _ ready]
  | chain members separator =>
      refine ofWays_serves fun attempt lies => ?_
      rw [marksBackwards_getD _ _ _ lies, markAt_chainLeads]
      simp only [Pattern.ways, List.any_map, Function.comp_def]
      rw [chainEnds_any members separator _ false _ [attempt.cursor]]
      simp
  | sequence first second firstIh secondIh =>
      have secondServes := secondIh goal
      have firstServes := firstIh (second.prepare (placesOf text) goal).leads
      constructor
      · intro attempt lies
        refine (firstServes.leads attempt lies).trans ?_
        rw [Pattern.ways, List.any_flatMap, Bool.eq_iff_iff, List.any_eq_true, List.any_eq_true]
        refine exists_congr fun way => and_congr_right fun isWay => ?_
        rw [secondServes.leads way (ways_liesIn first lies way isWay)]
      · intro attempt lies
        simp only [Pattern.prepare, Pattern.ways, firstServes.walk attempt lies]
        exact find_bind_find _ _ _ _ _
          (fun way isWay => secondServes.leads way (ways_liesIn first lies way isWay))
          (fun way isWay => secondServes.walk way (ways_liesIn first lies way isWay))
  | choice first second firstIh secondIh =>
      have firstServes := firstIh goal
      have secondServes := secondIh goal
      constructor
      · intro attempt lies
        simp only [Pattern.prepare, Pattern.ways, List.any_append,
          firstServes.leads attempt lies, secondServes.leads attempt lies]
      · intro attempt lies
        simp only [Pattern.prepare, Pattern.ways, List.find?_append,
          firstServes.walk attempt lies, secondServes.walk attempt lies]
        cases (first.ways attempt).find? _ <;> rfl
  | group index inner ih =>
      have serves := ih goal
      constructor
      · intro attempt lies
        simp only [Pattern.prepare, Pattern.ways, List.any_map, serves.leads attempt lies]
        rfl
      · intro attempt lies
        simp only [Pattern.prepare, Pattern.ways, List.find?_map, serves.walk attempt lies]
        rfl

/-! ## Needs -/

theorem standsIn_append (before wanted after : List Char) :
    standsIn wanted (before ++ (wanted ++ after)) = true := by
  induction before with
  | nil =>
      cases whole : wanted ++ after with
      | nil => simp [standsIn, (List.append_eq_nil_iff.mp whole).1]
      | cons character rest =>
          have starts : wanted <+: character :: rest := ⟨after, whole⟩
          simp [standsIn, starts]
  | cons character rest ih => simp [standsIn, ih]

theorem skip?_after {wanted : List Char} {cursor next : Cursor}
    (skips : cursor.skip? wanted = some next) : cursor.after = wanted ++ next.after := by
  induction wanted generalizing cursor with
  | nil =>
      simp only [Cursor.skip?, Option.some.injEq] at skips
      simp [skips]
  | cons character rest ih =>
      obtain ⟨position, previous, after⟩ := cursor
      cases after with
      | nil => simp [Cursor.skip?] at skips
      | cons head tail =>
          simp only [Cursor.skip?] at skips
          split at skips
          · rename_i same
            have tailEq := ih skips
            simp only at tailEq
            simp [same, tailEq]
          · simp at skips

/-- A text in which a pattern has a way has everything the pattern needs. -/
theorem ways_needs {text : List Char} (pattern : Pattern) {attempt way : Attempt}
    (lies : attempt.cursor.LiesIn text) (isWay : way ∈ pattern.ways attempt) :
    ∀ wanted ∈ pattern.needs, standsIn wanted text = true := by
  induction pattern generalizing attempt way with
  | literal characters =>
      intro wanted isNeeded
      simp only [Pattern.needs, List.mem_singleton] at isNeeded
      subst isNeeded
      simp only [Pattern.ways] at isWay
      cases skips : attempt.cursor.skip? wanted with
      | none => simp [skips, Attempt.goOn] at isWay
      | some next =>
          obtain ⟨before, textEq, -, -⟩ := lies
          rw [textEq, skip?_after skips]
          exact standsIn_append before wanted next.after
  | sequence first second firstIh secondIh =>
      intro wanted isNeeded
      simp only [Pattern.ways] at isWay
      obtain ⟨middle, isMiddle, isLast⟩ := List.mem_flatMap.mp isWay
      rcases List.mem_append.mp isNeeded with ofFirst | ofSecond
      · exact firstIh lies isMiddle wanted ofFirst
      · exact secondIh (ways_liesIn first lies middle isMiddle) isLast wanted ofSecond
  | group index inner ih =>
      intro wanted isNeeded
      simp only [Pattern.ways] at isWay
      obtain ⟨innerWay, isInner, -⟩ := List.mem_map.mp isWay
      exact ih lies isInner wanted isNeeded
  | _ => simp [Pattern.needs]

theorem mayFitIn_of_ways {text : List Char} {pattern : Pattern} {attempt : Attempt}
    (lies : attempt.cursor.LiesIn text) (fits : pattern.ways attempt ≠ []) :
    pattern.mayFitIn text = true := by
  obtain ⟨way, isWay⟩ := List.exists_mem_of_ne_nil _ fits
  simpa [Pattern.mayFitIn] using ways_needs pattern lies isWay

/-! ## Matches -/

/-- The search that lists all ways and takes the first. -/
def Pattern.plainSearch (pattern : Pattern) : Searcher where
  leads place := !(pattern.ways ⟨place, []⟩).isEmpty
  walk attempt := (pattern.ways attempt).head?

/-- A match at a place is the most preferred way of the pattern there. -/
theorem matchAt_eq (pattern : Pattern) {text : List Char} {place : Cursor}
    (lies : place.LiesIn text) :
    (pattern.searchIn text).matchAt place = pattern.plainSearch.matchAt place := by
  have walkEq := (prepare_serves pattern (fun _ => true) text).walk ⟨place, []⟩ lies
  simp only [Searcher.matchAt, Pattern.searchIn, Pattern.plainSearch, walkEq]
  cases pattern.ways ⟨place, []⟩ <;> simp

theorem plainSearch_matchAt_of_not_mayFitIn {pattern : Pattern} {text : List Char}
    (unmet : pattern.mayFitIn text = false) {place : Cursor} (lies : place.LiesIn text) :
    pattern.plainSearch.matchAt place = none := by
  have noWay : pattern.ways ⟨place, []⟩ = [] := by
    rw [← Decidable.not_not (p := pattern.ways ⟨place, []⟩ = [])]
    intro fits
    rw [mayFitIn_of_ways lies fits] at unmet
    exact Bool.noConfusion unmet
  simp [Searcher.matchAt, Pattern.plainSearch, noWay]

theorem replaceFrom_congr {first second : Searcher} {text : List Char}
    (matchEq : ∀ place : Cursor, place.LiesIn text →
      first.matchAt place = second.matchAt place)
    (replacement : Match → List Char) (covered position : Nat) (previous : Option Char)
    (written : List Char) (replaced : Bool) (after : List Char)
    (lies : (⟨position, previous, after⟩ : Cursor).LiesIn text) :
    first.replaceFrom replacement covered position previous written replaced after =
      second.replaceFrom replacement covered position previous written replaced after := by
  induction after generalizing covered position previous written replaced with
  | nil => rfl
  | cons character rest ih =>
      cases covered with
      | succ left => simpa [Searcher.replaceFrom] using ih _ _ _ _ _ lies.next
      | zero =>
          simp only [Searcher.replaceFrom, matchEq _ lies]
          split
          · split
            · exact ih _ _ _ _ _ lies.next
            · exact ih _ _ _ _ _ lies.next
          · exact ih _ _ _ _ _ lies.next

theorem replaceFrom_of_no_match {search : Searcher} {text : List Char}
    (noMatch : ∀ place : Cursor, place.LiesIn text → search.matchAt place = none)
    (replacement : Match → List Char) (position : Nat) (previous : Option Char)
    (written after : List Char) (lies : (⟨position, previous, after⟩ : Cursor).LiesIn text) :
    search.replaceFrom replacement 0 position previous written false after = none := by
  induction after generalizing position previous written with
  | nil => rfl
  | cons character rest ih =>
      simp only [Searcher.replaceFrom, noMatch _ lies]
      exact ih _ _ _ lies.next

/-- Replacing every match is replacing every most preferred way. -/
theorem replaceAll_eq (pattern : Pattern) (replacement : Match → List Char)
    (text : List Char) :
    pattern.replaceAll replacement text =
      pattern.plainSearch.replaceFrom replacement 0 0 none [] false text := by
  rw [Pattern.replaceAll]
  cases fits : pattern.mayFitIn text with
  | true =>
      exact replaceFrom_congr (fun _ lies => matchAt_eq pattern lies) replacement 0 0 none []
        false text (Cursor.start_liesIn text)
  | false =>
      exact (replaceFrom_of_no_match
        (fun place lies => plainSearch_matchAt_of_not_mayFitIn fits lies) replacement 0 none []
        text (Cursor.start_liesIn text)).symm

theorem placesFrom_liesIn {text : List Char} (position : Nat) (previous : Option Char)
    (after : List Char) (lies : (⟨position, previous, after⟩ : Cursor).LiesIn text) :
    ∀ place ∈ placesFrom [] position previous after, place.LiesIn text := by
  induction after generalizing position previous with
  | nil => simpa [placesFrom] using lies
  | cons character rest ih =>
      rw [placesFrom_cons]
      intro place isPlace
      rcases List.mem_cons.mp isPlace with rfl | isLater
      · exact lies
      · exact ih _ _ lies.next place isLater

theorem placesOf_liesIn (text : List Char) :
    ∀ place ∈ placesOf text, place.LiesIn text :=
  placesFrom_liesIn 0 none text (Cursor.start_liesIn text)

/-- The first match is the most preferred way at the first place that has one. -/
theorem find?_eq_findSome? (pattern : Pattern) (text : List Char) :
    pattern.find? text = (placesOf text).findSome? pattern.plainSearch.matchAt := by
  rw [Pattern.find?]
  have allPlaces := placesOf_liesIn text
  generalize placesOf text = places at allPlaces
  split
  · induction places with
    | nil => rfl
    | cons place rest ih =>
        rw [List.findSome?_cons, List.findSome?_cons,
          matchAt_eq pattern (allPlaces place (by simp)),
          ih fun other isOther => allPlaces other (by simp [isOther])]
  · rename_i unmet
    symm
    rw [List.findSome?_eq_none_iff]
    intro place isPlace
    exact plainSearch_matchAt_of_not_mayFitIn (by simpa using unmet) (allPlaces place isPlace)

end ScriptBridge

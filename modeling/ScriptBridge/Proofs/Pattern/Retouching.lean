import ScriptBridge.Proofs.Pattern.Fitting

/-!
# Retouching

An edit goes over a text from left to right: characters stay, and stretches give way to
others.  Its retouches tell both, the text before and the text after.  Of a match only what
lies between the groups that are kept is changed, and a stretch that would give way to the
same text stays.
-/

namespace ScriptBridge

/-- A character stays, or a stretch gives way to another one. -/
inductive Retouch where
  | keep (character : Char)
  | change (old new : List Char)
  deriving DecidableEq, Repr

namespace Retouch

/-- What a retouch finds. -/
def old : Retouch → List Char
  | keep character => [character]
  | change old _ => old

/-- What a retouch leaves. -/
def new : Retouch → List Char
  | keep character => [character]
  | change _ new => new

/-- The text before retouches. -/
def before (retouches : List Retouch) : List Char :=
  retouches.flatMap old

/-- The text after retouches. -/
def after (retouches : List Retouch) : List Char :=
  retouches.flatMap new

/-- A stretch that stays. -/
def keepAll (stretch : List Char) : List Retouch :=
  stretch.map keep

/-- A stretch that gives way to a text, unless they are the same. -/
def replace (stretch text : List Char) : List Retouch :=
  if stretch = text then keepAll stretch else [change stretch text]

@[simp] theorem before_nil : before [] = [] := rfl

@[simp] theorem after_nil : after [] = [] := rfl

@[simp] theorem before_cons (retouch : Retouch) (rest : List Retouch) :
    before (retouch :: rest) = retouch.old ++ before rest := rfl

@[simp] theorem after_cons (retouch : Retouch) (rest : List Retouch) :
    after (retouch :: rest) = retouch.new ++ after rest := rfl

@[simp] theorem before_append (first second : List Retouch) :
    before (first ++ second) = before first ++ before second :=
  List.flatMap_append

@[simp] theorem after_append (first second : List Retouch) :
    after (first ++ second) = after first ++ after second :=
  List.flatMap_append

@[simp] theorem before_keepAll (stretch : List Char) : before (keepAll stretch) = stretch := by
  induction stretch with
  | nil => rfl
  | cons character stretch ih => exact congrArg (character :: ·) ih

@[simp] theorem after_keepAll (stretch : List Char) : after (keepAll stretch) = stretch := by
  induction stretch with
  | nil => rfl
  | cons character stretch ih => exact congrArg (character :: ·) ih

@[simp] theorem before_replace (stretch text : List Char) :
    before (replace stretch text) = stretch := by
  unfold replace
  split <;> simp [old]

@[simp] theorem after_replace (stretch text : List Char) :
    after (replace stretch text) = text := by
  unfold replace
  split <;> simp_all [new]

theorem forall_keepAll {holds : Retouch → Prop} (keeps : ∀ character, holds (keep character))
    (stretch : List Char) : ∀ retouch ∈ keepAll stretch, holds retouch := by
  intro retouch isMember
  obtain ⟨character, -, rfl⟩ := List.mem_map.mp isMember
  exact keeps character

theorem forall_replace {holds : Retouch → Prop} (keeps : ∀ character, holds (keep character))
    {stretch text : List Char} (changes : holds (change stretch text)) :
    ∀ retouch ∈ replace stretch text, holds retouch := by
  unfold replace
  split
  · exact forall_keepAll keeps stretch
  · exact List.forall_mem_singleton.mpr changes

end Retouch

open Retouch (before after keepAll replace)

/-! ## Stretches of a match -/

/-- The text between two positions behind a place. -/
def Cursor.stretch (base : Cursor) (start stop : Nat) : List Char :=
  (base.after.drop (start - base.position)).take (stop - start)

theorem Cursor.stretch_append (base : Cursor) {start middle stop : Nat}
    (above : base.position ≤ start) (first : start ≤ middle) (second : middle ≤ stop) :
    base.stretch start middle ++ base.stretch middle stop = base.stretch start stop := by
  have size : stop - start = (middle - start) + (stop - middle) := by omega
  have place : middle - base.position = (start - base.position) + (middle - start) := by omega
  rw [stretch, stretch, stretch, size, place, List.take_add, List.drop_drop]

theorem Cursor.stretch_past {base : Cursor} {front covered rest : List Char}
    (afterEq : base.after = front ++ (covered ++ rest)) :
    base.stretch (base.position + front.length) (base.position + (front ++ covered).length) =
      covered := by
  have size : base.position + (front ++ covered).length - (base.position + front.length) =
      covered.length := by
    rw [List.length_append]
    omega
  rw [stretch, size, Nat.add_sub_cancel_left, afterEq, List.drop_left, List.take_left]

namespace Match

/-- The text of a match. -/
def covered (found : Match) : List Char :=
  found.start.stretch found.start.position found.stop.position

/-- The retouches of a match from a position on that keep some of its groups, each behind a
text that is put in front of it, and put a last text behind them. -/
def fill (found : Match) (last : List Char) : Nat → List (List Char × Nat) → List Retouch
  | start, [] => replace (found.start.stretch start found.stop.position) last
  | start, (text, index) :: rest =>
      match found.groups.find? (·.index == index) with
      | some group =>
          replace (found.start.stretch start group.start) text ++
            keepAll (found.start.stretch group.start group.stop) ++
            found.fill last group.stop rest
      | none => replace [] text ++ found.fill last start rest

theorem after_fill (found : Match) (last : List Char) (start : Nat)
    (kept : List (List Char × Nat)) :
    after (found.fill last start kept) =
      kept.flatMap (fun part => part.1 ++ found.group part.2) ++ last := by
  induction kept generalizing start with
  | nil => simp [fill]
  | cons part kept ih =>
      obtain ⟨text, index⟩ := part
      rw [fill, List.flatMap_cons, group]
      cases found.groups.find? (·.index == index) <;> simp [ih, Cursor.stretch]

end Match

/-! ### Groups in a row -/

/-- Groups lie one behind the other, in the given order, between two positions, and the
stretches between them avoid a character. -/
def InRow (base : Cursor) (groups : List Group) (character : Char) : Nat → List Nat → Nat → Prop
  | start, [], stop => start ≤ stop ∧ character ∉ base.stretch start stop
  | start, index :: rest, stop =>
      ∃ group, groups.find? (·.index == index) = some group ∧ start ≤ group.start ∧
        group.start ≤ group.stop ∧ character ∉ base.stretch start group.start ∧
        InRow base groups character group.stop rest stop

/-- A stretch in front that avoids the character lengthens a row. -/
theorem InRow.extend {base : Cursor} {groups : List Group} {character : Char}
    {start middle stop : Nat} {indices : List Nat}
    (row : InRow base groups character middle indices stop) (above : base.position ≤ start)
    (later : start ≤ middle) (avoids : character ∉ base.stretch start middle) :
    InRow base groups character start indices stop := by
  have longer {further : Nat} (behind : middle ≤ further)
      (outside : character ∉ base.stretch middle further) :
      character ∉ base.stretch start further := by
    rw [← base.stretch_append above later behind, List.mem_append, not_or]
    exact ⟨avoids, outside⟩
  cases indices with
  | nil => exact ⟨Nat.le_trans later row.1, longer row.1 row.2⟩
  | cons index indices =>
      obtain ⟨group, isFound, behind, ordered, outside, row⟩ := row
      exact ⟨group, isFound, Nat.le_trans later behind, ordered, longer behind outside, row⟩

theorem Match.before_fill {found : Match} {last : List Char} {start : Nat}
    {kept : List (List Char × Nat)} {character : Char}
    (row : InRow found.start found.groups character start (kept.map Prod.snd)
      found.stop.position) (above : found.start.position ≤ start) :
    before (found.fill last start kept) = found.start.stretch start found.stop.position := by
  induction kept generalizing start with
  | nil => simp [fill]
  | cons part kept ih =>
      obtain ⟨group, isFound, behind, ordered, -, row⟩ := row
      have aboveStop : found.start.position ≤ group.stop := by omega
      have toStop : group.stop ≤ found.stop.position := by
        clear ih
        generalize kept.map Prod.snd = indices at row
        generalize group.stop = position at row
        induction indices generalizing position with
        | nil => exact row.1
        | cons index indices ih =>
            obtain ⟨next, -, behind, ordered, -, row⟩ := row
            exact Nat.le_trans behind (Nat.le_trans ordered (ih _ row))
      rw [fill, isFound]
      simp only [Retouch.before_append, Retouch.before_replace, Retouch.before_keepAll]
      rw [ih row aboveStop, found.start.stretch_append above behind ordered,
        found.start.stretch_append above (by omega) toStop]

/-- What a row leaves between its groups avoids the character. -/
theorem Match.forall_fill {found : Match} {last : List Char} {start : Nat}
    {kept : List (List Char × Nat)} {character : Char}
    (row : InRow found.start found.groups character start (kept.map Prod.snd)
      found.stop.position) {holds : Retouch → Prop}
    (keeps : ∀ other, holds (.keep other))
    (changes : ∀ stretch text, character ∉ stretch → text ∈ last :: kept.map Prod.fst →
      holds (.change stretch text)) :
    ∀ retouch ∈ found.fill last start kept, holds retouch := by
  induction kept generalizing start with
  | nil => exact Retouch.forall_replace keeps (changes _ _ row.2 (by simp))
  | cons part kept ih =>
      obtain ⟨group, isFound, -, -, outside, row⟩ := row
      rw [fill, isFound]
      intro retouch isMember
      simp only [List.mem_append] at isMember
      rcases isMember with (isChange | isKept) | isLater
      · exact Retouch.forall_replace keeps (changes _ _ outside (by simp)) retouch isChange
      · exact Retouch.forall_keepAll keeps _ retouch isKept
      · refine ih row (fun stretch text outside isText => changes stretch text outside ?_) retouch
          isLater
        rcases List.mem_cons.mp isText with rfl | isText
        · simp
        · simp [isText]

namespace Pattern

theorem mem_ways_inOrder_cons {part : Pattern} {parts : List Pattern} {attempt way : Attempt} :
    way ∈ (inOrder (part :: parts)).ways attempt ↔
      ∃ middle ∈ part.ways attempt, way ∈ (inOrder parts).ways middle := by
  cases parts with
  | nil => simp [inOrder, mem_ways_empty]
  | cons other parts => exact mem_ways_sequence

/-- Whether a pattern is a group as a whole. -/
def isGroup : Pattern → Bool
  | .group _ _ => true
  | _ => false

/-- The groups of patterns in a row that are groups as a whole. -/
def rowOf : List Pattern → List Nat
  | [] => []
  | .group index _ :: rest => index :: rowOf rest
  | _ :: rest => rowOf rest

theorem rowOf_cons {part : Pattern} (noGroup : part.isGroup = false) (parts : List Pattern) :
    rowOf (part :: parts) = rowOf parts := by
  cases part with
  | group index inner => nomatch noGroup
  | _ => rfl

/-- The groups that a way goes through are those of its pattern. -/
theorem index_of_marks {base : Cursor} {pattern : Pattern} {previous : Option Char}
    {covered rest : List Char} {marked : List Group} {notes : List NotedText}
    (marks : List.Forall₂ (Group.Marks base) marked notes)
    (covers : pattern.Covers previous covered rest notes) :
    ∀ group ∈ marked, group.index ∈ pattern.groupIndices := by
  have known := index_mem_groupIndices covers
  clear covers
  induction marks with
  | nil => nofun
  | cons mark marks ih =>
      obtain ⟨first, others⟩ := List.forall_mem_cons.mp known
      exact List.forall_mem_cons.mpr ⟨mark.1 ▸ first, ih others⟩

/-- The groups of patterns in a row lie in a row. -/
theorem inRow_of_mem_ways {character : Char} {parts : List Pattern}
    (avoid : ∀ part ∈ parts, (part.isGroup || part.avoids character) = true)
    (distinct : (parts.flatMap groupIndices).Nodup) {base : Cursor} {front rest : List Char}
    {groups : List Group} {way : Attempt} (afterEq : base.after = front ++ rest)
    (isWay : way ∈ (inOrder parts).ways ⟨base.past front rest, groups⟩) :
    InRow base way.groups character (base.position + front.length) (rowOf parts)
        way.cursor.position ∧
      ∃ marked, way.groups = marked ++ groups ∧
        ∀ group ∈ marked, group.index ∈ parts.flatMap groupIndices := by
  induction parts generalizing front rest groups with
  | nil =>
      obtain rfl := mem_ways_empty.mp isWay
      exact ⟨⟨Nat.le_refl _, by simp [Cursor.stretch]⟩, [], rfl, nofun⟩
  | cons part parts ih =>
      obtain ⟨middle, isPart, isWay⟩ := mem_ways_inOrder_cons.mp isWay
      rw [List.flatMap_cons, List.nodup_append] at distinct
      obtain ⟨-, distinct, apart⟩ := distinct
      have avoidLater := fun other isOther => avoid other (List.mem_cons_of_mem part isOther)
      have above : base.position ≤ base.position + front.length := Nat.le_add_right ..
      by_cases isGroup : part.isGroup = true
      · obtain ⟨index, inner, rfl⟩ : ∃ index inner, part = .group index inner := by
          cases part with
          | group index inner => exact ⟨index, inner, rfl⟩
          | _ => nomatch isGroup
        obtain ⟨ending, isInner, rfl⟩ := mem_ways_group.mp isPart
        obtain ⟨covered, rest, marked, notes, rfl, rfl, marks, covers⟩ :=
          covers_of_mem_ways inner afterEq isInner
        obtain ⟨row, later, groupsEq, known⟩ :=
          ih avoidLater distinct (by rw [afterEq, List.append_assoc]) isWay
        refine ⟨?_, later ++ ⟨index, base.position + front.length,
          base.position + (front ++ covered).length⟩ :: marked, ?_, ?_⟩
        · refine ⟨⟨index, base.position + front.length,
            base.position + (front ++ covered).length⟩, ?_, Nat.le_refl _, ?_, ?_, row⟩
          · have others : later.find? (·.index == index) = none := by
              rw [List.find?_eq_none]
              intro group isLater same
              exact apart index (by simp [groupIndices]) _ (known group isLater) (by simp_all)
            rw [groupsEq, List.find?_append, others]
            simp
          · simp only [List.length_append]
            omega
          · simp [Cursor.stretch]
        · rw [groupsEq]
          simp
        · intro group isMember
          rw [List.flatMap_cons, List.mem_append]
          rcases List.mem_append.mp isMember with isLater | isHere
          · exact .inr (known group isLater)
          · refine .inl ?_
            rcases List.mem_cons.mp isHere with rfl | isInside
            · simp [groupIndices]
            · exact List.mem_cons_of_mem _ (index_of_marks marks covers group isInside)
      · obtain ⟨covered, rest, marked, notes, rfl, rfl, marks, covers⟩ :=
          covers_of_mem_ways part afterEq isPart
        obtain ⟨row, later, groupsEq, known⟩ :=
          ih avoidLater distinct (by rw [afterEq, List.append_assoc]) isWay
        rw [Bool.not_eq_true] at isGroup
        have avoids := avoid part List.mem_cons_self
        rw [isGroup, Bool.false_or] at avoids
        refine ⟨?_, later ++ marked, by rw [groupsEq, List.append_assoc], ?_⟩
        · rw [rowOf_cons isGroup]
          refine row.extend above (by simp only [List.length_append]; omega) ?_
          rw [Cursor.stretch_past afterEq]
          exact (covers.not_mem avoids).1
        · intro group isMember
          rw [List.flatMap_cons, List.mem_append]
          rcases List.mem_append.mp isMember with isLater | isHere
          · exact .inr (known group isLater)
          · exact .inl (index_of_marks marks covers group isHere)

/-- The groups of a match of patterns in a row lie in a row. -/
theorem inRow_of_matchAt {character : Char} {parts : List Pattern}
    (avoid : ∀ part ∈ parts, (part.isGroup || part.avoids character) = true)
    (distinct : (parts.flatMap groupIndices).Nodup) {place : Cursor} {found : Match}
    (isMatch : (inOrder parts).plainSearch.matchAt place = some found) :
    InRow found.start found.groups character found.start.position (rowOf parts)
      found.stop.position := by
  obtain ⟨way, isFirst, rfl⟩ := Option.map_eq_some_iff.mp isMatch
  have isWay : way ∈ (inOrder parts).ways ⟨place.past [] place.after, []⟩ := by
    rw [Cursor.past_nil]
    exact List.mem_of_mem_head? isFirst
  exact (inRow_of_mem_ways avoid distinct (List.nil_append _).symm isWay).1

end Pattern

/-! ## Going over a text -/

/-- An edit with its retouches of a match. -/
structure Retoucher where
  edit : Edit
  retouches : Match → List Retouch
  before_eq : ∀ {place : Cursor} {found : Match},
    edit.pattern.plainSearch.matchAt place = some found → before (retouches found) = found.covered
  after_eq : ∀ {place : Cursor} {found : Match},
    edit.pattern.plainSearch.matchAt place = some found →
      after (retouches found) = edit.replacement found

namespace Retoucher

/-- An edit that changes its matches as a whole. -/
def whole (edit : Edit) : Retoucher where
  edit := edit
  retouches found := replace found.covered (edit.replacement found)
  before_eq _ := Retouch.before_replace ..
  after_eq _ := Retouch.after_replace ..

/-- The retouches of a text from a position on, of which some characters have been
covered by the match before. -/
def goOver (retoucher : Retoucher) : Nat → Nat → Option Char → List Char → List Retouch
  | _, _, _, [] => []
  | left + 1, position, _, character :: rest =>
      retoucher.goOver left (position + 1) (some character) rest
  | 0, position, previous, character :: rest =>
      match retoucher.edit.pattern.plainSearch.matchAt ⟨position, previous, character :: rest⟩ with
      | some found =>
          if found.length = 0 then
            .keep character :: retoucher.goOver 0 (position + 1) (some character) rest
          else
            retoucher.retouches found ++
              retoucher.goOver (found.length - 1) (position + 1) (some character) rest
      | none => .keep character :: retoucher.goOver 0 (position + 1) (some character) rest

variable (retoucher : Retoucher)

/-- The retouches of a text of which the first match is changed. -/
def goToFirst (text : List Char) : List Retouch :=
  match retoucher.edit.pattern.find? text with
  | some found =>
      keepAll (text.take found.start.position) ++ retoucher.retouches found ++
        keepAll found.stop.after
  | none => keepAll text

/-- Retouches go over a text: its characters stay, and its matches are retouched. -/
inductive GoesOver : Option Char → List Char → List Retouch → Prop where
  | done (previous : Option Char) : GoesOver previous [] []
  | keep {previous : Option Char} {rest : List Char} {retouches : List Retouch}
      (character : Char) (behind : GoesOver (some character) rest retouches) :
      GoesOver previous (character :: rest) (.keep character :: retouches)
  | found {position : Nat} {previous : Option Char} {covered rest : List Char} {found : Match}
      {notes : List NotedText} {retouches : List Retouch}
      (isMatch : retoucher.edit.pattern.plainSearch.matchAt
        ⟨position, previous, covered ++ rest⟩ = some found)
      (isCovered : found.covered = covered)
      (covers : retoucher.edit.pattern.Covers previous covered rest notes)
      (groupEq : ∀ index, found.group index = notedUnder index notes)
      (behind : GoesOver (covered.getLast?.or previous) rest retouches) :
      GoesOver previous (covered ++ rest) (retoucher.retouches found ++ retouches)

variable {retoucher} {previous : Option Char} {text : List Char} {retouches : List Retouch}

theorem GoesOver.before_eq (goes : retoucher.GoesOver previous text retouches) :
    before retouches = text := by
  induction goes with
  | done previous => rfl
  | keep character behind ih => exact congrArg (character :: ·) ih
  | found isMatch isCovered covers groupEq behind ih =>
      rw [Retouch.before_append, retoucher.before_eq isMatch, isCovered, ih]

theorem GoesOver.keepRest (retoucher : Retoucher) (previous : Option Char) (text : List Char) :
    retoucher.GoesOver previous text (keepAll text) := by
  induction text generalizing previous with
  | nil => exact .done previous
  | cons character text ih => exact .keep character (ih _)

theorem GoesOver.keepFront (stretch : List Char)
    (behind : retoucher.GoesOver (stretch.getLast?.or previous) text retouches) :
    retoucher.GoesOver previous (stretch ++ text) (keepAll stretch ++ retouches) := by
  induction stretch generalizing previous with
  | nil => exact behind
  | cons character stretch ih =>
      rw [getLast?_cons_or] at behind
      exact .keep character (ih behind)

theorem goOver_skip (retoucher : Retoucher) (position : Nat) (previous : Option Char)
    (covered rest : List Char) :
    retoucher.goOver covered.length position previous (covered ++ rest) =
      retoucher.goOver 0 (position + covered.length) (covered.getLast?.or previous) rest := by
  induction covered generalizing position previous with
  | nil => rfl
  | cons character covered ih =>
      simp only [List.length_cons, List.cons_append, goOver]
      rw [ih, getLast?_cons_or, Nat.add_right_comm, Nat.add_assoc]

/-- Going over a text tells what replacing makes of it; where that is nothing new, replacing
may report that nothing fits. -/
theorem goOver_spec (retoucher : Retoucher) (position : Nat) (previous : Option Char)
    (text : List Char) :
    retoucher.GoesOver previous text (retoucher.goOver 0 position previous text) ∧
      ∀ (written : List Char) (replaced : Bool),
        retoucher.edit.pattern.plainSearch.replaceFrom retoucher.edit.replacement 0 position
            previous written replaced text =
          some (written.reverse ++ after (retoucher.goOver 0 position previous text)) ∨
        (replaced = false ∧ after (retoucher.goOver 0 position previous text) = text ∧
          retoucher.edit.pattern.plainSearch.replaceFrom retoucher.edit.replacement 0 position
            previous written replaced text = none) := by
  induction lengthEq : text.length using Nat.strongRecOn generalizing position previous text with
  | _ length ih =>
      subst lengthEq
      cases text with
      | nil =>
          refine ⟨.done previous, fun written replaced => ?_⟩
          cases replaced <;> simp [Searcher.replaceFrom, goOver]
      | cons character rest =>
          -- Without a match, and at a match of the empty text, the character stays.
          obtain ⟨goes, replaces⟩ :=
            ih rest.length (by simp) (position + 1) (some character) rest rfl
          have keeps (written : List Char) (replaced : Bool) :
              retoucher.edit.pattern.plainSearch.replaceFrom retoucher.edit.replacement 0
                (position + 1) (some character) (character :: written) replaced rest =
                some (written.reverse ++ after (.keep character ::
                  retoucher.goOver 0 (position + 1) (some character) rest)) ∨
              (replaced = false ∧ after (.keep character ::
                  retoucher.goOver 0 (position + 1) (some character) rest) = character :: rest ∧
                retoucher.edit.pattern.plainSearch.replaceFrom retoucher.edit.replacement 0
                  (position + 1) (some character) (character :: written) replaced rest = none) := by
            rcases replaces (character :: written) replaced with isSome | ⟨same, unchanged, isNone⟩
            · exact .inl (by simpa [Retouch.new] using isSome)
            · exact .inr ⟨same, by simp [Retouch.new, unchanged], isNone⟩
          simp only [Searcher.replaceFrom, goOver]
          cases isMatch : retoucher.edit.pattern.plainSearch.matchAt
              ⟨position, previous, character :: rest⟩ with
          | none => exact ⟨.keep character goes, keeps⟩
          | some found =>
              obtain ⟨covered, behind, notes, textEq, startEq, stopEq, covers, groupEq⟩ :=
                Pattern.covers_of_matchAt isMatch
              have lengthEq : found.length = covered.length := by
                simp [Match.length, startEq, stopEq]
              have isCovered : found.covered = covered := by
                have textEq : character :: rest = covered ++ behind := textEq
                rw [Match.covered, startEq, stopEq, Cursor.past_position, Cursor.stretch]
                simp [textEq]
              simp only [lengthEq]
              cases covered with
              | nil => exact ⟨.keep character goes, keeps⟩
              | cons first covered =>
                  obtain ⟨rfl, restEq⟩ := List.cons.inj textEq
                  have restEq : rest = covered ++ behind := restEq
                  subst restEq
                  simp only [List.length_cons, Nat.succ_ne_zero, if_false, Nat.add_sub_cancel]
                  rw [goOver_skip]
                  obtain ⟨goes, replaces⟩ := ih behind.length
                    (by simp only [List.length_cons, List.length_append]; omega)
                    (position + 1 + covered.length) (covered.getLast?.or (some character)) behind
                    rfl
                  constructor
                  · rw [← getLast?_cons_or character covered previous] at goes ⊢
                    exact .found isMatch isCovered covers groupEq goes
                  · intro written replaced
                    left
                    rw [Edit.replaceFrom_skip]
                    rcases replaces ((retoucher.edit.replacement found).reverse ++ written) true
                      with isSome | ⟨no, -⟩
                    · rw [isSome, Retouch.after_append, retoucher.after_eq isMatch]
                      simp
                    · simp at no

/-- What an edit makes of a text is the text after going over it. -/
theorem run_eq (retoucher : Retoucher) (text : List Char) :
    retoucher.edit.run text = after (retoucher.goOver 0 0 none text) := by
  rw [Edit.run, replaceAll_eq]
  rcases (retoucher.goOver_spec 0 none text).2 [] false with isSome | ⟨-, unchanged, isNone⟩
  · rw [isSome]
    rfl
  · rw [isNone, unchanged]
    rfl

/-- Replacing the first match is going to the first match. -/
theorem goToFirst_spec (retoucher : Retoucher) (text : List Char) :
    retoucher.GoesOver none text (retoucher.goToFirst text) ∧
      (retoucher.edit.pattern.replaceFirst retoucher.edit.replacement text).getD text =
        after (retoucher.goToFirst text) := by
  unfold goToFirst Pattern.replaceFirst
  cases isFound : retoucher.edit.pattern.find? text with
  | none => exact ⟨.keepRest retoucher none text, by simp⟩
  | some found =>
      have searched := isFound
      rw [find?_eq_findSome?] at searched
      obtain ⟨place, isPlace, isMatch⟩ := List.exists_of_findSome?_eq_some searched
      obtain ⟨front, textEq, positionEq, previousEq⟩ := placesOf_liesIn text place isPlace
      obtain ⟨covered, rest, notes, afterEq, startEq, stopEq, covers, groupEq⟩ :=
        Pattern.covers_of_matchAt isMatch
      have isCovered : found.covered = covered := by
        rw [Match.covered, startEq, stopEq, Cursor.past_position, Cursor.stretch]
        simp [afterEq]
      have frontEq : text.take found.start.position = front := by
        rw [startEq, positionEq, textEq, List.take_left]
      have restEq : found.stop.after = rest := by rw [stopEq, Cursor.past_after]
      rw [afterEq] at textEq
      obtain ⟨position, previous, behind⟩ := place
      obtain rfl : behind = covered ++ rest := afterEq
      obtain rfl : previous = front.getLast? := previousEq
      simp only [frontEq, restEq]
      refine ⟨?_, ?_⟩
      · rw [textEq, List.append_assoc]
        refine .keepFront front ?_
        rw [Option.or_none]
        exact .found isMatch isCovered covers groupEq (.keepRest retoucher _ rest)
      · simp [retoucher.after_eq isMatch, frontEq, restEq]

/-- What holds of kept characters and of the retouches of matches holds of all. -/
theorem GoesOver.forall_mem (goes : retoucher.GoesOver previous text retouches)
    {holds : Retouch → Prop} (keeps : ∀ character, holds (.keep character))
    (changes : ∀ (place : Cursor) (found : Match) (covered rest : List Char)
      (notes : List NotedText), retoucher.edit.pattern.plainSearch.matchAt place = some found →
      found.covered = covered →
      retoucher.edit.pattern.Covers place.previous covered rest notes →
      (∀ index, found.group index = notedUnder index notes) →
        ∀ retouch ∈ retoucher.retouches found, holds retouch) :
    ∀ retouch ∈ retouches, holds retouch := by
  induction goes with
  | done previous => nofun
  | keep character behind ih => exact List.forall_mem_cons.mpr ⟨keeps character, ih⟩
  | found isMatch isCovered covers groupEq behind ih =>
      exact List.forall_mem_append.mpr
        ⟨changes _ _ _ _ _ isMatch isCovered covers groupEq, ih⟩

/-- Retouches of whole matches strike them. -/
theorem GoesOver.struck {edit : Edit}
    (goes : (whole edit).GoesOver previous text retouches) :
    Struck edit.Strikes previous text (after retouches) := by
  induction goes with
  | done previous => exact .done previous
  | keep character behind ih => exact .keep character ih
  | @found position previous covered rest found notes retouches isMatch isCovered covers groupEq
      behind ih =>
      rw [Retouch.after_append, (whole edit).after_eq isMatch]
      exact .strike ⟨notes, found, covers, groupEq, rfl⟩ ih

end Retoucher

namespace Edit

/-- An edit strikes stretches of a text and keeps the rest. -/
theorem struck_run (edit : Edit) (text : List Char) :
    Struck edit.Strikes none text (edit.run text) := by
  have runEq : edit.run text = _ := (Retoucher.whole edit).run_eq text
  rw [runEq]
  exact ((Retoucher.whole edit).goOver_spec 0 none text).1.struck

/-- Replacing the first match strikes one stretch. -/
theorem struck_replaceFirst {edit : Edit} {text out : List Char}
    (replaced : edit.pattern.replaceFirst edit.replacement text = some out) :
    Struck edit.Strikes none text out := by
  obtain ⟨goes, outEq⟩ := (Retoucher.whole edit).goToFirst_spec text
  have replaced : (Retoucher.whole edit).edit.pattern.replaceFirst
      (Retoucher.whole edit).edit.replacement text = some out := replaced
  rw [replaced, Option.getD_some] at outEq
  rw [outEq]
  exact goes.struck

end Edit

end ScriptBridge

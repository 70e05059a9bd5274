import ScriptBridge.Normalize.Rule
import ScriptBridge.Proofs.Pattern.Ways

/-!
# Replacing, stretch by stretch

What an edit makes of a text is put together from what it makes of its stretches: a
stretch without a match stays, and a match gives way to its replacement.  Whether a
pattern fits at a place depends on the character before it and on the text behind it,
but not on how far into the text it lies.
-/

namespace ScriptBridge

namespace Pattern

/-- No match starts within a stretch, given the character before it and the text behind
it. -/
def MissesIn (pattern : Pattern) (previous : Option Char) (stretch rest : List Char) : Prop :=
  ∀ (before after : List Char) (position : Nat), stretch = before ++ after → after ≠ [] →
    pattern.ways ⟨⟨position, before.getLast?.or previous, after ++ rest⟩, []⟩ = []

namespace MissesIn

variable {pattern : Pattern} {previous : Option Char} {rest : List Char}

theorem nil : pattern.MissesIn previous [] rest := by
  intro before after position split isSome
  exact absurd (List.append_eq_nil_iff.mp split.symm).2 isSome

theorem append {first second : List Char}
    (inFirst : pattern.MissesIn previous first (second ++ rest))
    (inSecond : pattern.MissesIn (first.getLast?.or previous) second rest) :
    pattern.MissesIn previous (first ++ second) rest := by
  intro before after position split isSome
  rcases List.append_eq_append_iff.mp split with
    ⟨more, beforeEq, secondEq⟩ | ⟨more, firstEq, afterEq⟩
  · rw [beforeEq, List.getLast?_append, Option.or_assoc]
    exact inSecond more after position secondEq isSome
  · rw [afterEq, List.append_assoc]
    cases more with
    | nil =>
        obtain rfl : first = before := by simpa using firstEq
        obtain rfl : after = second := afterEq
        exact inSecond [] after position rfl isSome
    | cons character more => exact inFirst before (character :: more) position firstEq (by simp)

theorem ways_head {character : Char} {stretch : List Char}
    (misses : pattern.MissesIn previous (character :: stretch) rest) (position : Nat) :
    pattern.ways ⟨⟨position, previous, character :: (stretch ++ rest)⟩, []⟩ = [] :=
  misses [] (character :: stretch) position rfl (by simp)

theorem tail {character : Char} {stretch : List Char}
    (misses : pattern.MissesIn previous (character :: stretch) rest) :
    pattern.MissesIn (some character) stretch rest := by
  intro before after position split isSome
  have here := misses (character :: before) after position (by rw [split]; rfl) isSome
  rwa [getLast?_cons_or] at here

theorem cons {character : Char} {stretch : List Char}
    (atHead : ∀ position,
      pattern.ways ⟨⟨position, previous, character :: (stretch ++ rest)⟩, []⟩ = [])
    (inTail : pattern.MissesIn (some character) stretch rest) :
    pattern.MissesIn previous (character :: stretch) rest := by
  have inHead : pattern.MissesIn previous [character] (stretch ++ rest) := by
    intro before after position split isSome
    rcases List.append_eq_singleton_iff.mp split.symm with ⟨rfl, rfl⟩ | ⟨-, rfl⟩
    · exact atHead position
    · exact absurd rfl isSome
  exact inHead.append inTail

end MissesIn

end Pattern

/-! ## Edits -/

namespace Edit

/-- The text after an edit of all matches. -/
def run (edit : Edit) (text : List Char) : List Char :=
  (edit.pattern.replaceAll edit.replacement text).getD text

/-- The match that starts here covers the given stretch, which gives way to `new`. -/
structure Replaces (edit : Edit) (previous : Option Char) (covered rest new : List Char) :
    Prop where
  isSome : covered ≠ []
  found : ∀ position : Nat, ∃ groups : List Group,
    (edit.pattern.ways ⟨⟨position, previous, covered ++ rest⟩, []⟩).head? =
      some ⟨(⟨position, previous, covered ++ rest⟩ : Cursor).past covered rest, groups⟩ ∧
    edit.replacement ⟨⟨position, previous, covered ++ rest⟩,
      (⟨position, previous, covered ++ rest⟩ : Cursor).past covered rest, groups⟩ = new

/-- What an edit makes of a text, given the character before it. -/
inductive Rewrites (edit : Edit) : Option Char → List Char → List Char → Prop where
  | done (previous : Option Char) : Rewrites edit previous [] []
  | keep {previous : Option Char} {character : Char} {rest out : List Char}
      (misses : ∀ position, edit.pattern.ways ⟨⟨position, previous, character :: rest⟩, []⟩ = [])
      (behind : Rewrites edit (some character) rest out) :
      Rewrites edit previous (character :: rest) (character :: out)
  | replace {previous : Option Char} {covered rest new out : List Char}
      (replaces : edit.Replaces previous covered rest new)
      (behind : Rewrites edit (covered.getLast?.or previous) rest out) :
      Rewrites edit previous (covered ++ rest) (new ++ out)

theorem Rewrites.keepAll {edit : Edit} {previous : Option Char} {stretch rest out : List Char}
    (misses : edit.pattern.MissesIn previous stretch rest)
    (behind : edit.Rewrites (stretch.getLast?.or previous) rest out) :
    edit.Rewrites previous (stretch ++ rest) (stretch ++ out) := by
  induction stretch generalizing previous with
  | nil => exact behind
  | cons character stretch ih =>
      rw [getLast?_cons_or] at behind
      exact .keep misses.ways_head (ih misses.tail behind)

theorem replaceFrom_skip (search : Searcher) (replacement : Match → List Char) (position : Nat)
    (previous : Option Char) (written : List Char) (replaced : Bool)
    (covered rest : List Char) :
    search.replaceFrom replacement covered.length position previous written replaced
        (covered ++ rest) =
      search.replaceFrom replacement 0 (position + covered.length)
        (covered.getLast?.or previous) written replaced rest := by
  induction covered generalizing position previous with
  | nil => rfl
  | cons character covered ih =>
      simp only [List.length_cons, List.cons_append, Searcher.replaceFrom]
      rw [ih, getLast?_cons_or, Nat.add_right_comm, Nat.add_assoc]

/-- Replacing writes what the edit makes of the text; where it makes nothing new of it,
it may report that nothing fits. -/
theorem Rewrites.replaceFrom {edit : Edit} {previous : Option Char} {text out : List Char}
    (rewrites : edit.Rewrites previous text out) (position : Nat) (written : List Char)
    (replaced : Bool) :
    edit.pattern.plainSearch.replaceFrom edit.replacement 0 position previous written replaced
        text = some (written.reverse ++ out) ∨
      (replaced = false ∧ out = text ∧
        edit.pattern.plainSearch.replaceFrom edit.replacement 0 position previous written replaced
          text = none) := by
  induction rewrites generalizing position written replaced with
  | done => cases replaced <;> simp [Searcher.replaceFrom]
  | @keep previous character rest out misses behind ih =>
      have noMatch : edit.pattern.plainSearch.matchAt
          ⟨position, previous, character :: rest⟩ = none := by
        simp [Searcher.matchAt, Pattern.plainSearch, misses position]
      simp only [Searcher.replaceFrom, noMatch]
      rcases ih (position + 1) (character :: written) replaced with isSome | ⟨rfl, rfl, isNone⟩
      · exact Or.inl (by simpa using isSome)
      · exact Or.inr ⟨rfl, rfl, isNone⟩
  | @replace previous covered rest new out replaces behind ih =>
      obtain ⟨groups, first, newEq⟩ := replaces.found position
      obtain ⟨character, stretch, rfl⟩ := List.exists_cons_of_ne_nil replaces.isSome
      have found : edit.pattern.plainSearch.matchAt
          ⟨position, previous, character :: (stretch ++ rest)⟩ =
          some ⟨⟨position, previous, character :: (stretch ++ rest)⟩,
            (⟨position, previous, character :: (stretch ++ rest)⟩ : Cursor).past
              (character :: stretch) rest, groups⟩ := by
        simp only [Searcher.matchAt, Pattern.plainSearch]
        rw [List.cons_append] at first
        rw [first]
        rfl
      left
      rw [List.cons_append, Searcher.replaceFrom, found]
      simp only [Match.length, Cursor.past_position, List.length_cons, Nat.add_sub_cancel_left,
        Nat.add_sub_cancel, Nat.succ_ne_zero, if_false]
      rw [List.cons_append] at newEq
      rw [newEq, replaceFrom_skip, ← getLast?_cons_or character stretch previous]
      rcases ih (position + 1 + stretch.length) (new.reverse ++ written) true with isSome | ⟨no, -⟩
      · simpa using isSome
      · simp at no

/-- An edit leaves what it makes of the text. -/
theorem Rewrites.run_eq {edit : Edit} {text out : List Char}
    (rewrites : edit.Rewrites none text out) : edit.run text = out := by
  rw [run, replaceAll_eq]
  rcases rewrites.replaceFrom 0 [] false with isSome | ⟨-, same, isNone⟩
  · rw [isSome]
    rfl
  · rw [isNone, same]
    rfl

/-- Where nothing fits any more the rest stays. -/
theorem Rewrites.keepRest {edit : Edit} {previous : Option Char} {text : List Char}
    (misses : edit.pattern.MissesIn previous text []) : edit.Rewrites previous text text := by
  have rewrites : edit.Rewrites previous (text ++ []) (text ++ []) := .keepAll misses (.done _)
  simpa using rewrites

/-- An edit without a match leaves the text. -/
theorem run_of_misses {edit : Edit} {text : List Char}
    (misses : edit.pattern.MissesIn none text []) : edit.run text = text :=
  (Rewrites.keepRest misses).run_eq

end Edit

/-- A rule of edits makes them one after the other. -/
theorem Rule.run_ofEdits (name : String) (edits : List Edit) (text : List Char) :
    (Rule.ofEdits name edits).run text = edits.foldl (fun text edit => edit.run text) text := by
  change (Edit.applyAll edits text).getD text = _
  induction edits generalizing text with
  | nil => rfl
  | cons edit edits ih =>
      rw [Edit.applyAll, List.foldl_cons, ← ih]
      cases replaced : edit.pattern.replaceAll edit.replacement text <;>
        simp [Edit.run, replaced]

/-! ## The first match -/

theorem findSome?_placesFrom {pattern : Pattern} {previous : Option Char}
    {before after : List Char} {way : Attempt}
    (misses : pattern.MissesIn previous before after) (position : Nat)
    (fits : (pattern.ways ⟨⟨position + before.length, before.getLast?.or previous, after⟩,
      []⟩).head? = some way) :
    (placesFrom [] position previous (before ++ after)).findSome?
        pattern.plainSearch.matchAt =
      some ⟨⟨position + before.length, before.getLast?.or previous, after⟩, way.cursor,
        way.groups⟩ := by
  have matchEq (place : Cursor) : pattern.plainSearch.matchAt place =
      (pattern.ways ⟨place, []⟩).head?.map fun way => ⟨place, way.cursor, way.groups⟩ := rfl
  induction before generalizing position previous with
  | nil =>
      simp only [List.length_nil, Nat.add_zero, List.getLast?_nil, Option.none_or,
        List.nil_append] at fits ⊢
      obtain ⟨later, placesEq⟩ : ∃ later, placesFrom [] position previous after =
          ⟨position, previous, after⟩ :: later := by
        cases after with
        | nil => exact ⟨[], rfl⟩
        | cons character after => exact ⟨_, placesFrom_cons _ _ _ _⟩
      rw [placesEq, List.findSome?_cons, matchEq, fits]
      rfl
  | cons character before ih =>
      have lengthEq : position + (character :: before).length = position + 1 + before.length := by
        rw [List.length_cons]
        omega
      rw [getLast?_cons_or, lengthEq] at fits ⊢
      rw [List.cons_append, placesFrom_cons, List.findSome?_cons, matchEq, misses.ways_head]
      exact ih misses.tail (position + 1) fits

/-- The first match stands behind a stretch without one. -/
theorem Pattern.find?_append {pattern : Pattern} {before after : List Char} {way : Attempt}
    (misses : pattern.MissesIn none before after)
    (fits : (pattern.ways ⟨⟨before.length, before.getLast?, after⟩, []⟩).head? = some way) :
    pattern.find? (before ++ after) =
      some ⟨⟨before.length, before.getLast?, after⟩, way.cursor, way.groups⟩ := by
  have fitsBehind : (pattern.ways ⟨⟨0 + before.length, before.getLast?.or none, after⟩,
      []⟩).head? = some way := by simpa using fits
  rw [find?_eq_findSome?, placesOf, findSome?_placesFrom misses 0 fitsBehind]
  simp

/-- Replacing the first match changes nothing before and behind it. -/
theorem Pattern.replaceFirst_append {pattern : Pattern} {replacement : Match → List Char}
    {before covered rest new : List Char}
    (misses : pattern.MissesIn none before (covered ++ rest))
    (replaces : (Edit.mk pattern replacement).Replaces before.getLast? covered rest new) :
    pattern.replaceFirst replacement (before ++ (covered ++ rest)) =
      some (before ++ (new ++ rest)) := by
  obtain ⟨groups, first, newEq⟩ := replaces.found before.length
  rw [replaceFirst, find?_append misses first, Option.map_some]
  simp only [List.take_left, Cursor.past_after, List.append_assoc]
  rw [← newEq]

/-- Without a match nothing is replaced. -/
theorem Pattern.replaceFirst_eq_none {pattern : Pattern} {replacement : Match → List Char}
    {text : List Char} (misses : pattern.MissesIn none text [])
    (missesEnd : ∀ position previous, pattern.ways ⟨⟨position, previous, []⟩, []⟩ = []) :
    pattern.replaceFirst replacement text = none := by
  rw [replaceFirst, Option.map_eq_none_iff, find?_eq_findSome?, List.findSome?_eq_none_iff]
  intro place isPlace
  obtain ⟨before, textEq, -, previousEq⟩ := placesOf_liesIn text place isPlace
  obtain ⟨position, previous, after⟩ := place
  have noWay : pattern.ways ⟨⟨position, previous, after⟩, []⟩ = [] := by
    cases after with
    | nil => exact missesEnd position previous
    | cons character after =>
        have here := misses before (character :: after) position textEq (by simp)
        simp only [List.append_nil, Option.or_none] at here
        obtain rfl : previous = before.getLast? := previousEq
        exact here
  simp [Searcher.matchAt, plainSearch, noWay]

end ScriptBridge

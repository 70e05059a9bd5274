import ScriptBridge.Proofs.Normalize.Header
import ScriptBridge.Proofs.Normalize.Lighter
import Mathlib.Logic.Function.Iterate

/-!
# Normalisation settles

One round of normalisation need not be enough: a rule takes the matches that it finds
from left to right, and what it writes may fit it again.  But every rule makes a text
lighter or leaves it.  So no rule undoes what another one has done: a round that changes
nothing has changed nothing in between, and after finitely many rounds every rule leaves
the text.
-/

/-!
## Every rule relieves

The rules that look for more than two words, one after the other.
-/

namespace ScriptBridge

namespace Normalize

open Pattern

/-- A word that disappears with the blanks behind it. -/
theorem lighter_drop {previous : Option Char} {word gap : List Char} (plain : IsPlain word)
    (isBlank : gap.all Text.isBlank = true) (isSome : gap ≠ [])
    (begins : previous.any Text.isWord = false) (rest : List Char) :
    Lighter previous rest (word ++ (gap ++ rest)) := by
  refine .of_begins begins fun lead => ?_
  have gapIsSome := one_le_gapWeight isBlank isSome
  have atMost := weightFrom_le_other lead [] rest
  rw [plain.weightFrom_eq (any_head?_blanks isBlank isSome), weightFrom_gap isBlank isSome,
    Lead.spaced_other]
  omega

theorem relieves_stripFinal : Relieves stripFinal.run := by
  refine relieves_ofEdits (List.forall_mem_singleton.mpr ?_)
  rintro previous covered rest _ ⟨notes, found, covers, -, rfl⟩
  simp only [inOrder, covers_boundary_sequence, covers_text_sequence, covers_blanks] at covers
  obtain ⟨begins, gap, rfl, -, isBlank, isSome, -⟩ := covers
  rw [List.append_assoc] at begins
  have plain : IsPlain "final".toList := by decide
  refine ⟨append_ne_nil plain.isSome, plain.startsLike, Or.inr fun out _ => ?_⟩
  rw [List.nil_append, List.append_assoc]
  exact lighter_drop plain isBlank isSome
    (begins_of_edge plain.isSome plain.isWord begins) out

theorem relieves_stripFunctionKeyword : Relieves stripFunctionKeyword.run := by
  refine relieves_ofEdits (List.forall_mem_cons.mpr ⟨?_, List.forall_mem_singleton.mpr ?_⟩)
  · rintro previous covered rest _ ⟨notes, found, covers, groupEq, rfl⟩
    obtain ⟨modifier, isModifier, gap, isBlank, isSome, rfl, begins, ends, notedEq⟩ :=
      @of_covers_modified _ _ _ _ modifierTexts "function" covers
        (fun _ => isPlain_of_mem_modifierTexts) (by decide)
    have plain := isPlain_of_mem_modifierTexts isModifier
    have newEq : firstGroup found = _ := (groupEq 1).trans notedEq
    dsimp only
    rw [newEq]
    exact lightens_words plain (by decide) isBlank isSome begins ends
      (plain.weightFrom_le (Nat.le_add_right _ _))
  · rintro previous covered rest _ ⟨notes, found, covers, groupEq, rfl⟩
    simp only [namedFunction, inOrder, covers_group_sequence, covers_text_sequence,
      covers_blanks_sequence, covers_group] at covers
    obtain ⟨lead, _, _, _, rfl, rfl, atLead, _, rfl, gap, name, isBlank, isSome, rfl, _, rfl,
      behind⟩ := covers
    obtain rfl := notes_eq_nil behind rfl
    have plain : IsPlain "function".toList := by decide
    have newEq : found.group 1 ++ found.group 2 = lead ++ name := by
      simp [groupEq, notedUnder]
    dsimp only
    rw [newEq]
    have drops (previous : Option Char) (begins : previous.any Text.isWord = false)
        (out : List Char) : Lighter previous (name ++ out)
          (("function".toList ++ (gap ++ name)) ++ out) := by
      rw [List.append_assoc, List.append_assoc]
      exact lighter_drop plain isBlank isSome begins (name ++ out)
    rcases atLead with ⟨atStart, rfl, -⟩ | ⟨blank, isBlankLead, rfl, -⟩
    · obtain rfl : previous = none := by
        simpa [Condition.holdsBetween, Condition.holds] using atStart
      rw [List.nil_append, List.nil_append]
      exact ⟨append_ne_nil plain.isSome, plain.startsLike, Or.inr fun out _ => drops _ rfl out⟩
    · refine ⟨by simp, Or.inr rfl, Or.inr fun out _ => .cons (drops _ ?_ out)⟩
      exact Text.isWord_of_isBlank isBlankLead

/-! ## Type tests -/

/-- The word `is` with blanks on both sides weighs more than what takes its place. -/
theorem weightFrom_test (gap behind rest : List Char) (isBlank : gap.all Text.isBlank = true)
    (isSome : gap ≠ []) (behindIsBlank : behind.all Text.isBlank = true)
    (behindIsSome : behind ≠ []) (lead : Lead) (word : List Char) :
    weightFrom lead word (" instanceof ".toList ++ rest) + 2 ≤
      weightFrom lead word (gap ++ ("is".toList ++ (behind ++ rest))) := by
  have plainOld : IsPlain "is".toList := by decide
  have plainNew : IsPlain "instanceof".toList := by decide
  have gapIsSome := one_le_gapWeight isBlank isSome
  have behindIsSomeWeight := one_le_gapWeight behindIsBlank behindIsSome
  have oldWeight : spellingWeight "is".toList = 3 := by decide
  have newWeight : spellingWeight "instanceof".toList = 1 := by decide
  have newText : " instanceof ".toList ++ rest = ' ' :: ("instanceof".toList ++ (' ' :: rest)) :=
    rfl
  rw [newText, weightFrom_ends (any_head?_blanks isBlank isSome),
    weightFrom_ends (any_head?_mark (by decide)), weightFrom_space, weightFrom_gap isBlank isSome,
    plainOld.weightFrom_eq (any_head?_blanks behindIsBlank behindIsSome),
    plainNew.weightFrom_eq (any_head?_mark (by decide)), weightFrom_gap behindIsBlank behindIsSome,
    weightFrom_space]
  omega

theorem relieves_isToInstanceof : Relieves isToInstanceof.run := by
  refine relieves_ofEdits (List.forall_mem_cons.mpr ⟨?_, List.forall_mem_singleton.mpr ?_⟩)
  · rintro previous covered rest _ ⟨notes, found, covers, groupEq, rfl⟩
    have plain : IsPlain "if".toList := by decide
    obtain ⟨opening, gap, behind, isOpening, isBlank, isSome, behindIsBlank, behindIsSome, rfl,
      begins⟩ := of_covers_testInCondition covers
    have openingIsBlank : opening.all Text.isBlank = true := by
      rcases isOpening with rfl | ⟨blank, isBlank, rfl⟩
      · rfl
      · simpa using isBlank
    dsimp only
    rw [groupEq, groupEq]
    refine ⟨append_ne_nil plain.isSome, plain.startsLike, Or.inr fun out _ => .of_begins begins
      fun lead => ?_⟩
    have newText : ("if(".toList ++ notedUnder 1 notes ++ " instanceof ".toList ++
        notedUnder 2 notes ++ [')']) ++ out = "if".toList ++ ('(' :: (notedUnder 1 notes ++
          (" instanceof ".toList ++ (notedUnder 2 notes ++ (')' :: out))))) := by
      simp
    have oldText : ("if".toList ++ (opening ++ '(' :: (notedUnder 1 notes ++ (gap ++ ("is".toList ++
        (behind ++ (notedUnder 2 notes ++ [')']))))))) ++ out =
        "if".toList ++ (opening ++ '(' :: (notedUnder 1 notes ++ (gap ++ ("is".toList ++
          (behind ++ (notedUnder 2 notes ++ (')' :: out))))))) := by
      simp
    have lighter := weightFrom_append_add_le
      (weightFrom_test gap behind (notedUnder 2 notes ++ (')' :: out)) isBlank isSome behindIsBlank
        behindIsSome) .other [] (notedUnder 1 notes)
    rw [newText, oldText, plain.weightFrom_eq (any_head?_mark (by decide)),
      plain.weightFrom_eq (any_head?_maybeBlanks openingIsBlank (any_head?_mark (by decide))),
      weightFrom_lightMark (by decide), weightFrom_maybeGap openingIsBlank,
      weightFrom_lightMark (by decide)]
    omega
  · rintro previous covered rest _ ⟨notes, found, covers, groupEq, rfl⟩
    obtain ⟨character, opening, gap, behind, openingIsBlank, isBlank, isSome, behindIsBlank,
      behindIsSome, rfl, signEq⟩ := of_covers_testInAssignment covers
    dsimp only
    rw [groupEq, groupEq, groupEq, signEq]
    refine ⟨by simp, Or.inr rfl, Or.inr fun out _ => ?_⟩
    have newText : ([character, '='] ++ [' '] ++ notedUnder 2 notes ++ " instanceof ".toList ++
        notedUnder 3 notes) ++ out = character :: ('=' :: ' ' :: (notedUnder 2 notes ++
          (" instanceof ".toList ++ (notedUnder 3 notes ++ out)))) := by
      simp
    have oldText : (character :: '=' :: (opening ++ (notedUnder 2 notes ++ (gap ++ ("is".toList ++
        (behind ++ notedUnder 3 notes)))))) ++ out =
        character :: ('=' :: (opening ++ (notedUnder 2 notes ++
          (gap ++ ("is".toList ++ (behind ++ (notedUnder 3 notes ++ out))))))) := by
      simp
    have lighter := weightFrom_append_add_le
      (weightFrom_test gap behind (notedUnder 3 notes ++ out) isBlank isSome behindIsBlank
        behindIsSome)
      .other [] (notedUnder 2 notes)
    rw [newText, oldText]
    refine .cons (.of_forall fun lead word => ?_)
    rw [weightFrom_ends (any_head?_mark (by decide)),
      @weightFrom_ends lead word ('=' :: (opening ++ _)) (any_head?_mark (by decide)),
      weightFrom_lightMark (by decide), weightFrom_space, weightFrom_lightMark (by decide),
      weightFrom_maybeGap openingIsBlank, Lead.spaced_other]
    omega

theorem relieves_vectorToArray : Relieves vectorToArray.run := by
  have plainOld : IsPlain "Vector".toList := by decide
  have plainNew : IsPlain "Array".toList := by decide
  have oldWeight : spellingWeight "Vector".toList = 2 := by decide
  have newWeight : spellingWeight "Array".toList = 1 := by decide
  refine relieves_ofEdits (List.forall_mem_cons.mpr ⟨?_, List.forall_mem_singleton.mpr ?_⟩)
  · rintro previous covered rest _ ⟨notes, found, covers, -, rfl⟩
    simp only [inOrder, covers_boundary_sequence, covers_text] at covers
    obtain ⟨begins, rfl, -⟩ := covers
    have oldText (out : List Char) :
        "Vector.<".toList ++ out = "Vector".toList ++ ('.' :: '<' :: out) := rfl
    have newText (out : List Char) :
        "Array<".toList ++ out = "Array".toList ++ ('<' :: out) := rfl
    rw [oldText] at begins
    refine ⟨by decide, Or.inl (by decide), Or.inr fun out _ => .of_begins
      (begins_of_edge plainOld.isSome plainOld.isWord begins) fun lead => ?_⟩
    rw [oldText, newText, plainOld.weightFrom_eq (any_head?_mark (by decide)),
      plainNew.weightFrom_eq (any_head?_mark (by decide)),
      weightFrom_lightMark (by decide), weightFrom_lightMark (by decide),
      weightFrom_lightMark (by decide)]
    omega
  · rintro previous covered rest _ ⟨notes, found, covers, -, rfl⟩
    simp only [inOrder, covers_boundary_sequence, covers_text] at covers
    obtain ⟨begins, rfl, -⟩ := covers
    have oldText (out : List Char) : "Vector.".toList ++ out = "Vector".toList ++ ('.' :: out) :=
      rfl
    have newText (out : List Char) : "Array.".toList ++ out = "Array".toList ++ ('.' :: out) :=
      rfl
    rw [oldText] at begins
    refine ⟨by decide, Or.inl (by decide), Or.inr fun out _ => .of_begins
      (begins_of_edge plainOld.isSome plainOld.isWord begins) fun lead => ?_⟩
    rw [oldText, newText, plainOld.weightFrom_eq (any_head?_mark (by decide)),
      plainNew.weightFrom_eq (any_head?_mark (by decide)),
      weightFrom_lightMark (by decide)]
    omega

/-! ## Loops -/

/-- What the word `each` weighs lets something else grow a little. -/
theorem lightens_forEach {previous : Option Char} {rest gap before behind other new : List Char}
    (isBlank : gap.all Text.isBlank = true) (isSome : gap ≠ [])
    (beforeIsBlank : before.all Text.isBlank = true)
    (behindIsBlank : behind.all Text.isBlank = true)
    (begins : previous.any Text.isWord = false)
    (grows : ∀ out, weightFrom .other [] (new ++ out) ≤ weightFrom .other [] (other ++ out) + 40) :
    Lightens previous
      ("for".toList ++ (gap ++ ("each".toList ++ (before ++ '(' :: (behind ++ other))))) rest
      ("for (".toList ++ new) := by
  have plain : IsPlain "for".toList := by decide
  refine ⟨append_ne_nil plain.isSome, plain.startsLike, Or.inr fun out _ => .of_begins begins
    fun lead => ?_⟩
  have newText : ("for (".toList ++ new) ++ out =
      "for".toList ++ (' ' :: '(' :: (new ++ out)) := rfl
  have oldText : ("for".toList ++ (gap ++ ("each".toList ++ (before ++ '(' ::
      (behind ++ other))))) ++ out = "for".toList ++ (gap ++ ("each".toList ++ (before ++ '(' ::
        (behind ++ (other ++ out))))) := by
    simp
  have gapIsSome := one_le_gapWeight isBlank isSome
  have eachWeight : wordWeight .other "each".toList = 41 := by decide
  have behindEach : Lead.other.behindWord "each".toList = .other := by decide
  have atMost := grows out
  rw [newText, oldText, plain.weightFrom_eq (any_head?_mark (by decide)), weightFrom_space,
    Lead.spaced_other, weightFrom_lightMark (by decide),
    plain.weightFrom_eq (any_head?_blanks isBlank isSome), weightFrom_gap isBlank isSome,
    Lead.spaced_other, weightFrom_whole (by decide)
      (any_head?_maybeBlanks beforeIsBlank (any_head?_mark (by decide))), eachWeight, behindEach,
    weightFrom_maybeGap beforeIsBlank, weightFrom_lightMark (by decide),
    weightFrom_maybeGap behindIsBlank]
  omega

/-- A variable of a loop with what follows it. -/
theorem weightFrom_variable {name tail gap : List Char} (isWord : name.all Text.isWord = true)
    (isBlank : gap.all Text.isBlank = true) (isSome : gap ≠ [])
    (ends : ∀ out, (tail ++ (gap ++ out)).head?.any Text.isWord = false) (out : List Char) :
    weightFrom .other [] (name ++ (" of ".toList ++ out)) ≤
      weightFrom .other [] (name ++ (tail ++ (gap ++ out))) + 23 := by
  have plain : IsPlain "of".toList := by decide
  have newText : " of ".toList ++ out = ' ' :: ("of".toList ++ (' ' :: out)) := rfl
  have ofWeight : spellingWeight "of".toList = 1 := by decide
  have atMost : (Lead.other.behindWord name).spaced.bonus ≤ 20 := by
    cases (Lead.other.behindWord name).spaced <;> decide
  have atLeast := @le_weightFrom_append (gap ++ out) _ (fun lead word => by
    rw [weightFrom_ends (any_head?_blanks isBlank isSome), weightFrom_gap isBlank isSome]
    have spaced : weightFrom .other [] out ≤
        weightFrom (lead.behindWord word).spaced [] out := by
      cases lead.behindWord word with
      | imported => exact weightFrom_other_le_imported out
      | _ => exact Nat.le_refl _
    exact Nat.le_trans spaced (Nat.le_trans (Nat.le_add_left _ _) (Nat.le_add_left _ _)))
    (Lead.other.behindWord name) [] tail
  rw [newText, weightFrom_whole isWord (any_head?_mark (by decide)),
    weightFrom_whole isWord (ends out), weightFrom_space,
    plain.weightFrom_eq (any_head?_mark (by decide)), weightFrom_space, Lead.spaced_other]
  omega

theorem relieves_forEachToForOf : Relieves forEachToForOf.run := by
  refine relieves_ofEdits (List.forall_mem_cons.mpr ⟨?_, List.forall_mem_singleton.mpr ?_⟩)
  · rintro previous covered rest _ ⟨notes, found, covers, groupEq, rfl⟩
    obtain ⟨gap, before, behind, _, isBlank, isSome, beforeIsBlank, behindIsBlank, rfl, begins, _,
      behindHead⟩ := of_covers_forEachHead covers
    obtain ⟨kind, _, _, _, rfl, rfl, isKind, behindKind⟩ := covers_sequence.mp behindHead
    obtain ⟨isOne, rfl⟩ :=
      @mem_of_covers_anyOf _ _ _ _ ["var".toList, "let".toList] isKind
    simp only [inOrder, covers_blanks_sequence, covers_group_sequence, covers_words] at behindKind
    obtain ⟨second, _, secondIsBlank, secondIsSome, rfl, name, _, _, _, rfl, rfl,
      ⟨isWord, -, rfl⟩, behindName⟩ := behindKind
    obtain ⟨tail, final, finalIsBlank, finalIsSome, rfl, tailEnds, rfl⟩ :=
      of_covers_behindVariable behindName
    have nameEq : found.group 1 = name := groupEq 1
    have newText : "for (let ".toList ++ found.group 1 ++ " of ".toList =
        "for (".toList ++ ("let".toList ++ (' ' :: (name ++ " of ".toList))) := by
      rw [nameEq]
      rfl
    dsimp only
    rw [newText]
    refine lightens_forEach isBlank isSome beforeIsBlank behindIsBlank begins fun out => ?_
    have kinds : ∀ kind ∈ ["var".toList, "let".toList],
        (kind ≠ [] ∧ kind.all Text.isWord = true ∧ kind ≠ "import".toList ∧
          kind ≠ "each".toList) ∧ spellingWeight kind = 1 := by decide
    obtain ⟨⟨kindSome, kindIsWord, notImport, notEach⟩, kindWeight⟩ := kinds kind isOne
    have plainKind : IsPlain kind := ⟨kindSome, kindIsWord, notImport, notEach⟩
    have plainLet : IsPlain "let".toList := by decide
    have letWeight : spellingWeight "let".toList = 1 := by decide
    have secondWeight := one_le_gapWeight secondIsBlank secondIsSome
    have grows := weightFrom_variable isWord finalIsBlank finalIsSome tailEnds out
    simp only [List.append_assoc, List.cons_append]
    rw [plainLet.weightFrom_eq (any_head?_mark (by decide)), weightFrom_space, Lead.spaced_other,
      plainKind.weightFrom_eq (any_head?_blanks secondIsBlank secondIsSome),
      weightFrom_gap secondIsBlank secondIsSome, Lead.spaced_other]
    omega
  · rintro previous covered rest _ ⟨notes, found, covers, groupEq, rfl⟩
    obtain ⟨gap, before, behind, _, isBlank, isSome, beforeIsBlank, behindIsBlank, rfl, begins, _,
      covers⟩ := of_covers_forEachHead covers
    simp only [inOrder, covers_group_sequence, covers_words, covers_blanks_sequence,
      covers_text_sequence, covers_blanks] at covers
    obtain ⟨name, _, _, _, rfl, rfl, ⟨isWord, -, rfl⟩, last, _, lastIsBlank, lastIsSome, rfl, final,
      rfl, finalIsBlank, finalIsSome, rfl⟩ := covers
    have nameEq : found.group 1 = name := groupEq 1
    have newText : "for (".toList ++ found.group 1 ++ " of ".toList =
        "for (".toList ++ (name ++ " of ".toList) := by
      rw [nameEq]
      rfl
    dsimp only
    rw [newText]
    refine lightens_forEach isBlank isSome beforeIsBlank behindIsBlank begins fun out => ?_
    have grows := @weightFrom_variable _ (last ++ "in".toList) _ isWord finalIsBlank finalIsSome
      (fun out => by
        rw [List.append_assoc]
        exact any_head?_blanks lastIsBlank lastIsSome) out
    simp only [List.append_assoc] at grows ⊢
    omega

/-! ## New arrays -/

theorem relieves_newShorthands : Relieves newShorthands.run := by
  have plain : IsPlain "new".toList := by decide
  have newWeight : spellingWeight "new".toList = 1 := by decide
  refine relieves_ofEdits (List.forall_mem_cons.mpr ⟨?_, List.forall_mem_singleton.mpr ?_⟩)
  · rintro previous covered rest _ ⟨notes, found, covers, groupEq, rfl⟩
    simp only [inOrder, covers_boundary_sequence, covers_text_sequence, covers_blanks_sequence,
      covers_group_sequence, covers_oneOrMore, covers_maybeBlanks_sequence, covers_text] at covers
    obtain ⟨edge, _, rfl, gap, _, isBlank, isSome, rfl, _, rfl, item, _, _, _, rfl, rfl,
      ⟨-, -, rfl⟩, _, rfl, closing, _, closingIsBlank, rfl, rfl, rfl⟩ := covers
    have itemEq : found.group 1 = item := groupEq 1
    rw [List.append_assoc] at edge
    dsimp only
    rw [itemEq]
    refine ⟨append_ne_nil plain.isSome, plain.startsLike, Or.inr fun out _ => .of_begins
      (begins_of_edge plain.isSome plain.isWord edge) fun lead => ?_⟩
    have plainArray : IsPlain "Array".toList := by decide
    have gapIsSome := one_le_gapWeight isBlank isSome
    have newText : ("new Array<".toList ++ item ++ ">();".toList) ++ out = "new".toList ++
        (' ' :: ("Array".toList ++ ('<' :: (item ++ ('>' :: '(' :: ')' :: ';' :: out))))) := by
      simp
    have oldText : ("new".toList ++ (gap ++ ("Array<".toList ++ (item ++ (">".toList ++
        (closing ++ ";".toList)))))) ++ out = "new".toList ++ (gap ++ ("Array".toList ++
          ('<' :: (item ++ ('>' :: (closing ++ (';' :: out))))))) := by
      simp
    -- The semicolon weighs nothing behind the parentheses.
    have lighter := @weightFrom_append_add_le ('>' :: '(' :: ')' :: ';' :: out)
      ('>' :: (closing ++ (';' :: out))) 1 (fun lead word => by
        have newClosing : weightFrom .other [] (')' :: ';' :: out) = weightFrom .other [] out := by
          rw [weightFrom_mark (by decide), weightFrom_mark (by decide)]
          exact (Nat.zero_add _).trans (Nat.zero_add _)
        have oldClosing : weightFrom .other [] (';' :: out) = 1 + weightFrom .other [] out :=
          weightFrom_mark (by decide)
        rw [weightFrom_ends (any_head?_mark (by decide)),
          @weightFrom_ends lead word ('>' :: (closing ++ _)) (any_head?_mark (by decide)),
          weightFrom_lightMark (by decide), weightFrom_lightMark (by decide), newClosing,
          weightFrom_lightMark (by decide), weightFrom_maybeGap closingIsBlank, oldClosing]
        omega) .other [] item
    rw [newText, oldText, plain.weightFrom_eq (any_head?_mark (by decide)), weightFrom_space,
      Lead.spaced_other, plainArray.weightFrom_eq (any_head?_mark (by decide)),
      weightFrom_lightMark (by decide), plain.weightFrom_eq (any_head?_blanks isBlank isSome),
      weightFrom_gap isBlank isSome, Lead.spaced_other,
      plainArray.weightFrom_eq (any_head?_mark (by decide)), weightFrom_lightMark (by decide)]
    omega
  · rintro previous covered rest _ ⟨notes, found, covers, groupEq, rfl⟩
    simp only [inOrder, covers_boundary_sequence, covers_text_sequence,
      covers_maybeBlanks_sequence, covers_oneOrMore_sequence, covers_text] at covers
    obtain ⟨edge, _, rfl, gap, _, isBlank, rfl, _, rfl, item, _, -, -, rfl, _, rfl, closing, _,
      closingIsBlank, rfl, rfl, -⟩ := covers
    rw [List.append_assoc] at edge
    refine ⟨append_ne_nil plain.isSome, plain.startsLike, Or.inr fun out _ => .of_begins
      (begins_of_edge plain.isSome plain.isWord edge) fun lead => ?_⟩
    have oldText : ("new".toList ++ (gap ++ ("<".toList ++ (item ++ (">".toList ++
        (closing ++ "[".toList)))))) ++ out = "new".toList ++ (gap ++ ('<' ::
          ((item ++ ('>' :: closing)) ++ ('[' :: out)))) := by
      simp
    have atLeast := @le_weightFrom_append ('[' :: out) _ (fun lead word => by
      rw [weightFrom_ends (any_head?_mark (by decide)), weightFrom_lightMark (by decide)]
      exact Nat.le_add_left _ _) .other [] (item ++ ('>' :: closing))
    have newText : ['['] ++ out = '[' :: out := rfl
    rw [newText, oldText, weightFrom_lightMark (by decide), plain.weightFrom_eq
      (any_head?_maybeBlanks isBlank (any_head?_mark (by decide))), weightFrom_maybeGap isBlank,
      weightFrom_lightMark (by decide)]
    omega

/-! ## The package and the constructor -/

theorem relieves_packageToModule : Relieves packageToModule.run := by
  have plainOld : IsPlain "package".toList := by decide
  have plainNew : IsPlain "module".toList := by decide
  have oldWeight : spellingWeight "package".toList = 10 := by decide
  have newWeight : spellingWeight "module".toList = 1 := by decide
  refine @relieves_first ⟨packageHead, moduleHead⟩ ?_
  rintro previous covered rest _ ⟨notes, found, covers, groupEq, rfl⟩
  simp only [packageHead, inOrder, covers_boundary_sequence, covers_text_sequence,
    covers_group] at covers
  obtain ⟨edge, behind, rfl, ends, _, rfl, atEnd⟩ := covers
  have behindEq : found.group 1 = behind := groupEq 1
  have edge := begins_of_edge plainOld.isSome plainOld.isWord
    ((List.append_assoc _ behind rest) ▸ edge)
  have ends := ends_of_edge plainOld.isSome plainOld.isWord ends
  have brace (lead : Lead) (out : List Char) :
      weightFrom lead [] ('\x7b' :: out) = weightFrom .opening [] out :=
    (weightFrom_mark (by decide)).trans (by cases lead <;> exact Nat.zero_add _)
  have stays (lead : Lead) (out : List Char) (ends : out.head?.any Text.isWord = false) :
      weightFrom lead [] ("module".toList ++ out) <
        weightFrom lead [] ("package".toList ++ out) := by
    rw [plainOld.weightFrom_eq ends, plainNew.weightFrom_eq ends]
    omega
  dsimp only [moduleHead]
  rw [behindEq]
  refine ⟨append_ne_nil plainOld.isSome, plainOld.startsLike, Or.inr fun out _ =>
    .of_begins edge fun lead => ?_⟩
  rcases atEnd with opens | ⟨blank, isBlank, rfl, -⟩
  · simp only [covers_maybeBlanks_sequence, covers_text] at opens
    obtain ⟨gap, _, isBlank, rfl, rfl, -⟩ := opens
    split
    · have newText : ("module " ++ anonymousPackageName ++ " \x7b").toList ++ out =
          "module".toList ++ (' ' :: ("__package".toList ++ (' ' :: '\x7b' :: out))) := rfl
      have plainName : IsPlain "__package".toList := by decide
      have nameWeight : spellingWeight "__package".toList = 1 := by decide
      have oldText : ("package".toList ++ (gap ++ "\x7b".toList)) ++ out =
          "package".toList ++ (gap ++ ('\x7b' :: out)) := by
        simp
      rw [newText, oldText, plainNew.weightFrom_eq (any_head?_mark (by decide)),
        plainOld.weightFrom_eq (any_head?_maybeBlanks isBlank (any_head?_mark (by decide))),
        weightFrom_space, Lead.spaced_other, plainName.weightFrom_eq (any_head?_mark (by decide)),
        weightFrom_space, Lead.spaced_other, weightFrom_maybeGap isBlank, brace, Lead.bonus_other]
      omega
    · simp only [List.append_assoc]
      refine stays lead _ ?_
      exact any_head?_maybeBlanks isBlank (any_head?_mark (by decide))
  · have isBlank : Text.isBlank blank = true := isBlank
    have notBrace : Text.trim [blank] ≠ ['\x7b'] := by
      simp [Text.trim, isBlank]
    rw [if_neg notBrace, List.append_assoc, List.append_assoc]
    exact stays lead _ (any_head?_mark (Text.isWord_of_isBlank isBlank))

/-! ## Imports -/

/-- The path of a name weighs no more than the name, with the quote and the semicolon
behind it. -/
theorem weightFrom_path {name tail out : List Char}
    (isDotted : name.all (fun character => Text.isWord character || character == '.') = true)
    (ends : (tail ++ out).head?.any Text.isWord = false)
    (heavy : ∀ lead, weightFrom .other [] out ≤ weightFrom lead [] (tail ++ out))
    (word : List Char) :
    weightFrom .opening word (dottedPath name ++ ('"' :: ';' :: out)) ≤
      weightFrom .other word (name ++ (tail ++ out)) + 1 := by
  induction name generalizing word with
  | nil =>
      have words := wordWeight_opening_le .other word
      have later := heavy (Lead.other.behindWord word)
      have quote (lead : Lead) : weightFrom lead [] ('"' :: ';' :: out) =
          weightFrom .other [] out + 1 := by
        rw [weightFrom_mark (by decide), weightFrom_mark (by decide)]
        cases lead <;> exact (Nat.zero_add _).trans (Nat.add_comm _ _)
      simp only [dottedPath, List.map_nil, List.nil_append]
      rw [weightFrom_ends (any_head?_mark (by decide)), quote, weightFrom_ends ends]
      omega
  | cons character name ih =>
      simp only [List.all_cons, Bool.and_eq_true, Bool.or_eq_true, beq_iff_eq] at isDotted
      obtain ⟨isWord | rfl, isDotted⟩ := isDotted
      · have notDot : character ≠ '.' := by
          rintro rfl
          exact absurd isWord (by decide)
        have goesOn := ih isDotted (word ++ [character])
        simpa [dottedPath, weightFrom, isWord, notDot] using goesOn
      · have words := wordWeight_opening_le .other word
        have later := ih isDotted []
        have slash (lead : Lead) (rest : List Char) :
            weightFrom lead [] ('/' :: rest) = weightFrom .opening [] rest := by
          rw [weightFrom_mark (by decide)]
          cases lead <;> exact Nat.zero_add _
        have pathEq : dottedPath ('.' :: name) = '/' :: dottedPath name := rfl
        rw [pathEq, List.cons_append, List.cons_append,
          weightFrom_ends (any_head?_mark (by decide)), slash,
          weightFrom_ends (any_head?_mark (by decide)), weightFrom_lightMark (by decide)]
        omega

theorem wordWeight_opening_le_ten (word : List Char) : wordWeight .opening word ≤ 10 := by
  have spelled := spellingWeight_le word
  simp only [wordWeight, Lead.bonus]
  split_ifs <;> simp_all

theorem relieves_destructureImports : Relieves destructureImports.run := by
  refine relieves_ofEdits (List.forall_mem_singleton.mpr ?_)
  rintro previous covered rest _ ⟨notes, found, covers, groupEq, rfl⟩
  obtain ⟨gap, tail, indentIsBlank, isBlank, isSome, isDotted, startsWord, goesOn, rfl, begins,
    atEnd⟩ := of_covers_importLine covers
  dsimp only
  rw [groupEq, groupEq]
  generalize notedUnder 1 notes = indent at *
  generalize notedUnder 2 notes = name at *
  have newText (out : List Char) : (indent ++ "import \x7b".toList ++ lastSegment name ++
      "\x7d from \"".toList ++ dottedPath name ++ "\";".toList) ++ out =
      indent ++ ("import".toList ++ (' ' :: '\x7b' :: (lastSegment name ++ ('\x7d' :: ' ' ::
        ("from".toList ++ (' ' :: '"' :: (dottedPath name ++ ('"' :: ';' :: out)))))))) := by
    simp
  have oldText (out : List Char) : (indent ++ ("import".toList ++ (gap ++ (name ++ tail)))) ++ out =
      indent ++ ("import".toList ++ (gap ++ (name ++ (tail ++ out)))) := by
    simp
  refine ⟨by simp, ?_, Or.inr fun out starts => .of_begins begins fun lead => ?_⟩
  · cases indent with
    | nil => exact Or.inl (@any_head?_word "import".toList _ (by decide) (by decide))
    | cons blank indent => exact Or.inr rfl
  · have restEnds : rest.head?.any Text.isWord = false := by
      cases rest with
      | nil => rfl
      | cons character rest =>
          have isLineFeed : character = '\n' := by simpa using atEnd
          rw [isLineFeed]
          exact any_head?_mark (by decide)
    have outBlank : out.head?.all Text.isBlank = true := by
      have same : out.head? = rest.head? :=
        starts.resolve_left (by rw [restEnds]; exact Bool.false_ne_true)
      rw [same]
      cases rest with
      | nil => rfl
      | cons character rest =>
          have isLineFeed : character = '\n' := by simpa using atEnd
          rw [isLineFeed, List.head?_cons, Option.all_some]
          decide
    obtain ⟨behind, indented⟩ := exists_weightFrom_indent lead indentIsBlank
    have plainFrom : IsPlain "from".toList := by decide
    have fromWeight : spellingWeight "from".toList = 1 := by decide
    have behindImport : behind.behindWord "import".toList = .imported := rfl
    have brace (rest : List Char) :
        weightFrom .imported [] ('\x7b' :: rest) = weightFrom .opening [] rest :=
      (weightFrom_mark (by decide)).trans (Nat.zero_add _)
    have quote (rest : List Char) :
        weightFrom .other [] ('"' :: rest) = weightFrom .opening [] rest :=
      (weightFrom_mark (by decide)).trans (Nat.zero_add _)
    have segmentIsWord := isWord_lastSegment isDotted
    have segmentWeight := wordWeight_opening_le_ten (lastSegment name)
    have pathWeight := weightFrom_path isDotted (goesOn out (starts.ends restEnds))
      (fun lead => le_weightFrom_append (weightFrom_other_le_of_blank outBlank) lead [] tail) []
    have gapIsSome := one_le_gapWeight isBlank isSome
    rw [newText, oldText, indented, indented,
      weightFrom_whole (by decide) (any_head?_mark (by decide)), behindImport, weightFrom_space,
      Lead.spaced, brace, weightFrom_whole segmentIsWord (any_head?_mark (by decide)),
      weightFrom_lightMark (by decide), weightFrom_space, Lead.spaced_other,
      plainFrom.weightFrom_eq (any_head?_mark (by decide)), weightFrom_space, Lead.spaced_other,
      quote, weightFrom_whole (by decide) (any_head?_blanks isBlank isSome), behindImport,
      weightFrom_gap isBlank isSome, Lead.spaced, weightFrom_imported_of_word (startsWord _),
      Lead.bonus_other]
    omega

theorem lightens_functionHead {name : List Char} (isWord : name.all Text.isWord = true)
    (isSome : name ≠ []) {previous : Option Char} {covered rest : List Char}
    {notes : List NotedText}
    (covers : (functionHead name).Covers previous covered rest notes) :
    Lightens previous covered rest "function constructor(".toList := by
  have plain : IsPlain "function".toList := by decide
  have plainNew : IsPlain "constructor".toList := by decide
  have newWeight : spellingWeight "constructor".toList = 0 := by decide
  simp only [functionHead, inOrder, covers_boundary_sequence, covers_text_sequence,
    covers_blanks_sequence, covers_literal_sequence, covers_maybeBlanks_sequence,
    covers_text] at covers
  obtain ⟨edge, _, rfl, gap, _, isBlank, gapIsSome, rfl, _, rfl, closing, _, closingIsBlank, rfl,
    rfl, -⟩ := covers
  rw [List.append_assoc] at edge
  refine ⟨append_ne_nil plain.isSome, plain.startsLike, ?_⟩
  by_cases same : name = "constructor".toList ∧ gap = [' '] ∧ closing = []
  · obtain ⟨rfl, rfl, rfl⟩ := same
    exact Or.inl rfl
  · refine Or.inr fun out _ => .of_begins
      (begins_of_edge plain.isSome plain.isWord edge) fun lead => ?_
    have newText : "function constructor(".toList ++ out =
        "function".toList ++ (' ' :: ("constructor".toList ++ ('(' :: out))) := rfl
    have oldText : ("function".toList ++ (gap ++ (name ++ (closing ++ "(".toList)))) ++ out =
        "function".toList ++ (gap ++ (name ++ (closing ++ ('(' :: out)))) := by
      simp
    obtain ⟨behind, closes⟩ :=
      exists_weightFrom_indent (Lead.other.behindWord name) closingIsBlank
    have nameWeight := @spellingWeight_le_wordWeight .other name isSome
    have gapIsSomeWeight := one_le_gapWeight isBlank gapIsSome
    -- Something is taken: a letter of the name, a blank in front of it or one behind it.
    have heavier : 2 ≤ gapWeight gap + spellingWeight name + gapWeight closing := by
      by_cases isNew : name = "constructor".toList
      · rcases eq_space_or_two_le isBlank gapIsSome with isSpace | heavy
        · have closingIsSome : closing ≠ [] := fun none => same ⟨isNew, isSpace, none⟩
          have closingWeight := one_le_gapWeight closingIsBlank closingIsSome
          omega
        · omega
      · have spelled := one_le_spellingWeight isNew
        omega
    rw [newText, oldText, plain.weightFrom_eq (any_head?_mark (by decide)), weightFrom_space,
      Lead.spaced_other, plainNew.weightFrom_eq (any_head?_mark (by decide)),
      weightFrom_lightMark (by decide), plain.weightFrom_eq (any_head?_blanks isBlank gapIsSome),
      weightFrom_gap isBlank gapIsSome, Lead.spaced_other, weightFrom_whole isWord
        (any_head?_maybeBlanks closingIsBlank (any_head?_mark (by decide))), closes,
      weightFrom_lightMark (by decide), Lead.bonus_other, newWeight]
    omega

theorem relieves_renameConstructor : Relieves renameConstructor.run := by
  intro text
  simp only [Rule.run, renameConstructor]
  cases isFound : classHead.find? text with
  | none => exact Or.inl rfl
  | some head =>
      obtain ⟨isWord, isSome⟩ := isWord_of_classHead isFound
      dsimp only
      split
      · refine @relieves_first ⟨functionHead (head.group 1), fun _ => _⟩ ?_ text
        rintro previous covered rest _ ⟨notes, found, covers, -, rfl⟩
        exact lightens_functionHead isWord isSome covers
      · exact Or.inl rfl

end Normalize

end ScriptBridge

/-! ## Rounds of normalisation -/

namespace ScriptBridge

namespace Normalize

/-- Every rule leaves a text or makes it lighter. -/
theorem relieves_of_mem_rules {rule : Rule} (isRule : rule ∈ rules) : Relieves rule.run := by
  simp only [rules, List.mem_cons, List.not_mem_nil, or_false] at isRule
  obtain rfl | rfl | rfl | rfl | rfl | rfl | rfl | rfl | rfl | rfl | rfl | rfl := isRule
  · exact relieves_renameConstructor
  · exact relieves_stripFinal
  · exact relieves_exportPublicTypes
  · exact relieves_packageToModule
  · exact relieves_destructureImports
  · exact relieves_stripFieldVar
  · exact relieves_stripOverride
  · exact relieves_stripFunctionKeyword
  · exact relieves_isToInstanceof
  · exact relieves_vectorToArray
  · exact relieves_forEachToForOf
  · exact relieves_newShorthands

theorem relieves_normalizeText : Relieves normalizeText :=
  relieves_foldl fun _ => relieves_of_mem_rules

/-- Changes that relieve leave a text together only if each of them leaves it. -/
theorem foldl_eq_iff {Step : Type} {run : Step → List Char → List Char} {steps : List Step}
    (relieve : ∀ step ∈ steps, Relieves (run step)) (text : List Char) :
    steps.foldl (fun text step => run step text) text = text ↔
      ∀ step ∈ steps, run step text = text := by
  induction steps with
  | nil => simp
  | cons step steps ih =>
      have relieveLater : ∀ step ∈ steps, Relieves (run step) :=
        fun other isOther => relieve other (by simp [isOther])
      rw [List.foldl_cons, List.forall_mem_cons]
      rcases relieve step (by simp) text with same | first
      · rw [same, ih relieveLater]
        exact (and_iff_right rfl).symm
      · -- What the first change has taken is not brought back by the others.
        have later := relieves_foldl relieveLater (run step text)
        refine ⟨fun whole => ?_, fun each => ?_⟩
        · dsimp only at later
          rw [whole] at later
          rcases later with same | lighter
          · exact absurd (congrArg weight same).symm (Nat.ne_of_lt first)
          · exact absurd lighter (Nat.lt_asymm first)
        · exact absurd (congrArg weight each.1) (Nat.ne_of_lt first)

/-- A change that relieves settles after at most so many rounds as the text weighs. -/
theorem exists_rounds {change : List Char → List Char} (relieves : Relieves change)
    (text : List Char) :
    ∃ rounds ≤ weight text, change (change^[rounds] text) = change^[rounds] text := by
  suffices settles : ∀ bound text, weight text ≤ bound →
      ∃ rounds ≤ weight text, change (change^[rounds] text) = change^[rounds] text from
    settles _ text (Nat.le_refl _)
  intro bound
  induction bound with
  | zero =>
      intro text none
      exact ⟨0, Nat.zero_le _, (relieves text).resolve_right (by omega)⟩
  | succ bound ih =>
      intro text atMost
      rcases relieves text with same | lighter
      · exact ⟨0, Nat.zero_le _, same⟩
      · obtain ⟨rounds, few, settled⟩ := ih (change text) (by omega)
        exact ⟨rounds + 1, by omega, settled⟩

theorem toList_iterate_normalize (rounds : Nat) (source : String) :
    (normalize^[rounds] source).toList = normalizeText^[rounds] source.toList := by
  induction rounds generalizing source with
  | zero => rfl
  | succ rounds ih =>
      rw [Function.iterate_succ_apply, Function.iterate_succ_apply, ih, normalize,
        String.toList_ofList]

/-- Normalising a normalised text again changes nothing exactly if every rule leaves it, and
after at most so many rounds as the source weighs every rule leaves the text. -/
theorem normalize_settles (source : String) :
    (normalize (normalize source) = normalize source ↔
      ∀ rule ∈ rules, rule.run (normalize source).toList = (normalize source).toList) ∧
    ∃ rounds ≤ weight source.toList, ∀ rule ∈ rules,
      rule.run (normalize^[rounds] source).toList = (normalize^[rounds] source).toList := by
  have settled (text : List Char) :
      normalizeText text = text ↔ ∀ rule ∈ rules, rule.run text = text :=
    foldl_eq_iff (fun _ => relieves_of_mem_rules) text
  constructor
  · rw [← settled, ← String.toList_inj, normalize, String.toList_ofList]
  · obtain ⟨rounds, few, same⟩ := exists_rounds relieves_normalizeText source.toList
    refine ⟨rounds, few, ?_⟩
    rw [toList_iterate_normalize, ← settled]
    exact same

/-- Of two type tests on a line one round takes only the last, and the next round takes the
other one: the rule for type tests does not leave a normalised text. -/
theorem normalize_twoTests :
    normalize "if (a is A) return 1; else if (b is B) return 2;" =
        "if(a is A) return 1; else if (b instanceof B) return 2;" ∧
      isToInstanceof.run "if(a is A) return 1; else if (b instanceof B) return 2;".toList =
        "if(a instanceof A) return 1; else if (b instanceof B) return 2;".toList ∧
      normalize (normalize "if (a is A) return 1; else if (b is B) return 2;") ≠
        normalize "if (a is A) return 1; else if (b is B) return 2;" := by
  decide +kernel

end Normalize

end ScriptBridge

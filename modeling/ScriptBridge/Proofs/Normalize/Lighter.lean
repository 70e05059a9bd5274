import ScriptBridge.Proofs.Normalize.Shapes
import ScriptBridge.Proofs.Normalize.Weight

/-!
# Rules make texts lighter

Wherever an edit strikes, the text becomes lighter, except where it puts the same text
back.  The edits are gone through one by one; what a strike takes from the weight is told
from the stretch that it covers and from what it puts there, behind any text and in front
of any text.
-/

namespace ScriptBridge

namespace Normalize

open Pattern

/-- A text is lighter than another one wherever the place behind the given character lies:
a started word is known to have ended if the character belongs to no word. -/
def Lighter (previous : Option Char) (light heavy : List Char) : Prop :=
  ∀ lead word, (previous.any Text.isWord = false → word = []) →
    weightFrom lead word light < weightFrom lead word heavy

/-- A text starts like another one, unless that one starts with a word. -/
def StartsLike (text out : List Char) : Prop :=
  text.head?.any Text.isWord = true ∨ out.head? = text.head?

namespace Lighter

variable {previous : Option Char} {light heavy : List Char}

theorem trans {middle : List Char} (first : Lighter previous light middle)
    (second : Lighter previous middle heavy) : Lighter previous light heavy :=
  fun lead word started => Nat.lt_trans (first lead word started) (second lead word started)

theorem cons {character : Char} (lighter : Lighter (some character) light heavy) :
    Lighter previous (character :: light) (character :: heavy) := by
  intro lead word _
  simp only [weightFrom]
  split
  · rename_i isWord
    exact lighter _ _ (by simp [isWord])
  · exact Nat.add_lt_add_left (lighter _ _ fun _ => rfl) _

theorem append {stretch : List Char}
    (lighter : Lighter (stretch.getLast?.or previous) light heavy) :
    Lighter previous (stretch ++ light) (stretch ++ heavy) := by
  induction stretch generalizing previous with
  | nil => exact lighter
  | cons character stretch ih =>
      rw [getLast?_cons_or] at lighter
      exact cons (ih lighter)

/-- Where no word goes on, only what stands before the place matters. -/
theorem of_begins (begins : previous.any Text.isWord = false)
    (lighter : ∀ lead, weightFrom lead [] light < weightFrom lead [] heavy) :
    Lighter previous light heavy := by
  intro lead word started
  obtain rfl := started begins
  exact lighter lead

/-- A text that is lighter everywhere is lighter here. -/
theorem of_forall
    (lighter : ∀ lead word, weightFrom lead word light < weightFrom lead word heavy) :
    Lighter previous light heavy :=
  fun lead word _ => lighter lead word

end Lighter

/-- Striking a stretch makes every text lighter, or puts back what was there. -/
structure Lightens (previous : Option Char) (covered rest new : List Char) : Prop where
  isSome : covered ≠ []
  head : StartsLike covered new
  lighter : new = covered ∨
    ∀ out, StartsLike rest out → Lighter previous (new ++ out) (covered ++ out)

theorem StartsLike.append {covered new rest out : List Char} (isSome : covered ≠ [])
    (starts : StartsLike covered new) : StartsLike (covered ++ rest) (new ++ out) := by
  obtain ⟨character, covered, rfl⟩ := List.exists_cons_of_ne_nil isSome
  refine starts.imp id fun same => ?_
  obtain ⟨tail, rfl⟩ := List.head?_eq_some_iff.mp same
  rfl

/-- Strikes that lighten make a text lighter or leave it. -/
theorem lighter_of_struck {previous : Option Char} {text out : List Char}
    (struck : Struck Lightens previous text out) :
    StartsLike text out ∧ (out = text ∨ Lighter previous out text) := by
  induction struck with
  | done previous => exact ⟨Or.inr rfl, Or.inl rfl⟩
  | keep character behind ih => exact ⟨Or.inr rfl, ih.2.imp (congrArg _) Lighter.cons⟩
  | @strike previous covered rest new out here behind ih =>
      refine ⟨here.head.append here.isSome, ?_⟩
      have later : covered ++ out = covered ++ rest ∨
          Lighter previous (covered ++ out) (covered ++ rest) :=
        ih.2.imp (congrArg _) Lighter.append
      rcases here.lighter with rfl | lighter
      · exact later
      · have first := lighter out ih.1
        rcases later with same | later
        · exact Or.inr (same ▸ first)
        · exact Or.inr (first.trans later)

/-- The weight of a text after a change, if the change leaves anything to weigh. -/
def Relieves (change : List Char → List Char) : Prop :=
  ∀ text, change text = text ∨ weight (change text) < weight text

theorem relieves_of_struck {change : List Char → List Char}
    (struck : ∀ text, change text = text ∨ Struck Lightens none text (change text)) :
    Relieves change := by
  intro text
  rcases struck text with same | struck
  · exact Or.inl same
  · exact (lighter_of_struck struck).2.imp id fun lighter => lighter _ _ fun _ => rfl

/-- An edit whose strikes all lighten relieves texts. -/
theorem relieves_edit {edit : Edit}
    (lightens : ∀ previous covered rest new, edit.Strikes previous covered rest new →
      Lightens previous covered rest new) : Relieves edit.run :=
  relieves_of_struck fun text => Or.inr ((edit.struck_run text).mono lightens)

/-! ## Plain words -/

theorem IsPlain.weightFrom_eq {lead : Lead} {word rest : List Char} (plain : IsPlain word)
    (ends : rest.head?.any Text.isWord = false) :
    weightFrom lead [] (word ++ rest) =
      spellingWeight word + lead.bonus + weightFrom .other [] rest := by
  rw [weightFrom_whole plain.isWord ends, wordWeight_of_ne plain.isSome plain.notEach,
    Lead.behindWord_of_ne plain.isSome plain.notImport]

theorem IsPlain.startsLike {word rest new : List Char} (plain : IsPlain word) :
    StartsLike (word ++ rest) new :=
  Or.inl (any_head?_word plain.isSome plain.isWord)

theorem StartsLike.ends {rest out : List Char} (starts : StartsLike rest out)
    (ends : rest.head?.any Text.isWord = false) : out.head?.any Text.isWord = false := by
  rcases starts with starts | same
  · rw [ends] at starts
    exact Bool.noConfusion starts
  · rw [same, ends]

theorem append_ne_nil {word rest : List Char} (isSome : word ≠ []) : word ++ rest ≠ [] := by
  simp [isSome]

/-! ## Rules of edits -/

theorem relieves_comp {first second : List Char → List Char} (one : Relieves first)
    (other : Relieves second) : Relieves fun text => second (first text) := by
  intro text
  change second (first text) = text ∨ weight (second (first text)) < weight text
  have later := other (first text)
  rcases one text with same | lighter
  · rw [same] at later ⊢
    exact later
  · rcases later with same | later
    · rw [same]
      exact Or.inr lighter
    · exact Or.inr (Nat.lt_trans later lighter)

/-- Changes that relieve texts relieve them one after the other. -/
theorem relieves_foldl {Step : Type} {run : Step → List Char → List Char} {steps : List Step}
    (relieve : ∀ step ∈ steps, Relieves (run step)) :
    Relieves fun text => steps.foldl (fun text step => run step text) text := by
  induction steps with
  | nil => exact fun text => Or.inl rfl
  | cons step steps ih =>
      exact relieves_comp (relieve step (by simp)) (ih fun other isOther =>
        relieve other (by simp [isOther]))

/-- A rule relieves texts if the strikes of its edits lighten. -/
theorem relieves_ofEdits {name : String} {edits : List Edit}
    (lightens : ∀ edit ∈ edits, ∀ previous covered rest new,
      edit.Strikes previous covered rest new → Lightens previous covered rest new) :
    Relieves (Rule.ofEdits name edits).run := by
  have folded := relieves_foldl fun edit isEdit => relieves_edit (lightens edit isEdit)
  intro text
  rw [Rule.run_ofEdits]
  exact folded text

/-- Replacing a first match relieves texts if its strike lightens. -/
theorem relieves_first {edit : Edit}
    (lightens : ∀ previous covered rest new,
      edit.Strikes previous covered rest new → Lightens previous covered rest new) :
    Relieves fun text => (edit.pattern.replaceFirst edit.replacement text).getD text := by
  refine relieves_of_struck fun text => ?_
  cases replaced : edit.pattern.replaceFirst edit.replacement text with
  | none => exact Or.inl rfl
  | some out => exact Or.inr ((Edit.struck_replaceFirst replaced).mono lightens)

/-! ## Two words -/

/-- Two words become something that weighs less. -/
theorem lightens_words {previous : Option Char} {rest first gap second new : List Char}
    (plainFirst : IsPlain first) (plainSecond : IsPlain second)
    (isBlank : gap.all Text.isBlank = true) (isSome : gap ≠ [])
    (begins : previous.any Text.isWord = false) (ends : rest.head?.any Text.isWord = false)
    (light : ∀ lead out, out.head?.any Text.isWord = false →
      weightFrom lead [] (new ++ out) ≤ spellingWeight first + spellingWeight second +
        lead.bonus + weightFrom .other [] out) :
    Lightens previous (first ++ (gap ++ second)) rest new where
  isSome := append_ne_nil plainFirst.isSome
  head := plainFirst.startsLike
  lighter := by
    refine Or.inr fun out starts => .of_begins begins fun lead => ?_
    have newWeight := light lead out (starts.ends ends)
    have gapIsSome := one_le_gapWeight isBlank isSome
    rw [List.append_assoc, List.append_assoc,
      plainFirst.weightFrom_eq (any_head?_blanks isBlank isSome), weightFrom_gap isBlank isSome,
      Lead.spaced_other, plainSecond.weightFrom_eq (starts.ends ends), Lead.bonus_other]
    omega

/-- The weight of one word that takes the place of two. -/
theorem IsPlain.weightFrom_le {word : List Char} (plain : IsPlain word) {most : Nat}
    (light : spellingWeight word ≤ most) (lead : Lead) (out : List Char)
    (ends : out.head?.any Text.isWord = false) :
    weightFrom lead [] (word ++ out) ≤ most + lead.bonus + weightFrom .other [] out := by
  rw [plain.weightFrom_eq ends]
  omega

/-- The weight of two words with a space between them. -/
theorem weightFrom_spaced_le {first second : List Char} (plainFirst : IsPlain first)
    (plainSecond : IsPlain second) {most : Nat}
    (light : spellingWeight first + spellingWeight second < most) (lead : Lead)
    (out : List Char) (ends : out.head?.any Text.isWord = false) :
    weightFrom lead [] ((first ++ ' ' :: second) ++ out) ≤
      most + lead.bonus + weightFrom .other [] out := by
  rw [List.append_assoc, plainFirst.weightFrom_eq (by simp; decide), List.cons_append,
    weightFrom_space, Lead.spaced_other, plainSecond.weightFrom_eq ends, Lead.bonus_other]
  omega

theorem relieves_exportPublicTypes : Relieves exportPublicTypes.run := by
  refine relieves_ofEdits (List.forall_mem_singleton.mpr ?_)
  rintro previous covered rest _ ⟨notes, found, covers, groupEq, rfl⟩
  have arePlain : ∀ chosen ∈ ["class".toList, "interface".toList],
      IsPlain chosen ∧ spellingWeight chosen = 1 := by
    simp only [List.forall_mem_cons]
    exact ⟨by decide, by decide, by simp⟩
  obtain ⟨chosen, isChosen, gap, isBlank, isSome, rfl, begins, ends, notedEq⟩ :=
    @of_covers_chosen _ _ _ _ ["class".toList, "interface".toList] "public" covers
      (fun chosen isChosen => (arePlain chosen isChosen).1) (by decide)
  obtain ⟨plain, chosenWeight⟩ := arePlain chosen isChosen
  have newEq : "export ".toList ++ found.group 1 = "export".toList ++ ' ' :: chosen := by
    rw [groupEq, notedEq]
    rfl
  dsimp only
  rw [newEq]
  refine lightens_words (by decide) plain isBlank isSome begins ends
    (weightFrom_spaced_le (by decide) plain ?_)
  rw [chosenWeight]
  decide

theorem relieves_stripFieldVar : Relieves stripFieldVar.run := by
  refine relieves_ofEdits (List.forall_mem_cons.mpr ⟨?_, List.forall_mem_singleton.mpr ?_⟩)
  · rintro previous covered rest _ ⟨notes, found, covers, groupEq, rfl⟩
    obtain ⟨modifier, isModifier, gap, isBlank, isSome, rfl, begins, ends, notedEq⟩ :=
      @of_covers_modified _ _ _ _ modifierTexts "var" covers
        (fun _ => isPlain_of_mem_modifierTexts) (by decide)
    have plain := isPlain_of_mem_modifierTexts isModifier
    have newEq : firstGroup found = _ := (groupEq 1).trans notedEq
    dsimp only
    rw [newEq]
    exact lightens_words plain (by decide) isBlank isSome begins ends
      (plain.weightFrom_le (Nat.le_add_right _ _))
  · rintro previous covered rest _ ⟨notes, found, covers, groupEq, rfl⟩
    obtain ⟨modifier, isModifier, gap, isBlank, isSome, rfl, begins, ends, notedEq⟩ :=
      @of_covers_modified _ _ _ _ modifierTexts "const" covers
        (fun _ => isPlain_of_mem_modifierTexts) (by decide)
    have plain := isPlain_of_mem_modifierTexts isModifier
    have newEq : found.group 1 ++ " readonly".toList = modifier ++ ' ' :: "readonly".toList := by
      rw [groupEq, notedEq]
      rfl
    dsimp only
    rw [newEq]
    exact lightens_words plain (by decide) isBlank isSome begins ends
      (weightFrom_spaced_le plain (by decide) (Nat.add_lt_add_left (by decide) _))

theorem relieves_stripOverride : Relieves stripOverride.run := by
  refine relieves_ofEdits (List.forall_mem_cons.mpr ⟨?_, List.forall_mem_singleton.mpr ?_⟩)
  · rintro previous covered rest _ ⟨notes, found, covers, groupEq, rfl⟩
    obtain ⟨modifier, isModifier, gap, isBlank, isSome, rfl, begins, ends, notedEq⟩ :=
      @of_covers_modified _ _ _ _ accessTexts "override" covers
        (fun _ => isPlain_of_mem_accessTexts) (by decide)
    have plain := isPlain_of_mem_accessTexts isModifier
    have newEq : firstGroup found = _ := (groupEq 1).trans notedEq
    dsimp only
    rw [newEq]
    exact lightens_words plain (by decide) isBlank isSome begins ends
      (plain.weightFrom_le (Nat.le_add_right _ _))
  · rintro previous covered rest _ ⟨notes, found, covers, groupEq, rfl⟩
    obtain ⟨chosen, isChosen, gap, isBlank, isSome, rfl, begins, ends, notedEq⟩ :=
      @of_covers_chosen _ _ _ _ accessTexts "override" covers
        (fun _ => isPlain_of_mem_accessTexts) (by decide)
    have plain := isPlain_of_mem_accessTexts isChosen
    have newEq : firstGroup found = _ := (groupEq 1).trans notedEq
    dsimp only
    rw [newEq]
    exact lightens_words (by decide) plain isBlank isSome begins ends
      (plain.weightFrom_le (Nat.le_add_left _ _))

end Normalize

end ScriptBridge

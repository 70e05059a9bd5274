import Mathlib.Algebra.GroupWithZero.Nat
import ScriptBridge.Normalize.Declarations
import ScriptBridge.Proofs.Pattern.Retouching

/-!
# The weight of a text

Each rule takes something from a text: a word, a blank, or a spelling of the source
language.  The weight of a text counts what the rules can still take, word by word and
mark by mark.  Two rules also add words, so what they look for weighs more than all that
they add: a word behind `import` and the blanks that follow it, and the word `each`
outside the braces, quotes and paths that the rule for imports writes.
-/

namespace ScriptBridge

namespace Normalize

/-- What stands before a place, as far as it matters for the weight of what follows. -/
inductive Lead where
  /-- A brace, a quote or a slash. -/
  | opening
  /-- A closing parenthesis. -/
  | closing
  /-- The word `import`, perhaps with blanks behind it. -/
  | imported
  | other
  deriving DecidableEq

namespace Lead

/-- What stands behind a word, which may be empty. -/
def behindWord (lead : Lead) (word : List Char) : Lead :=
  if word = [] then lead else if word = "import".toList then .imported else .other

/-- What stands behind a blank. -/
def spaced : Lead → Lead
  | .imported => .imported
  | _ => .other

/-- What stands behind a character that belongs to no word. -/
def behindMark (lead : Lead) (mark : Char) : Lead :=
  if Text.isBlank mark then lead.spaced
  else if mark = '\x7b' ∨ mark = '"' ∨ mark = '/' then .opening
  else if mark = ')' then .closing
  else .other

/-- What a word weighs more where it may be imported. -/
def bonus : Lead → Nat
  | .imported => 20
  | _ => 0

@[simp] theorem behindWord_nil (lead : Lead) : lead.behindWord [] = lead := rfl

theorem behindWord_cons (lead : Lead) (character : Char) (word : List Char) :
    lead.behindWord (character :: word) = other.behindWord (character :: word) := rfl

theorem behindWord_of_ne {lead : Lead} {word : List Char} (isSome : word ≠ [])
    (different : word ≠ "import".toList) : lead.behindWord word = .other := by
  rw [behindWord, if_neg isSome, if_neg different]

theorem behindMark_blank {lead : Lead} {mark : Char} (blank : Text.isBlank mark = true) :
    lead.behindMark mark = lead.spaced := by
  simp [behindMark, blank]

theorem behindMark_of_not_blank {lead : Lead} {mark : Char}
    (notBlank : Text.isBlank mark = false) : lead.behindMark mark = other.behindMark mark := by
  simp [behindMark, notBlank]

@[simp] theorem spaced_spaced (lead : Lead) : lead.spaced.spaced = lead.spaced := by
  cases lead <;> rfl

@[simp] theorem spaced_other : other.spaced = .other := rfl

@[simp] theorem bonus_other : other.bonus = 0 := rfl

end Lead

/-- What the spelling of a word weighs: more than one for words that rules replace by
other words. -/
def spellingWeight (word : List Char) : Nat :=
  if word = "package".toList then 10
  else if word = "is".toList then 3
  else if word = "public".toList ∨ word = "const".toList ∨ word = "Vector".toList then 2
  else if word = "constructor".toList then 0
  else 1

/-- What a word weighs, which may be empty. -/
def wordWeight (lead : Lead) (word : List Char) : Nat :=
  if word = [] then 0
  else spellingWeight word + lead.bonus +
    if word = "each".toList ∧ lead ≠ .opening then 40 else 0

/-- What a character weighs that belongs to no word. -/
def markWeight (lead : Lead) (mark : Char) : Nat :=
  if mark = ' ' then 1
  else if Text.isBlank mark then 2
  else if mark = ';' ∧ lead ≠ .closing then 1
  else 0

/-- What a text weighs behind a word that has been started. -/
def weightFrom (lead : Lead) (word : List Char) : List Char → Nat
  | [] => wordWeight lead word
  | character :: rest =>
      if Text.isWord character then weightFrom lead (word ++ [character]) rest
      else
        wordWeight lead word + markWeight (lead.behindWord word) character +
          weightFrom ((lead.behindWord word).behindMark character) [] rest

/-- What a text weighs. -/
def weight (text : List Char) : Nat :=
  weightFrom .other [] text

/-- What blanks weigh. -/
def gapWeight (gap : List Char) : Nat :=
  (gap.map (markWeight .other)).sum

/-! ## Words -/

theorem spellingWeight_le (word : List Char) : spellingWeight word ≤ 10 := by
  unfold spellingWeight
  split_ifs <;> omega

theorem one_le_spellingWeight {word : List Char} (different : word ≠ "constructor".toList) :
    1 ≤ spellingWeight word := by
  unfold spellingWeight
  split_ifs <;> omega

@[simp] theorem wordWeight_nil (lead : Lead) : wordWeight lead [] = 0 := rfl

theorem wordWeight_of_ne {lead : Lead} {word : List Char} (isSome : word ≠ [])
    (different : word ≠ "each".toList) :
    wordWeight lead word = spellingWeight word + lead.bonus := by
  rw [wordWeight, if_neg isSome, if_neg (fun isEach => different isEach.1), Nat.add_zero]

theorem spellingWeight_le_wordWeight {lead : Lead} {word : List Char} (isSome : word ≠ []) :
    spellingWeight word ≤ wordWeight lead word := by
  simp only [wordWeight, isSome, if_false]
  omega

theorem wordWeight_opening_le (lead : Lead) (word : List Char) :
    wordWeight .opening word ≤ wordWeight lead word := by
  by_cases isSome : word = []
  · simp [isSome]
  · simp [wordWeight, isSome, Lead.bonus]
    omega

theorem wordWeight_le_other (lead : Lead) (word : List Char) :
    wordWeight lead word ≤ wordWeight .other word + lead.bonus := by
  cases lead <;> simp only [wordWeight, Lead.bonus] <;> split_ifs <;> simp_all

theorem wordWeight_imported {word : List Char} (isSome : word ≠ []) :
    wordWeight .imported word = wordWeight .other word + 20 := by
  simp [wordWeight, isSome, Lead.bonus]
  omega

/-! ## Marks -/

theorem markWeight_le_other (lead : Lead) (mark : Char) :
    markWeight lead mark ≤ markWeight .other mark := by
  simp only [markWeight]
  split_ifs <;> simp_all

theorem markWeight_imported (mark : Char) :
    markWeight .imported mark = markWeight .other mark := by
  simp [markWeight]

theorem markWeight_blank {lead : Lead} {mark : Char} (blank : Text.isBlank mark = true) :
    markWeight lead mark = markWeight .other mark := by
  simp [markWeight, blank]

theorem one_le_markWeight {lead : Lead} {mark : Char} (blank : Text.isBlank mark = true) :
    1 ≤ markWeight lead mark := by
  simp only [markWeight, blank]
  split_ifs <;> omega

/-! ## Gaps -/

theorem gapWeight_cons (mark : Char) (gap : List Char) :
    gapWeight (mark :: gap) = markWeight .other mark + gapWeight gap := by
  simp [gapWeight]

theorem length_le_gapWeight {gap : List Char} (isBlank : gap.all Text.isBlank = true) :
    gap.length ≤ gapWeight gap := by
  induction gap with
  | nil => simp
  | cons mark gap ih =>
      simp only [List.all_cons, Bool.and_eq_true] at isBlank
      have first := @one_le_markWeight .other _ isBlank.1
      have later := ih isBlank.2
      rw [gapWeight_cons, List.length_cons]
      omega

theorem one_le_gapWeight {gap : List Char} (isBlank : gap.all Text.isBlank = true)
    (isSome : gap ≠ []) : 1 ≤ gapWeight gap :=
  Nat.le_trans (List.length_pos_iff.mpr isSome) (length_le_gapWeight isBlank)

/-- A single space is the lightest gap. -/
theorem eq_space_or_two_le {gap : List Char} (isBlank : gap.all Text.isBlank = true)
    (isSome : gap ≠ []) : gap = [' '] ∨ 2 ≤ gapWeight gap := by
  match gap with
  | [] => exact absurd rfl isSome
  | [mark] =>
      by_cases isSpace : mark = ' '
      · exact Or.inl (by rw [isSpace])
      · simp only [List.all_cons, List.all_nil, Bool.and_true] at isBlank
        right
        simp [gapWeight, markWeight, isSpace, isBlank]
  | first :: second :: gap =>
      have long := length_le_gapWeight isBlank
      simp only [List.length_cons] at long
      omega

/-! ## Stretches of a text -/

theorem weightFrom_word {lead : Lead} {started word rest : List Char}
    (isWord : word.all Text.isWord = true) :
    weightFrom lead started (word ++ rest) = weightFrom lead (started ++ word) rest := by
  induction word generalizing started with
  | nil => simp
  | cons character word ih =>
      simp only [List.all_cons, Bool.and_eq_true] at isWord
      rw [List.cons_append, weightFrom, if_pos isWord.1, ih isWord.2, List.append_assoc]
      rfl

/-- Where no word goes on, a started word ends. -/
theorem weightFrom_ends {lead : Lead} {word rest : List Char}
    (ends : rest.head?.any Text.isWord = false) :
    weightFrom lead word rest =
      wordWeight lead word + weightFrom (lead.behindWord word) [] rest := by
  cases rest with
  | nil => simp [weightFrom]
  | cons character rest =>
      have outside : Text.isWord character = false := by simpa using ends
      simp [weightFrom, outside, Nat.add_assoc]

/-- A whole word in front of a text. -/
theorem weightFrom_whole {lead : Lead} {word rest : List Char}
    (isWord : word.all Text.isWord = true) (ends : rest.head?.any Text.isWord = false) :
    weightFrom lead [] (word ++ rest) =
      wordWeight lead word + weightFrom (lead.behindWord word) [] rest := by
  rw [weightFrom_word isWord, List.nil_append, weightFrom_ends ends]

theorem weightFrom_mark {lead : Lead} {mark : Char} {rest : List Char}
    (outside : Text.isWord mark = false) :
    weightFrom lead [] (mark :: rest) =
      markWeight lead mark + weightFrom (lead.behindMark mark) [] rest := by
  simp [weightFrom, outside]

/-- Blanks in front of a text, at least one. -/
theorem weightFrom_gap {lead : Lead} {gap rest : List Char}
    (isBlank : gap.all Text.isBlank = true) (isSome : gap ≠ []) :
    weightFrom lead [] (gap ++ rest) = gapWeight gap + weightFrom lead.spaced [] rest := by
  induction gap generalizing lead with
  | nil => exact absurd rfl isSome
  | cons mark gap ih =>
      simp only [List.all_cons, Bool.and_eq_true] at isBlank
      rw [List.cons_append, weightFrom_mark (Text.isWord_of_isBlank isBlank.1),
        Lead.behindMark_blank isBlank.1, gapWeight_cons, markWeight_blank isBlank.1]
      cases gap with
      | nil => simp [gapWeight]
      | cons second gap =>
          rw [ih isBlank.2 (by simp), Lead.spaced_spaced, Nat.add_assoc]

/-- Blanks that may be missing, behind nothing that matters. -/
theorem weightFrom_maybeGap {gap rest : List Char} (isBlank : gap.all Text.isBlank = true) :
    weightFrom .other [] (gap ++ rest) = gapWeight gap + weightFrom .other [] rest := by
  cases gap with
  | nil => simp [gapWeight]
  | cons mark gap => exact weightFrom_gap isBlank (by simp)

theorem weightFrom_space {lead : Lead} {rest : List Char} :
    weightFrom lead [] (' ' :: rest) = 1 + weightFrom lead.spaced [] rest :=
  weightFrom_mark (by decide)

/-- Blanks that may be missing only weigh more. -/
theorem exists_weightFrom_indent (lead : Lead) {gap : List Char}
    (isBlank : gap.all Text.isBlank = true) :
    ∃ behind, ∀ rest, weightFrom lead [] (gap ++ rest) =
      gapWeight gap + weightFrom behind [] rest := by
  by_cases none : gap = []
  · subst none
    exact ⟨lead, fun rest => (Nat.zero_add _).symm⟩
  · exact ⟨lead.spaced, fun rest => weightFrom_gap isBlank none⟩

/-- A mark that weighs nothing and does not matter for what follows. -/
def isLightMark (mark : Char) : Bool :=
  !Text.isWord mark && !Text.isBlank mark &&
    !(['{', '"', '/', ')', ';'].contains mark)

theorem weightFrom_lightMark {mark : Char} (light : isLightMark mark = true) (lead : Lead)
    (rest : List Char) : weightFrom lead [] (mark :: rest) = weightFrom .other [] rest := by
  simp only [isLightMark, Bool.and_eq_true, Bool.not_eq_true', List.contains_eq_mem,
    List.mem_cons, List.not_mem_nil, or_false, decide_eq_false_iff_not, not_or] at light
  obtain ⟨⟨outside, notBlank⟩, notBrace, notQuote, notSlash, notParen, notSemicolon⟩ := light
  have notSpace : mark ≠ ' ' := by
    rintro rfl
    exact absurd notBlank (by decide)
  rw [weightFrom_mark outside]
  simp [markWeight, Lead.behindMark, notBlank, notBrace, notQuote, notSlash, notParen,
    notSemicolon, notSpace]

/-! ## Comparing weights -/

/-- What follows weighs at most as much as behind nothing that matters, but for the bonus
of a word that may be imported. -/
theorem weightFrom_le_other (lead : Lead) (word text : List Char) :
    weightFrom lead word text ≤ weightFrom .other word text + lead.bonus := by
  induction text generalizing lead word with
  | nil => exact wordWeight_le_other lead word
  | cons character rest ih =>
      simp only [weightFrom]
      split
      · exact ih lead (word ++ [character])
      · cases word with
        | cons first word =>
            have words := wordWeight_le_other lead (first :: word)
            rw [lead.behindWord_cons]
            omega
        | nil =>
            have marks := markWeight_le_other lead character
            simp only [wordWeight_nil, Lead.behindWord_nil]
            cases blank : Text.isBlank character with
            | true =>
                have later := ih lead.spaced []
                have spacedBonus : lead.spaced.bonus = lead.bonus := by cases lead <;> rfl
                rw [Lead.behindMark_blank blank, Lead.behindMark_blank blank, Lead.spaced_other]
                omega
            | false =>
                rw [Lead.behindMark_of_not_blank blank]
                omega

/-- The word behind `import` has its bonus. -/
theorem weightFrom_imported {word : List Char} (isSome : word ≠ []) (text : List Char) :
    weightFrom .imported word text = weightFrom .other word text + 20 := by
  induction text generalizing word with
  | nil => exact wordWeight_imported isSome
  | cons character rest ih =>
      simp only [weightFrom]
      split
      · exact ih (by simp)
      · obtain ⟨first, word, rfl⟩ := List.exists_cons_of_ne_nil isSome
        rw [wordWeight_imported isSome, Lead.behindWord_cons]
        omega

theorem weightFrom_imported_of_word {text : List Char}
    (startsWord : text.head?.any Text.isWord = true) :
    weightFrom .imported [] text = weightFrom .other [] text + 20 := by
  cases text with
  | nil => simp at startsWord
  | cons character rest =>
      have isWord : Text.isWord character = true := startsWord
      simp only [weightFrom, isWord, if_true]
      exact weightFrom_imported (by simp) rest

theorem weightFrom_other_le_imported (text : List Char) :
    weightFrom .other [] text ≤ weightFrom .imported [] text := by
  induction text with
  | nil => exact Nat.le_refl _
  | cons character rest ih =>
      simp only [weightFrom, List.nil_append]
      split
      · rw [weightFrom_imported (by simp)]
        omega
      · simp only [wordWeight_nil, Lead.behindWord_nil, markWeight_imported]
        cases blank : Text.isBlank character with
        | true =>
            rw [Lead.behindMark_blank blank, Lead.behindMark_blank blank]
            exact Nat.add_le_add_left ih _
        | false =>
            exact Nat.le_of_eq (by
              rw [Lead.behindMark_of_not_blank blank,
                @Lead.behindMark_of_not_blank .imported _ blank])

/-- What stands before a blank hardly matters. -/
theorem weightFrom_other_le_of_blank {text : List Char}
    (startsBlank : text.head?.all Text.isBlank = true) (lead : Lead) (word : List Char) :
    weightFrom .other [] text ≤ weightFrom lead word text := by
  cases text with
  | nil => simp [weightFrom]
  | cons mark rest =>
      have blank : Text.isBlank mark = true := by simpa using startsBlank
      simp only [weightFrom, Text.isWord_of_isBlank blank, Bool.false_eq_true, if_false,
        Lead.behindMark_blank blank, wordWeight_nil, Lead.behindWord_nil, Lead.spaced_other]
      have marks : markWeight (lead.behindWord word) mark = markWeight .other mark :=
        markWeight_blank blank
      have later : weightFrom .other [] rest ≤
          weightFrom (lead.behindWord word).spaced [] rest := by
        cases lead.behindWord word with
        | imported => exact weightFrom_other_le_imported rest
        | _ => exact Nat.le_refl _
      omega

/-- A stretch in front of a text takes nothing from its weight. -/
theorem le_weightFrom_append {text : List Char} {least : Nat}
    (heavy : ∀ lead word, least ≤ weightFrom lead word text) (lead : Lead)
    (word stretch : List Char) : least ≤ weightFrom lead word (stretch ++ text) := by
  induction stretch generalizing lead word with
  | nil => exact heavy lead word
  | cons character stretch ih =>
      simp only [List.cons_append, weightFrom]
      split
      · exact ih _ _
      · exact Nat.le_trans (ih _ _) (Nat.le_add_left _ _)

/-- Behind the same stretch, the text that is lighter everywhere stays lighter. -/
theorem weightFrom_append_add_le {light heavy : List Char} {gain : Nat}
    (lighter : ∀ lead word, weightFrom lead word light + gain ≤ weightFrom lead word heavy)
    (lead : Lead) (word stretch : List Char) :
    weightFrom lead word (stretch ++ light) + gain ≤ weightFrom lead word (stretch ++ heavy) := by
  induction stretch generalizing lead word with
  | nil => exact lighter lead word
  | cons character stretch ih =>
      simp only [List.cons_append, weightFrom]
      split
      · exact ih _ _
      · have later := ih ((lead.behindWord word).behindMark character) []
        omega

end Normalize

end ScriptBridge

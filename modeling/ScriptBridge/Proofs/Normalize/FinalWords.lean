import ScriptBridge.Normalize.Declarations
import ScriptBridge.Proofs.Pattern.Fitting

/-!
# The word `final`

The rule for `final` takes the word away wherever it stands whole with white space behind
it, and all of that white space with it.  What comes to stand behind what is taken away
starts with no white space, and what stands in front of it ends with no word, so no such
word arises there.
-/

namespace ScriptBridge

namespace Normalize

open Pattern

/-- The word that the rule takes away. -/
def finalWord : List Char := "final".toList

/-! ## Places of the word -/

/-- The white space that stands at a place of a text. -/
def blanksAt (text : List Char) (place : Nat) : List Char :=
  (text.drop place).takeWhile Text.isBlank

/-- At a place of a text the word `final` stands whole, with white space behind it. -/
structure FinalAt (text : List Char) (place : Nat) : Prop where
  stands : finalWord <+: text.drop place
  begins : (text.take place).getLast?.any Text.isWord = false
  ends : (text.drop (place + finalWord.length)).head?.any Text.isWord = false
  isFollowed : blanksAt text (place + finalWord.length) ≠ []

/-- Where the white space behind such a word ends. -/
def finalEnd (text : List Char) (place : Nat) : Nat :=
  place + finalWord.length + (blanksAt text (place + finalWord.length)).length

/-- A place lies in such a word or in the white space behind it. -/
def LiesInFinal (text : List Char) (place : Nat) : Prop :=
  ∃ start < place + 1, FinalAt text start ∧ place < finalEnd text start

instance (text : List Char) (place : Nat) : Decidable (FinalAt text place) :=
  decidable_of_iff
    (finalWord <+: text.drop place ∧ (text.take place).getLast?.any Text.isWord = false ∧
      (text.drop (place + finalWord.length)).head?.any Text.isWord = false ∧
      blanksAt text (place + finalWord.length) ≠ [])
    ⟨fun ⟨stands, begins, ends, isFollowed⟩ => ⟨stands, begins, ends, isFollowed⟩,
      fun ⟨stands, begins, ends, isFollowed⟩ => ⟨stands, begins, ends, isFollowed⟩⟩

instance (text : List Char) (place : Nat) : Decidable (LiesInFinal text place) :=
  inferInstanceAs
    (Decidable (∃ start < place + 1, FinalAt text start ∧ place < finalEnd text start))

/-! ## The word in front of a text -/

/-- In front of a text, given the character before it, such a word starts. -/
def OpensFinal (previous : Option Char) (text : List Char) : Prop :=
  previous.any Text.isWord = false ∧
    ∃ blank rest, text = finalWord ++ blank :: rest ∧ Text.isBlank blank = true

theorem isWord_finalWord : finalWord.all Text.isWord = true := by decide

theorem finalWord_ne_nil : finalWord ≠ [] := by decide

theorem exists_finalWord_eq_cons : ∃ later, finalWord = 'f' :: later := ⟨_, rfl⟩

theorem finalAt_append {before text : List Char} :
    FinalAt (before ++ text) before.length ↔ OpensFinal before.getLast? text := by
  constructor
  · rintro ⟨⟨behind, textEq⟩, begins, -, isFollowed⟩
    rw [List.drop_left] at textEq
    rw [List.take_left] at begins
    rw [blanksAt, ← List.drop_drop, List.drop_left, ← textEq, List.drop_left] at isFollowed
    refine ⟨begins, ?_⟩
    cases behind with
    | nil => exact absurd rfl isFollowed
    | cons blank rest =>
        refine ⟨blank, rest, textEq.symm, ?_⟩
        by_contra notBlank
        exact isFollowed (List.takeWhile_cons_of_neg notBlank)
  · rintro ⟨begins, blank, rest, rfl, isBlank⟩
    have behind : (before ++ (finalWord ++ blank :: rest)).drop (before.length + finalWord.length) =
        blank :: rest := by
      rw [← List.drop_drop, List.drop_left, List.drop_left]
    refine ⟨?_, ?_, ?_, ?_⟩
    · rw [List.drop_left]
      exact List.prefix_append _ _
    · rwa [List.take_left]
    · rw [behind]
      exact Text.isWord_of_isBlank isBlank
    · rw [blanksAt, behind, List.takeWhile_cons_of_pos isBlank]
      exact List.cons_ne_nil _ _

/-- No other such word starts within one and the white space behind it. -/
theorem not_finalAt_within {before gap rest : List Char} {start : Nat}
    (isBlank : gap.all Text.isBlank = true) (isBehind : before.length < start)
    (isWithin : start < (before ++ (finalWord ++ gap)).length) :
    ¬ FinalAt (before ++ (finalWord ++ gap ++ rest)) start := by
  obtain ⟨front, back, split, startEq, frontIsSome, backIsSome⟩ :
      ∃ front back, finalWord ++ gap = front ++ back ∧ start = (before ++ front).length ∧
        front ≠ [] ∧ back ≠ [] := by
    refine ⟨_, _, (List.take_append_drop (start - before.length) (finalWord ++ gap)).symm, ?_⟩
    rw [List.length_append] at isWithin
    rw [← List.length_pos_iff, ← List.length_pos_iff, List.length_append, List.length_take,
      List.length_drop]
    omega
  rw [split, List.append_assoc, ← List.append_assoc, startEq, finalAt_append,
    List.getLast?_append]
  rintro ⟨begins, blank, later, textEq, -⟩
  rcases List.append_eq_append_iff.mp split with ⟨more, rfl, rfl⟩ | ⟨more, wordEq, rfl⟩
  · -- the word would start with white space
    obtain ⟨character, back, rfl⟩ := List.exists_cons_of_ne_nil backIsSome
    obtain ⟨letters, wordEq⟩ := exists_finalWord_eq_cons
    rw [wordEq] at textEq
    obtain ⟨rfl, -⟩ := List.cons.inj textEq
    exact absurd (List.all_eq_true.mp isBlank 'f' (by simp)) (by decide)
  · -- the word would start within the other one
    have inWord : front.all Text.isWord = true := by
      have whole := isWord_finalWord
      rw [wordEq, List.all_append, Bool.and_eq_true] at whole
      exact whole.1
    have goesOn := @previous_past_word ⟨0, before.getLast?, []⟩ front [] frontIsSome inWord
    rw [Cursor.past_previous] at goesOn
    exact Bool.noConfusion (goesOn.symm.trans begins)

theorem finalEnd_append {before gap rest : List Char} (isBlank : gap.all Text.isBlank = true)
    (stops : rest.head?.any Text.isBlank = false) :
    finalEnd (before ++ (finalWord ++ gap ++ rest)) before.length =
      (before ++ (finalWord ++ gap)).length := by
  have noMore : rest.takeWhile Text.isBlank = [] := by
    cases rest with
    | nil => rfl
    | cons character rest =>
        exact List.takeWhile_cons_of_neg (Bool.eq_false_iff.mp stops)
  have blanksEq : blanksAt (before ++ (finalWord ++ gap ++ rest))
      (before.length + finalWord.length) = gap := by
    rw [blanksAt, ← List.drop_drop, List.drop_left, List.append_assoc, List.drop_left,
      List.takeWhile_append_of_pos (List.all_eq_true.mp isBlank), noMore, List.append_nil]
  rw [finalEnd, blanksEq, List.length_append, List.length_append, Nat.add_assoc]

/-! ## What becomes of a text -/

/-- What becomes of a text, given the character before it: the word and the white space
behind it are taken away, all else stays. -/
inductive LosesFinals : Option Char → List Char → List Char → Prop where
  | done (previous : Option Char) : LosesFinals previous [] []
  | strike {previous : Option Char} {gap rest out : List Char}
      (begins : previous.any Text.isWord = false) (isBlank : gap.all Text.isBlank = true)
      (isSome : gap ≠ []) (stops : rest.head?.any Text.isBlank = false)
      (behind : LosesFinals ((finalWord ++ gap).getLast?.or previous) rest out) :
      LosesFinals previous (finalWord ++ gap ++ rest) out
  | keep {previous : Option Char} {character : Char} {rest out : List Char}
      (elsewhere : ¬ OpensFinal previous (character :: rest))
      (behind : LosesFinals (some character) rest out) :
      LosesFinals previous (character :: rest) (character :: out)

theorem exists_losesFinals (previous : Option Char) (text : List Char) :
    ∃ out, LosesFinals previous text out := by
  induction lengthEq : text.length using Nat.strongRecOn generalizing previous text with
  | _ length ih =>
      subst lengthEq
      by_cases opens : OpensFinal previous text
      · obtain ⟨begins, blank, rest, rfl, isBlank⟩ := opens
        have stops : ((blank :: rest).dropWhile Text.isBlank).head?.any Text.isBlank = false := by
          cases behindEq : (blank :: rest).dropWhile Text.isBlank with
          | nil => rfl
          | cons character later =>
              simpa [behindEq] using List.head?_dropWhile_not Text.isBlank (blank :: rest)
        have shorter := (List.dropWhile_suffix (l := blank :: rest) Text.isBlank).length_le
        obtain ⟨out, loses⟩ := ih ((blank :: rest).dropWhile Text.isBlank).length
          (by rw [List.length_append]; have := List.length_pos_iff.mpr finalWord_ne_nil; omega)
          ((finalWord ++ (blank :: rest).takeWhile Text.isBlank).getLast?.or previous) _ rfl
        refine ⟨out, ?_⟩
        rw [← List.takeWhile_append_dropWhile (p := Text.isBlank) (l := blank :: rest),
          ← List.append_assoc]
        refine .strike begins List.all_takeWhile ?_ stops loses
        rw [List.takeWhile_cons_of_pos isBlank]
        exact List.cons_ne_nil _ _
      · cases text with
        | nil => exact ⟨[], .done previous⟩
        | cons character rest =>
            obtain ⟨out, loses⟩ := ih rest.length (by simp) (some character) rest rfl
            exact ⟨character :: out, .keep opens loses⟩

/-- The edit of the rule. -/
def finalEdit : Edit :=
  ⟨inOrder [boundary, text "final", boundary, blanks], fun _ => []⟩

theorem run_stripFinal_eq (text : List Char) : stripFinal.run text = finalEdit.run text :=
  Rule.run_ofEdits _ _ _

theorem finalEdit_pattern : finalEdit.pattern =
    sequence boundary (sequence (literal finalWord) (sequence boundary blanks)) := rfl

theorem opensFinal_of_covers {previous : Option Char} {covered rest : List Char}
    {notes : List NotedText} (covers : finalEdit.pattern.Covers previous covered rest notes) :
    OpensFinal previous (covered ++ rest) := by
  rw [finalEdit_pattern, covers_boundary_sequence, covers_literal_sequence] at covers
  obtain ⟨edge, gap, rfl, inGap⟩ := covers
  obtain ⟨isBlank, isSome, -⟩ := covers_blanks.mp (covers_boundary_sequence.mp inGap).2
  rw [List.append_assoc] at edge ⊢
  refine ⟨begins_of_edge finalWord_ne_nil isWord_finalWord edge, ?_⟩
  obtain ⟨blank, gap, rfl⟩ := List.exists_cons_of_ne_nil isSome
  simp only [List.all_cons, Bool.and_eq_true] at isBlank
  exact ⟨blank, gap ++ rest, rfl, isBlank.1⟩

theorem replaces_final {previous : Option Char} {gap rest : List Char}
    (begins : previous.any Text.isWord = false) (isBlank : gap.all Text.isBlank = true)
    (isSome : gap ≠ []) (stops : rest.head?.any Text.isBlank = false) :
    finalEdit.Replaces previous (finalWord ++ gap) rest [] := by
  refine ⟨by simp [isSome], fun position => ⟨[], ?_, rfl⟩⟩
  have edge (cursor : Cursor) : (cursor.past finalWord (gap ++ rest)).previous.any Text.isWord ≠
      (gap ++ rest).head?.any Text.isWord := by
    rw [previous_past_word finalWord_ne_nil isWord_finalWord, any_head?_blanks isBlank isSome]
    decide
  rw [finalEdit_pattern, List.append_assoc,
    ways_word finalWord_ne_nil isWord_finalWord begins rfl (sequence boundary blanks) [],
    ways_sequence_of_eq (ways_boundary_of_edge (edge _)), blanks, oneOrMore,
    @head?_ways_run .blank _ 1 gap rest (List.all_eq_true.mp isBlank) stops
      (List.length_pos_iff.mpr isSome) rfl, Cursor.past_past]

namespace LosesFinals

theorem rewrites {previous : Option Char} {text out : List Char}
    (loses : LosesFinals previous text out) : finalEdit.Rewrites previous text out := by
  induction loses with
  | done previous => exact .done previous
  | strike begins isBlank isSome stops behind ih =>
      exact .replace (replaces_final begins isBlank isSome stops) ih
  | keep elsewhere behind ih =>
      refine .keep (fun position => ways_eq_nil_of_not_covers ?_) ih
      intro covered rest notes textEq covers
      have opens := opensFinal_of_covers covers
      rw [← textEq] at opens
      exact elsewhere opens

theorem run_eq {text out : List Char} (loses : LosesFinals none text out) :
    stripFinal.run text = out := by
  rw [run_stripFinal_eq, loses.rewrites.run_eq]

/-- What is kept are the characters that lie in no such word and not behind one. -/
theorem eq_kept {before text out : List Char} (loses : LosesFinals before.getLast? text out)
    (clear : ∀ start < before.length, FinalAt (before ++ text) start →
      finalEnd (before ++ text) start ≤ before.length) :
    out = ((text.zipIdx before.length).filter fun entry =>
      ¬ LiesInFinal (before ++ text) entry.2).map Prod.fst := by
  generalize previousEq : before.getLast? = previous at loses
  induction loses generalizing before with
  | done previous => rfl
  | @strike previous gap rest out begins isBlank isSome stops behind ih =>
      have here : FinalAt (before ++ (finalWord ++ gap ++ rest)) before.length := by
        obtain ⟨blank, more, rfl⟩ := List.exists_cons_of_ne_nil isSome
        simp only [List.all_cons, Bool.and_eq_true] at isBlank
        refine finalAt_append.mpr ⟨previousEq ▸ begins, blank, more ++ rest, ?_, isBlank.1⟩
        rw [List.append_assoc, List.cons_append]
      have endEq := @finalEnd_append before gap rest isBlank stops
      have struck : ((finalWord ++ gap).zipIdx before.length).filter (fun entry =>
          ¬ LiesInFinal (before ++ (finalWord ++ gap ++ rest)) entry.2) = [] := by
        rw [List.filter_eq_nil_iff]
        rintro ⟨character, place⟩ isEntry
        obtain ⟨least, most, -⟩ := List.mem_zipIdx isEntry
        rw [List.length_append] at endEq
        have lies : LiesInFinal (before ++ (finalWord ++ gap ++ rest)) place :=
          ⟨before.length, by omega, here, by omega⟩
        simpa using lies
      have later := @ih (before ++ (finalWord ++ gap)) (fun start isBefore isFinal => ?_)
        (by rw [List.getLast?_append, previousEq])
      · rw [List.append_assoc] at later
        rw [List.zipIdx_append, List.filter_append, struck, List.nil_append, later,
          List.length_append]
      · rw [List.append_assoc] at isFinal ⊢
        rcases Nat.lt_trichotomy start before.length with isLess | rfl | isMore
        · have ends := clear start isLess isFinal
          rw [List.length_append]
          omega
        · exact Nat.le_of_eq endEq
        · exact absurd isFinal (not_finalAt_within isBlank isMore isBefore)
  | @keep previous character rest out elsewhere behind ih =>
      have notHere : ¬ FinalAt (before ++ character :: rest) before.length := fun isFinal => by
        rw [finalAt_append, previousEq] at isFinal
        exact elsewhere isFinal
      have isKept : ¬ LiesInFinal (before ++ character :: rest) before.length := by
        rintro ⟨start, isBefore, isFinal, ends⟩
        rcases Nat.lt_succ_iff_lt_or_eq.mp isBefore with isLess | rfl
        · have := clear start isLess isFinal
          omega
        · exact notHere isFinal
      have later := @ih (before ++ [character]) (fun start isBefore isFinal => ?_) (by simp)
      · rw [List.append_assoc, List.length_append] at later
        rw [List.zipIdx_cons, List.filter_cons_of_pos (by simpa using isKept), List.map_cons,
          later]
        rfl
      · rw [List.append_assoc] at isFinal ⊢
        rw [List.length_append, List.length_singleton] at isBefore ⊢
        rcases Nat.lt_succ_iff_lt_or_eq.mp isBefore with isLess | rfl
        · exact Nat.le_succ_of_le (clear start isLess isFinal)
        · exact absurd isFinal notHere

end LosesFinals

/-! ## Texts without the word -/

/-- No such word stands in a text, given the character before it. -/
def Finalless (previous : Option Char) (text : List Char) : Prop :=
  ∀ before after, text = before ++ after → ¬ OpensFinal (before.getLast?.or previous) after

theorem not_opensFinal_nil (previous : Option Char) : ¬ OpensFinal previous [] := by
  rintro ⟨-, blank, rest, textEq, -⟩
  simp at textEq

theorem finalless_nil (previous : Option Char) : Finalless previous [] := by
  intro before after textEq
  rw [(List.append_eq_nil_iff.mp textEq.symm).2]
  exact not_opensFinal_nil _

theorem finalless_cons {previous : Option Char} {character : Char} {rest : List Char} :
    Finalless previous (character :: rest) ↔
      ¬ OpensFinal previous (character :: rest) ∧ Finalless (some character) rest := by
  constructor
  · intro without
    refine ⟨without [] _ rfl, fun before after restEq => ?_⟩
    rw [← getLast?_cons_or character before previous]
    exact without (character :: before) after (by rw [restEq, List.cons_append])
  · rintro ⟨here, later⟩ before after textEq
    cases before with
    | nil => exact (show character :: rest = after from textEq) ▸ here
    | cons first before =>
        obtain ⟨rfl, restEq⟩ := List.cons.inj textEq
        rw [getLast?_cons_or]
        exact later before after restEq

theorem Finalless.not_finalAt {text : List Char} (without : Finalless none text) (place : Nat) :
    ¬ FinalAt text place := by
  intro isFinal
  by_cases within : place ≤ text.length
  · have here := without (text.take place) (text.drop place) (List.take_append_drop place text).symm
    rw [Option.or_none, ← finalAt_append, List.take_append_drop, List.length_take_of_le within]
      at here
    exact here isFinal
  · obtain ⟨rest, textEq⟩ := isFinal.stands
    rw [List.drop_eq_nil_of_le (by omega)] at textEq
    simp [finalWord_ne_nil] at textEq

/-- A text without the word stays as it is. -/
theorem Finalless.loses {previous : Option Char} {text : List Char}
    (without : Finalless previous text) : LosesFinals previous text text := by
  induction text generalizing previous with
  | nil => exact .done previous
  | cons character rest ih =>
      obtain ⟨here, later⟩ := finalless_cons.mp without
      exact .keep here (ih later)

namespace LosesFinals

/-- Behind a word character the rest of the word stays, and so does the white space that
follows it. -/
theorem of_word {previous : Option Char} {text word more : List Char} {blank : Char}
    (loses : LosesFinals previous text (word ++ blank :: more))
    (goesOn : previous.any Text.isWord = true) (isWord : word.all Text.isWord = true) :
    ∃ behind, text = word ++ blank :: behind := by
  generalize outEq : word ++ blank :: more = out at loses
  induction word generalizing previous text out with
  | nil =>
      cases loses with
      | done => simp at outEq
      | strike begins => exact Bool.noConfusion (goesOn.symm.trans begins)
      | keep elsewhere behind =>
          obtain ⟨rfl, rfl⟩ := List.cons.inj outEq
          exact ⟨_, rfl⟩
  | cons character word ih =>
      simp only [List.all_cons, Bool.and_eq_true] at isWord
      cases loses with
      | done => simp at outEq
      | strike begins => exact Bool.noConfusion (goesOn.symm.trans begins)
      | keep elsewhere behind =>
          obtain ⟨rfl, rfl⟩ := List.cons.inj outEq
          obtain ⟨rest, rfl⟩ := @ih (some character) _ isWord.1 isWord.2 _ rfl behind
          exact ⟨rest, rfl⟩

/-- What is left holds no such word, behind any character that is in a word if the one
before the text is. -/
theorem finalless {previous other : Option Char} {text out : List Char}
    (loses : LosesFinals previous text out)
    (same : other.any Text.isWord = previous.any Text.isWord) : Finalless other out := by
  induction loses generalizing other with
  | done => exact finalless_nil other
  | strike begins isBlank isSome stops behind ih =>
      refine ih ?_
      rw [same, begins, any_getLast?_blanks isBlank isSome]
  | @keep previous character rest out elsewhere behind ih =>
      refine finalless_cons.mpr ⟨?_, ih rfl⟩
      rintro ⟨begins, blank, more, outEq, isBlank⟩
      obtain ⟨letters, wordEq⟩ := exists_finalWord_eq_cons
      rw [wordEq, List.cons_append] at outEq
      obtain ⟨rfl, rfl⟩ := List.cons.inj outEq
      have areLetters : letters.all Text.isWord = true := by
        have whole := isWord_finalWord
        rw [wordEq, List.all_cons, Bool.and_eq_true] at whole
        exact whole.2
      obtain ⟨later, rfl⟩ := behind.of_word (by decide) areLetters
      exact elsewhere ⟨same ▸ begins, blank, later, by rw [wordEq, List.cons_append], isBlank⟩

end LosesFinals

/-- The rule takes away each whole word `final` that white space follows, with all of that
white space, and keeps all else in order.  No such word is left, so that the rule changes
nothing when it is used again. -/
theorem run_stripFinal_kept (text : List Char) :
    stripFinal.run text =
        (text.zipIdx.filter fun entry => ¬ LiesInFinal text entry.2).map Prod.fst ∧
      (∀ place, ¬ FinalAt (stripFinal.run text) place) ∧
      stripFinal.run (stripFinal.run text) = stripFinal.run text := by
  obtain ⟨out, loses⟩ := exists_losesFinals none text
  have without : Finalless none out := loses.finalless rfl
  rw [loses.run_eq]
  refine ⟨?_, without.not_finalAt, without.loses.run_eq⟩
  exact @LosesFinals.eq_kept [] text out loses (by simp)

example : FinalAt "a final  b".toList 2 ∧ finalEnd "a final  b".toList 2 = 9 ∧
    ¬ FinalAt "finally b".toList 0 := by decide

end Normalize

end ScriptBridge

import ScriptBridge.Proofs.Normalize.Shapes
import ScriptBridge.Proofs.Pattern.Retouching

/-!
# Prefixes of vectors

Where the prefix `Vector.` does not go on with a longer word, the rule for vectors puts a
prefix of arrays in its place.  What the later rules write makes no new prefix together with
what stands around it, so none is left behind all rules.
-/

namespace ScriptBridge

/-- A word stands in front of a text and a mark outside it only if it stands in front of
the text. -/
theorem prefix_append_mark {word front rest : List Char} {mark : Char} (outside : mark ∉ word) :
    word <+: front ++ mark :: rest ↔ word <+: front := by
  induction front generalizing word with
  | nil =>
      cases word with
      | nil => simp
      | cons first word =>
          have different : first ≠ mark := fun same => outside (by simp [same])
          simp [List.cons_prefix_cons, different]
  | cons character front ih =>
      cases word with
      | nil => simp
      | cons first word =>
          rw [List.cons_append, List.cons_prefix_cons, List.cons_prefix_cons,
            ih fun isIn => outside (List.mem_cons_of_mem _ isIn)]

/-- A word that no new text starts within has stood there before. -/
theorem Struck.prefix_of_prefix
    {strikes : Option Char → List Char → List Char → List Char → Prop}
    {word : List Char} (apart : ∀ previous covered rest new, strikes previous covered rest new →
      ∃ first more, new = first :: more ∧ first ∉ word)
    {previous : Option Char} {text out : List Char} (struck : Struck strikes previous text out)
    (isPrefix : word <+: out) : word <+: text := by
  induction struck generalizing word with
  | done previous => exact isPrefix
  | keep character behind ih =>
      cases word with
      | nil => exact List.nil_prefix
      | cons first word =>
          obtain ⟨rfl, isLater⟩ := List.cons_prefix_cons.mp isPrefix
          refine List.cons_prefix_cons.mpr ⟨rfl, ih (fun _ _ _ _ struck => ?_) isLater⟩
          obtain ⟨start, more, newEq, outside⟩ := apart _ _ _ _ struck
          exact ⟨start, more, newEq, fun isIn => outside (List.mem_cons_of_mem _ isIn)⟩
  | strike here behind ih =>
      obtain ⟨start, more, rfl, outside⟩ := apart _ _ _ _ here
      cases word with
      | nil => exact List.nil_prefix
      | cons first word =>
          obtain ⟨rfl, -⟩ := List.cons_prefix_cons.mp isPrefix
          simp at outside

namespace Normalize

open Pattern

def vectorPrefix : List Char := "Vector.".toList

/-! ## The rule for vectors -/

/-- What becomes of a text: where the prefix of vectors does not go on with a word, that of
arrays stands for it, without a dot in front of types. -/
inductive Arrays : Option Char → List Char → List Char → Prop where
  | done (previous : Option Char) : Arrays previous [] []
  | typed {previous : Option Char} {rest out : List Char}
      (begins : previous.any Text.isWord = false) (behind : Arrays (some '<') rest out) :
      Arrays previous (vectorPrefix ++ '<' :: rest) ("Array<".toList ++ out)
  | plain {previous : Option Char} {rest out : List Char}
      (begins : previous.any Text.isWord = false) (noType : rest.head? ≠ some '<')
      (behind : Arrays (some '.') rest out) :
      Arrays previous (vectorPrefix ++ rest) ("Array.".toList ++ out)
  | keep {previous : Option Char} {character : Char} {rest out : List Char}
      (elsewhere : vectorPrefix <+: character :: rest → previous.any Text.isWord = true)
      (behind : Arrays (some character) rest out) :
      Arrays previous (character :: rest) (character :: out)

theorem exists_arrays (previous : Option Char) (text : List Char) :
    ∃ out, Arrays previous text out := by
  induction lengthEq : text.length using Nat.strongRecOn generalizing previous text with
  | _ length ih =>
      subst lengthEq
      by_cases opens : vectorPrefix <+: text ∧ previous.any Text.isWord = false
      · obtain ⟨⟨rest, rfl⟩, begins⟩ := opens
        have shorter : rest.length < (vectorPrefix ++ rest).length := by
          have prefixLength : vectorPrefix.length = 7 := by decide
          rw [List.length_append]
          omega
        by_cases isTyped : rest.head? = some '<'
        · obtain ⟨rest, rfl⟩ := List.head?_eq_some_iff.mp isTyped
          obtain ⟨out, arrays⟩ :=
            ih rest.length (Nat.lt_trans (Nat.lt_succ_self _) shorter) (some '<') rest rfl
          exact ⟨_, .typed begins arrays⟩
        · obtain ⟨out, arrays⟩ := ih rest.length shorter (some '.') rest rfl
          exact ⟨_, .plain begins isTyped arrays⟩
      · cases text with
        | nil => exact ⟨[], .done previous⟩
        | cons character rest =>
            obtain ⟨out, arrays⟩ := ih rest.length (by simp) (some character) rest rfl
            refine ⟨character :: out, .keep (fun isPrefix => ?_) arrays⟩
            simpa [isPrefix] using opens

/-- Every new text starts with a character that stands nowhere behind the first one of the
prefix. -/
def StartsApart (strikes : Option Char → List Char → List Char → List Char → Prop) : Prop :=
  ∀ previous covered rest new, strikes previous covered rest new →
    ∃ first more, new = first :: more ∧ first ∉ vectorPrefix.tail

/-- A prefix that starts with a character that stays has stood there before. -/
theorem StartsApart.isPrefix_cons
    {strikes : Option Char → List Char → List Char → List Char → Prop}
    (apart : StartsApart strikes) {previous : Option Char} {character : Char}
    {rest out : List Char} (struck : Struck strikes previous rest out)
    (isPrefix : vectorPrefix <+: character :: out) : vectorPrefix <+: character :: rest := by
  obtain ⟨isFirst, isLater⟩ := List.cons_prefix_cons.mp isPrefix
  exact List.cons_prefix_cons.mpr ⟨isFirst, struck.prefix_of_prefix apart isLater⟩

/-- Every new text starts like the word for arrays. -/
def WritesArray (_ : Option Char) (_ _ new : List Char) : Prop :=
  ∃ more, new = 'A' :: more

theorem startsApart_writesArray : StartsApart WritesArray := by
  rintro _ _ _ _ ⟨more, rfl⟩
  exact ⟨'A', more, rfl, by decide⟩

/-- An edit of a word behind an edge. -/
def edgeEdit (word new : String) : Edit :=
  ⟨inOrder [boundary, text word], fun _ => new.toList⟩

theorem run_vectorToArray_eq (source : List Char) :
    vectorToArray.run source =
      (edgeEdit "Vector." "Array.").run ((edgeEdit "Vector.<" "Array<").run source) :=
  Rule.run_ofEdits _ _ _

section Edge

variable {word new : String} {first : Char}

theorem covers_edge (starts : word.toList.head? = some first) (isWord : Text.isWord first = true)
    {previous : Option Char} {covered rest : List Char} {notes : List NotedText} :
    (edgeEdit word new).pattern.Covers previous covered rest notes ↔
      previous.any Text.isWord = false ∧ covered = word.toList ∧ notes = [] := by
  have begins (rest : List Char) : (word.toList ++ rest).head?.any Text.isWord = true := by
    simp [starts, isWord]
  have partsEq : (edgeEdit word new).pattern = sequence boundary (text word) := rfl
  rw [partsEq, covers_boundary_sequence, covers_text]
  constructor
  · rintro ⟨edge, rfl, rfl⟩
    rw [begins] at edge
    exact ⟨by simpa using edge, rfl, rfl⟩
  · rintro ⟨notInWord, rfl, rfl⟩
    rw [begins, notInWord]
    exact ⟨Bool.false_ne_true, rfl, rfl⟩

theorem ways_edge_eq_nil (starts : word.toList.head? = some first)
    (isWord : Text.isWord first = true) {previous : Option Char} {source : List Char}
    (elsewhere : word.toList <+: source → previous.any Text.isWord = true) (position : Nat) :
    (edgeEdit word new).pattern.ways ⟨⟨position, previous, source⟩, []⟩ = [] := by
  refine ways_eq_nil_of_not_covers fun covered rest notes sourceEq covers => ?_
  obtain ⟨begins, rfl, -⟩ := (covers_edge starts isWord).mp covers
  rw [elsewhere ⟨rest, sourceEq.symm⟩] at begins
  exact Bool.noConfusion begins

theorem missesIn_edge (starts : word.toList.head? = some first) (isWord : Text.isWord first = true)
    {previous : Option Char} {stretch rest : List Char} (without : first ∉ stretch) :
    (edgeEdit word new).pattern.MissesIn previous stretch rest := by
  intro before after position split isSome
  refine ways_edge_eq_nil starts isWord (fun isPrefix => ?_) position
  obtain ⟨more, wordEq⟩ := List.head?_eq_some_iff.mp starts
  obtain ⟨character, after, rfl⟩ := List.exists_cons_of_ne_nil isSome
  rw [wordEq, List.cons_append] at isPrefix
  obtain ⟨rfl, -⟩ := List.cons_prefix_cons.mp isPrefix
  exact absurd (by simp [split]) without

theorem replaces_edge (starts : word.toList.head? = some first) (isWord : Text.isWord first = true)
    {previous : Option Char} (begins : previous.any Text.isWord = false) (rest : List Char) :
    (edgeEdit word new).Replaces previous word.toList rest new.toList := by
  have isSome : word.toList ≠ [] := by
    rintro none
    simp [none] at starts
  refine Edit.replaces_of_covers rfl isSome ((covers_edge starts isWord).mpr ⟨begins, rfl, rfl⟩) ?_
  intro other behind otherNotes found _ covers _
  exact ⟨((covers_edge starts isWord).mp covers).2.1, rfl⟩

end Edge

/-- The two edits of the rule, with the text between them. -/
theorem Arrays.rewrites {previous : Option Char} {source out : List Char}
    (arrays : Arrays previous source out) :
    ∃ middle, (edgeEdit "Vector.<" "Array<").Rewrites previous source middle ∧
      (edgeEdit "Vector." "Array.").Rewrites previous middle out ∧
      Struck WritesArray previous source middle := by
  have isWord : Text.isWord 'V' = true := by decide
  induction arrays with
  | done previous => exact ⟨[], .done _, .done _, .done _⟩
  | @typed previous rest out begins behind ih =>
      obtain ⟨middle, first, second, struck⟩ := ih
      have sourceEq : vectorPrefix ++ '<' :: rest = "Vector.<".toList ++ rest := rfl
      rw [sourceEq]
      exact ⟨"Array<".toList ++ middle, .replace (replaces_edge rfl isWord begins rest) first,
        .keepAll (missesIn_edge rfl isWord (by decide)) second, .strike ⟨_, rfl⟩ struck⟩
  | @plain previous rest out begins noType behind ih =>
      obtain ⟨middle, first, second, struck⟩ := ih
      refine ⟨vectorPrefix ++ middle, .keepAll ?_ first,
        .replace (replaces_edge rfl isWord begins middle) second, .keepAll _ struck⟩
      refine .cons (fun position => ways_edge_eq_nil rfl isWord (fun isPrefix => ?_) position)
        (missesIn_edge rfl isWord (by decide))
      obtain ⟨more, moreEq⟩ := isPrefix
      have restEq : vectorPrefix ++ '<' :: more = vectorPrefix ++ rest := moreEq
      rw [← List.append_cancel_left restEq] at noType
      exact absurd rfl noType
  | @keep previous character rest out elsewhere behind ih =>
      obtain ⟨middle, first, second, struck⟩ := ih
      refine ⟨character :: middle, .keep (ways_edge_eq_nil rfl isWord fun isPrefix => ?_) first,
        .keep (ways_edge_eq_nil rfl isWord fun isPrefix => ?_) second, .keep character struck⟩
      · exact elsewhere ((List.prefix_append vectorPrefix ['<']).trans isPrefix)
      · exact elsewhere (startsApart_writesArray.isPrefix_cons struck isPrefix)

/-- The rule writes arrays for vectors and leaves everything else. -/
theorem Arrays.run_eq {source out : List Char} (arrays : Arrays none source out) :
    vectorToArray.run source = out := by
  obtain ⟨middle, first, second, -⟩ := arrays.rewrites
  rw [run_vectorToArray_eq, first.run_eq, second.run_eq]

theorem Arrays.struck {previous : Option Char} {source out : List Char}
    (arrays : Arrays previous source out) : Struck WritesArray previous source out := by
  induction arrays with
  | done previous => exact .done _
  | @typed previous rest out begins behind ih =>
      have sourceEq : vectorPrefix ++ '<' :: rest = "Vector.<".toList ++ rest := rfl
      rw [sourceEq]
      exact .strike ⟨_, rfl⟩ ih
  | plain begins noType behind ih => exact .strike ⟨_, rfl⟩ ih
  | keep elsewhere behind ih => exact .keep _ ih

theorem arrays_run (source : List Char) : Arrays none source (vectorToArray.run source) := by
  obtain ⟨out, arrays⟩ := exists_arrays none source
  rwa [arrays.run_eq]

/-! ## Texts without vectors -/

/-- Every prefix of vectors goes on with a word. -/
def Vectorless (previous : Option Char) (text : List Char) : Prop :=
  ∀ before after, text = before ++ (vectorPrefix ++ after) →
    (before.getLast?.or previous).any Text.isWord = true

section Vectorless

variable {previous other : Option Char} {character mark : Char} {front rest out : List Char}

theorem vectorless_cons :
    Vectorless previous (character :: rest) ↔
      (vectorPrefix <+: character :: rest → previous.any Text.isWord = true) ∧
        Vectorless (some character) rest := by
  constructor
  · intro vectorless
    refine ⟨fun ⟨after, textEq⟩ => vectorless [] after textEq.symm, fun before after restEq => ?_⟩
    rw [← getLast?_cons_or character before previous]
    exact vectorless (character :: before) after (by rw [restEq, List.cons_append])
  · rintro ⟨here, later⟩ before after textEq
    cases before with
    | nil => exact here ⟨after, textEq.symm⟩
    | cons first before =>
        obtain ⟨rfl, restEq⟩ := List.cons.inj textEq
        rw [getLast?_cons_or]
        exact later before after restEq

/-- A text without a dot has no prefix of vectors. -/
theorem vectorless_of_not_mem (noDot : '.' ∉ rest) : Vectorless previous rest := by
  rintro before after rfl
  exact absurd (List.mem_append_right _ (List.mem_append_left _ (by decide))) noDot

theorem Vectorless.congr (same : previous.any Text.isWord = other.any Text.isWord)
    (vectorless : Vectorless previous rest) : Vectorless other rest := by
  cases rest with
  | nil => exact vectorless_of_not_mem List.not_mem_nil
  | cons character rest =>
      rw [vectorless_cons] at vectorless ⊢
      rwa [← same]

/-- No prefix goes across a mark. -/
theorem vectorless_append_mark (outside : mark ∉ vectorPrefix) :
    Vectorless previous (front ++ mark :: rest) ↔
      Vectorless previous front ∧ Vectorless (some mark) rest := by
  induction front generalizing previous with
  | nil =>
      have notHere : ¬ vectorPrefix <+: mark :: rest := by
        rintro ⟨after, textEq⟩
        obtain ⟨rfl, -⟩ := List.cons.inj textEq
        exact outside (by decide)
      have nothing : Vectorless previous [] := vectorless_of_not_mem List.not_mem_nil
      rw [List.nil_append, vectorless_cons]
      simp [notHere, nothing]
  | cons character front ih =>
      rw [List.cons_append, vectorless_cons, vectorless_cons, ih, ← List.cons_append,
        prefix_append_mark outside, and_assoc]

/-- No prefix starts in a text without its first character. -/
theorem vectorless_append (without : 'V' ∉ front)
    (vectorless : Vectorless (front.getLast?.or previous) rest) :
    Vectorless previous (front ++ rest) := by
  induction front generalizing previous with
  | nil => exact vectorless
  | cons character front ih =>
      rw [getLast?_cons_or] at vectorless
      refine vectorless_cons.mpr ⟨fun isPrefix => ?_,
        ih (fun isIn => without (List.mem_cons_of_mem _ isIn)) vectorless⟩
      have isFirst : 'V' = character := (List.cons_prefix_cons.mp isPrefix).1
      exact absurd (List.mem_cons.mpr (Or.inl isFirst)) without

/-- Behind the rule no prefix of vectors is left. -/
theorem Arrays.vectorless {source : List Char} (arrays : Arrays previous source out) :
    Vectorless previous out := by
  induction arrays with
  | done previous => exact vectorless_of_not_mem List.not_mem_nil
  | typed begins behind ih => exact vectorless_append (by decide) ih
  | plain begins noType behind ih => exact vectorless_append (by decide) ih
  | keep elsewhere behind ih =>
      exact vectorless_cons.mpr ⟨fun isPrefix =>
        elsewhere (startsApart_writesArray.isPrefix_cons behind.struck isPrefix), ih⟩

end Vectorless

/-! ## The rules behind -/

/-- A character that is in no word and not in the prefix of vectors. -/
def IsMark (character : Char) : Prop :=
  Text.isWord character = false ∧ character ∉ vectorPrefix

instance (character : Char) : Decidable (IsMark character) :=
  inferInstanceAs (Decidable (_ ∧ _))

theorem isMark_of_isBlank {character : Char} (isBlank : Text.isBlank character = true) :
    IsMark character := by
  have noBlank : vectorPrefix.any Text.isBlank = false := by decide
  exact ⟨Text.isWord_of_isBlank isBlank,
    fun isIn => List.any_eq_false.mp noBlank character isIn isBlank⟩

/-- A new text makes no prefix of vectors: it starts apart from it, and the old and the new
text end with marks, in front of which a prefix in the new text stood in the old one. -/
structure BringsNoVector (previous : Option Char) (covered new : List Char) : Prop where
  startsApart : ∃ first more, new = first :: more ∧ first ∉ vectorPrefix.tail
  endsApart : ∃ front mark written last, covered = front ++ [mark] ∧ new = written ++ [last] ∧
    IsMark mark ∧ IsMark last ∧ (Vectorless previous front → Vectorless previous written)

/-- An edit that makes no prefix of vectors leaves none where none was. -/
theorem vectorless_run {edit : Edit}
    (bringsNone : ∀ previous covered rest new, edit.Strikes previous covered rest new →
      BringsNoVector previous covered new)
    {source : List Char} (vectorless : Vectorless none source) :
    Vectorless none (edit.run source) := by
  have apart : StartsApart edit.Strikes := fun previous covered rest new struck =>
    (bringsNone previous covered rest new struck).startsApart
  have struck := edit.struck_run source
  generalize (none : Option Char) = previous at struck vectorless
  generalize edit.run source = out at struck
  induction struck with
  | done previous => exact vectorless
  | keep character behind ih =>
      obtain ⟨here, later⟩ := vectorless_cons.mp vectorless
      exact vectorless_cons.mpr
        ⟨fun isPrefix => here (apart.isPrefix_cons behind isPrefix), ih later⟩
  | strike struck behind ih =>
      obtain ⟨front, mark, written, last, rfl, rfl, isMark, isLast, keeps⟩ :=
        (bringsNone _ _ _ _ struck).endsApart
      rw [List.append_assoc, List.singleton_append,
        vectorless_append_mark isMark.2] at vectorless
      rw [List.append_assoc, List.singleton_append, vectorless_append_mark isLast.2]
      rw [List.getLast?_concat, Option.some_or] at ih
      have same : (some mark).any Text.isWord = (some last).any Text.isWord :=
        isMark.1.trans isLast.1.symm
      exact ⟨keeps vectorless.1, (ih vectorless.2).congr same⟩

/-- A loop gets a new head, which has no dot. -/
theorem bringsNoVector_loop {previous : Option Char} {front gap name : List Char} {opening : String}
    (starts : ∃ more, opening.toList = 'f' :: more) (noDot : '.' ∉ opening.toList)
    (isWord : name.all Text.isWord = true) (isBlank : gap.all Text.isBlank = true)
    (isSome : gap ≠ []) :
    BringsNoVector previous (front ++ gap) (opening.toList ++ name ++ " of ".toList) := by
  obtain ⟨more, openingEq⟩ := starts
  obtain ⟨gap, mark, rfl⟩ := (List.eq_nil_or_concat gap).resolve_left isSome
  rw [List.concat_eq_append] at isBlank ⊢
  have newEq : opening.toList ++ name ++ " of ".toList =
      (opening.toList ++ (name ++ " of".toList)) ++ [' '] := by
    simp
  have notInName : '.' ∉ name := fun isIn =>
    absurd (List.all_eq_true.mp isWord '.' isIn) (by decide)
  refine ⟨⟨'f', _, by rw [openingEq, List.append_assoc, List.cons_append], by decide⟩,
    front ++ gap, mark, _, ' ', by simp, newEq, ?_, by decide, fun _ => ?_⟩
  · exact isMark_of_isBlank (List.all_eq_true.mp isBlank mark (by simp))
  · have notInEnd : '.' ∉ " of".toList := by decide
    exact vectorless_of_not_mem
      (List.not_mem_append noDot (List.not_mem_append notInName notInEnd))

/-- The head of a loop notes its variable and ends with blanks. -/
theorem of_covers_loop {pattern : Pattern} {previous : Option Char} {covered rest : List Char}
    {notes : List NotedText} (isLoop : pattern = forEachDeclared ∨ pattern = forEachBare)
    (covers : pattern.Covers previous covered rest notes) :
    ∃ front gap, covered = front ++ gap ∧ gap.all Text.isBlank = true ∧ gap ≠ [] ∧
      (notedUnder 1 notes).all Text.isWord = true := by
  rcases isLoop with rfl | rfl
  · obtain ⟨gap, before, behind, _, -, -, -, -, rfl, -, _, behindHead⟩ :=
      of_covers_forEachHead covers
    obtain ⟨kind, _, _, _, rfl, rfl, isKind, behindKind⟩ := covers_sequence.mp behindHead
    obtain ⟨-, rfl⟩ := @mem_of_covers_anyOf _ _ _ _ ["var".toList, "let".toList] isKind
    simp only [inOrder, covers_blanks_sequence, covers_group_sequence, covers_words] at behindKind
    obtain ⟨second, _, -, -, rfl, name, _, _, _, rfl, rfl, ⟨isWord, -, rfl⟩, behindName⟩ :=
      behindKind
    obtain ⟨tail, final, isBlank, isSome, rfl, -, rfl⟩ := of_covers_behindVariable behindName
    refine ⟨"for".toList ++ (gap ++ ("each".toList ++ (before ++ '(' :: (behind ++ (kind ++
      (second ++ (name ++ tail))))))), final, by simp, isBlank, isSome, isWord⟩
  · obtain ⟨gap, before, behind, _, -, -, -, -, rfl, -, _, covers⟩ := of_covers_forEachHead covers
    simp only [inOrder, covers_group_sequence, covers_words, covers_blanks_sequence,
      covers_text_sequence, covers_blanks] at covers
    obtain ⟨name, _, _, _, rfl, rfl, ⟨isWord, -, rfl⟩, second, _, -, -, rfl, final, rfl,
      isBlank, isSome, rfl⟩ := covers
    refine ⟨"for".toList ++ (gap ++ ("each".toList ++ (before ++ '(' :: (behind ++ (name ++
      (second ++ "in".toList)))))), final, by simp, isBlank, isSome, isWord⟩

theorem vectorless_forEachToForOf {source : List Char} (vectorless : Vectorless none source) :
    Vectorless none (forEachToForOf.run source) := by
  rw [forEachToForOf, Rule.run_ofEdits]
  refine vectorless_run ?_ (vectorless_run ?_ vectorless)
  · rintro previous covered rest _ ⟨notes, found, covers, groupEq, rfl⟩
    obtain ⟨front, gap, rfl, isBlank, isSome, isWord⟩ := of_covers_loop (.inr rfl) covers
    rw [← groupEq] at isWord
    exact bringsNoVector_loop ⟨_, rfl⟩ (by decide) isWord isBlank isSome
  · rintro previous covered rest _ ⟨notes, found, covers, groupEq, rfl⟩
    obtain ⟨front, gap, rfl, isBlank, isSome, isWord⟩ := of_covers_loop (.inl rfl) covers
    rw [← groupEq] at isWord
    exact bringsNoVector_loop ⟨_, rfl⟩ (by decide) isWord isBlank isSome

theorem vectorless_newShorthands {source : List Char} (vectorless : Vectorless none source) :
    Vectorless none (newShorthands.run source) := by
  rw [newShorthands, Rule.run_ofEdits]
  refine vectorless_run ?_ (vectorless_run ?_ vectorless)
  · rintro previous covered rest _ ⟨notes, found, covers, -, rfl⟩
    simp only [inOrder, covers_boundary_sequence, covers_text_sequence,
      covers_maybeBlanks_sequence, covers_oneOrMore_sequence, covers_text] at covers
    obtain ⟨-, _, rfl, gap, _, -, rfl, _, rfl, type, _, -, -, rfl, _, rfl, closing, _, -, rfl, rfl,
      -⟩ := covers
    refine ⟨⟨'[', [], rfl, by decide⟩, "new".toList ++ (gap ++ ("<".toList ++ (type ++
      (">".toList ++ closing)))), '[', [], '[', by simp, rfl, by decide, by decide, fun _ => ?_⟩
    exact vectorless_of_not_mem List.not_mem_nil
  · rintro previous covered rest _ ⟨notes, found, covers, groupEq, rfl⟩
    simp only [inOrder, covers_boundary_sequence, covers_text_sequence, covers_blanks_sequence,
      covers_group_sequence, covers_oneOrMore, covers_maybeBlanks_sequence, covers_text] at covers
    obtain ⟨-, _, rfl, gap, _, -, -, rfl, _, rfl, item, _, _, _, rfl, rfl, ⟨-, -, rfl⟩, _, rfl,
      closing, _, -, rfl, rfl, rfl⟩ := covers
    have itemEq : found.group 1 = item := groupEq 1
    dsimp only
    rw [itemEq]
    have newEq : "new Array<".toList ++ item ++ ">();".toList =
        ("new Array".toList ++ '<' :: (item ++ '>' :: "()".toList)) ++ [';'] := by
      simp
    have coveredEq : "new".toList ++ (gap ++ ("Array<".toList ++ (item ++ (">".toList ++
        (closing ++ ";".toList))))) =
        ("new".toList ++ (gap ++ "Array".toList) ++ '<' :: (item ++ '>' :: closing)) ++ [';'] := by
      simp
    have outside : '<' ∉ vectorPrefix ∧ '>' ∉ vectorPrefix := by decide
    refine ⟨⟨'n', _, rfl, by decide⟩, _, ';', _, ';', coveredEq, newEq, by decide, by decide,
      fun inFront => ?_⟩
    -- The type of the items stands between the same marks as before.
    obtain ⟨-, behindMark⟩ := (vectorless_append_mark outside.1).mp inFront
    obtain ⟨inItem, -⟩ := (vectorless_append_mark outside.2).mp behindMark
    exact (vectorless_append_mark outside.1).mpr ⟨vectorless_of_not_mem (by decide),
      (vectorless_append_mark outside.2).mpr ⟨inItem, vectorless_of_not_mem (by decide)⟩⟩

/-- No prefix of vectors is left behind all rules, unless it goes on with a word.  The rule for
vectors writes arrays for just these prefixes. -/
theorem normalize_vectorless (source : String) :
    Vectorless none (normalize source).toList ∧
      ∀ text out, vectorToArray.run text = out ↔ Arrays none text out := by
  constructor
  · simp only [normalize, String.toList_ofList, normalizeText, rules, List.foldl_cons,
      List.foldl_nil]
    refine vectorless_newShorthands (vectorless_forEachToForOf ?_)
    exact (arrays_run _).vectorless
  · intro text out
    constructor
    · rintro rfl
      exact arrays_run text
    · exact Arrays.run_eq

end Normalize

end ScriptBridge

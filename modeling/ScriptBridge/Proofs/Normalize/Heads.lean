import ScriptBridge.Normalize.Declarations
import ScriptBridge.Proofs.Pattern.Words

/-!
# Heads of declarations

A declaration starts with a row of words, its head, in front of the name that it
declares.  Most rules for declarations look for one or two neighbouring words of a
head.  Such a rule changes the heads of all lines of a text and leaves everything
else: the text behind the heads has none of the words that it looks for.
-/

namespace ScriptBridge

namespace Normalize

open Pattern

/-- The words of heads, in the source language and in the target language. -/
inductive HeadWord where
  | publicWord
  | protectedWord
  | privateWord
  | staticWord
  | finalWord
  | overrideWord
  | functionWord
  | varWord
  | constWord
  | getWord
  | setWord
  | classWord
  | interfaceWord
  | exportWord
  | readonlyWord
  deriving DecidableEq

namespace HeadWord

/-- How a word is written. -/
def text : HeadWord → List Char
  | .publicWord => "public".toList
  | .protectedWord => "protected".toList
  | .privateWord => "private".toList
  | .staticWord => "static".toList
  | .finalWord => "final".toList
  | .overrideWord => "override".toList
  | .functionWord => "function".toList
  | .varWord => "var".toList
  | .constWord => "const".toList
  | .getWord => "get".toList
  | .setWord => "set".toList
  | .classWord => "class".toList
  | .interfaceWord => "interface".toList
  | .exportWord => "export".toList
  | .readonlyWord => "readonly".toList

theorem isWord_text (word : HeadWord) : word.text.all Text.isWord = true := by
  cases word <;> decide

theorem text_ne_nil (word : HeadWord) : word.text ≠ [] := by
  cases word <;> decide

theorem text_injective {first second : HeadWord} (same : first.text = second.text) :
    first = second := by
  revert same
  cases first <;> cases second <;> decide

/-- The words of heads in the source language. -/
def sourceWords : List HeadWord :=
  [.publicWord, .protectedWord, .privateWord, .staticWord, .finalWord, .overrideWord,
    .functionWord, .varWord, .constWord, .getWord, .setWord, .classWord, .interfaceWord]

/-- How words are written. -/
def texts (words : List HeadWord) : List (List Char) :=
  words.map text

theorem areWords_texts (words : List HeadWord) : AreWords (texts words) := by
  intro word isWord
  obtain ⟨head, -, rfl⟩ := List.mem_map.mp isWord
  exact ⟨head.text_ne_nil, head.isWord_text⟩

theorem text_mem_texts {word : HeadWord} {words : List HeadWord} :
    word.text ∈ texts words ↔ word ∈ words := by
  constructor
  · intro isText
    obtain ⟨other, isOther, same⟩ := List.mem_map.mp isText
    exact text_injective same ▸ isOther
  · exact List.mem_map_of_mem

theorem space_ne_nil : [' '] ≠ [] := by decide

theorem isGap_space : [' '].all (!Text.isWord ·) = true := by decide

/-- A word with a space behind it. -/
def piece (word : HeadWord) : SpacedWord where
  word := word.text
  gap := [' ']
  isWord := word.isWord_text
  isSome := space_ne_nil
  isGap := isGap_space

/-- The pieces of a head. -/
def pieces (head : List HeadWord) : List SpacedWord :=
  head.map piece

end HeadWord

@[simp] theorem textOf_pieces_cons (word : HeadWord) (head : List HeadWord) :
    SpacedWord.textOf (HeadWord.pieces (word :: head)) =
      word.text ++ ([' '] ++ SpacedWord.textOf (HeadWord.pieces head)) := by
  simp [HeadWord.pieces, HeadWord.piece]

@[simp] theorem textOf_pieces_append (first second : List HeadWord) :
    SpacedWord.textOf (HeadWord.pieces (first ++ second)) =
      SpacedWord.textOf (HeadWord.pieces first) ++ SpacedWord.textOf (HeadWord.pieces second) := by
  simp [HeadWord.pieces]

/-- A space belongs to no word. -/
theorem isWord_space : Text.isWord ' ' = false := by decide

/-- A space is white space. -/
theorem isBlank_space : [' '].all Text.isBlank = true := by decide

/-- A declaration: what leads to its line, its head, the name that it declares, and the
pieces behind it. -/
structure Line where
  lead : SpacedWord
  head : List HeadWord
  subject : SpacedWord
  rest : List SpacedWord

/-- The pieces of a declaration. -/
def Line.pieces (line : Line) : List SpacedWord :=
  line.lead :: (HeadWord.pieces line.head ++ line.subject :: line.rest)

/-- What lies around the head of a line. -/
def Line.around (line : Line) : List SpacedWord :=
  line.lead :: line.subject :: line.rest

/-- The text of declarations between other pieces. -/
def outline (before : List SpacedWord) (lines : List Line) (closing : List SpacedWord) :
    List Char :=
  SpacedWord.textOf (before ++ (lines.flatMap Line.pieces ++ closing))

/-- What holds of all pieces of an outline holds of the heads and of what lies around
them. -/
theorem forall_mem_outline {property : SpacedWord → Prop} {before closing : List SpacedWord}
    {lines : List Line} (inBefore : ∀ piece ∈ before, property piece)
    (inHeads : ∀ line ∈ lines, ∀ word ∈ line.head, property word.piece)
    (inLines : ∀ line ∈ lines, ∀ piece ∈ line.around, property piece)
    (inClosing : ∀ piece ∈ closing, property piece) :
    ∀ piece ∈ before ++ (lines.flatMap Line.pieces ++ closing), property piece := by
  intro piece isPiece
  simp only [List.mem_append, List.mem_flatMap, Line.pieces, HeadWord.pieces, List.mem_cons,
    List.mem_map] at isPiece
  rcases isPiece with isPiece | ⟨line, isLine, rfl | ⟨word, isWord, rfl⟩ | rest⟩ | isPiece
  · exact inBefore piece isPiece
  · exact inLines line isLine _ List.mem_cons_self
  · exact inHeads line isLine word isWord
  · exact inLines line isLine piece (List.mem_cons_of_mem _ (List.mem_cons.mpr rest))
  · exact inClosing piece isPiece

/-- A declaration with another head. -/
def Line.mapHead (change : List HeadWord → List HeadWord) (line : Line) : Line :=
  { line with head := change line.head }

/-- None of the pieces has a word that the rules look for in heads. -/
def ArePlain (pieces : List SpacedWord) : Prop :=
  ∀ piece ∈ pieces, piece.word ∉ HeadWord.texts HeadWord.sourceWords

/-- A declaration of a name, with plain pieces behind its head. -/
structure Line.IsPlain (line : Line) : Prop where
  isSome : line.subject.word ≠ []
  plain : ArePlain line.around

/-- Declarations and other pieces that are plain apart from the heads. -/
structure IsPlainOutline (before : List SpacedWord) (lines : List Line)
    (closing : List SpacedWord) : Prop where
  before : ArePlain before
  lines : ∀ line ∈ lines, line.IsPlain
  closing : ArePlain closing

theorem IsPlainOutline.mapHead {before closing : List SpacedWord} {lines : List Line}
    (plain : IsPlainOutline before lines closing) (change : List HeadWord → List HeadWord) :
    IsPlainOutline before (lines.map (Line.mapHead change)) closing := by
  refine ⟨plain.before, fun line isLine => ?_, plain.closing⟩
  obtain ⟨former, isFormer, rfl⟩ := List.mem_map.mp isLine
  exact ⟨(plain.lines former isFormer).isSome, (plain.lines former isFormer).plain⟩

/-- An edit that changes heads and nothing else. -/
structure ChangesHeads (edit : Edit) (change : List HeadWord → List HeadWord) : Prop where
  starts : edit.pattern.StartsWith (HeadWord.texts HeadWord.sourceWords)
  inHead : ∀ {head : List HeadWord} {previous : Option Char} {subject rest out : List Char},
    previous.any Text.isWord = false → subject ≠ [] → subject.all Text.isWord = true →
    subject ∉ HeadWord.texts HeadWord.sourceWords → rest.head?.any Text.isWord = false →
    (∀ previous : Option Char, previous.any Text.isWord = false →
      edit.Rewrites previous (subject ++ rest) out) →
    edit.Rewrites previous (SpacedWord.textOf (HeadWord.pieces head) ++ (subject ++ rest))
      (SpacedWord.textOf (HeadWord.pieces (change head)) ++ out)

namespace ChangesHeads

variable {edit : Edit} {change : List HeadWord → List HeadWord}

theorem inLines (changes : ChangesHeads edit change) {lines : List Line} {rest out : List Char}
    {previous : Option Char} (plain : ∀ line ∈ lines, line.IsPlain)
    (begins : previous.any Text.isWord = false)
    (behind : ∀ previous : Option Char, previous.any Text.isWord = false →
      edit.Rewrites previous rest out) :
    edit.Rewrites previous (SpacedWord.textOf (lines.flatMap Line.pieces) ++ rest)
      (SpacedWord.textOf ((lines.map (Line.mapHead change)).flatMap Line.pieces) ++ out) := by
  induction lines generalizing previous with
  | nil => exact behind previous begins
  | cons line lines ih =>
      obtain ⟨isSome, plainAll⟩ := plain line (by simp)
      have plainLead : ArePlain [line.lead] := fun piece isPiece =>
        plainAll piece (by simp_all [Line.around])
      have plainLine : ArePlain (line.subject :: line.rest) := fun piece isPiece =>
        plainAll piece (List.mem_cons_of_mem _ isPiece)
      have plainRest : ∀ other ∈ lines, other.IsPlain := fun other isOther =>
        plain other (by simp [isOther])
      have inTail (previous : Option Char) (begins : previous.any Text.isWord = false) :=
        Edit.Rewrites.keepAll
          (changes.starts.missesIn (HeadWord.areWords_texts _) plainLine)
          (ih plainRest (SpacedWord.getLast?_textOf begins))
      have inLine (previous : Option Char) (begins : previous.any Text.isWord = false) :
          edit.Rewrites previous _ (SpacedWord.textOf (HeadWord.pieces (change line.head)) ++ _) :=
        changes.inHead begins isSome line.subject.isWord (plainLine line.subject (by simp))
          (line.subject.head?_gap _) (fun previous begins => by simpa using inTail previous begins)
      have whole := Edit.Rewrites.keepAll
        (changes.starts.missesIn (HeadWord.areWords_texts _) plainLead)
        (inLine _ (SpacedWord.getLast?_textOf begins))
      simpa [Line.pieces, Line.mapHead] using whole

/-- The edit changes the heads of all declarations of a text. -/
theorem run_eq (changes : ChangesHeads edit change) {before closing : List SpacedWord}
    {lines : List Line} (plain : IsPlainOutline before lines closing) :
    edit.run (outline before lines closing) =
      outline before (lines.map (Line.mapHead change)) closing := by
  have misses {previous : Option Char} {pieces : List SpacedWord} {rest : List Char}
      (plain : ArePlain pieces) :
      edit.pattern.MissesIn previous (SpacedWord.textOf pieces) rest :=
    changes.starts.missesIn (HeadWord.areWords_texts _) plain
  have inClosing (previous : Option Char) (_ : previous.any Text.isWord = false) :
      edit.Rewrites previous (SpacedWord.textOf closing) (SpacedWord.textOf closing) := by
    have kept : edit.Rewrites previous (SpacedWord.textOf closing ++ [])
        (SpacedWord.textOf closing ++ []) :=
      .keepAll (misses plain.closing) (.done _)
    simpa using kept
  have noWord : (none : Option Char).any Text.isWord = false := rfl
  have whole := Edit.Rewrites.keepAll (misses plain.before)
    (changes.inLines plain.lines (SpacedWord.getLast?_textOf noWord) inClosing)
  simpa [outline] using whole.run_eq

end ChangesHeads

/-! ## Edits of neighbouring words -/

/-- What is to happen to neighbouring words: one of the first words in front of one of
the second words gives way to other words. -/
structure WordPair where
  firsts : List HeadWord
  seconds : List HeadWord
  written : HeadWord → HeadWord → List HeadWord

/-- A head after all such neighbours have given way. -/
def WordPair.change (pair : WordPair) : List HeadWord → List HeadWord
  | first :: second :: rest =>
      if first ∈ pair.firsts ∧ second ∈ pair.seconds then
        pair.written first second ++ pair.change rest
      else first :: pair.change (second :: rest)
  | short => short

/-- An edit that finds such neighbours and writes the other words changes heads. -/
theorem changesHeads_of_pair {edit : Edit} {pair : WordPair} {first second : Pattern}
    {firstNotes secondNotes : Nat → Nat → List Group}
    (patternEq : edit.pattern = Pattern.pair first second)
    (picksFirst : first.Picks (HeadWord.texts pair.firsts) firstNotes)
    (picksSecond : second.Picks (HeadWord.texts pair.seconds) secondNotes)
    (firstsAreSource : pair.firsts ⊆ HeadWord.sourceWords)
    (secondsAreSource : pair.seconds ⊆ HeadWord.sourceWords)
    (writes : ∀ one ∈ pair.firsts, ∀ other ∈ pair.seconds, ∃ new,
      new ++ [' '] = SpacedWord.textOf (HeadWord.pieces (pair.written one other)) ∧
      ∀ (found : Match) (rest : List Char),
        found.start.after = one.text ++ ([' '] ++ (other.text ++ rest)) →
        found.groups =
          secondNotes (found.start.position + one.text.length + [' '].length)
              (found.start.position + one.text.length + [' '].length + other.text.length) ++
            (firstNotes found.start.position (found.start.position + one.text.length) ++ []) →
        edit.replacement found = new) :
    ChangesHeads edit pair.change := by
  have areFirsts := HeadWord.areWords_texts pair.firsts
  have areSeconds := HeadWord.areWords_texts pair.seconds
  have starts : edit.pattern.StartsWith (HeadWord.texts pair.firsts) :=
    patternEq ▸ startsWith_pair picksFirst areFirsts
  -- Neighbours that are no such pair are left alone.
  have misses {previous : Option Char} {one other rest : List Char}
      (oneIsWord : one.all Text.isWord = true) (otherIsSome : other ≠ [])
      (otherIsWord : other.all Text.isWord = true) (ends : rest.head?.any Text.isWord = false)
      (apart : one ∈ HeadWord.texts pair.firsts → other ∉ HeadWord.texts pair.seconds)
      (position : Nat) :
      edit.pattern.ways ⟨⟨position, previous, one ++ ([' '] ++ (other ++ rest))⟩, []⟩ = [] := by
    rw [patternEq, List.eq_nil_iff_forall_not_mem]
    intro way isWay
    obtain ⟨oneFirst, otherSecond, -⟩ := pair_at picksFirst picksSecond areFirsts areSeconds
      oneIsWord isBlank_space (by simp) otherIsSome otherIsWord ends isWay
    exact apart oneFirst otherSecond
  refine ⟨fun attempt way isWay => ?_, ?_⟩
  · obtain ⟨word, isWord, rest, here⟩ := starts attempt way isWay
    exact ⟨word, List.map_subset _ firstsAreSource isWord, rest, here⟩
  · intro head previous subject rest out begins subjectIsSome subjectIsWord plain ends behind
    have subjectApart : subject ∉ HeadWord.texts pair.seconds := fun isSecond =>
      plain (List.map_subset _ secondsAreSource isSecond)
    have keep (previous : Option Char) (word : HeadWord) {other rest out : List Char}
        (otherIsSome : other ≠ []) (otherIsWord : other.all Text.isWord = true)
        (ends : rest.head?.any Text.isWord = false)
        (apart : word.text ∈ HeadWord.texts pair.firsts → other ∉ HeadWord.texts pair.seconds)
        (behind : edit.Rewrites (some ' ') (other ++ rest) out) :
        edit.Rewrites previous (word.text ++ ([' '] ++ (other ++ rest)))
          (word.text ++ ([' '] ++ out)) := by
      have missed : edit.pattern.MissesIn previous word.piece.text (other ++ rest) :=
        starts.missesIn_piece areFirsts
          (misses word.isWord_text otherIsSome otherIsWord ends apart)
      have behindPiece :
          edit.Rewrites (word.piece.text.getLast?.or previous) (other ++ rest) out := by
        rw [SpacedWord.text, List.getLast?_append]
        exact behind
      simpa [SpacedWord.text, HeadWord.piece] using behindPiece.keepAll missed
    fun_induction pair.change head generalizing previous with
    | case1 one other rest isPair ih =>
        obtain ⟨new, newEq, writesNew⟩ := writes one isPair.1 other isPair.2
        have oneFirst := HeadWord.text_mem_texts.mpr isPair.1
        have otherSecond := HeadWord.text_mem_texts.mpr isPair.2
        have replaces (more : List Char) :
            edit.Replaces previous (one.text ++ [' '] ++ other.text) ([' '] ++ more) new := by
          refine ⟨by simp, fun position => ⟨secondNotes (position + one.text.length + [' '].length)
            (position + one.text.length + [' '].length + other.text.length) ++
              (firstNotes position (position + one.text.length) ++ []), ?_,
            writesNew _ ([' '] ++ more) (by simp) rfl⟩⟩
          obtain ⟨way, isWay⟩ := exists_mem_ways_pair picksFirst picksSecond areFirsts areSeconds
            oneFirst otherSecond isBlank_space (List.cons_ne_nil ' ' []) begins
            (show ([' '] ++ more).head?.any Text.isWord = false from isWord_space)
          rw [patternEq, List.append_assoc, List.append_assoc]
          refine head?_of_forall_eq isWay fun found isFound => ?_
          rw [(pair_at picksFirst picksSecond areFirsts areSeconds (areFirsts _ oneFirst).2
            isBlank_space (by simp) (areSeconds _ otherSecond).1 (areSeconds _ otherSecond).2
            (by exact isWord_space) isFound).2.2, List.append_assoc]
        have inRest : edit.Rewrites (some ' ') _ _ := ih isWord_space
        have whole := Edit.Rewrites.replace (replaces _)
          (.keep (fun position => starts.ways_eq_nil areFirsts isWord_space) inRest)
        rw [textOf_pieces_append, ← newEq]
        simpa using whole
    | case2 one other rest noPair ih =>
        have apart : one.text ∈ HeadWord.texts pair.firsts →
            other.text ∉ HeadWord.texts pair.seconds := by
          simpa only [HeadWord.text_mem_texts, not_and] using noPair
        have inRest : edit.Rewrites (some ' ') _ _ := ih isWord_space
        rw [textOf_pieces_cons, List.append_assoc, List.append_assoc] at inRest
        have kept := keep previous one other.text_ne_nil other.isWord_text
          (by exact isWord_space) apart inRest
        simpa using kept
    | case3 short isShort =>
        cases short with
        | nil => exact behind previous begins
        | cons one short =>
            cases short with
            | nil =>
                have kept := keep previous one subjectIsSome subjectIsWord ends
                  (fun _ => subjectApart) (behind (some ' ') isWord_space)
                simpa [HeadWord.pieces, HeadWord.piece] using kept
            | cons other rest => exact absurd rfl (isShort one other rest)

/-- Such an edit whose first words are group 1. -/
theorem changesHeads_of_first {edit : Edit} {pair : WordPair} {second : HeadWord}
    (patternEq : edit.pattern = Pattern.pair
      (.group 1 (anyOf ((HeadWord.texts pair.firsts).map .literal))) (.literal second.text))
    (secondsEq : pair.seconds = [second]) (firstsAreSource : pair.firsts ⊆ HeadWord.sourceWords)
    (secondIsSource : second ∈ HeadWord.sourceWords) (write : List Char → List Char)
    (replacementEq : ∀ found, edit.replacement found = write (found.group 1))
    (written : ∀ one ∈ pair.firsts, write one.text ++ [' '] =
      SpacedWord.textOf (HeadWord.pieces (pair.written one second))) :
    ChangesHeads edit pair.change := by
  refine changesHeads_of_pair patternEq ((Picks.anyOf _).group 1)
    (by rw [secondsEq]; exact Picks.literal _) firstsAreSource
    (by rw [secondsEq]; simpa using secondIsSource) ?_
  intro one isFirst other isSecond
  obtain rfl : other = second := by simpa [secondsEq] using isSecond
  refine ⟨write one.text, written one isFirst, fun found rest textEq groupsEq => ?_⟩
  rw [replacementEq, group_of_note [] one.text textEq groupsEq]

/-- Such an edit whose second words are group 1. -/
theorem changesHeads_of_second {edit : Edit} {pair : WordPair} {first : HeadWord}
    (patternEq : edit.pattern = Pattern.pair (.literal first.text)
      (.group 1 (anyOf ((HeadWord.texts pair.seconds).map .literal))))
    (firstsEq : pair.firsts = [first]) (firstIsSource : first ∈ HeadWord.sourceWords)
    (secondsAreSource : pair.seconds ⊆ HeadWord.sourceWords) (write : List Char → List Char)
    (replacementEq : ∀ found, edit.replacement found = write (found.group 1))
    (written : ∀ other ∈ pair.seconds, write other.text ++ [' '] =
      SpacedWord.textOf (HeadWord.pieces (pair.written first other))) :
    ChangesHeads edit pair.change := by
  refine changesHeads_of_pair patternEq (by rw [firstsEq]; exact Picks.literal _)
    ((Picks.anyOf _).group 1) (by rw [firstsEq]; simpa using firstIsSource) secondsAreSource ?_
  intro one isFirst other isSecond
  obtain rfl : one = first := by simpa [firstsEq] using isFirst
  refine ⟨write other.text, written other isSecond, fun found rest textEq groupsEq => ?_⟩
  have noted : found.group 1 = other.text :=
    group_of_note (one.text ++ [' ']) other.text (by simpa using textEq)
      (by simpa [Picks.asGroup, Picks.noNotes, Nat.add_assoc] using groupsEq)
  rw [replacementEq, noted]

/-! ## Edits of single words -/

/-- Behind a head a word starts. -/
theorem any_isBlank_head?_head {head : List HeadWord} {subject rest : List Char}
    (isSome : subject ≠ []) (isWord : subject.all Text.isWord = true) :
    (SpacedWord.textOf (HeadWord.pieces head) ++ (subject ++ rest)).head?.any Text.isBlank =
      false := by
  cases head with
  | nil =>
      show (subject ++ rest).head?.any Text.isBlank = false
      exact any_isBlank_head?_word isSome isWord
  | cons word head =>
      rw [textOf_pieces_cons, List.append_assoc]
      exact any_isBlank_head?_word word.text_ne_nil word.isWord_text

/-- An edit that removes a word with the white space behind it changes heads. -/
theorem changesHeads_of_word {edit : Edit} {word : HeadWord}
    (isSource : word ∈ HeadWord.sourceWords)
    (patternEq : edit.pattern = inOrder [boundary, .literal word.text, boundary, blanks])
    (removes : ∀ found, edit.replacement found = []) :
    ChangesHeads edit (List.filter (· ≠ word)) := by
  have areWords := HeadWord.areWords_texts [word]
  have starts : edit.pattern.StartsWith (HeadWord.texts [word]) :=
    patternEq ▸ (Picks.literal word.text).startsWith areWords (FailsInWords.boundary.sequence _)
  have replaces {previous : Option Char} {rest : List Char}
      (begins : previous.any Text.isWord = false) (stops : rest.head?.any Text.isBlank = false) :
      edit.Replaces previous (word.text ++ [' ']) rest [] := by
    refine ⟨by simp, fun position => ⟨[], ?_, removes _⟩⟩
    have edge (cursor : Cursor) : (cursor.past word.text ([' '] ++ rest)).previous.any Text.isWord ≠
        ([' '] ++ rest).head?.any Text.isWord := by
      rw [previous_past_word word.text_ne_nil word.isWord_text,
        show ([' '] ++ rest).head?.any Text.isWord = false from isWord_space]
      decide
    have partsEq : edit.pattern = .sequence boundary (.sequence (.literal word.text)
        (.sequence boundary blanks)) := patternEq
    rw [partsEq, List.append_assoc,
      ways_word word.text_ne_nil word.isWord_text begins rfl (.sequence boundary blanks) [],
      ways_sequence_of_eq (ways_boundary_of_edge (edge _)), ways_space stops rfl,
      Cursor.past_past]
    rfl
  refine ⟨fun attempt way isWay => ?_, ?_⟩
  · obtain ⟨found, isWord, rest, here⟩ := starts attempt way isWay
    have within : [word] ⊆ HeadWord.sourceWords := by simpa using isSource
    exact ⟨found, List.map_subset _ within isWord, rest, here⟩
  · intro head previous subject rest out begins subjectIsSome subjectIsWord plain ends behind
    induction head generalizing previous with
    | nil => exact behind previous begins
    | cons one head ih =>
        have inRest : edit.Rewrites (some ' ') _ _ := ih isWord_space
        by_cases same : one = word
        · subst same
          have whole := Edit.Rewrites.replace
            (replaces begins (any_isBlank_head?_head subjectIsSome subjectIsWord))
            (by simpa using inRest)
          simpa using whole
        · have apart : ∀ piece ∈ [one.piece], piece.word ∉ HeadWord.texts [word] := by
            intro piece isPiece
            obtain rfl : piece = one.piece := by simpa using isPiece
            exact fun isText => same (by simpa using HeadWord.text_mem_texts.mp isText)
          have whole : edit.Rewrites previous _ _ :=
            .keepAll (starts.missesIn areWords apart) (by simpa [HeadWord.piece] using inRest)
          simpa [same, HeadWord.piece] using whole

/-! ## The rules for heads -/

namespace HeadWord

def accessWords : List HeadWord :=
  [.publicWord, .protectedWord, .privateWord]

def modifierWords : List HeadWord :=
  accessWords ++ [HeadWord.staticWord]

end HeadWord

/-- A public type is exported. -/
def exportPair : WordPair where
  firsts := [.publicWord]
  seconds := [.classWord, .interfaceWord]
  written _ kind := [.exportWord, kind]

/-- A word disappears behind a modifier. -/
def droppedBehind (modifiers : List HeadWord) (word : HeadWord) : WordPair where
  firsts := modifiers
  seconds := [word]
  written modifier _ := [modifier]

/-- A constant is read-only. -/
def constantPair : WordPair where
  firsts := HeadWord.modifierWords
  seconds := [.constWord]
  written modifier _ := [modifier, .readonlyWord]

/-- The word `override` disappears in front of an access word. -/
def overridePair : WordPair where
  firsts := [.overrideWord]
  seconds := HeadWord.accessWords
  written _ access := [access]

theorem changesHeads_droppedBehind {modifiers : List HeadWord} {word : HeadWord}
    (areSource : modifiers ⊆ HeadWord.sourceWords) (isSource : word ∈ HeadWord.sourceWords) :
    ChangesHeads ⟨Pattern.pair (.group 1 (anyOf ((HeadWord.texts modifiers).map .literal)))
      (.literal word.text), firstGroup⟩ (droppedBehind modifiers word).change :=
  changesHeads_of_first rfl rfl areSource isSource id (fun _ => rfl)
    fun modifier _ => by simp [droppedBehind, HeadWord.pieces, HeadWord.piece]

section Rules

variable {before closing : List SpacedWord} {lines : List Line}

theorem run_stripFinal (plain : IsPlainOutline before lines closing) :
    stripFinal.run (outline before lines closing) =
      outline before (lines.map (Line.mapHead (List.filter (· ≠ .finalWord)))) closing := by
  have changes : ChangesHeads ⟨inOrder [boundary, text "final", boundary, blanks], fun _ => []⟩ _ :=
    @changesHeads_of_word _ .finalWord (by decide) rfl (fun _ => rfl)
  rw [stripFinal, Rule.run_ofEdits]
  exact changes.run_eq plain

theorem run_exportPublicTypes (plain : IsPlainOutline before lines closing) :
    exportPublicTypes.run (outline before lines closing) =
      outline before (lines.map (Line.mapHead exportPair.change)) closing := by
  rw [exportPublicTypes, Rule.run_ofEdits]
  refine (changesHeads_of_second rfl rfl (by decide) (by decide)
    ("export ".toList ++ ·) (fun _ => rfl) ?_ : ChangesHeads _ exportPair.change).run_eq plain
  decide

theorem run_stripFieldVar (plain : IsPlainOutline before lines closing) :
    stripFieldVar.run (outline before lines closing) =
      outline before (lines.map (Line.mapHead
        (constantPair.change ∘ (droppedBehind HeadWord.modifierWords .varWord).change)))
        closing := by
  have ofVar := @changesHeads_droppedBehind HeadWord.modifierWords .varWord (by decide) (by decide)
  have ofConst : ChangesHeads ⟨modified modifierWord "const",
      fun found => found.group 1 ++ " readonly".toList⟩ constantPair.change :=
    changesHeads_of_first rfl rfl (by decide) (by decide) (· ++ " readonly".toList) (fun _ => rfl)
      (by decide)
  rw [stripFieldVar, Rule.run_ofEdits]
  refine (congrArg _ (ofVar.run_eq plain)).trans ((ofConst.run_eq (plain.mapHead _)).trans ?_)
  rw [List.map_map]
  rfl

theorem run_stripOverride (plain : IsPlainOutline before lines closing) :
    stripOverride.run (outline before lines closing) =
      outline before (lines.map (Line.mapHead
        (overridePair.change ∘ (droppedBehind HeadWord.accessWords .overrideWord).change)))
        closing := by
  have behindAccess :=
    @changesHeads_droppedBehind HeadWord.accessWords .overrideWord (by decide) (by decide)
  have beforeAccess : ChangesHeads ⟨inOrder [boundary, text "override", blanks,
      .group 1 accessWord, boundary], firstGroup⟩ overridePair.change :=
    changesHeads_of_second rfl rfl (by decide) (by decide) id (fun _ => rfl) (by decide)
  rw [stripOverride, Rule.run_ofEdits]
  refine (congrArg _ (behindAccess.run_eq plain)).trans
    ((beforeAccess.run_eq (plain.mapHead _)).trans ?_)
  rw [List.map_map]
  rfl

/-- A named function starts with the word `function`. -/
theorem leadsTo_namedFunction : namedFunction.LeadsTo (HeadWord.texts [.functionWord]) := by
  intro attempt way isWay
  obtain ⟨_, isStart, behindStart⟩ := mem_ways_sequence.mp isWay
  obtain ⟨started, isStarted, rfl⟩ := mem_ways_group.mp isStart
  obtain ⟨_, isWord, behindWord⟩ := mem_ways_sequence.mp behindStart
  obtain ⟨rest, afterEq, rfl⟩ := mem_ways_literal.mp isWord
  obtain ⟨_, isGap, -⟩ := mem_ways_sequence.mp behindWord
  obtain ⟨gap, more, gapEq, allBlank, long, -⟩ := mem_ways_run.mp isGap
  have ends : rest.head?.any Text.isWord = false := by
    have gapEq : rest = gap ++ more := gapEq
    rw [gapEq]
    exact any_head?_blanks (List.all_eq_true.mpr allBlank) (List.length_pos_iff.mp long)
  refine ⟨_, List.mem_singleton_self _, ?_⟩
  rcases mem_ways_choice.mp isStarted with atStart | behindBlank
  · obtain ⟨first, rfl⟩ := mem_ways_condition.mp atStart
    refine ⟨[], rest, afterEq, ?_, ends⟩
    rw [Option.isNone_iff_eq_none.mp first]
    rfl
  · obtain ⟨character, more, blankEq, blank, rfl⟩ := mem_ways_one.mp behindBlank
    obtain rfl : more = _ := afterEq
    exact ⟨[character], rest, blankEq, Text.isWord_of_isBlank blank, ends⟩

theorem run_stripFunctionKeyword (plain : IsPlainOutline before lines closing)
    (gone : ∀ line ∈ lines, .functionWord ∉
      (droppedBehind HeadWord.modifierWords .functionWord).change line.head) :
    stripFunctionKeyword.run (outline before lines closing) =
      outline before (lines.map (Line.mapHead
        (droppedBehind HeadWord.modifierWords .functionWord).change)) closing := by
  have behindModifier :=
    @changesHeads_droppedBehind HeadWord.modifierWords .functionWord (by decide) (by decide)
  rw [stripFunctionKeyword, Rule.run_ofEdits]
  refine (congrArg _ (behindModifier.run_eq plain)).trans (Edit.run_of_misses ?_)
  refine leadsTo_namedFunction.missesIn (HeadWord.areWords_texts _) ?_
  have isSource : HeadWord.texts [.functionWord] ⊆ HeadWord.texts HeadWord.sourceWords := by decide
  have changed := plain.mapHead (droppedBehind HeadWord.modifierWords .functionWord).change
  refine forall_mem_outline
    (fun piece isPiece isWord => changed.before piece isPiece (isSource isWord))
    ?_ (fun line isLine piece isPiece isWord =>
      (changed.lines line isLine).plain piece isPiece (isSource isWord))
    (fun piece isPiece isWord => changed.closing piece isPiece (isSource isWord))
  intro line isLine word isWord isText
  obtain ⟨former, isFormer, rfl⟩ := List.mem_map.mp isLine
  obtain rfl : word = .functionWord := by simpa using HeadWord.text_mem_texts.mp isText
  exact gone former isFormer isWord

end Rules

end Normalize

end ScriptBridge

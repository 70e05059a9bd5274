import ScriptBridge.Proofs.Printing.SuperCalls

/-!
# Operations on a text

A text is written line by line, and now and then its end is taken back.  The text behind a sequence
of operations is told by the characters they ask for, each with the level in force: cut at the line
ends, an empty line stays empty, and any other line is indented by the level of its first
character.  Whatever is cut off or written verbatim in between, indentation is only inserted where
no line has begun.

The end of a text can be taken back and written again, or given up for good.  Only the characters
are kept for that: whether a line starts is told from the text itself, and a mark writes the
indentation first, so that it belongs to the text in front.
-/

namespace ScriptBridge

namespace IndentedText

/-- The operations that write lines. -/
inductive LineOperation where
  | write (added : String)
  | space
  | newLine
  | indent
  | dedent

/-- All operations on a text; any number may be given as a length. -/
inductive Operation where
  | line (operation : LineOperation)
  | writeVerbatim (added : String)
  | mark
  | truncate (length : Nat)
  | splitOff (length : Nat)

namespace LineOperation

/-- What an operation does with a text. -/
def apply (text : IndentedText) : LineOperation → IndentedText
  | write added => text.write added
  | space => text.write " "
  | newLine => text.newLine
  | indent => text.indent
  | dedent => text.dedent

/-- The characters that an operation asks for. -/
def asked : LineOperation → List Char
  | write added => added.toList
  | space => [' ']
  | newLine => ['\n']
  | indent | dedent => []

/-- The level behind an operation. -/
def levelBehind (level : Nat) : LineOperation → Nat
  | write _ | space | newLine => level
  | indent => level + 1
  | dedent => level - 1

end LineOperation

/-- What an operation does with a text. -/
def Operation.apply (text : IndentedText) : Operation → IndentedText
  | .line operation => operation.apply text
  | .writeVerbatim added => text.writeVerbatim added
  | .mark => text.mark.1
  | .truncate length => text.truncate length
  | .splitOff length => (text.splitOff length).1

/-- The text behind a sequence of operations that write lines. -/
def afterLines (text : IndentedText) (operations : List LineOperation) : IndentedText :=
  operations.foldl LineOperation.apply text

/-- The text behind any sequence of operations. -/
def after (text : IndentedText) (operations : List Operation) : IndentedText :=
  operations.foldl Operation.apply text

/-- Characters that were written, given in reverse, decide where the next character stands; without
any, it stands where it stood. -/
structure Grown (text : IndentedText) (added : List Char) (next : IndentedText) : Prop where
  reversed : next.reversed = added ++ text.reversed
  atLineStart : next.atLineStart = if added = [] then text.atLineStart else endsLine added

variable {text middle next : IndentedText}

/-- The characters, the level and the place of the next character make up a text. -/
theorem eq_of_parts (reversed : text.reversed = next.reversed) (level : text.level = next.level)
    (atLineStart : text.atLineStart = next.atLineStart) : text = next := by
  obtain ⟨_, size, _, _, isSize⟩ := text
  obtain ⟨_, other, _, _, isOther⟩ := next
  cases reversed
  cases level
  cases atLineStart
  obtain rfl : size = other := isSize.trans isOther.symm
  rfl

@[simp] theorem characters_append (text : IndentedText) (added : List Char) (atLineStart : Bool) :
    (text.append added atLineStart).characters = text.characters ++ added.reverse :=
  List.reverse_append

theorem Grown.refl (text : IndentedText) : text.Grown [] text :=
  ⟨rfl, rfl⟩

theorem Grown.trans {first second : List Char} (before : text.Grown first middle)
    (behind : middle.Grown second next) : text.Grown (second ++ first) next where
  reversed := by rw [behind.reversed, before.reversed, List.append_assoc]
  atLineStart := by
    rw [behind.atLineStart, before.atLineStart]
    cases second <;> rfl

theorem endsLine_reversed (text : IndentedText) :
    endsLine text.reversed = true ↔
      text.characters = [] ∨ text.characters.getLast? = some '\n' := by
  rw [characters, List.getLast?_reverse, List.reverse_eq_nil_iff]
  cases text.reversed with
  | nil => simp [endsLine]
  | cons last before => simp [endsLine]

theorem Grown.characters {added : List Char} (grown : text.Grown added next) :
    next.characters = text.characters ++ added.reverse := by
  rw [IndentedText.characters, grown.reversed, List.reverse_append]
  rfl

theorem grown_put (text : IndentedText) (character : Char) :
    ∃ lead, text.Grown (character :: lead) (text.put character) := by
  unfold put
  split
  · next lineEnd => exact ⟨[], congrArg (· :: _) lineEnd.symm, by rw [lineEnd]; rfl⟩
  · next inLine =>
      have visible : false = endsLine (character :: text.indentation) := by simp [endsLine, inLine]
      unfold startLine
      split
      · exact ⟨text.indentation, rfl, visible⟩
      · exact ⟨[], rfl, visible⟩

theorem grown_foldl_put (text : IndentedText) (characters : List Char) :
    ∃ added, text.Grown added (characters.foldl put text) := by
  induction characters generalizing text with
  | nil => exact ⟨[], Grown.refl text⟩
  | cons character rest ih =>
      obtain ⟨lead, first⟩ := grown_put text character
      obtain ⟨added, others⟩ := ih (text.put character)
      exact ⟨_, first.trans others⟩

namespace LineOperation

/-- An operation writes what it asks for and then changes the level. -/
theorem apply_eq (text : IndentedText) (operation : LineOperation) :
    operation.apply text =
      { operation.asked.foldl put text with level := operation.levelBehind text.level } := by
  cases operation with
  | write added => exact eq_of_parts rfl (level_write text added) rfl
  | space => exact eq_of_parts rfl (level_write text " ") rfl
  | newLine | indent | dedent => rfl

theorem level_apply (text : IndentedText) (operation : LineOperation) :
    (operation.apply text).level = operation.levelBehind text.level := by
  rw [apply_eq]

theorem grown_apply (text : IndentedText) (operation : LineOperation) :
    ∃ added, text.Grown added (operation.apply text) := by
  obtain ⟨added, grown⟩ := grown_foldl_put text operation.asked
  rw [apply_eq]
  exact ⟨added, grown.reversed, grown.atLineStart⟩

end LineOperation

theorem afterLines_cons (text : IndentedText) (operation : LineOperation)
    (rest : List LineOperation) :
    text.afterLines (operation :: rest) = (operation.apply text).afterLines rest := rfl

theorem level_afterLines (text : IndentedText) (operations : List LineOperation) :
    (text.afterLines operations).level =
      operations.foldl LineOperation.levelBehind text.level := by
  induction operations generalizing text with
  | nil => rfl
  | cons operation rest ih => rw [afterLines_cons, ih, operation.level_apply, List.foldl_cons]

theorem grown_afterLines (text : IndentedText) (operations : List LineOperation) :
    ∃ added, text.Grown added (text.afterLines operations) := by
  induction operations generalizing text with
  | nil => exact ⟨[], Grown.refl text⟩
  | cons operation rest ih =>
      obtain ⟨first, before⟩ := operation.grown_apply text
      obtain ⟨second, behind⟩ := ih (operation.apply text)
      exact ⟨second ++ first, before.trans behind⟩

/-! ## Lines -/

/-- The characters that operations ask for, each with the level in force. -/
def leveled : Nat → List LineOperation → List (Nat × Char)
  | _, [] => []
  | level, operation :: rest =>
      operation.asked.map (level, ·) ++ leveled (operation.levelBehind level) rest

/-- A line of characters, indented by the level of the first one. -/
def lineOf : List (Nat × Char) → List Char
  | [] => []
  | (level, first) :: rest => List.replicate (4 * level) ' ' ++ first :: rest.map Prod.snd

/-- The lines of some characters. -/
def linesOf (characters : List (Nat × Char)) : List (List Char) :=
  (characters.splitOnP fun character => character.2 == '\n').map lineOf

/-- The layout of characters one after the other; tells whether the first one starts a line. -/
def layOut : Bool → List (Nat × Char) → List Char
  | _, [] => []
  | starts, (level, character) :: rest =>
      if character = '\n' then '\n' :: layOut true rest
      else (if starts then List.replicate (4 * level) ' ' else []) ++
        character :: layOut false rest

theorem layOut_put (text : IndentedText) (character : Char) (rest : List (Nat × Char)) :
    (text.put character).characters ++ layOut (text.put character).atLineStart rest =
      text.characters ++ layOut text.atLineStart ((text.level, character) :: rest) := by
  unfold put
  split
  · next lineEnd => simp [layOut, lineEnd, newLine, append, characters]
  · next inLine =>
      unfold startLine
      split <;> simp [*, layOut, append, characters, indentation]

theorem layOut_foldl_put (text : IndentedText) (asked : List Char) (rest : List (Nat × Char)) :
    (asked.foldl put text).characters ++ layOut (asked.foldl put text).atLineStart rest =
      text.characters ++ layOut text.atLineStart (asked.map (text.level, ·) ++ rest) := by
  induction asked generalizing text with
  | nil => rfl
  | cons character asked ih =>
      rw [List.foldl_cons, ih, level_put, layOut_put]
      rfl

theorem characters_afterLines (text : IndentedText) (operations : List LineOperation) :
    (text.afterLines operations).characters =
      text.characters ++ layOut text.atLineStart (leveled text.level operations) := by
  induction operations generalizing text with
  | nil => simp [afterLines, leveled, layOut]
  | cons operation rest ih =>
      rw [afterLines_cons, ih, operation.level_apply, leveled, ← layOut_foldl_put,
        operation.apply_eq]
      rfl

theorem intercalate_append_head (separator first second : List Char) (rest : List (List Char)) :
    separator.intercalate ((first ++ second) :: rest) =
      first ++ separator.intercalate (second :: rest) := by
  cases rest with
  | nil => simp
  | cons next rest => simp [List.intercalate_cons_cons]

/-- The first line is only indented if its first character starts a line. -/
theorem layOut_eq (characters : List (Nat × Char)) :
    ∃ line lines, (characters.splitOnP fun character => character.2 == '\n') = line :: lines ∧
      ∀ starts, layOut starts characters =
        ['\n'].intercalate
          ((if starts then lineOf line else line.map Prod.snd) :: lines.map lineOf) := by
  induction characters with
  | nil => exact ⟨[], [], List.splitOnP_nil, fun starts => by cases starts <;> rfl⟩
  | cons character rest ih =>
      obtain ⟨level, character⟩ := character
      obtain ⟨line, lines, split, laidOut⟩ := ih
      rw [List.splitOnP_cons_eq_if_modifyHead, split]
      by_cases lineEnd : character = '\n'
      · refine ⟨[], line :: lines, by simp [lineEnd], fun starts => ?_⟩
        rw [layOut, if_pos lineEnd, laidOut, List.map_cons, List.intercalate_cons_cons]
        cases starts <;> rfl
      · refine ⟨(level, character) :: line, lines, by simp [lineEnd], fun starts => ?_⟩
        rw [layOut, if_neg lineEnd, laidOut]
        cases starts with
        | false => exact (intercalate_append_head _ [character] _ _).symm
        | true =>
            rw [if_pos rfl, if_pos rfl, lineOf, intercalate_append_head]
            exact congrArg _ (intercalate_append_head _ [character] _ _).symm

/-- Some characters are laid out behind an output: indentation is inserted between them, but only
into an empty output or directly behind a line end. -/
inductive LaidOut (indentation : List Char) : List Char → List Char → List Char → Prop where
  | done (output : List Char) : LaidOut indentation output [] output
  | asked {output rest next : List Char} (character : Char)
      (others : LaidOut indentation (output ++ [character]) rest next) :
      LaidOut indentation output (character :: rest) next
  | indented {output rest next : List Char}
      (starts : output = [] ∨ output.getLast? = some '\n')
      (others : LaidOut indentation (output ++ indentation) rest next) :
      LaidOut indentation output rest next

theorem LaidOut.append {indentation output first second middle next : List Char}
    (before : LaidOut indentation output first middle)
    (behind : LaidOut indentation middle second next) :
    LaidOut indentation output (first ++ second) next := by
  induction before with
  | done => exact behind
  | asked character _ ih => exact .asked character (ih behind)
  | indented starts _ ih => exact .indented starts (ih behind)

theorem LaidOut.verbatim (indentation output added : List Char) :
    LaidOut indentation output added (output ++ added) := by
  induction added generalizing output with
  | nil =>
      rw [List.append_nil]
      exact .done output
  | cons character rest ih =>
      rw [← List.singleton_append, ← List.append_assoc]
      exact .asked character (ih _)

/-- If the next character starts a line, the text shows it. -/
def Settled (text : IndentedText) : Prop :=
  text.atLineStart = true → endsLine text.reversed = true

theorem Settled.startLine (settled : text.Settled) :
    LaidOut text.indentation text.characters [] text.startLine.characters := by
  unfold IndentedText.startLine
  split
  · next starts =>
      refine .indented ((endsLine_reversed text).mp (settled starts)) ?_
      simpa [indentation] using LaidOut.done _
  · exact .done _

theorem Settled.put (settled : text.Settled) (character : Char) :
    (text.put character).Settled ∧
      LaidOut text.indentation text.characters [character] (text.put character).characters := by
  unfold IndentedText.put
  split
  · next lineEnd =>
      refine ⟨fun _ => rfl, ?_⟩
      rw [lineEnd, newLine, characters_append]
      exact .verbatim _ _ _
  · refine ⟨fun starts => (Bool.false_ne_true starts).elim, ?_⟩
    refine settled.startLine.append ?_
    rw [characters_append]
    exact .verbatim _ _ _

theorem indentation_put (text : IndentedText) (character : Char) :
    (text.put character).indentation = text.indentation := by
  rw [indentation, indentation, level_put]

theorem Settled.foldl_put (settled : text.Settled) (asked : List Char) :
    (asked.foldl IndentedText.put text).Settled ∧
      LaidOut text.indentation text.characters asked
        (asked.foldl IndentedText.put text).characters := by
  induction asked generalizing text with
  | nil => exact ⟨settled, .done _⟩
  | cons character rest ih =>
      obtain ⟨settledBehind, first⟩ := settled.put character
      obtain ⟨settledLast, others⟩ := ih settledBehind
      rw [indentation_put] at others
      exact ⟨settledLast, first.append others⟩

theorem suffix_take (bytes : Nat) (taken characters : List Char) :
    (take bytes taken characters).2 <:+ characters := by
  induction characters generalizing bytes taken with
  | nil => exact List.suffix_rfl
  | cons character rest ih =>
      unfold take
      split
      · exact List.suffix_rfl
      · exact (ih _ _).trans (List.suffix_cons _ _)

theorem Settled.splitAt (settled : text.Settled) (length : Nat) :
    (text.splitAt length).1.Settled ∧
      (text.splitAt length).1.characters <+: text.characters := by
  unfold IndentedText.splitAt
  split
  · exact ⟨settled, List.prefix_rfl⟩
  · exact ⟨id, List.reverse_prefix.mpr (suffix_take _ _ _)⟩

theorem Settled.writeVerbatim (settled : text.Settled) (added : String) :
    (text.writeVerbatim added).Settled := by
  unfold IndentedText.writeVerbatim
  split
  · exact settled
  · exact id

/-- The characters that an operation asks for; a cut asks for none. -/
def Operation.asked? : Operation → Option (List Char)
  | .line operation => some operation.asked
  | .writeVerbatim added => some added.toList
  | .mark => some []
  | .truncate _ | .splitOff _ => none

/-- What an operation may do with the characters of a text. -/
def Operation.Allows (text : IndentedText) (operation : Operation) (next : IndentedText) : Prop :=
  match operation.asked? with
  | some asked => LaidOut text.indentation text.characters asked next.characters
  | none => next.characters <+: text.characters

/-- One step: whether a line starts stays visible, and indentation goes nowhere else. -/
theorem Settled.apply (settled : text.Settled) (operation : Operation) :
    (operation.apply text).Settled ∧ operation.Allows text (operation.apply text) := by
  cases operation with
  | line operation =>
      rw [Operation.apply, operation.apply_eq]
      exact settled.foldl_put operation.asked
  | writeVerbatim added =>
      refine ⟨settled.writeVerbatim added, ?_⟩
      change LaidOut _ _ _ (text.writeVerbatim added).characters
      rw [characters_writeVerbatim]
      exact .verbatim _ _ _
  | mark =>
      refine ⟨fun starts => ?_, settled.startLine⟩
      exact absurd (text.atLineStart_mark.symm.trans starts) Bool.false_ne_true
  | truncate length => exact settled.splitAt length
  | splitOff length => exact settled.splitAt length

theorem Settled.after (settled : text.Settled) (operations : List Operation) :
    (text.after operations).Settled := by
  induction operations generalizing text with
  | nil => exact settled
  | cons operation rest ih => exact ih (settled.apply operation).1

/-- The text behind a sequence of operations consists of the lines they ask for; writing one text
after another is writing both at once; and no other operation brings indentation to a place where
a line has begun. -/
theorem characters_of_operations :
    (∀ operations : List LineOperation,
      (afterLines {} operations).characters =
        ['\n'].intercalate (linesOf (leveled 0 operations))) ∧
    (∀ (text : IndentedText) (first second : String),
      (text.write first).write second = text.write (first ++ second)) ∧
    ∀ (operations : List Operation) (operation : Operation),
      operation.Allows (after {} operations) (operation.apply (after {} operations)) := by
  have fresh : Settled {} := fun _ => rfl
  refine ⟨fun operations => ?_, fun text first second => (text.write_append first second).symm,
    fun operations operation => ((fresh.after operations).apply operation).2⟩
  obtain ⟨line, lines, split, laidOut⟩ := layOut_eq (leveled 0 operations)
  rw [characters_afterLines, linesOf, split]
  exact laidOut true

example : linesOf (leveled 1 [.write "\x7b", .newLine, .newLine, .indent, .write "a\nb"]) =
    ["    \x7b".toList, [], "        a".toList, "        b".toList] := by
  decide

/-! ## Taking back what was written -/

/-- Whether a length is that of some first characters of a text. -/
def IsBoundary (text : IndentedText) (length : Nat) : Prop :=
  ∃ first, first <+: text.characters ∧ byteSize first = length

theorem Grown.grows {added : List Char} (grown : text.Grown added next) :
    text.characters <+: next.characters :=
  ⟨added.reverse, grown.characters.symm⟩

theorem Grown.isBoundary {added : List Char} (grown : text.Grown added next) :
    next.IsBoundary text.size :=
  ⟨_, grown.grows, (byteSize_reverse text.reversed).trans text.size_eq.symm⟩

theorem Grown.size {added : List Char} (grown : text.Grown added next) :
    next.size = byteSize added + text.size := by
  rw [next.size_eq, grown.reversed, byteSize_append, text.size_eq]

/-- What was written can be taken back and written again. -/
theorem Grown.writeVerbatim_splitOff {added : List Char} (grown : text.Grown added next) :
    (next.splitOff text.size).1.writeVerbatim (next.splitOff text.size).2 = next := by
  have size := grown.size
  cases added with
  | nil =>
      have short : next.size ≤ text.size := by rw [size]; simp
      unfold splitOff splitAt
      rw [if_pos short]
      rfl
  | cons last before =>
      have positive := last.utf8Size_pos
      have long : ¬ next.size ≤ text.size := by
        rw [size, byteSize_cons]
        omega
      have cut : take (next.size - text.size) [] next.reversed =
          ((last :: before).reverse, text.reversed) := by
        rw [size, Nat.add_sub_cancel, grown.reversed, take_byteSize, List.append_nil]
      have taken : ((next.splitOff text.size).2).toList.reverse = last :: before := by
        unfold splitOff splitAt
        rw [if_neg long]
        simp only [cut, String.toList_ofList, List.reverse_reverse]
      have left : (next.splitOff text.size).1.reversed = text.reversed ∧
          (next.splitOff text.size).1.level = next.level := by
        unfold splitOff splitAt
        rw [if_neg long]
        exact ⟨congrArg Prod.snd cut, rfl⟩
      unfold writeVerbatim
      rw [taken]
      refine eq_of_parts ?_ left.2 grown.atLineStart.symm
      rw [grown.reversed, ← left.1]
      rfl

/-- From a level on, each change of the level is undone in bracket order. -/
inductive Undone : Nat → List LineOperation → Prop where
  | none (level : Nat) : Undone level []
  | kept {level : Nat} {operation : LineOperation} {rest : List LineOperation}
      (keeps : operation.levelBehind level = level) (others : Undone level rest) :
      Undone level (operation :: rest)
  | raised {level : Nat} {inside rest : List LineOperation} (within : Undone (level + 1) inside)
      (others : Undone level rest) : Undone level (.indent :: inside ++ .dedent :: rest)
  | lowered {level : Nat} {inside rest : List LineOperation} (within : Undone level inside)
      (others : Undone (level + 1) rest) :
      Undone (level + 1) (.dedent :: inside ++ .indent :: rest)

theorem Undone.level {level : Nat} {operations : List LineOperation}
    (undone : Undone level operations) :
    operations.foldl LineOperation.levelBehind level = level := by
  induction undone with
  | none => rfl
  | kept keeps _ ih => rw [List.foldl_cons, keeps, ih]
  | raised _ _ within others => simp [LineOperation.levelBehind, within, others]
  | lowered _ _ within others => simp [LineOperation.levelBehind, within, others]

/-- If the text shows whether a line starts, what was written can be given up. -/
theorem Grown.truncate {added : List Char} (grown : text.Grown added next)
    (level : next.level = text.level) (visible : text.atLineStart = endsLine text.reversed) :
    next.truncate text.size = text := by
  by_cases idle : added = []
  · have same : next = text := by
      refine eq_of_parts ?_ level ?_
      · rw [grown.reversed, idle, List.nil_append]
      · rw [grown.atLineStart, if_pos idle]
    rw [same, truncate_of_le (Nat.le_refl text.size)]
  · have longer : next.size ≠ text.size := by
      intro same
      rw [grown.size] at same
      exact idle (eq_nil_of_byteSize (Nat.add_eq_right.mp same))
    rw [truncate_of_grows grown.grows level longer, ← visible]

/-- What is written behind a mark can be taken back and written again, without a trace; and if the
text shows whether a line starts, a sequence that undoes its changes of the level can be given up.
Both times the text is cut between two characters. -/
theorem capture_and_rollback (text : IndentedText) (operations : List LineOperation) :
    (let marked := text.mark
      let written := marked.1.afterLines operations
      let taken := written.splitOff marked.2
      written.IsBoundary marked.2 ∧ taken.1.writeVerbatim taken.2 = written) ∧
    (text.afterLines operations).IsBoundary text.size ∧
    ((text.atLineStart = true ↔
        text.characters = [] ∨ text.characters.getLast? = some '\n') →
      Undone text.level operations →
      (text.afterLines operations).truncate text.size = text) := by
  obtain ⟨_, behindMark⟩ := grown_afterLines text.mark.1 operations
  obtain ⟨_, behind⟩ := grown_afterLines text operations
  refine ⟨⟨behindMark.isBoundary, behindMark.writeVerbatim_splitOff⟩, behind.isBoundary, ?_⟩
  intro visible undone
  have level : (text.afterLines operations).level = text.level :=
    (level_afterLines text operations).trans undone.level
  exact behind.truncate level (Bool.eq_iff_iff.mpr (visible.trans (endsLine_reversed text).symm))

/-- An indented line is given up. -/
theorem capture_and_rollback_block :
    let block := (write {} "a")
    (block.afterLines
      [.write " \x7b", .indent, .newLine, .write "b", .dedent]).truncate block.size = block := by
  refine (capture_and_rollback _ _).2.2 ?_ ?_
  · decide
  · exact .kept rfl (.raised (.kept rfl (.kept rfl (.none _))) (.none _))

end IndentedText

end ScriptBridge

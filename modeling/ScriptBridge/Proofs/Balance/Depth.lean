import ScriptBridge.Proofs.Printing.PlainText
import ScriptBridge.Proofs.Balance.Growth
import ScriptBridge.Proofs.Printing.Outcome

/-!
# The depth of a text

A depth is a level of indentation together with the brackets that are awaited.
A printer leads from one depth to another: whatever it does on the way, in the end
the text goes on from what it was, the scopes around it have only learned names,
and types and diagnostics were only added.

Whether brackets are followed is left open.  Levels and scopes are balanced for
every tree, brackets only if the words that are printed hold none.
-/

/-!
## Brackets

A text is nested if every bracket in it is closed by one of its kind and the
pairs do not cross.  The same is told by a stack: an opening bracket is awaited
until a closing one of its kind takes it off again.
-/

namespace ScriptBridge

/-- The kinds of brackets. -/
inductive Bracket where
  | round
  | square
  | curly
  deriving DecidableEq, Repr

namespace Bracket

/-- The kind that a character opens. -/
def opened? : Char → Option Bracket
  | '(' => some .round
  | '[' => some .square
  | '{' => some .curly
  | _ => none

/-- The kind that a character closes. -/
def closed? : Char → Option Bracket
  | ')' => some .round
  | ']' => some .square
  | '}' => some .curly
  | _ => none

/-- Whether a character is a bracket. -/
def isBracket (character : Char) : Bool :=
  (opened? character).isSome || (closed? character).isSome

/-- Characters without brackets. -/
def Absent (characters : List Char) : Prop :=
  ∀ character ∈ characters, isBracket character = false

instance (characters : List Char) : Decidable (Absent characters) :=
  List.decidableBAll (fun character => isBracket character = false) characters

/-- The brackets that are awaited behind a character. -/
def step (awaited : List Bracket) (character : Char) : Option (List Bracket) :=
  match opened? character with
  | some kind => some (kind :: awaited)
  | none =>
      match closed? character with
      | none => some awaited
      | some kind => if awaited.head? = some kind then some awaited.tail else none

/-- The brackets that are awaited behind some characters. -/
def read (awaited : List Bracket) (characters : List Char) : Option (List Bracket) :=
  characters.foldlM step awaited

/-- Every bracket is matched by one of its kind, and pairs do not cross. -/
inductive Nested : List Char → Prop where
  | nil : Nested []
  | plain {character : Char} {rest : List Char} : isBracket character = false →
      Nested rest → Nested (character :: rest)
  | pair {opening closing : Char} {kind : Bracket} {inside rest : List Char} :
      opened? opening = some kind → closed? closing = some kind →
      Nested inside → Nested rest → Nested (opening :: inside ++ closing :: rest)

variable {awaited middle : List Bracket} {character : Char} {first second : List Char}

@[simp]
theorem read_nil : read awaited [] = some awaited :=
  rfl

theorem read_cons : read awaited (character :: first) =
    (step awaited character).bind fun next => read next first :=
  List.foldlM_cons

theorem read_append : read awaited (first ++ second) =
    (read awaited first).bind fun next => read next second :=
  List.foldlM_append

theorem not_isBracket_iff : isBracket character = false ↔
    opened? character = none ∧ closed? character = none := by
  simp [isBracket]

theorem step_plain (plain : isBracket character = false) :
    step awaited character = some awaited := by
  obtain ⟨notOpening, notClosing⟩ := not_isBracket_iff.mp plain
  simp only [step, notOpening, notClosing]

theorem read_absent (absent : Absent first) : read awaited first = some awaited := by
  induction first with
  | nil => rfl
  | cons character rest ih =>
      rw [read_cons, step_plain (absent character (List.mem_cons_self ..))]
      exact ih fun other place => absent other (List.mem_cons_of_mem _ place)

/-- Characters that close one bracket after the other, each behind nested text. -/
def Closes : List Bracket → List Char → Prop
  | [], characters => Nested characters
  | kind :: rest, characters => ∃ inside closing behind, Nested inside ∧
      closed? closing = some kind ∧ Closes rest behind ∧
      characters = inside ++ closing :: behind

theorem Closes.plain (plain : isBracket character = false) (closes : Closes awaited first) :
    Closes awaited (character :: first) := by
  cases awaited with
  | nil => exact .plain plain closes
  | cons kind rest =>
      obtain ⟨inside, closing, behind, nested, isClosing, closesBehind, rfl⟩ := closes
      exact ⟨character :: inside, closing, behind, .plain plain nested, isClosing,
        closesBehind, rfl⟩

theorem Closes.opening {kind : Bracket} (isOpening : opened? character = some kind)
    (closes : Closes (kind :: awaited) first) : Closes awaited (character :: first) := by
  obtain ⟨inside, closing, behind, nested, isClosing, closesBehind, rfl⟩ := closes
  cases awaited with
  | nil => exact .pair isOpening isClosing nested closesBehind
  | cons other rest =>
      obtain ⟨insideOther, last, after, nestedOther, isLast, closesAfter, rfl⟩ := closesBehind
      refine ⟨character :: inside ++ closing :: insideOther, last, after,
        .pair isOpening isClosing nested nestedOther, isLast, closesAfter, ?_⟩
      simp

/-- What the stack reads to its end closes all that was awaited. -/
theorem closes_of_read (reads : read awaited first = some []) : Closes awaited first := by
  induction first generalizing awaited with
  | nil =>
      rw [read_nil, Option.some.injEq] at reads
      rw [reads]
      exact .nil
  | cons character rest ih =>
      rw [read_cons, step] at reads
      cases isOpening : opened? character with
      | some kind =>
          simp only [isOpening, Option.bind_some] at reads
          exact .opening isOpening (ih reads)
      | none =>
          cases isClosing : closed? character with
          | none =>
              simp only [isOpening, isClosing, Option.bind_some] at reads
              exact .plain (not_isBracket_iff.mpr ⟨isOpening, isClosing⟩) (ih reads)
          | some kind =>
              simp only [isOpening, isClosing] at reads
              split at reads
              · next expected =>
                  obtain ⟨others, rfl⟩ := List.head?_eq_some_iff.mp expected
                  exact ⟨[], character, rest, .nil, isClosing, ih reads, rfl⟩
              · simp at reads

/-- A text whose brackets the stack reads to the end is nested. -/
theorem nested_of_read (reads : read [] first = some []) : Nested first :=
  closes_of_read reads

end Bracket

end ScriptBridge

/-! ## Depths -/

namespace ScriptBridge

namespace IndentedText

variable {text next : IndentedText} {added : List Char}

/-- Cutting a text at the length of one that it goes on from gives back both parts. -/
theorem splitAt_append (goesOn : next.characters = text.characters ++ added) :
    (next.splitAt text.size).1.characters = text.characters ∧
      (next.splitAt text.size).1.level = next.level ∧ (next.splitAt text.size).2 = added := by
  have reversed : next.reversed = added.reverse ++ text.reversed := by
    have both := congrArg List.reverse goesOn
    simpa [characters] using both
  have size : next.size = byteSize added.reverse + text.size := by
    rw [next.size_eq, reversed, byteSize_append, text.size_eq]
  unfold splitAt
  by_cases short : next.size ≤ text.size
  · have empty : added.reverse = [] := eq_nil_of_byteSize (by omega)
    rw [List.reverse_eq_nil_iff] at empty
    rw [if_pos short]
    exact ⟨by rw [goesOn, empty, List.append_nil], rfl, empty.symm⟩
  · have cut : take (next.size - text.size) [] next.reversed = (added, text.reversed) := by
      rw [size, Nat.add_sub_cancel, reversed, take_byteSize, List.reverse_reverse,
        List.append_nil]
    rw [if_neg short]
    refine ⟨?_, rfl, ?_⟩
    · simp only [cut]
      rfl
    · simp only [cut]

/-- What is written differs from what is asked for in the indentation alone. -/
theorem characters_put (text : IndentedText) (character : Char) :
    ∃ lead, (∀ blank ∈ lead, blank = ' ') ∧
      (text.put character).characters = text.characters ++ lead ++ [character] := by
  unfold put
  split
  · next lineEnd =>
      refine ⟨[], by simp, ?_⟩
      simp [newLine, append, characters, lineEnd]
  · unfold startLine
    split
    · refine ⟨text.indentation, ?_, ?_⟩
      · intro blank place
        exact List.eq_of_mem_replicate place
      · simp [append, characters, indentation]
    · exact ⟨[], by simp, by simp [append, characters]⟩

theorem level_put (text : IndentedText) (character : Char) :
    (text.put character).level = text.level := by
  unfold put newLine startLine
  split
  · rfl
  · split <;> rfl

theorem level_write (text : IndentedText) (added : String) :
    (text.write added).level = text.level := by
  unfold write
  induction added.toList generalizing text with
  | nil => rfl
  | cons character rest ih => rw [List.foldl_cons, ih, level_put]

theorem prefix_write (text : IndentedText) (added : String) :
    text.characters <+: (text.write added).characters := by
  unfold write
  induction added.toList generalizing text with
  | nil => exact List.prefix_rfl
  | cons character rest ih =>
      obtain ⟨lead, -, isPut⟩ := characters_put text character
      have grows : text.characters <+: (text.put character).characters := by
        rw [isPut, List.append_assoc]
        exact List.prefix_append _ _
      exact grows.trans (ih _)

/-- Indentation is no matter for brackets. -/
theorem read_write (text : IndentedText) (added : String) :
    Bracket.read [] (text.write added).characters =
      (Bracket.read [] text.characters).bind fun awaited => Bracket.read awaited added.toList := by
  unfold write
  induction added.toList generalizing text with
  | nil => simp
  | cons character rest ih =>
      obtain ⟨lead, blank, isPut⟩ := characters_put text character
      have absent : Bracket.Absent lead := by
        intro other place
        rw [blank other place]
        rfl
      rw [List.foldl_cons, ih, isPut, Bracket.read_append, Bracket.read_append]
      simp only [Bracket.read_absent absent, Option.bind_fun_some, ← Bracket.read_append]
      rw [List.append_assoc, List.singleton_append]

theorem characters_writeVerbatim (text : IndentedText) (added : String) :
    (text.writeVerbatim added).characters = text.characters ++ added.toList := by
  unfold writeVerbatim
  split
  · next empty => rw [List.reverse_eq_nil_iff.mp empty, List.append_nil]
  · next last before isReversed =>
      rw [characters, append, List.reverse_append, ← isReversed, List.reverse_reverse]
      rfl

theorem level_writeVerbatim (text : IndentedText) (added : String) :
    (text.writeVerbatim added).level = text.level := by
  unfold writeVerbatim
  split <;> rfl

/-- A mark adds nothing but indentation. -/
theorem characters_mark (text : IndentedText) :
    ∃ lead, Bracket.Absent lead ∧ text.mark.1.characters = text.characters ++ lead := by
  unfold mark startLine
  split
  · refine ⟨text.indentation, ?_, ?_⟩
    · intro other place
      rw [List.eq_of_mem_replicate place]
      rfl
    · simp [append, characters, indentation]
  · exact ⟨[], fun _ place => absurd place List.not_mem_nil, by simp⟩

theorem level_mark (text : IndentedText) : text.mark.1.level = text.level := by
  unfold mark startLine
  split <;> rfl

end IndentedText

/-- A level of indentation, and the brackets that are awaited, the innermost first. -/
structure Depth where
  level : Nat
  awaited : List Bracket

namespace Depth

/-- The depth with one more level of indentation. -/
def deeper (depth : Depth) : Depth :=
  { depth with level := depth.level + 1 }

/-- The depth behind an opening bracket. -/
def within (depth : Depth) (kind : Bracket) : Depth :=
  { depth with awaited := kind :: depth.awaited }

end Depth

namespace PrinterState

/-- Text, names, types and diagnostics were only added. -/
structure Later (state later : PrinterState) : Prop where
  text : state.text.characters <+: later.text.characters
  scopes : state.scopes.Grows later.scopes
  referenced : state.types.referenced <+: later.types.referenced
  diagnostics : state.diagnostics <+: later.diagnostics

/-- The text has come to a depth.  If brackets are followed, none stands in the
names that may be written later. -/
structure Stands (followed : Prop) (depth : Depth) (state : PrinterState) : Prop where
  level : state.text.level = depth.level
  awaited : followed → Bracket.read [] state.text.characters = some depth.awaited
  owner : followed → ∀ owner ∈ state.scopes.top.owner, Bracket.Absent owner.name.toList
  referenced : followed → ∀ name ∈ state.types.referenced, Bracket.Absent name.toList

theorem Later.refl (state : PrinterState) : state.Later state :=
  ⟨List.prefix_rfl, .refl _, List.prefix_rfl, List.prefix_rfl⟩

theorem Later.trans {state middle later : PrinterState} (before : state.Later middle)
    (behind : middle.Later later) : state.Later later :=
  ⟨before.text.trans behind.text, before.scopes.trans behind.scopes,
    before.referenced.trans behind.referenced, before.diagnostics.trans behind.diagnostics⟩

end PrinterState

/-- The name of a class does not change while the class grows. -/
theorem ClassScope.Grows.absent_option {owner later : Option ClassScope}
    (grows : Option.Rel ClassScope.Grows owner later)
    (absent : ∀ known ∈ owner, Bracket.Absent known.name.toList) :
    ∀ known ∈ later, Bracket.Absent known.name.toList := by
  intro known isKnown
  cases grows with
  | none => cases isKnown
  | some ownerGrows =>
      cases isKnown
      rw [ownerGrows.name]
      exact absent _ rfl

namespace Printer

variable {settings : Settings} {followed : Prop} {origin : PrinterState}
variable {depth before middle after : Depth} {Result Other : Type}

/-- Wherever the text goes on from the origin and has come to the first depth, the
printer brings it to the second depth, and the text still goes on from the origin. -/
def Leads (settings : Settings) (followed : Prop) (origin : PrinterState) (before after : Depth)
    (printer : Printer Result) : Prop :=
  ∀ state value next, origin.Later state → state.Stands followed before →
    printer.outcome settings state = .ok (value, next) →
      origin.Later next ∧ next.Stands followed after

namespace Leads

theorem pure (value : Result) : Leads settings followed origin depth depth (Pure.pure value) := by
  intro state result next later stands ends
  cases ends
  exact ⟨later, stands⟩

theorem bind {printer : Printer Result} {rest : Result → Printer Other}
    (start : Leads settings followed origin before middle printer)
    (behind : ∀ value, Leads settings followed origin middle after (rest value)) :
    Leads settings followed origin before after (printer >>= rest) := by
  intro state result next later stands ends
  rw [outcome_bind] at ends
  cases first : printer.outcome settings state with
  | error diagnostic =>
      rw [first] at ends
      cases ends
  | ok reached =>
      rw [first] at ends
      obtain ⟨laterMiddle, standsMiddle⟩ := start state reached.1 reached.2 later stands first
      exact behind reached.1 reached.2 result next laterMiddle standsMiddle ends

/-- Printers follow one another. -/
theorem andThen {first : Printer Unit} {rest : Printer Result}
    (start : Leads settings followed origin before middle first)
    (behind : Leads settings followed origin middle after rest) :
    Leads settings followed origin before after (do first; rest) :=
  start.bind fun _ => behind

theorem askingSettings {rest : Settings → Printer Result}
    (behind : Leads settings followed origin before after (rest settings)) :
    Leads settings followed origin before after (read >>= rest) :=
  behind

theorem askingOptions {rest : Options → Printer Result}
    (behind : Leads settings followed origin before after (rest settings.options)) :
    Leads settings followed origin before after (options >>= rest) :=
  behind

theorem askingState {rest : PrinterState → Printer Result}
    (behind : ∀ state : PrinterState, state.Stands followed before →
      Leads settings followed origin before after (rest state)) :
    Leads settings followed origin before after (get >>= rest) :=
  fun state value next later stands ends => behind state stands state value next later stands ends

/-! ## Text -/

/-- A change that goes on with the text. -/
theorem modifyText {change : IndentedText → IndentedText}
    (goesOn : ∀ text : IndentedText, text.characters <+: (change text).characters)
    (level : ∀ text : IndentedText, text.level = before.level → (change text).level = after.level)
    (reads : followed → ∀ text : IndentedText,
      Bracket.read [] text.characters = some before.awaited →
        Bracket.read [] (change text).characters = some after.awaited) :
    Leads settings followed origin before after (modifyText change) := by
  intro state result next later stands ends
  cases ends
  refine ⟨later.trans ⟨goesOn _, .refl _, List.prefix_rfl, List.prefix_rfl⟩, ?_⟩
  exact ⟨level _ stands.level, fun asked => reads asked _ (stands.awaited asked), stands.owner,
    stands.referenced⟩

/-- Writing leads to where the brackets of the text lead. -/
theorem write {added : String} (level : after.level = before.level)
    (reads : followed → Bracket.read before.awaited added.toList = some after.awaited) :
    Leads settings followed origin before after (write added) := by
  apply modifyText
  · exact fun text => text.prefix_write added
  · intro text isLevel
    rw [text.level_write, isLevel, level]
  · intro asked text isRead
    rw [text.read_write, isRead, Option.bind_some, reads asked]

theorem writeVerbatim {added : String} (level : after.level = before.level)
    (reads : followed → Bracket.read before.awaited added.toList = some after.awaited) :
    Leads settings followed origin before after (writeVerbatim added) := by
  apply modifyText
  · intro text
    rw [text.characters_writeVerbatim]
    exact List.prefix_append _ _
  · intro text isLevel
    rw [text.level_writeVerbatim, isLevel, level]
  · intro asked text isRead
    rw [text.characters_writeVerbatim, Bracket.read_append, isRead, Option.bind_some, reads asked]

/-- A text that closes what it opens. -/
theorem word {added : String}
    (closed : followed → ∀ awaited, Bracket.read awaited added.toList = some awaited) :
    Leads settings followed origin depth depth (Printer.write added) :=
  write rfl fun asked => closed asked _

theorem wordIf {condition : Bool} {added : String}
    (closed : followed → ∀ awaited, Bracket.read awaited added.toList = some awaited) :
    Leads settings followed origin depth depth (writeIf condition added) := by
  unfold writeIf
  split
  · exact word closed
  · exact pure ()

/-- A text that opens a bracket. -/
theorem opens (kind : Bracket) {added : String}
    (opened : ∀ awaited, Bracket.read awaited added.toList = some (kind :: awaited)) :
    Leads settings followed origin depth (depth.within kind) (Printer.write added) :=
  write rfl fun _ => opened _

/-- A text that closes the bracket around it. -/
theorem closes {kind : Bracket} {added : String}
    (closed : ∀ awaited, Bracket.read (kind :: awaited) added.toList = some awaited) :
    Leads settings followed origin (depth.within kind) depth (Printer.write added) :=
  write rfl fun _ => closed _

theorem newLine : Leads settings followed origin depth depth newLine := by
  apply modifyText
  · intro text
    simp [IndentedText.newLine, IndentedText.append, IndentedText.characters]
  · exact fun text => id
  · intro _ text isRead
    have ended : text.newLine.characters = text.characters ++ ['\n'] := by
      simp [IndentedText.newLine, IndentedText.append, IndentedText.characters]
    rw [ended, Bracket.read_append, isRead]
    rfl

theorem indent : Leads settings followed origin depth depth.deeper indent :=
  modifyText (fun _ => List.prefix_rfl) (fun _ level => congrArg (· + 1) level) fun _ _ => id

theorem dedent : Leads settings followed origin depth.deeper depth dedent :=
  modifyText (fun _ => List.prefix_rfl) (fun _ level => congrArg (· - 1) level) fun _ _ => id

theorem length : Leads settings followed origin depth depth length := by
  intro state result next later stands ends
  cases ends
  exact ⟨later, stands⟩

/-- From a mark on, the text can be cut back to the mark. -/
theorem marked {rest : Nat → Printer Result}
    (behind : ∀ mark : PrinterState, mark.Stands followed before →
      Leads settings followed mark before after (rest mark.text.size)) :
    Leads settings followed origin before after (Printer.length >>= rest) := by
  intro state result next later stands ends
  obtain ⟨laterNext, standsNext⟩ :=
    behind state stands state result next (.refl state) stands ends
  exact ⟨later.trans laterNext, standsNext⟩

/-- Cutting back to a mark leads to the brackets that were awaited there. -/
theorem truncate {mark : PrinterState} (standsMark : mark.Stands followed before)
    (level : after.level = middle.level) (awaited : after.awaited = before.awaited) :
    Leads settings followed mark middle after (truncate mark.text.size) := by
  intro state result next later stands ends
  cases ends
  obtain ⟨added, goesOn⟩ := later.text
  obtain ⟨cut, sameLevel, -⟩ := IndentedText.splitAt_append goesOn.symm
  have isCut : (state.text.truncate mark.text.size).characters = mark.text.characters := cut
  refine ⟨⟨isCut ▸ List.prefix_rfl, later.scopes, later.referenced, later.diagnostics⟩, ?_⟩
  refine ⟨?_, ?_, stands.owner, stands.referenced⟩
  · exact sameLevel.trans (stands.level.trans level.symm)
  · intro asked
    change Bracket.read [] (state.text.truncate mark.text.size).characters = _
    rw [isCut, standsMark.awaited asked, awaited]

/-- What is taken back closes what it opens. -/
theorem textOf {printer : Printer Unit} {rest : String → Printer Result}
    (inside : ∀ origin, Leads settings followed origin depth depth printer)
    (behind : ∀ text : String,
      (followed → Bracket.read depth.awaited text.toList = some depth.awaited) →
        Leads settings followed origin depth after (rest text)) :
    Leads settings followed origin depth after (textOf printer >>= rest) := by
  intro state result next later stands ends
  obtain ⟨lead, absent, isMarked⟩ := state.text.characters_mark
  have standsMarked : { state with text := state.text.mark.1 }.Stands followed depth := by
    refine ⟨state.text.level_mark.trans stands.level, ?_, stands.owner, stands.referenced⟩
    intro asked
    rw [isMarked, Bracket.read_append, stands.awaited asked, Option.bind_some,
      Bracket.read_absent absent]
  rw [outcome_bind, outcome_textOf] at ends
  cases inner : printer.outcome settings { state with text := state.text.mark.1 } with
  | error diagnostic =>
      rw [inner] at ends
      cases ends
  | ok reached =>
      rw [inner] at ends
      obtain ⟨laterInner, standsInner⟩ :=
        inside _ _ reached.1 reached.2 (.refl _) standsMarked inner
      obtain ⟨added, goesOn⟩ := laterInner.text
      obtain ⟨cut, sameLevel, taken⟩ := IndentedText.splitAt_append goesOn.symm
      have isTaken : (reached.2.text.splitOff state.text.mark.2).2.toList = added := by
        rw [← taken]
        exact String.toList_ofList
      refine behind _ ?_ _ result next ?_ ?_ ends
      · intro asked
        have whole := standsInner.awaited asked
        rw [← goesOn, Bracket.read_append, standsMarked.awaited asked, Option.bind_some] at whole
        rw [isTaken]
        exact whole
      · refine later.trans ⟨?_, laterInner.scopes, laterInner.referenced, laterInner.diagnostics⟩
        change _ <+: (reached.2.text.splitAt state.text.mark.2).1.characters
        rw [show (reached.2.text.splitAt state.text.mark.2).1.characters = _ from cut, isMarked]
        exact List.prefix_append _ _
      · refine ⟨sameLevel.trans standsInner.level, ?_, standsInner.owner, standsInner.referenced⟩
        intro asked
        exact (congrArg (Bracket.read []) cut).trans (standsMarked.awaited asked)

end Leads

end Printer

end ScriptBridge

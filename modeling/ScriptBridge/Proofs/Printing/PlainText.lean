import ScriptBridge.Proofs.Printing.Outcome

/-!
# Printers that only add text

Within a line, writing appends characters and does nothing else; at the start of
a line the indentation comes first.  A printer adds given characters if, outside
of classes, it appends them to the text and has no other effect than to declare
names.
-/

namespace ScriptBridge

namespace IndentedText

/-- Whether a line starts can be seen from the text itself; without indentation
it does not matter. -/
def Coherent (text : IndentedText) : Prop :=
  text.level = 0 ∨ text.atLineStart = endsLine text.reversed

/-- Characters that can be written without a look at the indentation behind them. -/
def Fits (text : IndentedText) (added : List Char) : Prop :=
  text.level = 0 ∨ '\n' ∉ added

/-- One text goes on from another with exactly the given characters. -/
structure Extends (text : IndentedText) (added : List Char) (next : IndentedText) : Prop where
  level : next.level = text.level
  coherent : next.Coherent
  reversed : next.reversed = added.reverse ++ text.reversed

/-- One text continues another by some characters, with the indentation before
them if they start a line. -/
def Continues (text : IndentedText) (added : List Char) (next : IndentedText) : Prop :=
  ∃ lead, (lead = [] ∨ text.atLineStart = true ∧ lead = text.indentation) ∧
    text.Extends (lead ++ added) next

theorem Extends.refl {text : IndentedText} (coherent : text.Coherent) : text.Extends [] text :=
  ⟨rfl, coherent, rfl⟩

theorem Extends.trans {text middle next : IndentedText} {first second : List Char}
    (before : text.Extends first middle) (behind : middle.Extends second next) :
    text.Extends (first ++ second) next where
  level := behind.level.trans before.level
  coherent := behind.coherent
  reversed := by
    rw [behind.reversed, before.reversed, List.reverse_append, List.append_assoc]

theorem Extends.continues {text next : IndentedText} {added : List Char}
    (goesOn : text.Extends added next) : text.Continues added next :=
  ⟨[], .inl rfl, goesOn⟩

theorem Continues.level {text next : IndentedText} {added : List Char}
    (continues : text.Continues added next) : next.level = text.level := by
  obtain ⟨_, _, goesOn⟩ := continues
  exact goesOn.level

theorem Continues.coherent {text next : IndentedText} {added : List Char}
    (continues : text.Continues added next) : next.Coherent := by
  obtain ⟨_, _, goesOn⟩ := continues
  exact goesOn.coherent

theorem indentation_of_flat {text : IndentedText} (flat : text.level = 0) :
    text.indentation = [] := by
  simp [indentation, flat]

/-- Without indentation there is nothing but the given characters. -/
theorem Continues.reversed {text next : IndentedText} {added : List Char}
    (continues : text.Continues added next) (flat : text.level = 0 := by rfl) :
    next.reversed = added.reverse ++ text.reversed := by
  obtain ⟨lead, isLead, goesOn⟩ := continues
  rw [indentation_of_flat flat, and_comm] at isLead
  rcases isLead with rfl | ⟨rfl, _⟩ <;> exact goesOn.reversed

theorem Fits.left {text : IndentedText} {first second : List Char}
    (fits : text.Fits (first ++ second)) : text.Fits first :=
  fits.imp_right fun noLineEnd place => noLineEnd (List.mem_append_left _ place)

theorem Fits.right {text middle : IndentedText} {first second : List Char}
    (fits : text.Fits (first ++ second)) (level : middle.level = text.level) :
    middle.Fits second :=
  fits.imp level.trans fun noLineEnd place => noLineEnd (List.mem_append_right _ place)

theorem continues_put {text : IndentedText} {character : Char}
    (fits : text.Fits [character]) : text.Continues [character] (text.put character) := by
  unfold put newLine
  split
  · next lineEnd =>
      have flat : text.level = 0 := fits.resolve_right (by simp [lineEnd])
      refine Extends.continues ⟨rfl, .inl flat, ?_⟩
      rw [lineEnd]
      rfl
  · next inLine =>
      have visible : false = (character == '\n') := by simp [inLine]
      unfold startLine
      split
      · next starts =>
          refine ⟨text.indentation, .inr ⟨starts, rfl⟩, rfl, .inr visible, ?_⟩
          simp [append, indentation]
      · exact Extends.continues ⟨rfl, .inr visible, rfl⟩

/-- Text that ends a line was not continued by characters within a line. -/
theorem eq_nil_of_endsLine {added before : List Char} (noLineEnd : '\n' ∉ added)
    (ends : endsLine (added.reverse ++ before) = true) : added = [] := by
  rw [← List.reverse_eq_nil_iff]
  cases split : added.reverse with
  | nil => rfl
  | cons last others =>
      rw [split, List.cons_append, endsLine, beq_iff_eq] at ends
      have place : last ∈ added := by
        rw [← List.mem_reverse, split]
        exact List.mem_cons_self ..
      exact absurd (ends ▸ place) noLineEnd

theorem Continues.trans {text middle next : IndentedText} {first second : List Char}
    (coherent : text.Coherent) (fits : text.Fits first)
    (before : text.Continues first middle) (behind : middle.Continues second next) :
    text.Continues (first ++ second) next := by
  obtain ⟨lead, isLead, goesOn⟩ := before
  obtain ⟨between, isBetween, goesOnBehind⟩ := behind
  have all := goesOn.trans goesOnBehind
  by_cases noIndent : between = []
  · rw [noIndent, List.nil_append, List.append_assoc] at all
    exact ⟨lead, isLead, all⟩
  · -- A second indentation is only written if nothing stands in the line so far.
    obtain ⟨starts, isIndent⟩ := isBetween.resolve_left noIndent
    have deep : text.level ≠ 0 := by
      intro flat
      rw [isIndent] at noIndent
      exact noIndent (indentation_of_flat (goesOn.level.trans flat))
    have visible := goesOn.coherent.resolve_left (goesOn.level ▸ deep)
    rw [starts, goesOn.reversed] at visible
    have noLineEnd : '\n' ∉ lead ++ first := by
      rw [List.mem_append, not_or]
      refine ⟨?_, fits.resolve_left deep⟩
      rcases isLead with rfl | ⟨_, rfl⟩ <;> simp [indentation]
    have empty := eq_nil_of_endsLine noLineEnd visible.symm
    obtain ⟨rfl, rfl⟩ := List.append_eq_nil_iff.mp empty
    refine ⟨between, .inr ⟨?_, ?_⟩, all⟩
    · rw [coherent.resolve_left deep, visible]
      rfl
    · rw [isIndent, indentation, goesOn.level]
      rfl

theorem continues_write {text : IndentedText} (coherent : text.Coherent) {added : String}
    (fits : text.Fits added.toList) : text.Continues added.toList (text.write added) := by
  unfold write
  generalize added.toList = characters at fits
  induction characters generalizing text with
  | nil => exact (Extends.refl coherent).continues
  | cons character rest ih =>
      rw [← List.singleton_append] at fits
      have first := continues_put fits.left
      exact first.trans coherent fits.left (ih first.coherent (fits.right first.level))

theorem continues_writeVerbatim {text : IndentedText} (coherent : text.Coherent)
    (added : String) : text.Continues added.toList (text.writeVerbatim added) := by
  unfold writeVerbatim
  split
  · next empty => exact Extends.continues ⟨rfl, coherent, by rw [empty]; rfl⟩
  · next last before split => exact Extends.continues ⟨rfl, .inr rfl, by rw [split]; rfl⟩

theorem continues_mark {text : IndentedText} (coherent : text.Coherent) :
    text.Continues [] text.mark.1 := by
  unfold mark startLine
  split
  · next starts =>
      refine ⟨text.indentation, .inr ⟨starts, rfl⟩, rfl, ?_, ?_⟩
      · by_cases flat : text.level = 0
        · exact .inl flat
        · right
          obtain ⟨size, isSize⟩ : ∃ size, 4 * text.level = size + 1 :=
            ⟨4 * text.level - 1, by omega⟩
          simp [append, indentation, isSize, List.replicate_succ, endsLine]
      · simp [append, indentation]
  · exact (Extends.refl coherent).continues

theorem atLineStart_mark (text : IndentedText) : text.mark.1.atLineStart = false := by
  unfold mark startLine
  split
  · rfl
  · next within => simpa using within

theorem take_byteSize (taken added rest : List Char) :
    take (byteSize added) taken (added ++ rest) = (added.reverse ++ taken, rest) := by
  induction added generalizing taken with
  | nil =>
      cases rest with
      | nil => rfl
      | cons character rest => simp [take]
  | cons character added ih =>
      have positive := character.utf8Size_pos
      rw [byteSize_cons, List.cons_append, take, if_neg (by omega), Nat.add_sub_cancel_left, ih]
      simp

theorem eq_nil_of_byteSize {characters : List Char} (empty : byteSize characters = 0) :
    characters = [] := by
  cases characters with
  | nil => rfl
  | cons character rest =>
      have positive := character.utf8Size_pos
      rw [byteSize_cons] at empty
      omega

theorem Extends.size {text next : IndentedText} {added : List Char}
    (goesOn : text.Extends added next) : next.size = byteSize added.reverse + text.size := by
  rw [next.size_eq, goesOn.reversed, byteSize_append, text.size_eq]

/-- What a text was extended by can be taken back. -/
theorem Extends.splitOff {text next : IndentedText} {added : List Char}
    (goesOn : text.Extends added next) :
    text.Extends [] (next.splitOff text.size).1 ∧
      (next.splitOff text.size).2 = String.ofList added := by
  have size := goesOn.size
  unfold IndentedText.splitOff splitAt
  by_cases short : next.size ≤ text.size
  · have empty : added.reverse = [] := eq_nil_of_byteSize (by omega)
    rw [List.reverse_eq_nil_iff] at empty
    subst empty
    rw [if_pos short]
    exact ⟨goesOn, rfl⟩
  · rw [if_neg short]
    have cut : take (next.size - text.size) [] next.reversed = (added, text.reversed) := by
      rw [size, Nat.add_sub_cancel, goesOn.reversed, take_byteSize, List.reverse_reverse,
        List.append_nil]
    constructor
    · refine ⟨goesOn.level, .inr rfl, ?_⟩
      simp only [cut]
      rfl
    · simp only [cut]

end IndentedText

/-- Outside of classes, a later state differs in its text and in declared names. -/
structure PrinterState.Keeps (state next : PrinterState) : Prop where
  outside : next.scopes.top.owner = none
  types : next.types = state.types
  diagnostics : next.diagnostics = state.diagnostics

theorem PrinterState.Keeps.trans {state middle next : PrinterState} (before : state.Keeps middle)
    (behind : middle.Keeps next) : state.Keeps next :=
  ⟨behind.outside, behind.types.trans before.types,
    behind.diagnostics.trans before.diagnostics⟩

namespace Printer

/-- A state outside of classes. -/
structure IsPlain (state : PrinterState) : Prop where
  coherent : state.text.Coherent
  outside : state.scopes.top.owner = none

theorem IsPlain.keeps {state : PrinterState} (plain : IsPlain state) (text : IndentedText) :
    state.Keeps { state with text := text } :=
  ⟨plain.outside, rfl, rfl⟩

/-- A printer has a result and appends characters, and does nothing else than to
declare names. -/
def Yields {Result : Type} (settings : Settings) (printer : Printer Result) (result : Result)
    (added : List Char) : Prop :=
  ∀ state, IsPlain state → state.text.Fits added → ∃ next, state.Keeps next ∧
    state.text.Continues added next.text ∧ printer.outcome settings state = .ok (result, next)

variable {settings : Settings} {Result Other : Type}

theorem yields_pure (result : Result) : Yields settings (pure result) result [] :=
  fun state plain _ =>
    ⟨state, plain.keeps state.text, (IndentedText.Extends.refl plain.coherent).continues, rfl⟩

theorem Yields.bind {printer : Printer Result} {rest : Result → Printer Other}
    {value : Result} {result : Other} {first second : List Char}
    (before : Yields settings printer value first)
    (behind : Yields settings (rest value) result second) :
    Yields settings (printer >>= rest) result (first ++ second) := by
  intro state plain fits
  obtain ⟨middle, keeps, continues, ends⟩ := before state plain fits.left
  obtain ⟨next, keepsOn, goesOn, endsBehind⟩ :=
    behind middle ⟨continues.coherent, keeps.outside⟩ (fits.right continues.level)
  refine ⟨next, keeps.trans keepsOn, continues.trans plain.coherent fits.left goesOn, ?_⟩
  rw [outcome_bind, ends]
  exact endsBehind

theorem Yields.andThen {before : Printer Unit} {behind : Printer Result} {result : Result}
    {first second : List Char} (yieldsBefore : Yields settings before () first)
    (yieldsBehind : Yields settings behind result second) :
    Yields settings (do before; behind) result (first ++ second) :=
  yieldsBefore.bind yieldsBehind

theorem yields_write (added : String) : Yields settings (write added) () added.toList :=
  fun state plain fits => ⟨{ state with text := state.text.write added }, plain.keeps _,
    IndentedText.continues_write plain.coherent fits, rfl⟩

theorem yields_writeVerbatim (added : String) :
    Yields settings (writeVerbatim added) () added.toList :=
  fun state plain _ => ⟨{ state with text := state.text.writeVerbatim added }, plain.keeps _,
    IndentedText.continues_writeVerbatim plain.coherent added, rfl⟩

theorem yields_writeIf (condition : Bool) (added : String) :
    Yields settings (writeIf condition added) () (if condition then added.toList else []) := by
  unfold writeIf
  split
  · exact yields_write added
  · exact yields_pure ()

/-- Taking back what a printer writes leaves the text as it was. -/
theorem Yields.textOf {printer : Printer Unit} {added : List Char}
    (yields : Yields settings printer () added) (noLineEnd : '\n' ∉ added) :
    Yields settings (textOf printer) (String.ofList added) [] := by
  intro state plain _
  have marked := IndentedText.continues_mark plain.coherent
  obtain ⟨next, keeps, ⟨lead, isLead, goesOn⟩, ends⟩ :=
    yields { state with text := state.text.mark.1 } ⟨marked.coherent, plain.outside⟩
      (.inr noLineEnd)
  -- Behind the mark no line starts, so nothing but the characters is taken back.
  have noLead : lead = [] := isLead.resolve_right fun starts =>
    Bool.false_ne_true ((IndentedText.atLineStart_mark _).symm.trans starts.1)
  rw [noLead, List.nil_append] at goesOn
  obtain ⟨restored, taken⟩ := goesOn.splitOff
  refine ⟨{ next with text := (next.text.splitOff state.text.mark.2).1 },
    ⟨keeps.outside, keeps.types, keeps.diagnostics⟩,
    marked.trans plain.coherent (.inr List.not_mem_nil) restored.continues, ?_⟩
  rw [outcome_textOf, ends]
  exact congrArg (fun taken => Except.ok (taken, _)) taken

theorem Yields.enclosedIf {printer : Printer Unit} {added : List Char}
    (yields : Yields settings printer () added) (condition : Bool) (opening closing : String) :
    Yields settings (enclosedIf condition opening closing printer) ()
      (if condition then opening.toList ++ added ++ closing.toList else added) := by
  have all : Yields settings (Printer.enclosedIf condition opening closing printer) () _ :=
    (yields_writeIf condition opening).andThen
      (yields.andThen (yields_writeIf condition closing))
  cases condition with
  | true =>
      rw [if_pos rfl, List.append_assoc]
      exact all
  | false => simpa using all

end Printer

end ScriptBridge

import ScriptBridge.Proofs.Printing.Construct
import ScriptBridge.Proofs.Qualification.Simulation

/-!
# Starts of lines

A text remembers whether the next character starts a line, since then the indentation comes
first.  At the outermost level there is none, and it makes no difference what is remembered.
The level only rises together with a new line, so no printer ever notices.
-/

namespace ScriptBridge

namespace IndentedText

/-- Two texts of the same characters.  Only at the outermost level they may differ in whether the
next character starts a line. -/
structure SameLines (text other : IndentedText) : Prop where
  reversed : text.reversed = other.reversed
  level : text.level = other.level
  atLineStart : text.level ≠ 0 → text.atLineStart = other.atLineStart

variable {text other : IndentedText}

theorem SameLines.refl (text : IndentedText) : text.SameLines text :=
  ⟨rfl, rfl, fun _ => rfl⟩

theorem SameLines.symm (same : text.SameLines other) : other.SameLines text :=
  ⟨same.reversed.symm, same.level.symm, fun inner =>
    (same.atLineStart (same.level ▸ inner)).symm⟩

theorem SameLines.trans {last : IndentedText} (before : text.SameLines other)
    (behind : other.SameLines last) : text.SameLines last :=
  ⟨before.reversed.trans behind.reversed, before.level.trans behind.level, fun inner =>
    (before.atLineStart inner).trans (behind.atLineStart (before.level ▸ inner))⟩

theorem SameLines.size (same : text.SameLines other) : text.size = other.size := by
  rw [text.size_eq, other.size_eq, same.reversed]

theorem SameLines.append (same : text.SameLines other) (added : List Char) (atLineStart : Bool) :
    (text.append added atLineStart).SameLines (other.append added atLineStart) :=
  ⟨congrArg (added ++ ·) same.reversed, same.level, fun _ => rfl⟩

theorem SameLines.startLine (same : text.SameLines other) :
    text.startLine.SameLines other.startLine := by
  by_cases outermost : text.level = 0
  · have unindented (text : IndentedText) (outermost : text.level = 0) :
        text.startLine.reversed = text.reversed ∧ text.startLine.level = 0 := by
      unfold IndentedText.startLine
      split
      · simp [IndentedText.append, indentation, outermost]
      · exact ⟨rfl, outermost⟩
    obtain ⟨first, firstLevel⟩ := unindented text outermost
    obtain ⟨second, secondLevel⟩ := unindented other (same.level ▸ outermost)
    exact ⟨first.trans (same.reversed.trans second.symm), firstLevel.trans secondLevel.symm,
      fun inner => absurd firstLevel inner⟩
  · have indentations : text.indentation = other.indentation := by
      rw [indentation, indentation, same.level]
    unfold IndentedText.startLine
    rw [← same.atLineStart outermost, ← indentations]
    split
    · exact same.append _ _
    · exact same

theorem SameLines.put (same : text.SameLines other) (character : Char) :
    (text.put character).SameLines (other.put character) := by
  unfold IndentedText.put
  split
  · exact same.append _ _
  · exact same.startLine.append _ _

theorem SameLines.splitAt (same : text.SameLines other) (length : Nat) :
    (text.splitAt length).1.SameLines (other.splitAt length).1 ∧
      (text.splitAt length).2 = (other.splitAt length).2 := by
  have cuts : take (text.size - length) [] text.reversed =
      take (other.size - length) [] other.reversed := by
    rw [same.size, same.reversed]
  unfold IndentedText.splitAt
  by_cases short : text.size ≤ length
  · rw [if_pos short, if_pos (same.size ▸ short)]
    exact ⟨same, rfl⟩
  · rw [if_neg short, if_neg (same.size ▸ short)]
    exact ⟨⟨congrArg Prod.snd cuts, same.level, fun _ => congrArg (endsLine ·.2) cuts⟩,
      congrArg Prod.fst cuts⟩

/-- No change that printers make tells the two texts apart. -/
theorem SameLines.edit {change : IndentedText → IndentedText} (isEdit : IsEdit change)
    (same : text.SameLines other) : (change text).SameLines (change other) := by
  cases isEdit with
  | write added =>
      unfold IndentedText.write
      induction added.toList generalizing text other with
      | nil => exact same
      | cons character rest ih => exact ih (same.put character)
  | writeVerbatim added =>
      unfold IndentedText.writeVerbatim
      split
      · exact same
      · exact same.append _ _
  | newLine => exact same.append _ _
  | indentedLine =>
      exact ⟨congrArg ('\n' :: ·) same.reversed, congrArg (· + 1) same.level, fun _ => rfl⟩
  | dedent =>
      refine ⟨same.reversed, congrArg (· - 1) same.level, fun inner => same.atLineStart ?_⟩
      change text.level - 1 ≠ 0 at inner
      omega
  | truncate length => exact (same.splitAt length).1

end IndentedText

/-- A state that differs from another in the start of a line alone. -/
def PrinterState.SameLines (state other : PrinterState) : Prop :=
  ∃ text, state.text.SameLines text ∧ other = { state with text }

namespace Printer

variable {settings : Settings} {Result : Type}

/-- Printers that come to the same however a line was started. -/
abbrev IgnoresStarts (settings : Settings) (first second : Printer Result) : Prop :=
  Simulates settings PrinterState.SameLines PrinterState.SameLines first second

namespace IgnoresStarts

/-- Changes outside of the text. -/
theorem elsewhere {change : PrinterState → PrinterState}
    (keeps : ∀ state text, change { state with text } = { change state with text })
    (sameText : ∀ state, (change state).text = state.text) :
    IgnoresStarts settings (modify change : Printer PUnit) (modify change) :=
  Simulates.ofChanges _ _ fun state other same => by
    obtain ⟨text, same, rfl⟩ := same
    exact ⟨text, sameText state ▸ same, keeps state text⟩

theorem modifyScopes (change : ScopeStack → ScopeStack) :
    IgnoresStarts settings (modifyScopes change) (modifyScopes change) :=
  elsewhere (fun _ _ => rfl) fun _ => rfl

theorem modifyTypes (change : TypeImports → TypeImports) :
    IgnoresStarts settings (modifyTypes change) (modifyTypes change) :=
  elsewhere (fun _ _ => rfl) fun _ => rfl

theorem textCongruence :
    TextCongruence fun {Result} (first second : Printer Result) =>
      IgnoresStarts settings first second where
  pure := Simulates.pure
  bind := Simulates.bind
  modifyText isEdit := Simulates.ofChanges _ _ fun state other same => by
    obtain ⟨text, same, rfl⟩ := same
    exact ⟨_, same.edit isEdit, rfl⟩
  length := by
    rintro state _ ⟨text, same, rfl⟩
    refine .inr ⟨state.text.size, state, _, rfl, ?_, text, same, rfl⟩
    rw [outcome_length, same.size]
  textOf := by
    rintro first second inside state _ ⟨text, same, rfl⟩
    have marked : state.text.mark.1.SameLines text.mark.1 := same.startLine
    have marks : text.mark.2 = state.text.mark.2 := marked.size.symm
    rw [outcome_textOf, outcome_textOf, marks]
    rcases inside { state with text := state.text.mark.1 } { state with text := text.mark.1 }
        ⟨_, marked, rfl⟩ with
      ⟨diagnostic, stops, alsoStops⟩ | ⟨value, next, _, ends, alsoEnds, nextText, nextSame, rfl⟩
    · rw [stops, alsoStops]
      exact .inl ⟨diagnostic, rfl, rfl⟩
    · obtain ⟨cuts, taken⟩ := nextSame.splitAt state.text.mark.2
      have sameTaken : (next.text.splitOff state.text.mark.2).2 =
          (nextText.splitOff state.text.mark.2).2 := congrArg String.ofList taken
      rw [ends, alsoEnds]
      dsimp only
      rw [sameTaken]
      exact .inr ⟨_, _, _, rfl, rfl, _, cuts, rfl⟩
  report problem place arguments := by
    rintro state _ ⟨text, same, rfl⟩
    rw [outcome_report, outcome_report]
    dsimp only
    split
    · exact .inl ⟨_, rfl, rfl⟩
    · exact .inr ⟨_, _, _, rfl, rfl, text, same, rfl⟩
  options _ _ rest := fun state other start => rest settings.options state other start

theorem name (role : Role) (source : String) :
    IgnoresStarts settings (name role source) (name role source) := by
  rintro state _ ⟨text, same, rfl⟩
  have related : state.SameLines { state with text } := ⟨text, same, rfl⟩
  have label : IgnoresStarts settings (write (settings.options.renameIdentifier source))
      (write (settings.options.renameIdentifier source)) := textCongruence.write _
  by_cases bare : role.isBare
  · rw [outcome_name bare, outcome_name bare]
    exact (textCongruence.write _).andThen (textCongruence.write _) state _ related
  · cases role with
    | typeName =>
        rw [outcome_name_typeName, outcome_name_typeName]
        exact (modifyTypes _).andThen (textCongruence.write _) state _ related
    | parameter =>
        rw [outcome_name_parameter, outcome_name_parameter]
        exact (modifyScopes _).andThen label state _ related
    | declaredName =>
        rw [outcome_name_declaredName, outcome_name_declaredName]
        exact (modifyScopes _).andThen label state _ related
    | memberName | key => exact label state _ related
    | _ => exact absurd rfl bare

theorem withinMemberBody {first second : Printer Unit}
    (inside : IgnoresStarts settings first second) :
    IgnoresStarts settings (withinMemberBody first) (withinMemberBody second) := by
  rintro state _ ⟨text, same, rfl⟩
  have marked := (modifyScopes fun scopes => scopes.markMemberBody true).andThen
    (inside.andThen (modifyScopes fun scopes =>
      scopes.markMemberBody state.scopes.top.inMemberBody)) state _ ⟨text, same, rfl⟩
  exact marked

/-- Ignoring how a line was started is carried through every construct. -/
theorem isCongruence (settings : Settings) :
    ScopedCongruence fun {Result} (first second : Printer Result) =>
      IgnoresStarts settings first second :=
  .of_modifyScopes { textCongruence with modifyTypes } name modifyScopes withinMemberBody

end IgnoresStarts

end Printer

end ScriptBridge

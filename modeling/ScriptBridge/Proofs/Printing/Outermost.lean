import ScriptBridge.Proofs.Printing.LineStarts
import ScriptBridge.Proofs.Printing.StatementLists

/-!
# Statements at the outermost level

Statements may be printed by a printer of their own that stands in a list.  Around them it
starts a line, keeps count for itself, and is given up as a whole if they print nothing.  At the
outermost level all of this comes to the same as if the statements stood in the list themselves.
-/

namespace ScriptBridge

/-- Two states at the outermost level that differ in the start of a line alone. -/
def PrinterState.Outermost (state other : PrinterState) : Prop :=
  state.SameLines other ∧ state.text.level = 0

namespace Printer

theorem size_lineStarted (wroteAny : Bool) (state : PrinterState) :
    (lineStarted wroteAny state).text.size = state.text.size + wroteAny.toNat := by
  cases wroteAny with
  | false => rfl
  | true => exact Nat.add_comm _ _

/-- What goes on from a started line without adding to it can be given up, together with the
line. -/
theorem truncate_lineStarted {wroteAny : Bool} {state : PrinterState} {text : IndentedText}
    (reversed : text.reversed = (lineStarted wroteAny state).text.reversed)
    (level : text.level = state.text.level) :
    (text.truncate state.text.size).reversed = state.text.reversed ∧
      (text.truncate state.text.size).level = state.text.level := by
  cases wroteAny with
  | false =>
      have short : text.size = state.text.size := by
        rw [text.size_eq, state.text.size_eq, reversed]
        rfl
      rw [IndentedText.truncate_of_le short.le]
      exact ⟨reversed, level⟩
  | true =>
      rw [IndentedText.truncate_of_lineEnd reversed level]
      exact ⟨rfl, rfl⟩

end Printer

namespace PrinterState.Outermost

variable {state other last : PrinterState}

theorem refl (outermost : state.text.level = 0) : state.Outermost state :=
  ⟨⟨state.text, .refl _, rfl⟩, outermost⟩

theorem symm (same : state.Outermost other) : other.Outermost state := by
  obtain ⟨⟨text, same, rfl⟩, outermost⟩ := same
  exact ⟨⟨state.text, same.symm, rfl⟩, same.level.symm.trans outermost⟩

theorem trans (before : state.Outermost other) (behind : other.Outermost last) :
    state.Outermost last := by
  obtain ⟨⟨text, same, rfl⟩, outermost⟩ := before
  obtain ⟨⟨next, goesOn, rfl⟩, -⟩ := behind
  exact ⟨⟨next, same.trans goesOn, rfl⟩, outermost⟩

theorem reversed (same : state.Outermost other) : state.text.reversed = other.text.reversed := by
  obtain ⟨⟨text, same, rfl⟩, -⟩ := same
  exact same.reversed

theorem size (same : state.Outermost other) : state.text.size = other.text.size := by
  rw [state.text.size_eq, other.text.size_eq, same.reversed]

/-- At the outermost level only the characters count. -/
theorem withText {text : IndentedText} (outermost : state.text.level = 0)
    (reversed : text.reversed = state.text.reversed) (level : text.level = state.text.level) :
    state.Outermost { state with text } :=
  ⟨⟨text, ⟨reversed.symm, level.symm, fun inner => absurd outermost inner⟩, rfl⟩, outermost⟩

theorem lineStarted (same : state.Outermost other) (wroteAny : Bool) :
    (Printer.lineStarted wroteAny state).Outermost (Printer.lineStarted wroteAny other) := by
  obtain ⟨⟨text, same, rfl⟩, outermost⟩ := same
  cases wroteAny with
  | false => exact ⟨⟨text, same, rfl⟩, outermost⟩
  | true => exact ⟨⟨text.newLine, same.edit .newLine, rfl⟩, outermost⟩

/-- A line that was started can be given up. -/
theorem giveUp {wroteAny : Bool} (same : state.Outermost (Printer.lineStarted wroteAny other)) :
    ({ state with text := state.text.truncate other.text.size } : PrinterState).Outermost
      other := by
  have reversed := same.reversed
  obtain ⟨⟨text, lines, isOther⟩, outermost⟩ := same
  have level : state.text.level = other.text.level := by
    rw [lines.level, ← (Printer.lineStarted_text wroteAny other).2, isOther]
  obtain ⟨cut, cutLevel⟩ := Printer.truncate_lineStarted reversed level
  have restored : other = { state with text := other.text } := by
    have elsewhere := congrArg (fun next : PrinterState => { next with text := other.text }) isOther
    cases wroteAny <;> exact elsewhere
  rw [restored]
  exact withText (cutLevel.trans (level.symm.trans outermost)) cut.symm cutLevel.symm

/-- A line that was given up can be started again. -/
theorem startAgain {wroteAny : Bool} (same : state.Outermost last)
    (reversed : last.text.reversed = (Printer.lineStarted wroteAny other).text.reversed)
    (level : last.text.level = other.text.level) :
    state.Outermost (Printer.lineStarted wroteAny
      { last with text := last.text.truncate other.text.size }) := by
  obtain ⟨cut, cutLevel⟩ := Printer.truncate_lineStarted reversed level
  have outermost : last.text.level = 0 := same.symm.2
  refine same.trans ?_
  cases wroteAny with
  | false => exact withText outermost (cut.trans reversed.symm) (cutLevel.trans level.symm)
  | true =>
      exact withText outermost ((congrArg ('\n' :: ·) cut).trans reversed.symm)
        (cutLevel.trans level.symm)

end PrinterState.Outermost

namespace Printer

variable {settings : Settings} {Result : Type}

/-- Printers that come to the same at the outermost level. -/
abbrev SameOutermost (settings : Settings) (first second : Printer Result) : Prop :=
  Simulates settings PrinterState.Outermost PrinterState.Outermost first second

/-- What ignores how a line was started, comes to the same at the outermost level if it comes back
to this level. -/
theorem sameOutermost_of_ignoresStarts {printer : Printer Result}
    (ignores : IgnoresStarts settings printer printer)
    (level : ∀ state value next, printer.outcome settings state = .ok (value, next) →
      next.text.level = state.text.level) :
    SameOutermost settings printer printer := by
  rintro state other ⟨same, outermost⟩
  rcases ignores state other same with stops | ⟨value, next, otherNext, ends, alsoEnds, still⟩
  · exact .inl stops
  · exact .inr ⟨value, next, otherNext, ends, alsoEnds, still,
      (level state value next ends).trans outermost⟩

theorem sameOutermost_printAs (node : Node) (role : Role) :
    SameOutermost settings (node.printAs role) (node.printAs role) :=
  sameOutermost_of_ignoresStarts ((IgnoresStarts.isCongruence settings).printAs node role)
    fun _ _ _ ends => (Node.printAs_grows ends).2

theorem sameOutermost_statements (wroteAny : Bool) (body : List Node) :
    SameOutermost settings (statements wroteAny (body.map Node.toPart))
      (statements wroteAny (body.map Node.toPart)) := by
  have closed := IgnoresStarts.isCongruence settings
  have twins := closed.statements wroteAny (body.map fun node =>
    ⟨node, node.printAs, node.printAs, closed.printAs node⟩)
  rw [List.map_map, List.map_map] at twins
  exact sameOutermost_of_ignoresStarts twins fun _ _ _ ends => (statements_grows ends).2

/-- The end of a statement and the statements behind it. -/
theorem sameOutermost_behind (semicolon : Bool) (body : List Node) :
    SameOutermost settings
      (do writeIf semicolon ";"; statements true (body.map Node.toPart))
      (do writeIf semicolon ";"; statements true (body.map Node.toPart)) := by
  have closes : SameOutermost settings (writeIf semicolon ";") (writeIf semicolon ";") := by
    refine sameOutermost_of_ignoresStarts (IgnoresStarts.textCongruence.writeIf _ _) ?_
    intro state value next ends
    cases semicolon with
    | false =>
        cases ends
        rfl
    | true =>
        cases ends
        exact IndentedText.level_write _ _
  exact closes.andThen (sameOutermost_statements true body)

/-- Statements come to the same in a list of their own, on a line that was started for them, as
in the list that the line belongs to; and the line is left over if they print nothing. -/
theorem statements_apart (settings : Settings) (body : List Node) {wroteAny : Bool}
    {state other : PrinterState}
    (same : state.Outermost (lineStarted wroteAny other)) :
    (∃ diagnostic,
      (statements false (body.map Node.toPart)).outcome settings state = .error diagnostic ∧
      (statements wroteAny (body.map Node.toPart)).outcome settings other = .error diagnostic) ∨
    ∃ wrote next otherNext,
      (statements false (body.map Node.toPart)).outcome settings state = .ok (wrote, next) ∧
      (statements wroteAny (body.map Node.toPart)).outcome settings other =
        .ok (wroteAny || wrote, otherNext) ∧
      next.Outermost (lineStarted (wroteAny && !wrote) otherNext) := by
  induction body generalizing state other with
  | nil =>
      refine .inr ⟨false, state, other, rfl, ?_, ?_⟩
      · rw [Bool.or_false]
        rfl
      · rw [Bool.not_false, Bool.and_true]
        exact same
  | cons node rest ih =>
      rw [List.map_cons]
      cases isEmpty : node.toPart.node.isEmptyStatement with
      | true =>
          rw [statements_of_isEmpty _ _ isEmpty, statements_of_isEmpty _ _ isEmpty]
          exact ih same
      | false =>
          have prints : SameOutermost settings node.toPart.print node.toPart.print :=
            sameOutermost_printAs node .plain
          rcases prints (lineStarted false state) (lineStarted wroteAny other) same with
            ⟨diagnostic, stops, alsoStops⟩ | ⟨⟨⟩, printed, otherPrinted, ends, alsoEnds, still⟩
          · exact .inl ⟨diagnostic, outcome_statements_error _ _ isEmpty stops,
              outcome_statements_error _ _ isEmpty alsoStops⟩
          · have sizes : printed.text.size = otherPrinted.text.size := still.size
            have starts : state.text.size = (lineStarted wroteAny other).text.size := same.size
            by_cases silent : printed.text.size = state.text.size
            · have alsoSilent := sizes.symm.trans (silent.trans starts)
              rw [outcome_statements_silent _ _ isEmpty ends silent,
                outcome_statements_silent _ _ isEmpty alsoEnds alsoSilent,
                IndentedText.truncate_of_le silent.le]
              obtain ⟨grows, level⟩ := Node.printAs_grows alsoEnds
              exact ih (still.startAgain ((IndentedText.size_eq_iff_of_grows grows).mp alsoSilent)
                (level.trans (lineStarted_text wroteAny other).2))
            · have alsoGrown : otherPrinted.text.size ≠ (lineStarted wroteAny other).text.size :=
                sizes ▸ starts ▸ silent
              rw [outcome_statements_cons _ _ isEmpty ends silent,
                outcome_statements_cons _ _ isEmpty alsoEnds alsoGrown]
              rcases sameOutermost_behind _ rest printed otherPrinted still with
                stops | ⟨wrote, next, otherNext, ends, alsoEnds, after⟩
              · exact .inl stops
              · have wrote : wrote = true := wroteAny_behind ends
                subst wrote
                refine .inr ⟨true, next, otherNext, ends, by rwa [Bool.or_true], ?_⟩
                rw [Bool.not_true, Bool.and_false]
                exact after

/-- A part that prints other statements comes to the same as these statements in its place. -/
theorem sameOutermost_inPlace {wrapper : Part} {contents : List Node}
    (notEmpty : wrapper.node.isEmptyStatement = false)
    (noSemicolon : wrapper.node.endsWithSemicolon = false)
    (prints : SameOutermost settings wrapper.print (topLevel (contents.map Node.toPart)))
    (wroteAny : Bool) :
    SameOutermost settings (statements wroteAny [wrapper])
      (statements wroteAny (contents.map Node.toPart)) := by
  intro state other same
  have started := same.lineStarted wroteAny
  have whole := prints _ _ started
  rw [outcome_topLevel] at whole
  have inPlace := statements_apart settings contents (.refl started.symm.2)
  rcases inPlace with ⟨diagnostic, stops, alsoStops⟩ | ⟨wrote, apart, next, ends, alsoEnds, left⟩
  · rw [stops] at whole
    rcases whole with ⟨_, wrapperStops, isStop⟩ | ⟨_, _, _, _, isEnd, _⟩
    · cases isStop
      exact .inl ⟨diagnostic, outcome_statements_error _ _ notEmpty wrapperStops, alsoStops⟩
    · cases isEnd
  · rw [ends] at whole
    rcases whole with ⟨_, _, isStop⟩ | ⟨⟨⟩, printed, _, wrapperEnds, isEnd, still⟩
    · cases isStop
    · cases isEnd
      have sizes : printed.text.size = apart.text.size := still.size
      have starts := started.size
      have grown := wroteAny_iff_grown ends
      rw [alsoEnds]
      cases wrote with
      | true =>
          have wrapperGrown : printed.text.size ≠ (lineStarted wroteAny state).text.size :=
            starts ▸ sizes ▸ grown.mp rfl
          rw [outcome_statements_cons _ _ notEmpty wrapperEnds wrapperGrown, noSemicolon]
          refine .inr ⟨true, printed, next, rfl, by rw [Bool.or_true], still.trans ?_⟩
          rwa [Bool.not_true, Bool.and_false] at left
      | false =>
          have silent : printed.text.size = (lineStarted wroteAny state).text.size := by
            by_contra other
            exact absurd (grown.mpr (starts ▸ sizes ▸ other)) Bool.false_ne_true
          rw [outcome_statements_silent _ _ notEmpty wrapperEnds silent]
          refine .inr ⟨wroteAny, _, next, rfl, by rw [Bool.or_false], ?_⟩
          rw [Bool.not_false, Bool.and_true] at left
          have same := still.trans left
          have start : state.text.size = next.text.size := by
            have sizes := same.size
            rw [silent, size_lineStarted, size_lineStarted] at sizes
            exact Nat.add_right_cancel sizes
          rw [start]
          exact same.giveUp

end Printer

end ScriptBridge

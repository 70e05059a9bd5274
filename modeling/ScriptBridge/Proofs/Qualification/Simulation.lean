import ScriptBridge.Proofs.Printing.Congruence
import ScriptBridge.Proofs.Qualification.Fit

/-!
# Printers side by side

A printer that keeps scopes and one that keeps notes are run side by side under
the same settings.  They stop alike or give the same result, and lead from
matching states to matching states: with the same text, types and problems, and
with an invariant between the scopes of the first and the log of the second.
-/

namespace ScriptBridge

namespace Printer

variable {Result Other : Type}

/-- Two printers that stop with the same diagnostic or give the same result, and
lead from related states to related states. -/
def Simulates (settings : Settings) (before after : PrinterState → PrinterState → Prop)
    (first second : Printer Result) : Prop :=
  ∀ state other, before state other →
    (∃ diagnostic, first.outcome settings state = .error diagnostic ∧
      second.outcome settings other = .error diagnostic) ∨
    ∃ value next otherNext, first.outcome settings state = .ok (value, next) ∧
      second.outcome settings other = .ok (value, otherNext) ∧ after next otherNext

/-- Two states with the same text, types and problems, of which the scopes of the
first and the log of the second are related. -/
structure Matching (invariant : ScopeStack → List Diagnostic → Prop)
    (state other : PrinterState) : Prop where
  text : state.text = other.text
  types : state.types = other.types
  problems : state.diagnostics = other.diagnostics.filter (!·.isNote)
  holds : invariant state.scopes other.diagnostics

/-- An invariant that problems do not disturb. -/
def Stable (invariant : ScopeStack → List Diagnostic → Prop) : Prop :=
  ∀ stack log diagnostic, diagnostic.isNote = false → invariant stack log →
    invariant stack (log ++ [diagnostic])

/-- A relation between states with the same text that other texts and further problems
do not disturb. -/
structure Tolerant (related : PrinterState → PrinterState → Prop) : Prop where
  sameText {state other : PrinterState} : related state other → state.text = other.text
  withText {state other : PrinterState} (text : IndentedText) :
    related state other → related { state with text } { other with text }
  withProblem {state other : PrinterState} {diagnostic : Diagnostic} :
    diagnostic.isNote = false → related state other →
      related { state with diagnostics := state.diagnostics ++ [diagnostic] }
        { other with diagnostics := other.diagnostics ++ [diagnostic] }

theorem Stable.tolerant {invariant : ScopeStack → List Diagnostic → Prop}
    (stable : Stable invariant) :
    Tolerant (Matching invariant) where
  sameText related := related.text
  withText _ related := ⟨rfl, related.types, related.problems, related.holds⟩
  withProblem isProblem related :=
    ⟨related.text, related.types, by
      rw [List.filter_append, related.problems]
      simp [isProblem], stable _ _ _ isProblem related.holds⟩

namespace Simulates

variable {settings : Settings} {before middle after : PrinterState → PrinterState → Prop}
variable {invariant second : ScopeStack → List Diagnostic → Prop}

theorem pure (value : Result) :
    Simulates settings before before (Pure.pure value) (Pure.pure value) :=
  fun state other related => .inr ⟨value, state, other, rfl, rfl, related⟩

theorem bind {first second : Printer Result} {firstRest secondRest : Result → Printer Other}
    (start : Simulates settings before middle first second)
    (rest : ∀ value, Simulates settings middle after (firstRest value) (secondRest value)) :
    Simulates settings before after (first >>= firstRest) (second >>= secondRest) := by
  intro state other related
  rcases start state other related with ⟨diagnostic, stops, alsoStops⟩ |
    ⟨value, next, otherNext, ends, alsoEnds, stillRelated⟩
  · refine .inl ⟨diagnostic, ?_, ?_⟩
    · rw [outcome_bind, stops]
    · rw [outcome_bind, alsoStops]
  · rw [outcome_bind, outcome_bind, ends, alsoEnds]
    exact rest value next otherNext stillRelated

theorem andThen {first second : Printer Unit} {firstRest secondRest : Printer Result}
    (start : Simulates settings before middle first second)
    (rest : Simulates settings middle after firstRest secondRest) :
    Simulates settings before after (do first; firstRest) (do second; secondRest) :=
  bind start fun _ => rest

theorem weaken {first second : Printer Result}
    {stronger weaker : ScopeStack → List Diagnostic → Prop}
    (implies : ∀ stack log, stronger stack log → weaker stack log)
    (simulates : Simulates settings (Matching weaker) after first second) :
    Simulates settings (Matching stronger) after first second :=
  fun state other related =>
    simulates state other ⟨related.text, related.types, related.problems,
      implies _ _ related.holds⟩

theorem conclude {first second : Printer Result}
    {stronger weaker : ScopeStack → List Diagnostic → Prop}
    (simulates : Simulates settings before (Matching stronger) first second)
    (implies : ∀ stack log, stronger stack log → weaker stack log) :
    Simulates settings before (Matching weaker) first second := by
  intro state other related
  rcases simulates state other related with stops | ⟨value, next, otherNext, ends, alsoEnds, still⟩
  · exact .inl stops
  · exact .inr ⟨value, next, otherNext, ends, alsoEnds, still.text, still.types, still.problems,
      implies _ _ still.holds⟩

/-- Two printers that only change their states. -/
theorem ofChanges (change otherChange : PrinterState → PrinterState)
    (keeps : ∀ state other, before state other → after (change state) (otherChange other)) :
    Simulates settings before after (modify change : Printer PUnit) (modify otherChange) :=
  fun state other related =>
    .inr ⟨⟨⟩, change state, otherChange other, rfl, rfl, keeps state other related⟩

/-- Printers of text and diagnostics keep every tolerant relation. -/
theorem textCongruence {related : PrinterState → PrinterState → Prop}
    (tolerant : Tolerant related) :
    TextCongruence fun {Result} (first second : Printer Result) =>
      Simulates settings related related first second where
  pure := pure
  bind := bind
  modifyText {change} _ :=
    ofChanges _ _ fun state other relatedStates => by
      have changed := tolerant.withText (change state.text) relatedStates
      rwa [tolerant.sameText relatedStates] at changed ⊢
  length := by
    intro state other relatedStates
    refine .inr ⟨state.text.size, state, other, rfl, ?_, relatedStates⟩
    rw [outcome_length, tolerant.sameText relatedStates]
  textOf := by
    intro first second inside state other relatedStates
    have sameText := tolerant.sameText relatedStates
    have marked := tolerant.withText state.text.mark.1 relatedStates
    rw [outcome_textOf, outcome_textOf, ← sameText]
    rcases inside _ _ marked with ⟨diagnostic, stops, alsoStops⟩ |
      ⟨value, next, otherNext, ends, alsoEnds, still⟩
    · rw [stops, alsoStops]
      exact .inl ⟨diagnostic, rfl, rfl⟩
    · rw [ends, alsoEnds]
      refine .inr ⟨_, _, _, rfl, ?_, tolerant.withText _ still⟩
      rw [tolerant.sameText still]
  report problem place arguments := by
    intro state other relatedStates
    rw [outcome_report, outcome_report]
    dsimp only
    have isProblem : (Diagnostic.about problem settings.file place arguments).isNote = false := by
      cases problem <;> rfl
    split
    · exact .inl ⟨_, rfl, rfl⟩
    · exact .inr ⟨_, _, _, rfl, rfl, tolerant.withProblem isProblem relatedStates⟩
  options _ _ rest := fun state other start => rest settings.options state other start

/-- Printers that leave the scopes alone keep every stable invariant. -/
theorem isCongruence (stable : Stable invariant) :
    Congruence fun {Result} (first second : Printer Result) =>
      Simulates settings (Matching invariant) (Matching invariant) first second where
  toTextCongruence := textCongruence stable.tolerant
  modifyTypes change :=
    ofChanges _ _ fun _ _ related =>
      ⟨related.text, congrArg change related.types, related.problems, related.holds⟩

/-- The scopes of the first printer change; those of the second do not matter. -/
theorem modifyScopes (change otherChange : ScopeStack → ScopeStack)
    (next : ScopeStack → List Diagnostic → Prop) :
    Simulates settings (Matching fun stack log => next (change stack) log) (Matching next)
      (modifyScopes change) (modifyScopes otherChange) :=
  ofChanges _ _ fun _ _ related =>
    ⟨related.text, related.types, related.problems, related.holds⟩

/-- Only the first printer changes its scopes, at the start. -/
theorem afterScopes {first second : Printer Result} (change : ScopeStack → ScopeStack)
    (next : ScopeStack → List Diagnostic → Prop)
    (simulates : Simulates settings (Matching next) after first second) :
    Simulates settings (Matching fun stack log => next (change stack) log) after
      (do Printer.modifyScopes change; first) second :=
  fun state other related => simulates { state with scopes := change state.scopes } other
    ⟨related.text, related.types, related.problems, related.holds⟩

/-- Only the first printer changes its scopes, at the end. -/
theorem beforeScopes {first second : Printer Unit} {change : ScopeStack → ScopeStack}
    {last next : ScopeStack → List Diagnostic → Prop}
    (simulates : Simulates settings before (Matching last) first second)
    (keeps : ∀ stack log, last stack log → next (change stack) log) :
    Simulates settings before (Matching next) (do first; Printer.modifyScopes change) second := by
  intro state other related
  rcases simulates state other related with ⟨diagnostic, stops, alsoStops⟩ |
    ⟨value, following, otherNext, ends, alsoEnds, still⟩
  · refine .inl ⟨diagnostic, ?_, alsoStops⟩
    rw [outcome_bind, stops]
  · refine .inr ⟨(), { following with scopes := change following.scopes }, otherNext, ?_,
      alsoEnds, still.text, still.types, still.problems, keeps _ _ still.holds⟩
    rw [outcome_bind, ends]
    rfl

/-- The second printer notes something first. -/
theorem afterNotes {step : Printer Unit} {first rest : Printer Result}
    {change : List Diagnostic → List Diagnostic} (next : ScopeStack → List Diagnostic → Prop)
    (runs : ∀ state : PrinterState, step.outcome settings state =
      .ok ((), { state with diagnostics := change state.diagnostics }))
    (notes : ∀ log : List Diagnostic,
      (change log).filter (!·.isNote) = log.filter (!·.isNote))
    (keeps : ∀ stack log, invariant stack log → next stack (change log))
    (simulates : Simulates settings (Matching next) after first rest) :
    Simulates settings (Matching invariant) after first (do step; rest) := by
  intro state other related
  have moved : Matching next state { other with diagnostics := change other.diagnostics } :=
    ⟨related.text, related.types, related.problems.trans (notes _).symm,
      keeps _ _ related.holds⟩
  rw [outcome_bind, runs]
  exact simulates _ _ moved

/-- The second printer notes something at the end. -/
theorem beforeNotes {first second step : Printer Unit}
    (change : List Diagnostic → List Diagnostic)
    {last next : ScopeStack → List Diagnostic → Prop}
    (simulates : Simulates settings before (Matching last) first second)
    (runs : ∀ state : PrinterState, step.outcome settings state =
      .ok ((), { state with diagnostics := change state.diagnostics }))
    (notes : ∀ log : List Diagnostic,
      (change log).filter (!·.isNote) = log.filter (!·.isNote))
    (keeps : ∀ stack log, last stack log → next stack (change log)) :
    Simulates settings before (Matching next) first (do second; step) := by
  intro state other related
  rcases simulates state other related with ⟨diagnostic, stops, alsoStops⟩ |
    ⟨value, following, otherNext, ends, alsoEnds, still⟩
  · refine .inl ⟨diagnostic, stops, ?_⟩
    rw [outcome_bind, alsoStops]
  · refine .inr ⟨(), following,
      { otherNext with diagnostics := change otherNext.diagnostics }, ends, ?_, still.text,
      still.types, still.problems.trans (notes _).symm, keeps _ _ still.holds⟩
    rw [outcome_bind, alsoEnds]
    exact runs otherNext

/-- The second printer enters a function or class first. -/
theorem afterEnter {first : Printer Result} {rest : Nat → Printer Result}
    (next : Nat → ScopeStack → List Diagnostic → Prop)
    (keeps : ∀ stack log, invariant stack log →
      next log.length stack (log ++ [Note.entered.toDiagnostic]))
    (simulates : ∀ number, Simulates settings (Matching (next number)) after first (rest number)) :
    Simulates settings (Matching invariant) after first (enter >>= rest) := by
  intro state other related
  have moved : Matching (next other.diagnostics.length) state
      { other with diagnostics := other.diagnostics ++ [Note.entered.toDiagnostic] } := by
    refine ⟨related.text, related.types, ?_, keeps _ _ related.holds⟩
    rw [List.filter_append, related.problems]
    simp [Note.isNote_toDiagnostic]
  exact simulates other.diagnostics.length _ _ moved

/-- Both printers ask for the options first. -/
theorem bothOptions {first second : Options → Printer Result}
    (simulates : Simulates settings before after (first settings.options)
      (second settings.options)) :
    Simulates settings before after (options >>= first) (options >>= second) :=
  simulates

/-- The second printer asks first for something that the settings tell. -/
theorem afterAsking {question : Printer Other} {first : Printer Result}
    {rest : Other → Printer Result} {answer : Other}
    (asks : ∀ state, question.outcome settings state = .ok (answer, state))
    (simulates : Simulates settings before after first (rest answer)) :
    Simulates settings before after first (question >>= rest) := by
  intro state other related
  rw [outcome_bind, asks]
  exact simulates state other related

/-- Both printers ask for something that the settings tell. -/
theorem asking {question other : Printer Result} {first second : Result → Printer Other}
    {answer : Result} (asks : ∀ state, question.outcome settings state = .ok (answer, state))
    (otherAsks : ∀ state, other.outcome settings state = .ok (answer, state))
    (simulates : Simulates settings before after (first answer) (second answer)) :
    Simulates settings before after (question >>= first) (other >>= second) := by
  intro state other related
  rw [outcome_bind, outcome_bind, asks, otherAsks]
  exact simulates state other related

end Simulates

end Printer

end ScriptBridge

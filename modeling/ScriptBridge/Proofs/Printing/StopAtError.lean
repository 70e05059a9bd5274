import ScriptBridge.Proofs.Printing.Construct
import ScriptBridge.Proofs.Printing.Roles

/-!
# Stopping at the first error

The options decide whether an error ends the generation.  If it does not, every
printer comes to an end.  If it does, the printer either never meets an error
and comes to the same end, or it stops with the first error that it would have
raised otherwise.  The property is kept by sequencing, so it is carried through
all trees as a congruence.
-/

namespace ScriptBridge

/-- The same settings with a choice of whether errors end the generation. -/
def Settings.stopping (settings : Settings) (stop : Bool) : Settings :=
  { settings with options := { settings.options with stopAtError := stop } }

/-- What a completed run comes to if the first error among the diagnostics that
it raised ends it. -/
def stopAtFirstError {Result : Type} (raised : List Diagnostic) (completed : Result) :
    Except Diagnostic Result :=
  match raised.find? Diagnostic.isError with
  | none => .ok completed
  | some diagnostic => .error diagnostic

namespace Printer

variable {Result Other : Type}

/-- A printer that ends if errors do not stop it, and that is otherwise stopped
exactly by the first error that it raises. -/
def Stoppable (printer : Printer Result) : Prop :=
  ∀ (settings : Settings) (state : PrinterState),
    ∃ (value : Result) (next : PrinterState) (raised : List Diagnostic),
      printer.outcome (settings.stopping false) state = .ok (value, next) ∧
      next.diagnostics = state.diagnostics ++ raised ∧
      printer.outcome (settings.stopping true) state =
        stopAtFirstError raised (value, next)

namespace Stoppable

/-- A printer that raises nothing and does not ask what errors do. -/
theorem of_silent {printer : Printer Result}
    (blind : ∀ settings stop state,
      printer.outcome (Settings.stopping settings stop) state = printer.outcome settings state)
    (silent : ∀ settings state, ∃ value next,
      printer.outcome settings state = .ok (value, next) ∧
      next.diagnostics = state.diagnostics) :
    Stoppable printer := by
  intro settings state
  obtain ⟨value, next, ends, same⟩ := silent settings state
  refine ⟨value, next, [], ?_, ?_, ?_⟩
  · rw [blind, ends]
  · rw [same, List.append_nil]
  · rw [blind, ends]
    rfl

theorem pure (value : Result) : Stoppable (Pure.pure value : Printer Result) :=
  of_silent (fun _ _ _ => rfl) fun _ state => ⟨value, state, rfl, rfl⟩

/-- One printer behind another is stopped by the first error of the first one,
or else by that of the second one. -/
theorem bind {printer : Printer Result} {rest : Result → Printer Other}
    (first : Stoppable printer) (second : ∀ value, Stoppable (rest value)) :
    Stoppable (printer >>= rest) := by
  intro settings state
  obtain ⟨value, middle, raised, ends, adds, stops⟩ := first settings state
  obtain ⟨last, next, later, endsLater, addsLater, stopsLater⟩ :=
    second value settings middle
  refine ⟨last, next, raised ++ later, ?_, ?_, ?_⟩
  · rw [outcome_bind, ends]
    exact endsLater
  · rw [addsLater, adds, List.append_assoc]
  · rw [outcome_bind, stops]
    unfold stopAtFirstError
    rw [List.find?_append]
    cases raised.find? Diagnostic.isError with
    | none => exact stopsLater
    | some diagnostic => rfl

theorem modifyText (change : IndentedText → IndentedText) :
    Stoppable (modifyText change) :=
  of_silent (fun _ _ _ => rfl) fun _ _ => ⟨_, _, rfl, rfl⟩

theorem modifyTypes (change : TypeImports → TypeImports) :
    Stoppable (modifyTypes change) :=
  of_silent (fun _ _ _ => rfl) fun _ _ => ⟨_, _, rfl, rfl⟩

theorem modifyScopes (change : ScopeStack → ScopeStack) :
    Stoppable (modifyScopes change) :=
  of_silent (fun _ _ _ => rfl) fun _ _ => ⟨_, _, rfl, rfl⟩

theorem length : Stoppable length :=
  of_silent (fun _ _ _ => rfl) fun _ _ => ⟨_, _, rfl, rfl⟩

/-- A report raises one diagnostic and is stopped by it if it is an error. -/
theorem report (problem : Problem) (place : Position) (arguments : List String) :
    Stoppable (report problem place arguments) := by
  intro settings state
  let diagnostic := Diagnostic.about problem settings.file place arguments
  refine ⟨⟨⟩, { state with diagnostics := state.diagnostics ++ [diagnostic] },
    [diagnostic], ?_, rfl, ?_⟩
  · rw [outcome_report]
    simp [Settings.stopping, diagnostic]
  · rw [outcome_report]
    unfold stopAtFirstError
    by_cases isError : diagnostic.isError
    · simp [Settings.stopping, diagnostic, isError]
    · simp [Settings.stopping, diagnostic, isError]

/-- Taking a text back leaves the diagnostics as the printer left them. -/
theorem textOf {printer : Printer Unit} (stoppable : Stoppable printer) :
    Stoppable (textOf printer) := by
  intro settings state
  obtain ⟨value, next, raised, ends, adds, stops⟩ :=
    stoppable settings { state with text := state.text.mark.1 }
  refine ⟨(next.text.splitOff state.text.mark.2).2,
    { next with text := (next.text.splitOff state.text.mark.2).1 }, raised, ?_, adds, ?_⟩
  · rw [outcome_textOf, ends]
  · rw [outcome_textOf, stops]
    unfold stopAtFirstError
    cases raised.find? Diagnostic.isError <;> rfl

/-- The options are only asked for what does not depend on what errors do. -/
theorem options {rest : Options → Printer Result} (blind : StopBlind rest)
    (stoppable : ∀ options, Stoppable (rest options)) :
    Stoppable (options >>= rest) := by
  intro settings state
  have same : ∀ stop, (Printer.options >>= rest).outcome (settings.stopping stop) state =
      (rest settings.options).outcome (settings.stopping stop) state := by
    intro stop
    rw [outcome_bind, outcome_options]
    change (rest { settings.options with stopAtError := stop }).outcome _ state = _
    rw [blind]
  rw [same, same]
  exact stoppable settings.options settings state

theorem name (role : Role) (source : String) : Stoppable (name role source) := by
  apply of_silent
  · intro settings stop state
    cases role <;> rfl
  · intro settings state
    cases role <;> exact ⟨_, _, rfl, rfl⟩

theorem withinMemberBody {printer : Printer Unit} (stoppable : Stoppable printer) :
    Stoppable (withinMemberBody printer) := by
  refine bind (of_silent (fun _ _ _ => rfl) fun _ state => ⟨_, state, rfl, rfl⟩) ?_
  intro state
  apply bind (modifyScopes _)
  intro _
  apply bind stoppable
  intro _
  exact modifyScopes _

/-- Being stoppable is carried through every construct. -/
theorem isCongruence :
    ScopedCongruence fun {Result} (printer _ : Printer Result) => Stoppable printer := by
  refine .of_modifyScopes ?_ name modifyScopes withinMemberBody
  exact {
    pure := pure
    bind := bind
    modifyText := fun _ => modifyText _
    modifyTypes := modifyTypes
    length := length
    textOf := textOf
    report := report
    options := fun blind _ => options blind }

/-- A run that raised nothing does not depend on whether errors stop it. -/
theorem outcome_stopping {printer : Printer Result} (stoppable : Stoppable printer)
    {settings : Settings} {state next : PrinterState} {value : Result}
    (ends : printer.outcome settings state = .ok (value, next))
    (quiet : next.diagnostics = state.diagnostics) (stop : Bool) :
    printer.outcome (settings.stopping stop) state = .ok (value, next) := by
  obtain ⟨last, reached, raised, completes, adds, stops⟩ := stoppable settings state
  have own : settings.stopping settings.options.stopAtError = settings := rfl
  have same : last = value ∧ reached = next := by
    cases isStop : settings.options.stopAtError with
    | false =>
        rw [← own, isStop, completes] at ends
        exact Prod.mk.inj (Except.ok.inj ends)
    | true =>
        rw [← own, isStop, stops] at ends
        unfold stopAtFirstError at ends
        split at ends
        · exact Prod.mk.inj (Except.ok.inj ends)
        · cases ends
  obtain ⟨rfl, rfl⟩ := same
  rw [quiet, List.self_eq_append_right] at adds
  cases stop with
  | false => exact completes
  | true => rw [stops, adds]; rfl

end Stoppable

end Printer

/-- Without stopping at errors a tree is always generated.  Stopping at errors
gives the same code and diagnostics if there is no error among the diagnostics,
and the first error otherwise. -/
theorem Settings.generate_stopping (settings : Settings) (tree : Node) :
    ∃ generated : Generated,
      (settings.stopping false).generate tree = .ok generated ∧
      (settings.stopping true).generate tree =
        match generated.diagnostics.find? Diagnostic.isError with
        | none => .ok generated
        | some diagnostic => .error diagnostic := by
  obtain ⟨value, state, raised, ends, adds, stops⟩ :=
    Printer.Stoppable.isCongruence.printAs tree .plain settings {}
  have all : state.diagnostics = raised := adds
  refine ⟨⟨state.types.prepend settings.file state.text.toString, raised⟩, ?_, ?_⟩
  · rw [generate_eq, ends, ← all]
    rfl
  · rw [generate_eq, stops, ← all]
    unfold stopAtFirstError
    cases state.diagnostics.find? Diagnostic.isError <;> rfl

end ScriptBridge

import Mathlib.Data.List.Forall2
import ScriptBridge.Proofs.Printing.Construct

/-!
# Runs that differ in places only

Two printers are displaced if, run for files of any names, they print the same text, declare
the same names, refer to the same types and raise diagnostics that differ at most in the file
and the place.  Neither the file nor a diagnostic is ever looked at again, so this holds of
every printer and itself.
-/

namespace ScriptBridge

/-- Diagnostics that differ at most in the file, the line and the column. -/
structure Diagnostic.Displaced (first second : Diagnostic) : Prop where
  code : first.code = second.code
  severity : first.severity = second.severity
  text : first.text = second.text

namespace Diagnostic.Displaced

variable {first second third : Diagnostic}

theorem refl (diagnostic : Diagnostic) : diagnostic.Displaced diagnostic :=
  ⟨rfl, rfl, rfl⟩

theorem symm (displaced : first.Displaced second) : second.Displaced first :=
  ⟨displaced.code.symm, displaced.severity.symm, displaced.text.symm⟩

theorem trans (displaced : first.Displaced second) (further : second.Displaced third) :
    first.Displaced third :=
  ⟨displaced.code.trans further.code, displaced.severity.trans further.severity,
    displaced.text.trans further.text⟩

end Diagnostic.Displaced

theorem Diagnostic.forall₂_trans {first second third : List Diagnostic}
    (displaced : List.Forall₂ Diagnostic.Displaced first second)
    (further : List.Forall₂ Diagnostic.Displaced second third) :
    List.Forall₂ Diagnostic.Displaced first third := by
  induction displaced generalizing third with
  | nil => exact further
  | cons same _ ih =>
      cases further with
      | cons next rest => exact .cons (same.trans next) (ih rest)

/-- States that differ at most in the places of their diagnostics. -/
structure PrinterState.Displaced (first second : PrinterState) : Prop where
  role : first.role = second.role
  text : first.text = second.text
  scopes : first.scopes = second.scopes
  types : first.types = second.types
  ranks : first.ranks = second.ranks
  diagnostics : List.Forall₂ Diagnostic.Displaced first.diagnostics second.diagnostics

namespace PrinterState.Displaced

variable {first second third : PrinterState}

theorem refl (state : PrinterState) : state.Displaced state :=
  ⟨rfl, rfl, rfl, rfl, rfl, List.forall₂_same.mpr fun _ _ => .refl _⟩

theorem symm (displaced : first.Displaced second) : second.Displaced first :=
  ⟨displaced.role.symm, displaced.text.symm, displaced.scopes.symm, displaced.types.symm,
    displaced.ranks.symm, (displaced.diagnostics.imp fun _ _ same => same.symm).flip⟩

theorem trans (displaced : first.Displaced second) (further : second.Displaced third) :
    first.Displaced third where
  role := displaced.role.trans further.role
  text := displaced.text.trans further.text
  scopes := displaced.scopes.trans further.scopes
  types := displaced.types.trans further.types
  ranks := displaced.ranks.trans further.ranks
  diagnostics := Diagnostic.forall₂_trans displaced.diagnostics further.diagnostics

/-- Only the diagnostics of the other state are left open. -/
theorem eq_of (displaced : first.Displaced second) :
    second = { first with diagnostics := second.diagnostics } := by
  obtain ⟨role, text, scopes, types, ranks, -⟩ := displaced
  cases first
  cases second
  simp_all

end PrinterState.Displaced

/-- Outcomes with the same result and displaced states, or with displaced diagnostics. -/
inductive OutcomesDisplaced {Result : Type} :
    Except Diagnostic (Result × PrinterState) → Except Diagnostic (Result × PrinterState) → Prop
  | ok {value : Result} {first second : PrinterState} : first.Displaced second →
      OutcomesDisplaced (.ok (value, first)) (.ok (value, second))
  | error {first second : Diagnostic} : first.Displaced second →
      OutcomesDisplaced (.error first) (.error second)

namespace OutcomesDisplaced

variable {Result : Type} {first second third : Except Diagnostic (Result × PrinterState)}

theorem symm (displaced : OutcomesDisplaced first second) : OutcomesDisplaced second first := by
  cases displaced with
  | ok states => exact .ok states.symm
  | error same => exact .error same.symm

theorem trans (displaced : OutcomesDisplaced first second)
    (further : OutcomesDisplaced second third) : OutcomesDisplaced first third := by
  cases displaced with
  | ok states => cases further with | ok others => exact .ok (states.trans others)
  | error same => cases further with | error others => exact .error (same.trans others)

end OutcomesDisplaced

namespace Printer

variable {Result Other : Type}

/-- Printers that come to displaced outcomes, whatever the names of the files. -/
def Displaced (first second : Printer Result) : Prop :=
  ∀ (settings : Settings) (file : String) (state other : PrinterState), state.Displaced other →
    OutcomesDisplaced (first.outcome settings state) (second.outcome { settings with file } other)

namespace Displaced

variable {first second third : Printer Result}

theorem symm (displaced : Displaced first second) : Displaced second first :=
  fun settings file state other states =>
    (displaced { settings with file } settings.file other state states.symm).symm

theorem trans (displaced : Displaced first second) (further : Displaced second third) :
    Displaced first third :=
  fun settings file state other states =>
    (displaced settings settings.file state state (.refl state)).trans
      (further settings file state other states)

/-- A printer that raises nothing and looks at neither the file nor the diagnostics. -/
theorem of_silent {printer : Printer Result}
    (silent : ∀ settings file state diagnostics, ∃ value next,
      printer.outcome settings state = .ok (value, next) ∧
      next.diagnostics = state.diagnostics ∧
      printer.outcome { settings with file } { state with diagnostics } =
        .ok (value, { next with diagnostics })) :
    Displaced printer printer := by
  intro settings file state other states
  obtain ⟨value, next, ends, kept, endsOther⟩ := silent settings file state other.diagnostics
  rw [states.eq_of, endsOther, ends]
  exact .ok ⟨rfl, rfl, rfl, rfl, rfl, kept ▸ states.diagnostics⟩

theorem pure (value : Result) : Displaced (Pure.pure value : Printer Result) (Pure.pure value) :=
  of_silent fun _ _ _ _ => ⟨_, _, rfl, rfl, rfl⟩

theorem bind {firstRest secondRest : Result → Printer Other} (start : Displaced first second)
    (rest : ∀ value, Displaced (firstRest value) (secondRest value)) :
    Displaced (first >>= firstRest) (second >>= secondRest) := by
  intro settings file state other states
  have reached := start settings file state other states
  rw [outcome_bind, outcome_bind]
  generalize first.outcome settings state = ends at reached ⊢
  generalize second.outcome { settings with file } other = endsOther at reached ⊢
  cases reached with
  | ok nexts => exact rest _ settings file _ _ nexts
  | error same => exact .error same

theorem textOf {first second : Printer Unit} (inside : Displaced first second) :
    Displaced (textOf first) (textOf second) := by
  intro settings file state other states
  have marked : PrinterState.Displaced { state with text := state.text.mark.1 }
      { other with text := other.text.mark.1 } :=
    ⟨states.role, congrArg (·.mark.1) states.text, states.scopes, states.types, states.ranks,
      states.diagnostics⟩
  have reached := inside settings file _ _ marked
  rw [outcome_textOf, outcome_textOf, ← states.text]
  rw [← states.text] at reached
  generalize first.outcome settings { state with text := state.text.mark.1 } = ends at reached ⊢
  generalize second.outcome { settings with file } { other with text := state.text.mark.1 } =
    endsOther at reached ⊢
  cases reached with
  | error same => exact .error same
  | ok nexts =>
      dsimp only
      rw [← nexts.text]
      exact .ok ⟨nexts.role, rfl, nexts.scopes, nexts.types, nexts.ranks, nexts.diagnostics⟩

/-- The place of a report does not matter. -/
theorem report (problem : Problem) (place other : Position) (arguments : List String) :
    Displaced (report problem place arguments) (report problem other arguments) := by
  intro settings file state otherState states
  rw [outcome_report, outcome_report]
  have same : (Diagnostic.about problem settings.file place arguments).Displaced
      (Diagnostic.about problem file other arguments) := ⟨rfl, rfl, rfl⟩
  have stopsToo : (Diagnostic.about problem file other arguments).isError =
      (Diagnostic.about problem settings.file place arguments).isError := rfl
  dsimp only
  rw [stopsToo]
  split
  · exact .error same
  · exact .ok ⟨states.role, states.text, states.scopes, states.types, states.ranks,
      List.rel_append states.diagnostics (.cons same .nil)⟩

theorem options {firstRest secondRest : Options → Printer Result}
    (rest : ∀ options, Displaced (firstRest options) (secondRest options)) :
    Displaced (options >>= firstRest) (options >>= secondRest) :=
  bind (of_silent fun _ _ _ _ => ⟨_, _, rfl, rfl, rfl⟩) rest

theorem name (role : Role) (source : String) : Displaced (name role source) (name role source) := by
  apply of_silent
  intro settings file state diagnostics
  cases role <;> exact ⟨_, _, rfl, rfl, rfl⟩

theorem modifyScopes (change : ScopeStack → ScopeStack) :
    Displaced (modifyScopes change) (modifyScopes change) :=
  of_silent fun _ _ _ _ => ⟨_, _, rfl, rfl, rfl⟩

theorem withinMemberBody {first second : Printer Unit} (inside : Displaced first second) :
    Displaced (withinMemberBody first) (withinMemberBody second) := by
  intro settings file state other states
  have run (before : Bool) : Displaced
      (do Printer.modifyScopes fun scopes => scopes.markMemberBody true
          first
          Printer.modifyScopes fun scopes => scopes.markMemberBody before)
      (do Printer.modifyScopes fun scopes => scopes.markMemberBody true
          second
          Printer.modifyScopes fun scopes => scopes.markMemberBody before) :=
    (modifyScopes _).bind fun _ => inside.bind fun _ => modifyScopes _
  have reached := run state.scopes.top.inMemberBody settings file state other states
  unfold Printer.withinMemberBody
  rw [outcome_bind, outcome_bind, outcome_get, outcome_get]
  dsimp only
  rw [← states.scopes]
  exact reached

/-- Being displaced is carried through every construct. -/
theorem isCongruence :
    ScopedCongruence fun {Result} (first second : Printer Result) => Displaced first second := by
  refine .of_modifyScopes ?_ name modifyScopes withinMemberBody
  exact {
    pure := pure
    bind := bind
    modifyText := fun _ => of_silent fun _ _ _ _ => ⟨_, _, rfl, rfl, rfl⟩
    modifyTypes := fun _ => of_silent fun _ _ _ _ => ⟨_, _, rfl, rfl, rfl⟩
    length := of_silent fun _ _ _ _ => ⟨_, _, rfl, rfl, rfl⟩
    textOf := textOf
    report := fun problem place arguments => report problem place place arguments
    options := fun _ _ rest => options rest }

theorem samePlace (place other : Position) : SamePlace Displaced place other :=
  fun problem arguments => report problem place other arguments

end Displaced

end Printer

end ScriptBridge

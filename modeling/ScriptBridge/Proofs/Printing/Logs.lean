import ScriptBridge.Proofs.Printing.Construct
import ScriptBridge.Proofs.Qualification.Simulation

/-!
# Diagnostics aside

No printer looks at what was reported before.  So two states that differ in their diagnostics
alone lead to states that do so as well.  A relation between the diagnostics of the two is kept
if it does not mind that the same problem is reported behind both.
-/

namespace ScriptBridge

/-- A relation between logs that the same problem behind both does not disturb. -/
def KeptByProblems (logs : List Diagnostic → List Diagnostic → Prop) : Prop :=
  ∀ first second diagnostic, diagnostic.isNote = false → logs first second →
    logs (first ++ [diagnostic]) (second ++ [diagnostic])

/-- Two states that differ in their diagnostics alone, which are related. -/
def PrinterState.SameBut (logs : List Diagnostic → List Diagnostic → Prop)
    (state other : PrinterState) : Prop :=
  ∃ log, other = { state with diagnostics := log } ∧ logs state.diagnostics log

namespace Printer

/-- Printers that lead from states that differ in related diagnostics to such states. -/
abbrev RelatesLogs (settings : Settings) (logs : List Diagnostic → List Diagnostic → Prop)
    {Result : Type} (first second : Printer Result) : Prop :=
  Simulates settings (PrinterState.SameBut logs) (PrinterState.SameBut logs) first second

namespace RelatesLogs

variable {settings : Settings} {logs : List Diagnostic → List Diagnostic → Prop}

theorem tolerant (kept : KeptByProblems logs) : Tolerant (PrinterState.SameBut logs) where
  sameText := by
    rintro state _ ⟨log, rfl, -⟩
    rfl
  withText text := by
    rintro ⟨log, rfl, related⟩
    exact ⟨log, rfl, related⟩
  withProblem isProblem := by
    rintro ⟨log, rfl, related⟩
    exact ⟨_, rfl, kept _ _ _ isProblem related⟩

/-- Changes that neither look at the diagnostics nor touch them. -/
theorem elsewhere {change : PrinterState → PrinterState}
    (keeps : ∀ state diagnostics,
      change { state with diagnostics } = { change state with diagnostics }) :
    RelatesLogs settings logs (modify change : Printer PUnit) (modify change) := by
  refine Simulates.ofChanges _ _ ?_
  rintro state _ ⟨log, rfl, related⟩
  have untouched := congrArg PrinterState.diagnostics (keeps state state.diagnostics)
  dsimp only at untouched
  exact ⟨log, keeps state log, untouched ▸ related⟩

theorem modifyScopes (change : ScopeStack → ScopeStack) :
    RelatesLogs settings logs (modifyScopes change) (modifyScopes change) :=
  elsewhere fun _ _ => rfl

theorem name (role : Role) (source : String) :
    RelatesLogs settings logs (name role source) (name role source) := by
  rintro state _ ⟨log, rfl, related⟩
  cases role <;> exact .inr ⟨_, _, _, rfl, rfl, log, rfl, related⟩

theorem withinMemberBody {first second : Printer Unit}
    (inside : RelatesLogs settings logs first second) :
    RelatesLogs settings logs (withinMemberBody first) (withinMemberBody second) := by
  rintro state _ ⟨log, rfl, related⟩
  have marked := (modifyScopes fun scopes => scopes.markMemberBody true).andThen
    (inside.andThen (modifyScopes fun scopes =>
      scopes.markMemberBody state.scopes.top.inMemberBody)) state _ ⟨log, rfl, related⟩
  exact marked

/-- What was reported makes no difference to any construct. -/
theorem isCongruence (settings : Settings) (kept : KeptByProblems logs) :
    ScopedCongruence fun {Result} (first second : Printer Result) =>
      RelatesLogs settings logs first second :=
  .of_modifyScopes { Simulates.textCongruence (tolerant kept) with
    modifyTypes := fun _ => elsewhere fun _ _ => rfl } name modifyScopes withinMemberBody

/-- If the first of two such printers comes to its end, so does the second. -/
theorem ends {Result : Type} {first second : Printer Result}
    (relates : RelatesLogs settings logs first second) {state next : PrinterState} {value : Result}
    (ends : first.outcome settings state = .ok (value, next)) (log : List Diagnostic)
    (related : logs state.diagnostics log) :
    ∃ nextLog, second.outcome settings { state with diagnostics := log } =
        .ok (value, { next with diagnostics := nextLog }) ∧ logs next.diagnostics nextLog := by
  have both := relates state _ ⟨log, rfl, related⟩
  rw [ends] at both
  obtain ⟨_, stops, -⟩ | ⟨_, _, _, same, otherEnds, nextLog, rfl, stillRelated⟩ := both
  · cases stops
  · cases same
    exact ⟨nextLog, otherEnds, stillRelated⟩

end RelatesLogs

end Printer

end ScriptBridge

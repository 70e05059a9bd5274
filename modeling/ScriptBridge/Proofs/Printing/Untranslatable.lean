import ScriptBridge.Proofs.Printing.Logs
import ScriptBridge.Proofs.Printing.StatementLists
import ScriptBridge.Proofs.Printing.StopAtError

/-!
# Statements that are not converted

A construct that is not converted is reported, and nothing is written for it.  If the
generation goes on, a list of statements is written as if such statements were not there: what
was reported leaves no trace in the text, and the line that was started for a statement is
given up again.
-/

namespace ScriptBridge

/-- A state that differs from another in its diagnostics alone. -/
abbrev PrinterState.Muted (state other : PrinterState) : Prop :=
  state.SameBut (fun _ _ => True) other

theorem Printer.mutedCongruence (settings : Settings) :
    ScopedCongruence fun {Result} (first second : Printer Result) =>
      Simulates settings PrinterState.Muted PrinterState.Muted first second :=
  RelatesLogs.isCongruence settings fun _ _ _ _ _ => trivial

/-! ## Statements of which nothing is written -/

namespace Node

/-- Whether a node is of a category that is not converted, or of none. -/
def isUnconverted (node : Node) : Bool :=
  match node.shape with
  | .unsupported _ => true
  | .unknown _ _ => true
  | .function .declared _ _ _ _ _ => true
  | .function .emptyBody _ _ _ _ _ => true
  | _ => false

/-- Whether nothing is converted of a statement. -/
def isUntranslatable (node : Node) : Bool :=
  match node.shape with
  | .expressionStatement expression => expression.isUnconverted
  | _ => node.isUnconverted

end Node

namespace Printer

variable {settings : Settings} {state : PrinterState}

/-- A report that does not end the generation. -/
theorem outcome_report_goesOn (goesOn : settings.options.stopAtError = false) (problem : Problem)
    (place : Position) (arguments : List String) :
    ∃ log, (report problem place arguments).outcome settings state =
      .ok (⟨⟩, { state with diagnostics := log }) := by
  refine ⟨state.diagnostics ++ [Diagnostic.about problem settings.file place arguments], ?_⟩
  rw [outcome_report, goesOn]
  simp

theorem outcome_print_unconverted (goesOn : settings.options.stopAtError = false) {node : Node}
    (isUnconverted : node.isUnconverted = true) :
    ∃ log, (node.printAs .plain).outcome settings state =
      .ok ((), { state with diagnostics := log }) := by
  obtain ⟨location, shape⟩ := node
  rw [Node.printAs_eq]
  cases shape with
  | unsupported form => exact outcome_report_goesOn goesOn _ _ _
  | unknown name fields => exact outcome_report_goesOn goesOn _ _ _
  | function form marks name params body returnType =>
      cases form with
      | declared => exact outcome_report_goesOn goesOn _ _ _
      | emptyBody => exact outcome_report_goesOn goesOn _ _ _
      | _ => cases isUnconverted
  | _ => cases isUnconverted

/-- Nothing is written of a statement that is not converted. -/
theorem outcome_print_untranslatable (goesOn : settings.options.stopAtError = false) {node : Node}
    (isUntranslatable : node.isUntranslatable = true) :
    ∃ log, (node.printAs .plain).outcome settings state =
      .ok ((), { state with diagnostics := log }) := by
  obtain ⟨location, shape⟩ := node
  cases shape with
  | expressionStatement expression =>
      rw [Node.printAs_eq]
      exact outcome_print_unconverted goesOn isUntranslatable
  | _ => exact outcome_print_unconverted goesOn isUntranslatable

theorem isEmptyStatement_of_isUntranslatable {node : Node}
    (isUntranslatable : node.isUntranslatable = true) : node.isEmptyStatement = false := by
  obtain ⟨location, shape⟩ := node
  cases shape with
  | leaf form => cases isUntranslatable
  | _ => rfl

/-! ## Lists of statements -/

/-- States in the midst of a list of statements that is written alike from both: where the next
statement starts a line of its own, it does not matter how the last one ended. -/
structure AlikeBehind (wroteAny : Bool) (state other : PrinterState) : Prop where
  elsewhere : ∃ text diagnostics, other = { state with text, diagnostics }
  reversed : other.text.reversed = state.text.reversed
  level : other.text.level = state.text.level
  sameText : wroteAny = false → other.text = state.text

namespace AlikeBehind

variable {wroteAny : Bool} {other : PrinterState}

theorem refl (wroteAny : Bool) (state : PrinterState) : AlikeBehind wroteAny state state :=
  ⟨⟨_, _, rfl⟩, rfl, rfl, fun _ => rfl⟩

theorem of_muted (muted : state.Muted other) (wroteAny : Bool) :
    AlikeBehind wroteAny state other := by
  obtain ⟨log, rfl, -⟩ := muted
  exact ⟨⟨_, _, rfl⟩, rfl, rfl, fun _ => rfl⟩

theorem size (alike : AlikeBehind wroteAny state other) : other.text.size = state.text.size := by
  rw [other.text.size_eq, state.text.size_eq, alike.reversed]

theorem lineStarted (alike : AlikeBehind wroteAny state other) :
    (lineStarted wroteAny state).Muted (lineStarted wroteAny other) := by
  obtain ⟨⟨text, log, rfl⟩, reversed, level, sameText⟩ := alike
  cases wroteAny with
  | false =>
      obtain rfl : text = state.text := sameText rfl
      exact ⟨log, rfl, trivial⟩
  | true =>
      have sameLine : text.newLine = state.text.newLine := by
        have sizes : text.size = state.text.size := by
          rw [text.size_eq, state.text.size_eq]
          exact congrArg byteSize reversed
        have reversed : text.reversed = state.text.reversed := reversed
        have level : text.level = state.text.level := level
        simp only [IndentedText.newLine, IndentedText.append, reversed, level, sizes]
      refine ⟨log, ?_, trivial⟩
      simp only [Printer.lineStarted, if_true, sameLine]

/-- A line that was given up again leaves no trace. -/
theorem truncate (alike : AlikeBehind wroteAny state other) (log : List Diagnostic) :
    AlikeBehind wroteAny { Printer.lineStarted wroteAny state with
      text := (Printer.lineStarted wroteAny state).text.truncate state.text.size,
      diagnostics := log } other := by
  obtain ⟨⟨text, otherLog, rfl⟩, reversed, level, sameText⟩ := alike
  cases wroteAny with
  | false =>
      have same : state.text.truncate state.text.size = state.text :=
        IndentedText.truncate_of_le (Nat.le_refl _)
      refine ⟨⟨text, otherLog, rfl⟩, ?_, ?_, fun _ => ?_⟩
      · exact reversed.trans (congrArg IndentedText.reversed same).symm
      · exact level.trans (congrArg IndentedText.level same).symm
      · exact (sameText rfl).trans same.symm
  | true =>
      have same : state.text.newLine.truncate state.text.size =
          { state.text with atLineStart := IndentedText.endsLine state.text.reversed } :=
        IndentedText.truncate_of_lineEnd rfl rfl
      refine ⟨⟨text, otherLog, rfl⟩, ?_, ?_, nofun⟩
      · exact reversed.trans (congrArg IndentedText.reversed same).symm
      · exact level.trans (congrArg IndentedText.level same).symm

end AlikeBehind

/-- If errors do not end the generation, every printer of a node comes to an end. -/
theorem exists_outcome (goesOn : settings.options.stopAtError = false) (node : Node) (role : Role)
    (state : PrinterState) :
    ∃ next, (node.printAs role).outcome settings state = .ok ((), next) := by
  obtain ⟨value, next, -, ends, -, -⟩ := Stoppable.isCongruence.printAs node role settings state
  have own : settings.stopping false = settings := by rw [← goesOn]; rfl
  exact ⟨next, own ▸ ends⟩

/-- A list of statements is written as if statements that are not converted were not there. -/
theorem statements_alike (goesOn : settings.options.stopAtError = false) (body : List Node)
    {wroteAny : Bool} {other : PrinterState} (alike : AlikeBehind wroteAny state other) :
    ∃ wrote next otherNext,
      (statements wroteAny (body.map Node.toPart)).outcome settings state = .ok (wrote, next) ∧
      (statements wroteAny ((body.filter (!·.isUntranslatable)).map Node.toPart)).outcome settings
        other = .ok (wrote, otherNext) ∧
      AlikeBehind wrote next otherNext := by
  induction body generalizing wroteAny state other with
  | nil => exact ⟨wroteAny, state, other, rfl, rfl, alike⟩
  | cons node body ih =>
      rw [List.map_cons]
      cases isEmpty : node.isEmptyStatement with
      | true =>
          have isKept : node.isUntranslatable = false := by
            cases isUntranslatable : node.isUntranslatable with
            | false => rfl
            | true =>
                rw [isEmptyStatement_of_isUntranslatable isUntranslatable] at isEmpty
                cases isEmpty
          rw [List.filter_cons_of_pos (by simp [isKept]), List.map_cons,
            @statements_of_isEmpty node.toPart _ _ isEmpty,
            @statements_of_isEmpty node.toPart _ _ isEmpty]
          exact ih alike
      | false =>
          cases isUntranslatable : node.isUntranslatable with
          | true =>
              rw [List.filter_cons_of_neg (by simp [isUntranslatable])]
              obtain ⟨log, ends⟩ := @outcome_print_untranslatable settings
                (lineStarted wroteAny state) goesOn node isUntranslatable
              rw [@outcome_statements_silent _ node.toPart _ _ wroteAny _ isEmpty ends rfl]
              exact ih (alike.truncate log)
          | false =>
              rw [List.filter_cons_of_pos (by simp [isUntranslatable]), List.map_cons]
              obtain ⟨printed, ends⟩ :=
                exists_outcome goesOn node .plain (lineStarted wroteAny state)
              obtain ⟨startLog, started, -⟩ := alike.lineStarted
              obtain ⟨log, otherEnds, -⟩ := RelatesLogs.ends
                ((mutedCongruence settings).printAs node .plain) ends startLog trivial
              rw [← started] at otherEnds
              have sameStart := congrArg (·.text.size) started
              by_cases silent : printed.text.size = (lineStarted wroteAny state).text.size
              · rw [@outcome_statements_silent _ node.toPart _ _ _ _ isEmpty ends silent,
                  @outcome_statements_silent _ node.toPart _ _ _ _ isEmpty otherEnds
                    (silent.trans sameStart.symm), alike.size]
                exact ih (.of_muted ⟨log, rfl, trivial⟩ _)
              · rw [@outcome_statements_cons _ node.toPart _ _ _ _ isEmpty ends silent,
                  @outcome_statements_cons _ node.toPart _ _ _ _ isEmpty otherEnds
                    (fun same => silent (same.trans sameStart))]
                cases node.toPart.node.endsWithSemicolon <;>
                  exact ih (.of_muted ⟨log, rfl, trivial⟩ _)

/-- Behind the end of the line there is no difference left. -/
theorem AlikeBehind.newLine {other : PrinterState} (alike : AlikeBehind true state other) :
    other.text.newLine = state.text.newLine := by
  obtain ⟨_, started, -⟩ := alike.lineStarted
  exact congrArg PrinterState.text started

theorem AlikeBehind.dedent {wroteAny : Bool} {other : PrinterState}
    (alike : AlikeBehind wroteAny state other) :
    AlikeBehind wroteAny { state with text := state.text.dedent }
      { other with text := other.text.dedent } := by
  obtain ⟨⟨text, log, rfl⟩, reversed, level, sameText⟩ := alike
  exact ⟨⟨_, log, rfl⟩, reversed, congrArg (· - 1) level,
    fun none => congrArg IndentedText.dedent (sameText none)⟩

/-- A block is written as if statements that are not converted were not in it. -/
theorem block_alike (goesOn : settings.options.stopAtError = false) (prologue : Option String)
    (body : List Node) (state : PrinterState) :
    ∃ next log, (block prologue (body.map Node.toPart)).outcome settings state = .ok ((), next) ∧
      (block prologue ((body.filter (!·.isUntranslatable)).map Node.toPart)).outcome settings
        state = .ok ((), { next with diagnostics := log }) := by
  rw [outcome_block, outcome_block]
  obtain ⟨wrote, next, otherNext, ends, otherEnds, alike⟩ := statements_alike goesOn body
    (.refl prologue.isSome { state with text :=
      (state.text.write "\x7b").indent.newLine.write (prologue.getD "") })
  rw [ends, otherEnds]
  refine ⟨_, otherNext.diagnostics, rfl, ?_⟩
  obtain ⟨text, log, otherEq⟩ := alike.elsewhere
  have lines := alike.dedent
  cases wrote with
  | true =>
      have sameLine := lines.newLine
      dsimp only at sameLine ⊢
      rw [if_pos rfl, if_pos rfl, sameLine, otherEq]
  | false =>
      have sameText := lines.sameText rfl
      dsimp only at sameText ⊢
      rw [if_neg Bool.false_ne_true, if_neg Bool.false_ne_true, sameText, otherEq]

/-- Empty statements leave everything as it is. -/
theorem statements_empty {body : List Node} (allEmpty : ∀ node ∈ body, node.isEmptyStatement = true)
    (wroteAny : Bool) : statements wroteAny (body.map Node.toPart) = pure wroteAny := by
  induction body with
  | nil => rfl
  | cons node body ih =>
      rw [List.map_cons, @statements_of_isEmpty node.toPart _ _ (allEmpty node (by simp))]
      exact ih fun other isOther => allEmpty other (by simp [isOther])

theorem outcome_block_empty {body : List Node}
    (allEmpty : ∀ node ∈ body, node.isEmptyStatement = true) (state : PrinterState) :
    (block none (body.map Node.toPart)).outcome settings state =
      .ok ((), { state with text := state.text.write "\x7b\x7d" }) := by
  rw [outcome_block, statements_empty allEmpty]
  have cut : ((state.text.write "\x7b").indent.newLine.write "").dedent.truncate
      (state.text.write "\x7b").size = state.text.write "\x7b" := by
    rw [IndentedText.write_empty]
    exact IndentedText.truncate_of_lineEnd rfl rfl
  simp only [Option.isSome_none, Option.getD_none, outcome_pure, Bool.false_eq_true, if_false, cut]
  rfl

/-- Where the generation goes on behind errors, a list of statements, from whatever state, writes
the same characters and says the same of the line as without the statements that are not
converted; so does every construct that is such a list.  A block of nothing but such statements
and empty ones is two braces. -/
theorem statements_untranslatable (settings : Settings)
    (goesOn : settings.options.stopAtError = false) :
    (∀ (wroteAny : Bool) (body : List Node) (state : PrinterState),
      ∃ wrote next otherNext,
        (statements wroteAny (body.map Node.toPart)).outcome settings state = .ok (wrote, next) ∧
        (statements wroteAny ((body.filter (!·.isUntranslatable)).map Node.toPart)).outcome
          settings state = .ok (wrote, otherNext) ∧
        otherNext.text.characters = next.text.characters ∧
        otherNext.text.level = next.text.level ∧ otherNext.scopes = next.scopes ∧
        otherNext.types = next.types) ∧
    (∀ (form : BodyForm) (body : List Node) (location : Location) (role : Role)
        (state : PrinterState), ∃ next otherNext,
      (Node.printAs ⟨location, .group form body⟩ role).outcome settings state = .ok ((), next) ∧
      (Node.printAs ⟨location, .group form (body.filter (!·.isUntranslatable))⟩ role).outcome
        settings state = .ok ((), otherNext) ∧
      otherNext.text.characters = next.text.characters) ∧
    ∀ (body : List Node) (location : Location) (role : Role) (state : PrinterState),
      (∀ node ∈ body, node.isUntranslatable = true ∨ node.isEmptyStatement = true) →
      (∀ prologue, role ≠ .block (some prologue)) →
      ∃ log, (Node.printAs ⟨location, .group .block body⟩ role).outcome settings state =
        .ok ((), { state with text := state.text.write "\x7b\x7d", diagnostics := log }) := by
  refine ⟨fun wroteAny body state => ?_, fun form body location role state => ?_,
    fun body location role state nothing noPrologue => ?_⟩
  · obtain ⟨wrote, next, otherNext, ends, otherEnds, alike⟩ :=
      statements_alike goesOn body (.refl wroteAny state)
    obtain ⟨text, log, otherEq⟩ := alike.elsewhere
    exact ⟨wrote, next, otherNext, ends, otherEnds, congrArg List.reverse alike.reversed,
      alike.level, by rw [otherEq], by rw [otherEq]⟩
  · have asBlock (prologue : Option String) : ∃ next otherNext,
        (block prologue (body.map Node.toPart)).outcome settings state = .ok ((), next) ∧
        (block prologue ((body.filter (!·.isUntranslatable)).map Node.toPart)).outcome settings
          state = .ok ((), otherNext) ∧
        otherNext.text.characters = next.text.characters := by
      obtain ⟨next, log, ends, otherEnds⟩ := block_alike goesOn prologue body state
      exact ⟨next, _, ends, otherEnds, rfl⟩
    have asTopLevel : ∃ next otherNext,
        (topLevel (body.map Node.toPart)).outcome settings state = .ok ((), next) ∧
        (topLevel ((body.filter (!·.isUntranslatable)).map Node.toPart)).outcome settings
          state = .ok ((), otherNext) ∧
        otherNext.text.characters = next.text.characters := by
      obtain ⟨wrote, next, otherNext, ends, otherEnds, alike⟩ :=
        statements_alike goesOn body (.refl false state)
      refine ⟨next, otherNext, ?_, ?_, congrArg List.reverse alike.reversed⟩
      · rw [outcome_topLevel, ends]
      · rw [outcome_topLevel, otherEnds]
    rw [Node.printAs_eq, Node.printAs_eq]
    cases form with
    | program => exact asTopLevel
    | moduleBlock => exact asTopLevel
    | block =>
        cases role with
        | block prologue => exact asBlock prologue
        | _ => exact asBlock none
    | classBody => exact asBlock none
    | interfaceBody => exact asBlock none
  · have isPlain : Node.printAs ⟨location, .group .block body⟩ role =
        block none (body.map Node.toPart) := by
      rw [Node.printAs_eq]
      rcases role with _ | _ | _ | _ | _ | _ | _ | _ | ⟨_ | prologue⟩ | _
      case block.some => exact absurd rfl (noPrologue prologue)
      all_goals rfl
    obtain ⟨next, log, ends, otherEnds⟩ := block_alike goesOn none body state
    have allEmpty : ∀ node ∈ body.filter (!·.isUntranslatable), node.isEmptyStatement = true := by
      intro node isKept
      obtain ⟨isMember, kept⟩ := List.mem_filter.mp isKept
      exact (nothing node isMember).resolve_left (by simpa using kept)
    rw [outcome_block_empty allEmpty] at otherEnds
    have nextEq := (Prod.mk.inj (Except.ok.inj otherEnds)).2
    refine ⟨next.diagnostics, ?_⟩
    have whole : next = { ({ next with diagnostics := log } : PrinterState) with
      diagnostics := next.diagnostics } := rfl
    rw [isPlain, ends, whole, ← nextEq]

/-- A block with nothing but a statement of an unknown category and an empty one. -/
theorem statements_untranslatable_mystery :
    ({ options := { stopAtError := false } } : Settings).options.stopAtError = false ∧
      ∃ log, (Node.printAs ⟨{}, .group .block [⟨{}, .unknown "Mystery" []⟩, ⟨{}, .leaf .empty⟩]⟩
        .plain).outcome { options := { stopAtError := false } } {} =
          .ok ((), { text := ({} : IndentedText).write "\x7b\x7d", diagnostics := log }) :=
  ⟨rfl, (statements_untranslatable { options := { stopAtError := false } } rfl).2.2 _ {} .plain {}
    (by simp [Node.isUntranslatable, Node.isUnconverted, Node.isEmptyStatement]) nofun⟩

end Printer

end ScriptBridge

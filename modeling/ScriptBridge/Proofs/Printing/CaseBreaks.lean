import ScriptBridge.Proofs.Printing.Resemblance
import ScriptBridge.Proofs.Printing.StatementLists

/-!
# Breaks in cases

Every case of a selection ends with one break of its own, so the breaks among its statements
make no difference.
-/

namespace ScriptBridge

/-- Whether a node is a name without a type. -/
def Node.isPlainIdentifier (node : Node) : Bool :=
  match node.shape with
  | .identifier _ none _ => true
  | _ => false

/-- Whether a node is a break that has no label or a plain name as its label. -/
def Node.isPlainBreak (node : Node) : Bool :=
  match node.shape with
  | .jump .breaking label => label.all isPlainIdentifier
  | _ => false

namespace Shape

variable {Part Other : Type}

/-- A shape without the breaks that stand directly among the statements of a case. -/
def withoutCaseBreaks (nodeOf : Part → Node) : Shape Part → Shape Part
  | .switchCase test consequent =>
      .switchCase test (consequent.filter fun statement => !(nodeOf statement).isPlainBreak)
  | other => other

theorem withoutCaseBreaks_map (nodeOf : Other → Node) (change : Part → Other)
    (shape : Shape Part) :
    (shape.map change).withoutCaseBreaks nodeOf =
      (shape.withoutCaseBreaks (nodeOf ∘ change)).map change := by
  cases shape with
  | switchCase test consequent => simp [map, withoutCaseBreaks, List.filter_map, Function.comp_def]
  | _ => rfl

end Shape

namespace Printer

/-- Breaks may be dropped from a case. -/
theorem switchCase_filter {keeps : Node → Bool} (test : Option Part) (consequent : List Node)
    (breaks : ∀ statement, keeps statement = false → statement.isBreak = true) :
    switchCase test (consequent.map Node.toPart) =
      switchCase test ((consequent.filter keeps).map Node.toPart) := by
  have remaining : ((consequent.filter keeps).map Node.toPart).filter
      (fun part => !part.node.isBreak) =
        (consequent.map Node.toPart).filter fun part => !part.node.isBreak := by
    rw [List.filter_map, List.filter_map, List.filter_filter]
    congr 1
    refine List.filter_congr fun statement _ => ?_
    cases kept : keeps statement with
    | true => exact Bool.and_true _
    | false => simp [Node.toPart, breaks statement kept]
  unfold switchCase
  rw [remaining]

end Printer

namespace Node

/-- A tree without the breaks that stand directly among the statements of its cases. -/
def withoutCaseBreaks : Node → Node :=
  fold fun location shape => ⟨location, (shape.withoutCaseBreaks (·.node)).map (·.result)⟩

theorem withoutCaseBreaks_eq (location : Location) (shape : Shape Node) :
    withoutCaseBreaks ⟨location, shape⟩ =
      ⟨location, (shape.withoutCaseBreaks id).map withoutCaseBreaks⟩ := by
  unfold withoutCaseBreaks
  rw [fold_eq, Shape.withoutCaseBreaks_map, Shape.map_map]
  rfl

/-- Cases at the same place look the same. -/
theorem resembles_switchCase (location : Location) (test otherTest : Option Node)
    (consequent otherConsequent : List Node) :
    Resembles ⟨location, .switchCase test consequent⟩
      ⟨location, .switchCase otherTest otherConsequent⟩ where
  answers {question} look print other := by
    cases question with
    | printed | operand | superCall => cases look
    | arrowBody => exact ⟨rfl, rfl⟩
    | statement => exact ⟨rfl, rfl, rfl, rfl, rfl, rfl⟩
    | methodFunction form => exact ⟨by cases form <;> rfl, rfl, rfl⟩
    | specifier => exact ⟨fun _ => rfl, fun _ _ => rfl, rfl, rfl⟩
    | _ => rfl
  ranked _ _ := rfl
  exported _ := rfl

theorem isBreak_of_isPlainBreak {node : Node} (isPlain : node.isPlainBreak) : node.isBreak := by
  obtain ⟨location, shape⟩ := node
  cases shape with
  | jump form label =>
      cases form with
      | breaking => rfl
      | continuing => cases isPlain
  | _ => cases isPlain

/-- A break with a plain label calls no superclass. -/
theorem noSuperCall_of_isPlainBreak {node : Node} (isPlain : node.isPlainBreak) :
    node.isSuperCall = false ∧ node.hasDescendant isSuperCall = false := by
  obtain ⟨location, shape⟩ := node
  cases shape with
  | jump form label =>
      cases form with
      | continuing => cases isPlain
      | breaking =>
          refine ⟨rfl, ?_⟩
          rw [hasDescendant_eq]
          cases label with
          | none => rfl
          | some label =>
              obtain ⟨place, labelShape⟩ := label
              cases labelShape with
              | identifier name type optional =>
                  cases type with
                  | none => simp [Shape.children, Shape.parts, isSuperCall, hasDescendant_eq]
                  | some type => cases isPlain
              | _ => cases isPlain
  | _ => cases isPlain

/-- A case is interchangeable with the same case without its breaks. -/
theorem interchangeable_withoutCaseBreaks_shape (location : Location) (shape : Shape Node) :
    Interchangeable ⟨location, shape⟩ ⟨location, shape.withoutCaseBreaks id⟩ := by
  cases shape with
  | switchCase test consequent =>
      refine ⟨resembles_switchCase location test test consequent _, rfl, rfl, ?_, fun role => ?_⟩
      · simp only [Shape.withoutCaseBreaks, hasDescendant_eq, Shape.children, Shape.parts,
          List.any_append, List.any_filter, id_eq]
        congr 2
        funext statement
        cases isPlain : statement.isPlainBreak with
        | false => simp
        | true => simp [noSuperCall_of_isPlainBreak isPlain]
      · rw [printAs_eq, printAs_eq]
        refine Printer.switchCase_filter (test.map toPart) consequent fun statement dropped => ?_
        rw [id_eq, Bool.not_eq_false'] at dropped
        exact isBreak_of_isPlainBreak dropped
  | _ => exact .refl _

theorem interchangeable_withoutCaseBreaks (node : Node) :
    node.Interchangeable node.withoutCaseBreaks := by
  refine Node.induction (motive := fun node => node.Interchangeable node.withoutCaseBreaks) ?_ node
  intro location shape
  -- First the breaks go that stand in this case, then those below.
  have here := interchangeable_withoutCaseBreaks_shape location (shape.map Subtype.val)
  rw [Shape.withoutCaseBreaks_map] at here
  refine here.trans ?_
  rw [withoutCaseBreaks_eq, Shape.withoutCaseBreaks_map, Shape.map_map]
  exact interchangeable_of_parts location _ Subtype.property

end Node

namespace Printer

variable {settings : Settings}

/-- The heading of a case. -/
def caseHeading : Option Part → Printer Unit
  | some test => do
      write "case "
      test.print
      write ":"
  | none => write "default:"

/-- Some of the statements adds to the text.  The statements in front of it have come to an end,
its line was started, and there are more characters behind it than in front of it. -/
def SomeAdds (settings : Settings) (body : List Node) (state : PrinterState) : Prop :=
  ∃ (before : List Node) (statement : Node) (behind : List Node) (wroteAny : Bool)
      (reached printed : PrinterState),
    body = before ++ statement :: behind ∧ statement.isEmptyStatement = false ∧
    (statements false (before.map Node.toPart)).outcome settings state = .ok (wroteAny, reached) ∧
    (statement.printAs .plain).outcome settings (lineStarted wroteAny reached) =
      .ok ((), printed) ∧
    printed.text.characters ≠ (lineStarted wroteAny reached).text.characters

/-- A statement without a trace may stand in front. -/
theorem SomeAdds.cons {node : Node} {body : List Node} {state later : PrinterState}
    (traceless : ∀ rest, (statements false (node.toPart :: rest)).outcome settings state =
      (statements false rest).outcome settings later)
    (adds : SomeAdds settings body later) : SomeAdds settings (node :: body) state := by
  obtain ⟨before, statement, behind, wroteAny, reached, printed, isBody, notEmpty, ends, rest⟩ :=
    adds
  refine ⟨node :: before, statement, behind, wroteAny, reached, printed, by rw [isBody]; rfl,
    notEmpty, ?_, rest⟩
  rw [List.map_cons, traceless, ends]

theorem someAdds_of_statements {body : List Node} {state next : PrinterState}
    (ends : (statements false (body.map Node.toPart)).outcome settings state = .ok (true, next)) :
    SomeAdds settings body state := by
  induction body generalizing state with
  | nil => cases ends
  | cons node rest ih =>
      rw [List.map_cons] at ends
      cases isEmpty : node.toPart.node.isEmptyStatement with
      | true =>
          have traceless (behind : List Part) :
              (statements false (node.toPart :: behind)).outcome settings state =
                (statements false behind).outcome settings state := by
            rw [statements_of_isEmpty _ _ isEmpty]
          exact .cons traceless (ih ((traceless _).symm.trans ends))
      | false =>
          cases prints : node.toPart.print.outcome settings (lineStarted false state) with
          | error diagnostic =>
              rw [outcome_statements_error _ _ isEmpty prints] at ends
              cases ends
          | ok result =>
              obtain ⟨⟨⟩, printed⟩ := result
              by_cases silent : printed.text.size = (lineStarted false state).text.size
              · have traceless (behind : List Part) :=
                  outcome_statements_silent false behind isEmpty prints silent
                exact .cons traceless (ih ((traceless _).symm.trans ends))
              · refine ⟨[], node, rest, false, state, printed, rfl, isEmpty, rfl, prints, ?_⟩
                intro same
                exact silent ((IndentedText.size_eq_iff_of_grows (Node.printAs_grows prints).1).mpr
                  (List.reverse_injective same))

/-- A list of statements was written if and only if some of them adds to the text. -/
theorem wroteAny_iff_someAdds {body : List Node} {state next : PrinterState} {wroteAny : Bool}
    (ends : (statements false (body.map Node.toPart)).outcome settings state =
      .ok (wroteAny, next)) :
    wroteAny = true ↔ SomeAdds settings body state := by
  constructor
  · rintro rfl
    exact someAdds_of_statements ends
  · rintro ⟨before, statement, behind, wrote, reached, printed, rfl, notEmpty, reaches, prints,
      adds⟩
    have grown : printed.text.size ≠ (lineStarted wrote reached).text.size := by
      intro same
      have reversed :=
        (IndentedText.size_eq_iff_of_grows (Node.printAs_grows prints).1).mp same
      exact adds (congrArg List.reverse reversed)
    have isStatement : statement.toPart.node.isEmptyStatement = false := notEmpty
    have prints : statement.toPart.print.outcome settings (lineStarted wrote reached) =
      .ok ((), printed) := prints
    rw [List.map_append, List.map_cons, statements_append, outcome_bind, reaches] at ends
    dsimp only at ends
    rw [outcome_statements_cons _ _ isStatement prints grown] at ends
    cases semicolon : statement.toPart.node.endsWithSemicolon <;>
    · rw [semicolon] at ends
      exact wroteAny_of_statements ends

/-- A case behind its heading, without its breaks. -/
def caseBody (remaining : List Part) : Printer Unit := do
  indent
  newLine
  let start ← length
  write "\x7b"
  indent
  newLine
  let wroteAny ← statements false remaining
  dedent
  if wroteAny then
    newLine
    write "\x7d"
    newLine
  else truncate start
  write "break;"
  dedent

theorem switchCase_eq (test : Option Part) (consequent : List Part) :
    switchCase test consequent = (do
      caseHeading test
      caseBody (consequent.filter fun part => !part.node.isBreak)) := by
  cases test with
  | none => rfl
  | some test =>
      unfold switchCase caseHeading
      simp only [bind_assoc]
      rfl

/-- A state with a line started in it, indented by one more level. -/
def lineIndented (state : PrinterState) : PrinterState :=
  { state with text := state.text.indent.newLine }

/-- A state with a brace opened in it. -/
def braceOpened (state : PrinterState) : PrinterState :=
  lineIndented { state with text := state.text.write "\x7b" }

theorem outcome_caseBody (remaining : List Part) (state : PrinterState) :
    (caseBody remaining).outcome settings state =
      match (statements false remaining).outcome settings (braceOpened (lineIndented state)) with
      | .error diagnostic => .error diagnostic
      | .ok (wroteAny, next) => .ok ((), { next with
          text := ((if wroteAny then (next.text.dedent.newLine.write "\x7d").newLine
            else next.text.dedent.truncate (lineIndented state).text.size).write
              "break;").dedent }) := by
  simp only [caseBody, indent, newLine, dedent, truncate, outcome_bind, outcome_write,
    outcome_length, outcome_modifyText, braceOpened, lineIndented]
  cases (statements false remaining).outcome settings { state with
      text := (state.text.indent.newLine.write "\x7b").indent.newLine } with
  | error diagnostic => rfl
  | ok result =>
      obtain ⟨wroteAny, next⟩ := result
      cases wroteAny <;> rfl

/-- Cutting back to in front of the brace restores the text from there. -/
theorem truncate_braceOpened {body : List Node} {state next : PrinterState} {wroteAny : Bool}
    (ends : (statements false (body.map Node.toPart)).outcome settings
      (braceOpened (lineIndented state)) = .ok (wroteAny, next)) :
    next.text.dedent.truncate (lineIndented state).text.size = (lineIndented state).text := by
  let start := state.text.indent.newLine
  have entered : start.characters <+: (start.write "\x7b").characters :=
    IndentedText.prefix_write start "\x7b"
  have lineBehind := IndentedText.prefix_newLine (start.write "\x7b").indent
  obtain ⟨grows, level⟩ := statements_grows ends
  have longer : start.size < next.text.size :=
    calc start.size
      _ ≤ (start.write "\x7b").size := IndentedText.size_le_of_grows entered
      _ < (start.write "\x7b").indent.newLine.size := Nat.lt_add_of_pos_left Nat.one_pos
      _ ≤ next.text.size := IndentedText.size_le_of_grows grows
  refine IndentedText.truncate_of_grows (entered.trans (lineBehind.trans grows)) ?_ longer.ne'
  change next.text.level - 1 = start.level
  rw [level]
  exact IndentedText.level_write start "\x7b"

/-- A case with statements that add to the text. -/
theorem outcome_caseBody_of_adds {remaining : List Node} {state : PrinterState}
    (adds : SomeAdds settings remaining (braceOpened (lineIndented state))) :
    (caseBody (remaining.map Node.toPart)).outcome settings state =
      (do block none (remaining.map Node.toPart)
          newLine
          write "break;"
          dedent : Printer Unit).outcome settings (lineIndented state) := by
  have entered : { lineIndented state with
      text := ((lineIndented state).text.write "\x7b").indent.newLine } =
        braceOpened (lineIndented state) := rfl
  rw [outcome_caseBody, outcome_bind, outcome_block, Option.isSome_none, Option.getD_none,
    IndentedText.write_empty, entered]
  cases ends : (statements false (remaining.map Node.toPart)).outcome settings
      (braceOpened (lineIndented state)) with
  | error diagnostic => rfl
  | ok result =>
      obtain ⟨wroteAny, next⟩ := result
      rw [(wroteAny_iff_someAdds ends).mpr adds]
      rfl

/-- A case with statements that leave no trace in the text. -/
theorem outcome_caseBody_of_silent {remaining : List Node} {state : PrinterState}
    (silent : ¬ SomeAdds settings remaining (braceOpened (lineIndented state))) :
    (caseBody (remaining.map Node.toPart)).outcome settings state =
      match (statements false (remaining.map Node.toPart)).outcome settings
          (braceOpened (lineIndented state)) with
      | .error diagnostic => .error diagnostic
      | .ok (_, next) =>
          .ok ((), { next with text := ((lineIndented state).text.write "break;").dedent }) := by
  rw [outcome_caseBody]
  cases ends : (statements false (remaining.map Node.toPart)).outcome settings
      (braceOpened (lineIndented state)) with
  | error diagnostic => rfl
  | ok result =>
      obtain ⟨wroteAny, next⟩ := result
      have none : wroteAny = false :=
        Bool.eq_false_iff.mpr fun wrote => silent ((wroteAny_iff_someAdds ends).mp wrote)
      simp only [none, Bool.false_eq_true, if_false, truncate_braceOpened ends]

end Printer

open Printer in
/-- Breaks without a label or with a plain one make no difference wherever they stand among the
statements of a case.  Every case is printed as its heading, then, if and only if some statement
other than a break adds to the text, a block of these statements, and then one break. -/
theorem Settings.generate_caseBreaks (settings : Settings) :
    (∀ first second : Node, first.withoutCaseBreaks = second.withoutCaseBreaks →
      settings.generate first = settings.generate second) ∧
    ∀ (location : Location) (test : Option Node) (consequent : List Node) (role : Role)
      (state : PrinterState),
      let branch : Node := ⟨location, .switchCase test consequent⟩
      let remaining := consequent.filter fun statement => !statement.isBreak
      (∀ diagnostic,
        (caseHeading (test.map Node.toPart)).outcome settings state = .error diagnostic →
          (branch.printAs role).outcome settings state = .error diagnostic) ∧
      ∀ headed, (caseHeading (test.map Node.toPart)).outcome settings state = .ok ((), headed) →
        let opened := lineIndented headed
        (SomeAdds settings remaining (braceOpened opened) →
          (branch.printAs role).outcome settings state =
            (do block none (remaining.map Node.toPart)
                newLine
                write "break;"
                dedent : Printer Unit).outcome settings opened) ∧
        (¬ SomeAdds settings remaining (braceOpened opened) →
          (branch.printAs role).outcome settings state =
            match (statements false (remaining.map Node.toPart)).outcome settings
                (braceOpened opened) with
            | .error diagnostic => .error diagnostic
            | .ok (_, next) =>
                .ok ((), { next with text := (opened.text.write "break;").dedent })) := by
  refine ⟨fun first second same => ?_, fun location test consequent role state => ?_⟩
  · exact settings.generate_eq_of_printAs
      (((Node.interchangeable_withoutCaseBreaks first).printed .plain).trans
        (same ▸ ((Node.interchangeable_withoutCaseBreaks second).printed .plain).symm))
  · intro branch remaining
    have printed : branch.printAs role = (do
        caseHeading (test.map Node.toPart)
        caseBody (remaining.map Node.toPart)) := by
      rw [Node.printAs_eq]
      refine (switchCase_eq (test.map Node.toPart) (consequent.map Node.toPart)).trans ?_
      rw [List.filter_map]
      rfl
    rw [printed, outcome_bind]
    refine ⟨fun diagnostic stops => by rw [stops], fun headed ends => ?_⟩
    rw [ends]
    exact ⟨outcome_caseBody_of_adds, outcome_caseBody_of_silent⟩

/-- A case of a selection calls a function with a selection of its own.  The breaks of the source
may be there or not. -/
def gateCase (breaks : Bool) : Option Node × List Node :=
  let name (text : String) : Node := ⟨{}, .identifier text none false⟩
  let stop (label : Option Node) : List Node :=
    if breaks then [⟨{}, .jump .breaking label⟩] else []
  let inner : Node := ⟨{}, .switch (name "side") [⟨{}, .switchCase none (stop none)⟩]⟩
  let shut : Node :=
    ⟨{}, .function .expression {} none [] (some ⟨{}, .group .block [inner]⟩) none⟩
  let called : Node := ⟨{}, .expressionStatement ⟨{}, .call .call shut [] false none none⟩⟩
  (some (name "open"), stop none ++ [called] ++ stop (some (name "outer")))

/-- The selection with this case. -/
def gate (breaks : Bool) : Node :=
  ⟨{}, .switch ⟨{}, .identifier "lock" none false⟩
    [⟨{}, .switchCase (gateCase breaks).1 (gateCase breaks).2⟩]⟩

/-- The code of the selection. -/
def gateText : String :=
  "switch (lock) \x7b\n    case open:\n        \x7b\n            function() \x7b\n" ++
    "                switch (side) \x7b\n                    default:\n" ++
    "                        break;\n                \x7d\n            \x7d();\n" ++
    "        \x7d\n        break;\n\x7d"

open Printer in
theorem Settings.generate_caseBreaks_gate :
    let settings : Settings := {}
    let remaining := (gateCase true).2.filter fun statement => !statement.isBreak
    let headed : PrinterState := { text := ({} : IndentedText).write "default:" }
    (gate true ≠ gate false ∧ (gate true).withoutCaseBreaks = (gate false).withoutCaseBreaks ∧
      settings.generate (gate true) = settings.generate (gate false) ∧
      settings.generate (gate true) = .ok ⟨gateText, []⟩) ∧
    (caseHeading none).outcome settings {} = .ok ((), headed) ∧
    (SomeAdds settings remaining (braceOpened (lineIndented headed)) ∧
      (Node.printAs ⟨{}, .switchCase none (gateCase true).2⟩ .plain).outcome settings {} =
        (do block none (remaining.map Node.toPart)
            newLine
            write "break;"
            dedent : Printer Unit).outcome settings (lineIndented headed)) ∧
    ¬ SomeAdds settings [] (braceOpened (lineIndented headed)) ∧
    (Node.printAs ⟨{}, .switchCase none [⟨{}, .jump .breaking none⟩]⟩ .plain).outcome
        settings {} =
      .ok ((), { headed with
        text := ((headed.text.indent.newLine).write "break;").dedent }) := by
  intro settings remaining headed
  have heads : (caseHeading none).outcome settings {} = .ok ((), headed) := rfl
  have writes : ((statements false (remaining.map Node.toPart)).outcome settings
      (braceOpened (lineIndented headed))).toOption.map Prod.fst = some true := by
    decide +kernel
  have adds : SomeAdds settings remaining (braceOpened (lineIndented headed)) := by
    cases ends : (statements false (remaining.map Node.toPart)).outcome settings
        (braceOpened (lineIndented headed)) with
    | error diagnostic =>
        rw [ends] at writes
        cases writes
    | ok result =>
        rw [ends] at writes
        exact (wroteAny_iff_someAdds ends).mp (Option.some.inj writes)
  have nothing : (statements false (([] : List Node).map Node.toPart)).outcome settings
      (braceOpened (lineIndented headed)) = .ok (false, _) := rfl
  have silent : ¬ SomeAdds settings [] (braceOpened (lineIndented headed)) :=
    fun adds => Bool.false_ne_true ((wroteAny_iff_someAdds nothing).mpr adds)
  have same : (gate true).withoutCaseBreaks = (gate false).withoutCaseBreaks := rfl
  have differ : (gate true).stored.length ≠ (gate false).stored.length := by decide +kernel
  refine ⟨⟨fun equal => differ (by rw [equal]), same, ?_, by decide +kernel⟩, heads,
    ⟨adds, ?_⟩, silent, ?_⟩
  · exact (Settings.generate_caseBreaks settings).1 _ _ same
  · exact (((Settings.generate_caseBreaks settings).2 {} none (gateCase true).2 .plain {}).2
      headed heads).1 adds
  · exact (((Settings.generate_caseBreaks settings).2 {} none [⟨{}, .jump .breaking none⟩]
      .plain {}).2 headed heads).2 silent

end ScriptBridge

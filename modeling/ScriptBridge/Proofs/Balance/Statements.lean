import ScriptBridge.Proofs.Balance.Expressions

/-!
# Balanced statements and declarations

Statements and declarations are balanced if their parts are.  The levels that a
block or a case indents are taken back by itself, also where the block comes out
empty and is cut back to its opening brace.
-/

namespace ScriptBridge

variable {settings : Settings} {followed : Prop} {origin : PrinterState} {depth : Depth}

namespace Printer.Leads

/-! ## Lists of statements -/

/-- Statements that come out empty are cut off again. -/
theorem statements {body : List Part} (wroteAny : Bool)
    (balanced : ∀ part ∈ body, part.Balanced settings followed) :
    Leads settings followed origin depth depth (statements wroteAny body) := by
  induction body generalizing wroteAny origin with
  | nil => exact pure wroteAny
  | cons statement rest ih =>
      obtain ⟨first, others⟩ := List.forall_mem_cons.mp balanced
      unfold Printer.statements
      split
      · exact ih wroteAny others
      · apply marked
        intro mark standsMark
        -- A statement that is not the first starts a line; the rest is the same.
        split
        case' isTrue => apply newLine.andThen
        all_goals
          apply length.bind
          intro start
          apply first.plain.andThen
          apply length.bind
          intro stop
          split
          · exact (truncate standsMark rfl rfl).andThen (ih wroteAny others)
          · exact (wordIf fun _ _ => rfl).andThen (ih true others)

theorem topLevel {body : List Part}
    (balanced : ∀ part ∈ body, part.Balanced settings followed) :
    Leads settings followed origin depth depth (topLevel body) :=
  (statements false balanced).bind fun _ => pure ()

theorem block {prologue : Option String} {body : List Part}
    (closed : followed → (Role.block prologue).Closed)
    (balanced : ∀ part ∈ body, part.Balanced settings followed) :
    Leads settings followed origin depth depth (block prologue body) := by
  apply (opens .curly fun _ => rfl).andThen
  apply marked
  intro mark standsMark
  apply indent.andThen
  apply newLine.andThen
  have lead : Leads settings followed mark (depth.within .curly).deeper
      (depth.within .curly).deeper (Printer.write (prologue.getD "")) := by
    cases prologue with
    | none => exact word fun _ _ => rfl
    | some text => exact word closed
  apply lead.andThen
  apply (statements _ balanced).bind
  intro wroteAny
  apply dedent.andThen
  split
  · exact newLine.andThen (closes fun _ => rfl)
  · exact (truncate standsMark rfl rfl).andThen (closes fun _ => rfl)

theorem braced {prologue : Option String} {statement : Part}
    (closed : (Role.block prologue).Closed) (balanced : statement.Balanced settings followed) :
    Leads settings followed origin depth depth (braced prologue statement) := by
  unfold Printer.braced
  split
  · exact balanced.role _ closed
  · apply block fun _ => closed
    intro part member
    rw [List.mem_singleton.mp member]
    exact balanced

/-- A branch or a body, which always stands in braces. -/
theorem inBraces {statement : Part} (balanced : statement.Balanced settings followed) :
    Leads settings followed origin depth depth (Printer.braced none statement) :=
  braced trivial balanced

/-! ## Statements -/

theorem alternative {statement : Part} (balanced : statement.Balanced settings followed) :
    Leads settings followed origin depth depth (alternative statement) := by
  unfold Printer.alternative
  split
  · exact (word fun _ _ => rfl).andThen balanced.plain
  · exact pure ()
  · exact (word fun _ _ => rfl).andThen (inBraces balanced)

theorem ifStatement {test consequent : Part} {alternate : Option Part}
    (balancedTest : test.Balanced settings followed)
    (balancedFirst : consequent.Balanced settings followed)
    (balancedSecond : ∀ part ∈ alternate, part.Balanced settings followed) :
    Leads settings followed origin depth depth (ifStatement test consequent alternate) := by
  apply (opens .round fun _ => rfl).andThen
  apply balancedTest.plain.andThen
  apply (closes fun _ => rfl).andThen
  apply (inBraces balancedFirst).andThen
  apply whenPresent
  intro part isPart
  exact alternative (balancedSecond part isPart)

theorem switchCases {cases : List Part}
    (balanced : ∀ part ∈ cases, part.Balanced settings followed) :
    Leads settings followed origin depth depth (switchCases cases) := by
  induction cases with
  | nil => exact pure ()
  | cons branch rest ih =>
      obtain ⟨first, others⟩ := List.forall_mem_cons.mp balanced
      exact newLine.andThen (first.plain.andThen (ih others))

theorem switch {discriminant : Part} {cases : List Part}
    (balancedFirst : discriminant.Balanced settings followed)
    (balanced : ∀ part ∈ cases, part.Balanced settings followed) :
    Leads settings followed origin depth depth (switch discriminant cases) := by
  apply (opens .round fun _ => rfl).andThen
  apply balancedFirst.plain.andThen
  have turns : Leads settings followed origin (depth.within .round) (depth.within .curly)
      (Printer.write ") \x7b") := write rfl fun _ => rfl
  apply turns.andThen
  apply indent.andThen
  apply (switchCases balanced).andThen
  apply dedent.andThen
  split
  · exact newLine.andThen (closes fun _ => rfl)
  · exact closes fun _ => rfl

theorem switchCase {test : Option Part} {consequent : List Part}
    (balancedTest : ∀ part ∈ test, part.Balanced settings followed)
    (balanced : ∀ part ∈ consequent, part.Balanced settings followed) :
    Leads settings followed origin depth depth (switchCase test consequent) := by
  have remaining : ∀ part ∈ consequent.filter fun part => !part.node.isBreak,
      part.Balanced settings followed :=
    fun part member => balanced part (List.mem_of_mem_filter member)
  unfold Printer.switchCase
  cases test
  case' none => apply (word fun _ _ => rfl).andThen
  case' some test =>
    apply (word fun _ _ => rfl).andThen
    apply (balancedTest test rfl).plain.andThen
    apply (word fun _ _ => rfl).andThen
  -- Behind its heading every case is printed alike.
  all_goals
    apply indent.andThen
    apply newLine.andThen
    apply marked
    intro mark standsMark
    apply (opens .curly fun _ => rfl).andThen
    apply indent.andThen
    apply newLine.andThen
    apply (statements false remaining).bind
    intro wroteAny
    apply dedent.andThen
    have ending : Leads settings followed mark depth.deeper depth
        (do Printer.write "break;"; Printer.dedent) := (word fun _ _ => rfl).andThen dedent
    have cut : Leads settings followed mark (depth.deeper.within .curly) depth.deeper
        (Printer.truncate mark.text.size) := truncate standsMark rfl rfl
    split
    · exact newLine.andThen ((closes fun _ => rfl).andThen (newLine.andThen ending))
    · exact cut.andThen ending

theorem forLoop {init test update : Option Part} {body : Part}
    (balancedInit : ∀ part ∈ init, part.Balanced settings followed)
    (balancedTest : ∀ part ∈ test, part.Balanced settings followed)
    (balancedUpdate : ∀ part ∈ update, part.Balanced settings followed)
    (balancedBody : body.Balanced settings followed) :
    Leads settings followed origin depth depth (forLoop init test update body) := by
  apply (opens .round fun _ => rfl).andThen
  refine andThen (whenPresent fun part isPart => (balancedInit part isPart).plain) ?_
  apply (word fun _ _ => rfl).andThen
  refine andThen (afterSpace .plain trivial balancedTest) ?_
  apply (word fun _ _ => rfl).andThen
  refine andThen (afterSpace .plain trivial balancedUpdate) ?_
  exact (closes fun _ => rfl).andThen (inBraces balancedBody)

theorem forEach {form : EachForm} {left right body : Part}
    (balancedLeft : left.Balanced settings followed)
    (balancedRight : right.Balanced settings followed)
    (balancedBody : body.Balanced settings followed) :
    Leads settings followed origin depth depth (forEach form left right body) := by
  apply (opens .round fun _ => rfl).andThen
  apply balancedLeft.plain.andThen
  apply (word fun _ _ => rfl).andThen
  refine andThen (word fun _ _ => by cases form <;> rfl) ?_
  apply (word fun _ _ => rfl).andThen
  apply balancedRight.plain.andThen
  exact (closes fun _ => rfl).andThen (inBraces balancedBody)

theorem loop {form : LoopForm} {test body : Part}
    (balancedTest : test.Balanced settings followed)
    (balancedBody : body.Balanced settings followed) :
    Leads settings followed origin depth depth (loop form test body) := by
  cases form with
  | whileLoop =>
      apply (opens .round fun _ => rfl).andThen
      apply balancedTest.plain.andThen
      exact (closes fun _ => rfl).andThen (inBraces balancedBody)
  | doWhile =>
      apply (word fun _ _ => rfl).andThen
      apply (inBraces balancedBody).andThen
      apply (opens .round fun _ => rfl).andThen
      exact balancedTest.plain.andThen (closes fun _ => rfl)

theorem jump {form : JumpForm} {label : Option Part}
    (balanced : ∀ part ∈ label, part.Balanced settings followed) :
    Leads settings followed origin depth depth (jump form label) :=
  (word fun _ _ => by cases form <;> rfl).andThen (afterSpace .memberName trivial balanced)

theorem exit {form : ExitForm} {position : Position} {argument : Option Part}
    (balanced : ∀ part ∈ argument, part.Balanced settings followed) :
    Leads settings followed origin depth depth (exit form position argument) := by
  cases argument with
  | none =>
      cases form with
      | returning => exact word fun _ _ => rfl
      | throwing => exact missing position _
  | some value =>
      have isBalanced := balanced value rfl
      cases form with
      | returning => exact (word fun _ _ => rfl).andThen isBalanced.plain
      | throwing => exact (word fun _ _ => rfl).andThen isBalanced.plain

theorem tryStatement {body : Part} {handler finalizer : Option Part}
    (balancedBody : body.Balanced settings followed)
    (balancedHandler : ∀ part ∈ handler, part.Balanced settings followed)
    (balancedFinalizer : ∀ part ∈ finalizer, part.Balanced settings followed) :
    Leads settings followed origin depth depth (tryStatement body handler finalizer) := by
  apply (word fun _ _ => rfl).andThen
  apply (inBraces balancedBody).andThen
  refine andThen (afterSpace .plain trivial balancedHandler) ?_
  apply whenPresent
  intro part isPart
  exact (word fun _ _ => rfl).andThen (inBraces (balancedFinalizer part isPart))

theorem catchClause (without : followed → settings.WithoutBrackets) {param : Option Part}
    {body : Part} (balancedParam : ∀ part ∈ param, part.Balanced settings followed)
    (balancedBody : body.Balanced settings followed) :
    Leads settings followed origin depth depth (catchClause param body) := by
  apply (word fun _ _ => rfl).andThen
  refine andThen (whenPresent ?_) ((word fun _ _ => rfl).andThen (inBraces balancedBody))
  intro part isPart
  have balanced := balancedParam part isPart
  have closing : Leads settings followed origin (depth.within .round) depth
      (Printer.write ")") := closes fun _ => rfl
  apply (opens .round fun _ => rfl).andThen
  refine andThen ?_ closing
  unfold caughtName
  split
  · next source isName =>
      exact name without _ fun asked => (balanced.words asked).identifier? isName
  · exact balanced.role .declaredName trivial

theorem variableDeclaration {role : Role} {declarations : List Part} {kind : String}
    (balanced : ∀ part ∈ declarations, part.Balanced settings followed) :
    Leads settings followed origin depth depth
      (variableDeclaration role declarations kind) := by
  have isWord : ∀ awaited, Bracket.read awaited
      (if kind = "const" then "const " else "let ").toList = some awaited := by
    intro awaited
    split <;> rfl
  apply (wordIf fun _ _ => rfl).andThen
  apply (word fun _ => isWord).andThen
  exact separated fun part member => (balanced part member).plain

theorem declarator {variableName : Part} {init : Option Part}
    (balancedName : variableName.Balanced settings followed)
    (balanced : ∀ part ∈ init, part.Balanced settings followed) :
    Leads settings followed origin depth depth (declarator variableName init) := by
  apply (balancedName.role .declaredName trivial).andThen
  apply whenPresent
  intro part isPart
  exact (word fun _ _ => rfl).andThen (listItem (balanced part isPart))

end Printer.Leads

end ScriptBridge

import Mathlib.Data.List.Forall2
import ScriptBridge.Proofs.Printing.StatementLists
import ScriptBridge.Proofs.Statement.Lines

/-!
# Printed blocks

Statements that are printed as their normal forms make blocks that are printed
as the blocks of their normal forms.  An empty statement leaves no trace, and a
block without any other statements is cut off again behind its opening brace.
-/

namespace ScriptBridge

/-- Whether a statement is a block. -/
def Statement.isBlock : Statement → Bool
  | .block _ => true
  | _ => false

/-- Blocks of single statements. -/
theorem Statement.block_normalItems_single {statement : Statement}
    (noBlock : statement.isBlock = false) :
    Statement.block (normalItems [statement]) = statement.normal.enclosed := by
  rw [normalItems, normalItems]
  cases statement with
  | block items => contradiction
  | ifElse test consequent alternate =>
      rw [Statement.normal]
      split_ifs <;> first | rfl | contradiction
  | _ =>
      rw [Statement.normal]
      rfl

namespace IndentedText

/-- Lines between two line ends, indented by one more level. -/
theorem Extends.indented {text next : IndentedText} {added : List Char}
    (goesOn : text.indent.newLine.Extends added next) :
    text.Extends ('\n' :: added ++ ['\n']) next.dedent.newLine where
  level := by
    change next.level - 1 = text.level
    rw [goesOn.level]
    rfl
  coherent := .inr rfl
  reversed := by
    have lineEnd : text.indent.newLine.reversed = '\n' :: text.reversed := rfl
    change '\n' :: next.reversed = _
    rw [goesOn.reversed, lineEnd]
    simp

theorem Extends.size_ne {text next : IndentedText} {added : List Char}
    (goesOn : text.Extends added next) (nonempty : added ≠ []) : next.size ≠ text.size := by
  intro same
  rw [goesOn.size] at same
  have empty := eq_nil_of_byteSize (Nat.add_eq_right.mp same)
  exact nonempty (List.reverse_eq_nil_iff.mp empty)

/-- An indented line that was started can be given up. -/
theorem extends_truncate (text : IndentedText) :
    text.Extends [] (text.indent.newLine.dedent.truncate text.size) := by
  have started : text.Extends ['\n'] text.indent.newLine.dedent :=
    ⟨rfl, .inr rfl, rfl⟩
  exact started.splitOff.1

end IndentedText

namespace Printer

variable {settings : Settings}

/-- A part is printed as the normal form of a statement. -/
structure PrintsStatement (settings : Settings) (part : Part) (statement : Statement) : Prop where
  wellFormed : statement.WellFormed
  isEmpty : part.node.isEmptyStatement = statement.isEmpty
  isBlock : isBlock part = statement.isBlock
  printsBlock : statement.isBlock = true →
    Emits settings (part.printAs (.block none)) () (Spells · statement.normal.tokens)
  alternative : alternative part =
    if statement.isEmptyBlock then pure ()
    else if statement.isConditional then (do write " else "; part.print)
    else (do write " else "; braced none part)
  prints : statement.isEmpty = false → ∃ stem, stem ≠ [] ∧
    statement.normal.tokens =
      stem ++ (if part.node.endsWithSemicolon then [Token.sign ";"] else []) ∧
    Emits settings part.print () (SpellsBefore · stem)
  printsConditional : statement.isConditional = true →
    Emits settings part.print () (Spells · statement.normal.tokens)
  content : ∀ content, statement = .simple content →
    Yields settings part.print () content.normal.layout.characters

/-- A semicolon closes what stands before it. -/
theorem emits_semicolon (condition : Bool) :
    Emits settings (writeIf condition ";") ()
      (fun written => Spells written (if condition then [.sign ";"] else []) ∧
        ClosesBefore written) := by
  cases condition with
  | false =>
      intro state plain
      exact ⟨state, [], plain.keeps state.text, .refl plain.coherent,
        ⟨spells_nil, fun _ closes => closes⟩, rfl⟩
  | true =>
      have yields : Yields settings (writeIf true ";") () (Layout.characters [.sign ";"]) :=
        yields_write ";"
      refine yields.emits_behind (by decide) fun lead blank => ⟨?_, fun rest _ => ?_⟩
      · exact (spells_blank blank).append closed_semicolon.spells
      · rw [List.append_assoc]
        exact closes_behind_blank blank (closes_cons (by decide) _)

theorem extends_lineStarted (wroteAny : Bool) {state : PrinterState} (plain : IsPlain state) :
    ∃ lead, state.text.Extends lead (lineStarted wroteAny state).text ∧
      IsPlain (lineStarted wroteAny state) ∧ state.Keeps (lineStarted wroteAny state) ∧
      Spells lead [] ∧ (wroteAny = true → ∀ rest, Closes (lead ++ rest)) := by
  cases wroteAny with
  | false =>
      exact ⟨[], .refl plain.coherent, plain, plain.keeps state.text, spells_nil, nofun⟩
  | true =>
      exact ⟨['\n'], ⟨rfl, .inr rfl, rfl⟩, ⟨.inr rfl, plain.outside⟩, plain.keeps _,
        spells_blank (by simp [isBlank]), fun _ _ => closes_cons (by decide) _⟩

/-- Empty statements leave no trace. -/
theorem statements_of_empty {parts : List Part} {items : List Statement}
    (prints : List.Forall₂ (PrintsStatement settings) parts items)
    (empty : Statement.normalItems items = []) (wroteAny : Bool) :
    statements wroteAny parts = pure wroteAny := by
  induction prints with
  | nil => rfl
  | cons first others ih =>
      rw [Statement.normalItems] at empty
      split at empty
      · next isEmpty =>
          rw [statements, if_pos (first.isEmpty.trans isEmpty)]
          exact ih empty
      · contradiction

/-- Statements are printed one on a line. -/
theorem emits_statements {parts : List Part} {items : List Statement}
    (prints : List.Forall₂ (PrintsStatement settings) parts items) (wroteAny : Bool) :
    Emits settings (statements wroteAny parts)
      (wroteAny || !(Statement.normalItems items).isEmpty)
      (fun written =>
        SpellsBefore written (Statement.itemsTokens (Statement.normalItems items)) ∧
          (wroteAny = true → ClosesBefore written)) := by
  induction prints generalizing wroteAny with
  | nil =>
      intro state plain
      refine ⟨state, [], plain.keeps state.text, .refl plain.coherent, ⟨?_, ?_⟩, ?_⟩
      · rw [Statement.normalItems, Statement.itemsTokens]
        exact spells_nil.before
      · exact fun _ _ closes => closes
      · simp [statements, Statement.normalItems]
  | @cons part item parts others first _ ih =>
      rw [Statement.normalItems]
      split
      · next isEmpty =>
          rw [statements, if_pos (first.isEmpty.trans isEmpty)]
          exact ih wroteAny
      · next notEmpty =>
          rw [Bool.not_eq_true] at notEmpty
          intro state plain
          obtain ⟨stem, nonempty, isStem, emits⟩ := first.prints notEmpty
          obtain ⟨lead, starts, plainStart, keepsStart, blank, closesLead⟩ :=
            extends_lineStarted wroteAny plain
          obtain ⟨next, written, keeps, goesOn, spells, ends⟩ := emits _ plainStart
          have behind : Emits settings
              (do writeIf part.node.endsWithSemicolon ";"; statements true parts) true
              (fun more => SpellsBefore more ((if part.node.endsWithSemicolon then
                [.sign ";"] else []) ++ Statement.itemsTokens (Statement.normalItems others)) ∧
                ClosesBefore more) :=
            (emits_semicolon _).bind (ih true) fun _ _ closing more =>
              ⟨closing.1.append_before more.1, closing.2.append (more.2 rfl)⟩
          obtain ⟨last, more, keepsOn, goesOnBehind, ⟨spellsMore, closes⟩, endsBehind⟩ :=
            behind next ⟨goesOn.coherent, keeps.outside⟩
          refine ⟨last, lead ++ (written ++ more), keepsStart.trans (keeps.trans keepsOn),
            starts.trans (goesOn.trans goesOnBehind), ⟨?_, ?_⟩, ?_⟩
          · rw [Statement.itemsTokens, isStem, List.append_assoc]
            exact blank.append_before (spells.append_before spellsMore closes)
          · intro wrote rest _
            rw [List.append_assoc]
            exact closesLead wrote _
          · rw [outcome_statements_cons _ _ (first.isEmpty.trans notEmpty) ends
              (goesOn.size_ne (spells.ne_nil nonempty)), endsBehind]
            simp

/-- Indented statements stand between line ends, or there is nothing at all. -/
theorem extends_indented {parts : List Part} {items : List Statement}
    (prints : List.Forall₂ (PrintsStatement settings) parts items) {state : PrinterState}
    (plain : IsPlain state) :
    ∃ wroteAny next added,
      (statements false parts).outcome settings
        { state with text := state.text.indent.newLine } = .ok (wroteAny, next) ∧
      state.Keeps next ∧
      state.text.Extends added (if wroteAny then next.text.dedent.newLine
        else next.text.dedent.truncate state.text.size) ∧
      Spells added (Statement.itemsTokens (Statement.normalItems items)) := by
  by_cases empty : Statement.normalItems items = []
  · rw [statements_of_empty prints empty, empty, Statement.itemsTokens]
    exact ⟨false, _, [], rfl, plain.keeps _, IndentedText.extends_truncate _, spells_nil⟩
  · have lineEnd : Spells ['\n'] [] := spells_blank (by simp [isBlank])
    obtain ⟨next, written, keeps, goesOn, ⟨spells, _⟩, ends⟩ :=
      emits_statements prints false { state with text := state.text.indent.newLine }
        ⟨.inr rfl, plain.outside⟩
    have wrote : (false || !(Statement.normalItems items).isEmpty) = true := by
      simp [empty]
    rw [wrote] at ends
    refine ⟨true, next, _, ends, ⟨keeps.outside, keeps.types, keeps.diagnostics⟩,
      goesOn.indented, ?_⟩
    have closed := spells.append lineEnd fun _ => closes_cons (by decide) _
    rw [List.append_nil] at closed
    exact lineEnd.append closed

/-- A sign that nothing extends is written behind the indentation. -/
theorem extends_write {sign : String} (alone : sign ∈ signs ∧ extensions sign = [])
    {text : IndentedText} (coherent : text.Coherent) :
    ∃ added, text.Extends added (text.write sign) ∧ Spells added [.sign sign] := by
  have closed := Layout.closed_sign alone
  have characters : Layout.characters [.sign sign] = sign.toList := by
    simp [Piece.characters, Token.text]
  have noLineEnd := Layout.lineEnd_not_mem (closed [])
  have spells := closed.spells
  rw [characters] at noLineEnd spells
  obtain ⟨lead, isLead, goesOn⟩ := IndentedText.continues_write coherent (.inr noLineEnd)
  have blank : ∀ character ∈ lead, isBlank character = true := by
    rcases isLead with rfl | ⟨_, rfl⟩
    · nofun
    · exact text.isBlank_indentation
  exact ⟨lead ++ sign.toList, goesOn, (spells_blank blank).append spells⟩

theorem brace_alone : ("\x7b" ∈ signs ∧ extensions "\x7b" = []) ∧
    "\x7d" ∈ signs ∧ extensions "\x7d" = [] := by
  decide

/-- Statements between braces are printed as a block. -/
theorem emits_block {parts : List Part} {items : List Statement}
    (prints : List.Forall₂ (PrintsStatement settings) parts items) :
    Emits settings (block none parts) ()
      (Spells · (Statement.block (Statement.normalItems items)).tokens) := by
  intro state plain
  obtain ⟨opening, opens, spellsOpening⟩ :=
    extends_write brace_alone.1 plain.coherent
  obtain ⟨wroteAny, next, added, ends, keeps, goesOn, spells⟩ :=
    extends_indented prints
      (⟨opens.coherent, plain.outside⟩ : IsPlain { state with text := state.text.write "\x7b" })
  obtain ⟨closing, closes, spellsClosing⟩ :=
    extends_write brace_alone.2 goesOn.coherent
  refine ⟨{ next with
      text := (if wroteAny then next.text.dedent.newLine
        else next.text.dedent.truncate (state.text.write "\x7b").size).write "\x7d" },
    opening ++ added ++ closing, ⟨keeps.outside, keeps.types, keeps.diagnostics⟩,
    (opens.trans goesOn).trans closes, ?_, ?_⟩
  · rw [Statement.tokens]
    exact (spellsOpening.append spells).append spellsClosing
  · rw [outcome_block, Option.isSome_none, Option.getD_none, IndentedText.write_empty]
    dsimp only at ends
    rw [ends]

/-- In braces a statement is printed as a block. -/
theorem PrintsStatement.emits_braced {part : Part} {statement : Statement}
    (prints : PrintsStatement settings part statement) :
    Emits settings (braced none part) () (Spells · statement.normal.enclosed.tokens) := by
  unfold braced
  rw [prints.isBlock]
  split
  · next isBlock =>
      have same : statement.normal.enclosed = statement.normal := by
        cases statement with
        | block items =>
            rw [Statement.normal]
            rfl
        | _ => contradiction
      rw [same]
      exact prints.printsBlock isBlock
  · next noBlock =>
      rw [Bool.not_eq_true] at noBlock
      rw [← Statement.block_normalItems_single noBlock]
      exact emits_block (.cons prints .nil)

end Printer

end ScriptBridge

import ScriptBridge.Proofs.Balance.Trees

/-!
# Lists of statements

A statement of a list starts a line, unless it is the first.  If it turns out to add nothing to
the text, the line is given up again, and the list goes on as if the statement were not there.
What is said here holds of any statements; only that the text grows is a fact about trees.
-/

namespace ScriptBridge

theorem byteSize_reverse (characters : List Char) :
    byteSize characters.reverse = byteSize characters := by
  induction characters with
  | nil => rfl
  | cons character rest ih => simp [ih, Nat.add_comm]

namespace IndentedText

variable {text next : IndentedText}

theorem write_empty (text : IndentedText) : text.write "" = text := by
  simp [write]

theorem reversed_of_grows (grows : text.characters <+: next.characters) :
    ∃ added, next.reversed = added ++ text.reversed ∧ next.size = byteSize added + text.size := by
  obtain ⟨added, goesOn⟩ := grows
  have reversed : next.reversed = added.reverse ++ text.reversed := by
    have both := congrArg List.reverse goesOn.symm
    simpa [characters] using both
  exact ⟨added.reverse, reversed, by rw [next.size_eq, reversed, byteSize_append, text.size_eq]⟩

theorem size_le_of_grows (grows : text.characters <+: next.characters) :
    text.size ≤ next.size := by
  obtain ⟨added, -, size⟩ := reversed_of_grows grows
  omega

theorem prefix_newLine (text : IndentedText) : text.characters <+: text.newLine.characters :=
  ⟨['\n'], List.reverse_cons.symm⟩

/-- Among the texts that go on from a text, those of its size have its characters. -/
theorem size_eq_iff_of_grows (grows : text.characters <+: next.characters) :
    next.size = text.size ↔ next.reversed = text.reversed := by
  obtain ⟨added, reversed, size⟩ := reversed_of_grows grows
  rw [reversed, size]
  constructor
  · intro same
    rw [eq_nil_of_byteSize (Nat.add_eq_right.mp same), List.nil_append]
  · intro same
    have empty : added = [] := List.append_left_eq_self.mp same
    rw [empty, byteSize_nil, Nat.zero_add]

/-- Cutting back to an earlier text gives that text, except that the place behind it is looked
at anew. -/
theorem truncate_of_grows (grows : text.characters <+: next.characters)
    (level : next.level = text.level) (longer : next.size ≠ text.size) :
    next.truncate text.size = { text with atLineStart := endsLine text.reversed } := by
  obtain ⟨added, reversed, size⟩ := reversed_of_grows grows
  have cut : take (next.size - text.size) [] next.reversed = (added.reverse, text.reversed) := by
    rw [size, Nat.add_sub_cancel, reversed, take_byteSize, List.append_nil]
  have behind : ¬ next.size ≤ text.size := by omega
  unfold truncate splitAt
  rw [if_neg behind]
  simp only [cut, level, mk.injEq, true_and, and_true]
  rw [size, byteSize_reverse, Nat.add_sub_cancel_left]

theorem truncate_of_le {length : Nat} (short : text.size ≤ length) :
    text.truncate length = text := by
  unfold truncate splitAt
  rw [if_pos short]

/-- A line that was started can be given up again. -/
theorem truncate_of_lineEnd (lineEnd : next.reversed = '\n' :: text.reversed)
    (level : next.level = text.level) :
    next.truncate text.size = { text with atLineStart := endsLine text.reversed } := by
  have size : next.size = text.size + 1 := by
    rw [next.size_eq, lineEnd, byteSize_cons, ← text.size_eq, Nat.add_comm]
    rfl
  refine truncate_of_grows ⟨['\n'], ?_⟩ level (by omega)
  rw [characters, characters, lineEnd, List.reverse_cons]

end IndentedText

/-- Printing a node, in whatever role, only adds to the text, and leaves the level as it was. -/
theorem Node.printAs_grows {settings : Settings} {node : Node} {role : Role}
    {state next : PrinterState}
    (ends : (node.printAs role).outcome settings state = .ok ((), next)) :
    state.text.characters <+: next.text.characters ∧ next.text.level = state.text.level := by
  have balanced : Part.Balanced settings False node.toPart := node.balanced False.elim False.elim
  have stands : state.Stands False ⟨state.text.level, []⟩ :=
    ⟨rfl, False.elim, False.elim, False.elim⟩
  obtain ⟨later, standsNext⟩ :=
    balanced.leads state _ role False.elim state () next (.refl state) stands ends
  exact ⟨later.text, standsNext.level⟩

namespace Printer

variable {settings : Settings} {part : Part} {state next : PrinterState}
variable (wroteAny : Bool) (rest : List Part)

/-- A state with a line started in it behind an earlier statement. -/
def lineStarted (wroteAny : Bool) (state : PrinterState) : PrinterState :=
  if wroteAny then { state with text := state.text.newLine } else state

theorem lineStarted_text (state : PrinterState) :
    state.text.characters <+: (lineStarted wroteAny state).text.characters ∧
      (lineStarted wroteAny state).text.level = state.text.level := by
  cases wroteAny with
  | false => exact ⟨List.prefix_rfl, rfl⟩
  | true => exact ⟨IndentedText.prefix_newLine state.text, rfl⟩

theorem statements_of_isEmpty (isEmpty : part.node.isEmptyStatement = true) :
    statements wroteAny (part :: rest) = statements wroteAny rest := by
  rw [statements, if_pos isEmpty]

theorem outcome_statements_error {diagnostic : Diagnostic}
    (notEmpty : part.node.isEmptyStatement = false)
    (stops : part.print.outcome settings (lineStarted wroteAny state) = .error diagnostic) :
    (statements wroteAny (part :: rest)).outcome settings state = .error diagnostic := by
  cases wroteAny <;>
  · simp only [lineStarted, Bool.false_eq_true, if_false, if_true] at stops
    simp [statements, notEmpty, newLine, stops]

/-- A statement that adds to the text. -/
theorem outcome_statements_cons (notEmpty : part.node.isEmptyStatement = false)
    (ends : part.print.outcome settings (lineStarted wroteAny state) = .ok ((), next))
    (grown : next.text.size ≠ (lineStarted wroteAny state).text.size) :
    (statements wroteAny (part :: rest)).outcome settings state =
      (do writeIf part.node.endsWithSemicolon ";"; statements true rest).outcome settings
        next := by
  cases wroteAny <;>
  · simp only [lineStarted, Bool.false_eq_true, if_false, if_true] at ends grown
    simp [statements, notEmpty, newLine, ends, grown]

/-- A statement that adds nothing to the text. -/
theorem outcome_statements_silent (notEmpty : part.node.isEmptyStatement = false)
    (ends : part.print.outcome settings (lineStarted wroteAny state) = .ok ((), next))
    (silent : next.text.size = (lineStarted wroteAny state).text.size) :
    (statements wroteAny (part :: rest)).outcome settings state =
      (statements wroteAny rest).outcome settings
        { next with text := next.text.truncate state.text.size } := by
  cases wroteAny <;>
  · simp only [lineStarted, Bool.false_eq_true, if_false, if_true] at ends silent
    simp [statements, notEmpty, newLine, truncate, ends, silent]

theorem statements_append (first second : List Part) :
    statements wroteAny (first ++ second) =
      statements wroteAny first >>= fun wrote => statements wrote second := by
  refine ext_outcome fun settings state => ?_
  induction first generalizing wroteAny state with
  | nil => rfl
  | cons part rest ih =>
      rw [List.cons_append, outcome_bind]
      cases isEmpty : part.node.isEmptyStatement with
      | true =>
          rw [statements_of_isEmpty _ _ isEmpty, statements_of_isEmpty _ _ isEmpty, ih,
            outcome_bind]
      | false =>
          cases prints : part.print.outcome settings (lineStarted wroteAny state) with
          | error diagnostic =>
              rw [outcome_statements_error _ _ isEmpty prints,
                outcome_statements_error _ _ isEmpty prints]
          | ok result =>
              by_cases silent : result.2.text.size = (lineStarted wroteAny state).text.size
              · rw [outcome_statements_silent _ _ isEmpty prints silent,
                  outcome_statements_silent _ _ isEmpty prints silent, ih, outcome_bind]
              · rw [outcome_statements_cons _ _ isEmpty prints silent,
                  outcome_statements_cons _ _ isEmpty prints silent]
                cases part.node.endsWithSemicolon <;>
                · simp only [writeIf, Bool.false_eq_true, if_false, if_true, outcome_bind,
                    outcome_pure, outcome_write, ih]

/-- Once a statement was written, this remains so. -/
theorem wroteAny_of_statements {body : List Part} {wrote : Bool}
    (ends : (statements true body).outcome settings state = .ok (wrote, next)) :
    wrote = true := by
  induction body generalizing state with
  | nil =>
      cases ends
      rfl
  | cons part rest ih =>
      cases isEmpty : part.node.isEmptyStatement with
      | true =>
          rw [statements_of_isEmpty _ _ isEmpty] at ends
          exact ih ends
      | false =>
          cases prints : part.print.outcome settings (lineStarted true state) with
          | error diagnostic =>
              rw [outcome_statements_error _ _ isEmpty prints] at ends
              cases ends
          | ok result =>
              by_cases silent : result.2.text.size = (lineStarted true state).text.size
              · rw [outcome_statements_silent _ _ isEmpty prints silent] at ends
                exact ih ends
              · rw [outcome_statements_cons _ _ isEmpty prints silent] at ends
                cases semicolon : part.node.endsWithSemicolon <;>
                · rw [semicolon] at ends
                  exact ih ends

theorem outcome_topLevel (parts : List Part) (state : PrinterState) :
    (topLevel parts).outcome settings state =
      match (statements false parts).outcome settings state with
      | .ok (_, next) => .ok ((), next)
      | .error diagnostic => .error diagnostic := by
  rw [topLevel, outcome_bind]
  cases (statements false parts).outcome settings state <;> rfl

/-- What is printed between braces, behind a statement put in front or without one. -/
theorem outcome_block (prologue : Option String) (parts : List Part) (state : PrinterState) :
    (block prologue parts).outcome settings state =
      match (statements prologue.isSome parts).outcome settings
          { state with text :=
              (state.text.write "\x7b").indent.newLine.write (prologue.getD "") } with
      | .ok (wroteAny, next) =>
          .ok ((), { next with
            text := (if wroteAny then next.text.dedent.newLine
              else next.text.dedent.truncate (state.text.write "\x7b").size).write "\x7d" })
      | .error diagnostic => .error diagnostic := by
  simp only [block, indent, newLine, dedent, truncate, outcome_bind, outcome_write,
    outcome_length, outcome_modifyText]
  cases (statements prologue.isSome parts).outcome settings
      { state with text :=
          (state.text.write "\x7b").indent.newLine.write (prologue.getD "") } with
  | error diagnostic => rfl
  | ok result =>
      obtain ⟨wroteAny, next⟩ := result
      cases wroteAny <;> rfl

/-! ## Statements of a tree -/

/-- Statements only add to the text, and leave the level as it was. -/
theorem statements_grows {wroteAny wrote : Bool} {body : List Node}
    (ends : (statements wroteAny (body.map Node.toPart)).outcome settings state =
      .ok (wrote, next)) :
    state.text.characters <+: next.text.characters ∧ next.text.level = state.text.level := by
  have balanced : ∀ part ∈ body.map Node.toPart, part.Balanced settings False := by
    intro part member
    obtain ⟨node, -, rfl⟩ := List.mem_map.mp member
    exact node.balanced False.elim False.elim
  have stands : state.Stands False ⟨state.text.level, []⟩ :=
    ⟨rfl, False.elim, False.elim, False.elim⟩
  obtain ⟨later, standsNext⟩ :=
    Leads.statements wroteAny balanced state wrote next (.refl state) stands ends
  exact ⟨later.text, standsNext.level⟩

/-- A statement was written before the statements behind it. -/
theorem wroteAny_behind {semicolon wrote : Bool} {body : List Part}
    (ends : (do writeIf semicolon ";"; statements true body).outcome settings state =
      .ok (wrote, next)) :
    wrote = true := by
  cases semicolon <;> exact wroteAny_of_statements ends

/-- A list of statements was written if and only if the text has grown. -/
theorem wroteAny_iff_grown {wrote : Bool} {body : List Node}
    (ends : (statements false (body.map Node.toPart)).outcome settings state =
      .ok (wrote, next)) :
    wrote = true ↔ next.text.size ≠ state.text.size := by
  induction body generalizing state with
  | nil =>
      cases ends
      simp
  | cons node rest ih =>
      rw [List.map_cons] at ends
      cases isEmpty : node.toPart.node.isEmptyStatement with
      | true =>
          rw [statements_of_isEmpty _ _ isEmpty] at ends
          exact ih ends
      | false =>
          cases prints : node.toPart.print.outcome settings (lineStarted false state) with
          | error diagnostic =>
              rw [outcome_statements_error _ _ isEmpty prints] at ends
              cases ends
          | ok result =>
              obtain ⟨⟨⟩, printed⟩ := result
              by_cases silent : printed.text.size = (lineStarted false state).text.size
              · rw [outcome_statements_silent _ _ isEmpty prints silent] at ends
                have short : printed.text.size = state.text.size := silent
                rw [← short, ← IndentedText.truncate_of_le short.le]
                exact ih ends
              · rw [outcome_statements_cons _ _ isEmpty prints silent] at ends
                have grown : state.text.size < printed.text.size :=
                  lt_of_le_of_ne (IndentedText.size_le_of_grows (Node.printAs_grows prints).1)
                    (Ne.symm silent)
                -- The semicolon and what stands behind it only add to the text.
                have behind : printed.text.size ≤ next.text.size := by
                  cases semicolon : node.toPart.node.endsWithSemicolon with
                  | false =>
                      rw [semicolon] at ends
                      exact IndentedText.size_le_of_grows (statements_grows ends).1
                  | true =>
                      rw [semicolon] at ends
                      have closed := IndentedText.prefix_write printed.text ";"
                      exact IndentedText.size_le_of_grows (closed.trans (statements_grows ends).1)
                exact iff_of_true (wroteAny_behind ends) (by omega)

end Printer

end ScriptBridge

import Mathlib.Data.List.Forall2
import ScriptBridge.Proofs.Expression.Layout
import ScriptBridge.Proofs.Expression.Separation
import ScriptBridge.Proofs.Printing.PlainText
import ScriptBridge.Proofs.Printing.Roles
import ScriptBridge.Proofs.Tree.Induction

/-!
# Printed expressions

A tree stands for an expression if it is built from the constructs of
expressions and nothing else.  Outside of classes and without new names it is
printed as the layout of its expression, so the expression is the one reading of
the printed text.
-/

namespace ScriptBridge

/-- Names that change how a call or a construction is printed. -/
def specialNames : List String :=
  [Printer.rawCodeName, "Array", "RegExp"]

/-- The expression of a shape, given those of its parts. -/
def Shape.expression? : Shape (Folded (Option Expression)) → Option Expression
  | .identifier name none false =>
      if isPlain : isPlainWord name = true then
        if name ∈ specialNames then none else some (.name ⟨name, isPlain⟩)
      else none
  | .unary .unary operator true argument => do
      return .unary (← UnaryOperator.ofText? operator) (← argument.result)
  | .unary .update operator leading argument => do
      let operator ← UpdateOperator.ofText? operator
      let target ← argument.result
      if target.isTarget then some (.update operator leading target) else none
  | .binary .assignment operator left right => do
      let operator ← AssignmentOperator.ofText? operator
      let target ← left.result
      let value ← right.result
      if target.isTarget then some (.assignment operator target value) else none
  | .binary form operator left right => do
      let operator ← BinaryOperator.ofText? operator
      let left ← left.result
      let right ← right.result
      if operator.form = form then some (.binary operator left right) else none
  | .conditional test consequent alternate => do
      return .conditional (← test.result) (← consequent.result) (← alternate.result)
  | .member object property true false => do
      return .index (← object.result) (← property.result)
  | .member object property false false => do
      let object ← object.result
      match ← property.result with
      | .name plain => some (.member object plain)
      | _ => none
  | .call form callee arguments false none none => do
      let callee ← callee.result
      let arguments ← arguments.mapM (·.result)
      match form with
      | .call => return .call callee arguments
      | .construction => return .construction callee arguments
  | .sequence items => do
      let items ← items.mapM (·.result)
      if 2 ≤ items.length && items.all (fun item => !item.isSequence) then
        some (.sequence items)
      else none
  | _ => none

/-- The expression that a tree stands for, if it is one over plain names. -/
def Node.expression? : Node → Option Expression :=
  fold fun _ shape => shape.expression?

theorem Node.expression?_eq (location : Location) (shape : Shape Node) :
    Node.expression? ⟨location, shape⟩ =
      (shape.map fun part => ⟨part, part.expression?⟩).expression? := by
  unfold Node.expression?
  rw [Node.fold_eq]

namespace Printer

variable {settings : Settings}

theorem lookUpRank_of_rank? {place : Position} {pattern : String} {rank : Nat}
    (known : Precedence.rank? pattern = some rank) :
    lookUpRank place (some pattern) = pure rank := by
  simp only [lookUpRank, known]

theorem ownRank_of_rank? {role : Role} {place : Position} {shape : Shape Part}
    {pattern : String} {rank : Nat} (isPattern : shape.operatorPattern? = some pattern)
    (known : Precedence.rank? pattern = some rank) : ownRank role place shape = pure rank := by
  unfold ownRank
  split
  · simp only [Shape.rank, isPattern, Precedence.rankOf, known, Option.getD_some]
  · rw [isPattern, lookUpRank_of_rank? known]

/-- A part is printed as the layout of an expression. -/
structure PrintsAs (settings : Settings) (part : Part) (expression : Expression) : Prop where
  wellFormed : expression.WellFormed
  rank : rankOf part = pure expression.rank
  callsInChain : part.node.callsInChain = expression.callsInChain
  ordinary : ∀ name, part.node.identifier? = some name → name ∉ specialNames
  isName : ∀ plain, expression = .name plain → part.node.identifier? = some plain.text
  prints : ∀ role ∈ [Role.plain, .ranked],
    Yields settings (part.printAs role) () expression.layout.characters
  printsName : ∀ plain, expression = .name plain →
    Yields settings (part.printAs .memberName) () plain.text.toList

namespace PrintsAs

variable {part : Part} {expression : Expression}

theorem operand (printsAs : PrintsAs settings part expression) (kind : Operand)
    (parent : Nat) :
    Yields settings (operand kind parent part) ()
      (Expression.operandLayout kind parent expression.rank expression.layout).characters := by
  have printed := (printsAs.prints .ranked (by simp)).enclosedIf
    (kind.needsParens expression.rank parent) "(" ")"
  unfold Printer.operand
  rw [printsAs.rank, pure_bind]
  unfold Expression.operandLayout
  split at printed
  · next parens =>
      rw [if_pos parens]
      simp only [Expression.enclosed, Layout.characters_append]
      exact printed
  · next bare =>
      rw [if_neg bare]
      exact printed

end PrintsAs

/-- Parts in a list are printed as the items of a layout. -/
theorem yields_separated {kind : Operand} {parts : List Part} {items : List Expression}
    (printsAs : List.Forall₂ (PrintsAs settings) parts items) :
    Yields settings (separated (operand kind 20) parts) ()
      (Expression.itemsLayout kind items).characters := by
  induction printsAs with
  | nil => exact yields_pure ()
  | cons first others ih =>
      cases others with
      | nil => exact first.operand kind 20
      | cons second others =>
          simp only [separated, Expression.itemsLayout, Layout.characters_append]
          have printed := (first.operand kind 20).andThen ((yields_write ", ").andThen ih)
          rw [← List.append_assoc] at printed
          exact printed

/-- A construct as a part, given its parts. -/
def assembled (location : Location) (shape : Shape Part) : Part :=
  ⟨⟨location, shape.map Folded.node⟩, construct location shape⟩

theorem assembled_eq (location : Location) (shape : Shape Node) :
    assembled location (shape.map fun part => ⟨part, part.printAs⟩) =
      ⟨⟨location, shape⟩, Node.printAs ⟨location, shape⟩⟩ := by
  have sameNode : (shape.map fun part => (⟨part, part.printAs⟩ : Part)).map Folded.node =
      shape := by
    rw [Shape.map_map]
    exact shape.map_id
  have samePrinter : construct location (shape.map fun part => ⟨part, part.printAs⟩) =
      Node.printAs ⟨location, shape⟩ := by
    funext role
    rw [Node.printAs_eq]
  rw [assembled, sameNode, samePrinter]

/-- A construct with an operator is printed as an expression of the same rank. -/
theorem printsAs_of_pattern {location : Location} {shape : Shape Part}
    {expression : Expression} {pattern : String} (body : Nat → Printer Unit)
    (wellFormed : expression.WellFormed)
    (isPattern : shape.operatorPattern? = some pattern)
    (known : Precedence.rank? pattern = some expression.rank)
    (callsInChain : (assembled location shape).node.callsInChain = expression.callsInChain)
    (noName : ∀ plain, expression ≠ .name plain)
    (looksUp : ∀ role, construct location shape role =
      ownRank role location.start shape >>= body)
    (prints : Yields settings (body expression.rank) () expression.layout.characters) :
    PrintsAs settings (assembled location shape) expression where
  wellFormed := wellFormed
  rank := by
    have bare : (assembled location shape).node.underCasts = (assembled location shape).node := by
      cases shape <;> first | rfl | contradiction
    rw [rankOf_part, bare]
    change lookUpRank _ (shape.map Folded.node).operatorPattern? = _
    rw [operatorPattern?_map, isPattern, lookUpRank_of_rank? known]
  callsInChain := callsInChain
  ordinary := by
    intro name isName
    cases shape <;> contradiction
  isName plain isName := absurd isName (noName plain)
  prints := by
    intro role _
    change Yields settings (construct location shape role) () _
    rw [looksUp role, ownRank_of_rank? isPattern known, pure_bind]
    exact prints
  printsName plain isName := absurd isName (noName plain)

theorem characters_operatorToken (text : String) :
    (Piece.token (operatorToken text)).characters = text.toList := by
  unfold operatorToken
  split <;> rfl

theorem printsAs_unary {argument : Part} {expression : Expression}
    (printsAs : PrintsAs settings argument expression) (operator : UnaryOperator)
    (location : Location) :
    PrintsAs settings (assembled location (.unary .unary operator.text true argument))
      (.unary operator expression) := by
  have known : Precedence.rank? (operator.text ++ " …") = some 4 := by
    cases operator <;> decide
  refine printsAs_of_pattern _ (.unary operator printsAs.wellFormed) rfl known rfl nofun
    (fun _ => rfl) ?_
  have printed : Yields settings (unary 4 operator.text true argument) () _ :=
    (yields_write operator.text).andThen
      ((yields_writeIf (isWordOperator operator.text) " ").andThen (printsAs.operand .tight 4))
  have blank : Layout.characters (if isWordOperator operator.text then [.blank] else []) =
      if isWordOperator operator.text then [' '] else [] := by
    split <;> rfl
  simp only [Expression.layout, Layout.characters_append, Layout.characters_cons,
    Layout.characters_nil, characters_operatorToken, blank, List.append_nil, List.append_assoc]
  exact printed

theorem printsAs_update {argument : Part} {expression : Expression}
    (printsAs : PrintsAs settings argument expression) (isTarget : expression.isTarget = true)
    (operator : UpdateOperator) (leading : Bool) (location : Location) :
    PrintsAs settings (assembled location (.unary .update operator.text leading argument))
      (.update operator leading expression) := by
  cases leading with
  | true =>
      have known : Precedence.rank? (operator.text ++ " …") = some 4 := by
        cases operator <;> decide
      refine printsAs_of_pattern _ (.update operator true printsAs.wellFormed isTarget) rfl known
        rfl (by simp) (fun _ => rfl) ?_
      have noWord : isWordOperator operator.text = false := by cases operator <;> decide
      have printed : Yields settings (unary 4 operator.text true argument) () _ :=
        (yields_write operator.text).andThen
          ((yields_writeIf (isWordOperator operator.text) " ").andThen (printsAs.operand .tight 4))
      rw [noWord] at printed
      simp only [Expression.layout, Layout.characters_append, Layout.characters_cons,
        Layout.characters_nil, List.append_nil]
      exact printed
  | false =>
      have known : Precedence.rank? ("… " ++ operator.text) = some 3 := by
        cases operator <;> decide
      refine printsAs_of_pattern _ (.update operator false printsAs.wellFormed isTarget) rfl known
        rfl (by simp) (fun _ => rfl) ?_
      have printed : Yields settings (unary 3 operator.text false argument) () _ :=
        (printsAs.operand .tight 3).andThen (yields_write operator.text)
      simp only [Expression.layout, Layout.characters_append, Layout.characters_cons,
        Layout.characters_nil, List.append_nil]
      exact printed

/-- An operator between two operands is printed with blanks around it. -/
theorem yields_binary {left right : Part} {first second : Expression}
    (printsLeft : PrintsAs settings left first) (printsRight : PrintsAs settings right second)
    (rank : Nat) (fromRight : Bool) (operator : String) :
    Yields settings (binary rank fromRight operator left right) ()
      (Expression.operandLayout (if fromRight then .tight else .loose) rank first.rank
          first.layout ++ Expression.betweenLayout operator ++
        Expression.operandLayout (if fromRight then .loose else .tight) rank second.rank
          second.layout).characters := by
  have printed : Yields settings (binary rank fromRight operator left right) () _ :=
    (printsLeft.operand (if fromRight then .tight else .loose) rank).andThen
      ((yields_write " ").andThen ((yields_write operator).andThen ((yields_write " ").andThen
        (printsRight.operand (if fromRight then .loose else .tight) rank))))
  simp only [Expression.betweenLayout, Layout.characters_append, Layout.characters_cons,
    Layout.characters_nil, characters_operatorToken, List.append_nil, List.append_assoc]
  exact printed

theorem printsAs_assignment {left right : Part} {target value : Expression}
    (printsLeft : PrintsAs settings left target) (isTarget : target.isTarget = true)
    (printsRight : PrintsAs settings right value) (operator : AssignmentOperator)
    (location : Location) :
    PrintsAs settings (assembled location (.binary .assignment operator.text left right))
      (.assignment operator target value) := by
  have known : Precedence.rank? ("… " ++ operator.text ++ " …") = some 17 := by
    cases operator <;> decide
  refine printsAs_of_pattern _
    (.assignment operator printsLeft.wellFormed isTarget printsRight.wellFormed) rfl known rfl
    nofun (fun _ => rfl) ?_
  rw [Expression.layout]
  exact yields_binary printsLeft printsRight 17 true operator.text

theorem printsAs_binary {left right : Part} {first second : Expression}
    (printsLeft : PrintsAs settings left first) (printsRight : PrintsAs settings right second)
    (operator : BinaryOperator) (location : Location) :
    PrintsAs settings (assembled location (.binary operator.form operator.text left right))
      (.binary operator first second) := by
  have known : Precedence.rank? ("… " ++ operator.text ++ " …") = some operator.level := by
    cases operator <;> decide
  have grouping : (Shape.binary operator.form operator.text left right).isRightAssociative =
      decide (operator = .power) := by
    cases operator <;> rfl
  refine printsAs_of_pattern _ (.binary operator printsLeft.wellFormed printsRight.wellFormed) rfl
    known rfl nofun (fun _ => rfl) ?_
  rw [Expression.layout, grouping]
  have printed := yields_binary printsLeft printsRight operator.level
    (decide (operator = .power)) operator.text
  simp only [decide_eq_true_eq] at printed
  exact printed

theorem printsAs_conditional {test consequent alternate : Part}
    {first second third : Expression} (printsTest : PrintsAs settings test first)
    (printsConsequent : PrintsAs settings consequent second)
    (printsAlternate : PrintsAs settings alternate third) (location : Location) :
    PrintsAs settings (assembled location (.conditional test consequent alternate))
      (.conditional first second third) := by
  have known : Precedence.rank? "… ? … : …" = some 16 := by decide
  refine printsAs_of_pattern _
    (.conditional printsTest.wellFormed printsConsequent.wellFormed printsAlternate.wellFormed)
    rfl known rfl nofun (fun _ => rfl) ?_
  have printed : Yields settings (conditional 16 test consequent alternate) () _ :=
    (printsTest.operand .tight 16).andThen ((yields_write " ? ").andThen
      ((printsConsequent.operand .tight 16).andThen ((yields_write " : ").andThen
        (printsAlternate.operand .tight 16))))
  simp only [Expression.layout, Layout.characters_append, List.append_assoc]
  exact printed

theorem printsAs_member {object property : Part} {first : Expression} {plain : PlainName}
    (printsObject : PrintsAs settings object first)
    (printsProperty : PrintsAs settings property (.name plain)) (location : Location) :
    PrintsAs settings (assembled location (.member object property false false))
      (.member first plain) := by
  have known : Precedence.rank? "… . …" = some 1 := by decide
  refine printsAs_of_pattern _ (.member plain printsObject.wellFormed) rfl known
    printsObject.callsInChain nofun (fun _ => rfl) ?_
  have printed : Yields settings (member 1 object property false false) () _ :=
    (printsObject.operand .loose 1).andThen
      ((yields_write ".").andThen (printsProperty.printsName plain rfl))
  simp only [Expression.layout, Layout.characters_append, Layout.characters_cons,
    Layout.characters_nil, List.append_nil]
  exact printed

theorem printsAs_index {object property : Part} {first second : Expression}
    (printsObject : PrintsAs settings object first)
    (printsProperty : PrintsAs settings property second) (location : Location) :
    PrintsAs settings (assembled location (.member object property true false))
      (.index first second) := by
  have known : Precedence.rank? "… [ … ]" = some 1 := by decide
  refine printsAs_of_pattern _ (.index printsObject.wellFormed printsProperty.wellFormed) rfl
    known printsObject.callsInChain nofun (fun _ => rfl) ?_
  have printed : Yields settings (member 1 object property true false) () _ :=
    (printsObject.operand .loose 1).andThen ((yields_write "[").andThen
      ((printsProperty.prints .plain (by simp)).andThen (yields_write "]")))
  simp only [Expression.layout, Layout.characters_append, Layout.characters_cons,
    Layout.characters_nil, List.append_nil, List.append_assoc]
  exact printed

/-- Arguments are printed between parentheses. -/
theorem yields_applied {arguments : List Part} {items : List Expression}
    (printsAs : List.Forall₂ (PrintsAs settings) arguments items) :
    Yields settings (applied "(" arguments none) ()
      (Expression.enclosed (Expression.itemsLayout .tight items)).characters := by
  have printed : Yields settings (applied "(" arguments none) () _ :=
    (yields_pure ()).andThen ((yields_write "(").andThen
      ((yields_separated printsAs).andThen (yields_write ")")))
  simp only [Expression.enclosed, Layout.characters_append, Layout.characters_cons,
    Layout.characters_nil, List.append_nil, List.append_assoc]
  exact printed

theorem wellFormed_of_printsAs {parts : List Part} {items : List Expression}
    (printsAs : List.Forall₂ (PrintsAs settings) parts items) :
    ∀ item ∈ items, item.WellFormed := by
  induction printsAs with
  | nil => nofun
  | cons first others ih =>
      intro item place
      rcases List.mem_cons.mp place with rfl | place
      · exact first.wellFormed
      · exact ih item place

theorem printsAs_call {callee : Part} {first : Expression} {arguments : List Part}
    {items : List Expression} (printsCallee : PrintsAs settings callee first)
    (printsArguments : List.Forall₂ (PrintsAs settings) arguments items)
    (location : Location) :
    PrintsAs settings (assembled location (.call .call callee arguments false none none))
      (.call first items) := by
  have ordinary : callee.node.identifier? ≠ some rawCodeName :=
    fun isRaw => printsCallee.ordinary rawCodeName isRaw (by decide)
  have known : Precedence.rank? "… ( … )" = some 1 := by decide
  refine printsAs_of_pattern
    (fun rank => do
      operand .loose rank callee
      applied "(" arguments none)
    (.call printsCallee.wellFormed (wellFormed_of_printsAs printsArguments)) rfl known rfl
    nofun ?_ ?_
  · intro role
    simp only [construct, withOperands, call, if_neg ordinary]
    rfl
  · simp only [Expression.layout, Layout.characters_append]
    exact (printsCallee.operand .loose 1).andThen (yields_applied printsArguments)

/-- What is written with more than the characters of words is no special name. -/
theorem not_special {layout : Layout} {character : Char}
    (place : character ∈ layout.characters) (noWord : isWordCharacter character = false) :
    String.ofList layout.characters ∉ specialNames := by
  intro special
  have words : (specialNames.all fun name => name.toList.all isWordCharacter) = true := by
    decide
  have isWord := List.all_eq_true.mp words _ special
  rw [String.toList_ofList] at isWord
  exact Bool.false_ne_true (noWord.symm.trans (List.all_eq_true.mp isWord character place))

/-- Of the expressions that bind like a callee, only names are single words. -/
theorem exists_sign {expression : Expression} (tight : expression.rank ≤ 2)
    (noName : ∀ plain, expression ≠ .name plain) :
    ∃ character ∈ expression.layout.characters, isWordCharacter character = false := by
  cases expression with
  | name plain => exact absurd rfl (noName plain)
  | member => exact ⟨'.', by simp [Expression.layout, Piece.characters, Token.text], by decide⟩
  | index => exact ⟨'[', by simp [Expression.layout, Piece.characters, Token.text], by decide⟩
  | call =>
      refine ⟨'(', ?_, by decide⟩
      simp [Expression.layout, Expression.enclosed, Piece.characters, Token.text]
  | construction =>
      refine ⟨'(', ?_, by decide⟩
      simp [Expression.layout, Expression.enclosed, Piece.characters, Token.text]
  | update operator leading => cases leading <;> simp [Expression.rank] at tight
  | binary operator => cases operator <;> simp [Expression.rank, BinaryOperator.level] at tight
  | _ => simp [Expression.rank] at tight

/-- How the callee of a construction is written. -/
def calleeLayout (rank : Nat) (callee : Expression) : Layout :=
  if callee.callsInChain then Expression.enclosed callee.layout
  else Expression.operandLayout .loose rank callee.rank callee.layout

theorem separate_calleeLayout {callee : Expression} (wellFormed : callee.WellFormed)
    (rank : Nat) : Expression.Separate (calleeLayout rank callee) := by
  unfold calleeLayout
  split
  · exact Expression.separate_enclosed wellFormed.separate
  · exact Expression.separate_operandLayout wellFormed.separate

theorem PrintsAs.constructed {callee : Part} {expression : Expression}
    (printsAs : PrintsAs settings callee expression) (rank : Nat) :
    Yields settings (constructed rank callee) () (calleeLayout rank expression).characters := by
  unfold Printer.constructed calleeLayout
  rw [printsAs.callsInChain]
  split
  · have printed := (printsAs.prints .plain (by simp)).enclosedIf true "(" ")"
    simp only [Expression.enclosed, Layout.characters_append]
    exact printed
  · exact printsAs.operand .loose rank

/-- The callee of a construction is not taken for an array or a pattern. -/
theorem PrintsAs.calleeLayout_ordinary {callee : Part} {expression : Expression}
    (printsAs : PrintsAs settings callee expression) {rank : Nat} (tight : rank ≤ 2) :
    String.ofList (calleeLayout rank expression).characters ∉ specialNames := by
  have opening : ∀ layout : Layout, '(' ∈ (Expression.enclosed layout).characters := by
    intro layout
    simp [Expression.enclosed, Piece.characters, Token.text]
  unfold calleeLayout Expression.operandLayout
  split
  · exact not_special (opening _) (by decide)
  · split
    · exact not_special (opening _) (by decide)
    · next bare =>
        simp only [Operand.needsParens, decide_eq_true_eq, Nat.not_lt] at bare
        by_cases isName : ∃ plain, expression = .name plain
        · obtain ⟨plain, rfl⟩ := isName
          have ordinary := printsAs.ordinary plain.text (printsAs.isName plain rfl)
          simp only [Expression.layout, Layout.characters_cons, Layout.characters_nil,
            List.append_nil]
          rw [show (Piece.word plain.text).characters = plain.text.toList from rfl,
            String.ofList_toList]
          exact ordinary
        · obtain ⟨character, place, noWord⟩ := exists_sign (Nat.le_trans bare tight)
            fun plain same => isName ⟨plain, same⟩
          exact not_special place noWord

theorem yields_construction {callee : Part} {first : Expression} {arguments : List Part}
    {items : List Expression} (printsCallee : PrintsAs settings callee first)
    (printsArguments : List.Forall₂ (PrintsAs settings) arguments items) {rank : Nat}
    (tight : rank ≤ 2) :
    Yields settings (construction rank callee arguments none) ()
      ("new ".toList ++ ((calleeLayout rank first).characters ++
        (Expression.enclosed (Expression.itemsLayout .tight items)).characters)) := by
  have ordinary := printsCallee.calleeLayout_ordinary tight
  have noArray : String.ofList (calleeLayout rank first).characters ≠ "Array" :=
    fun same => ordinary (by rw [same]; decide)
  have noPattern : String.ofList (calleeLayout rank first).characters ≠ "RegExp" :=
    fun same => ordinary (by rw [same]; decide)
  have callee := (printsCallee.constructed rank).textOf
    (Layout.lineEnd_not_mem (separate_calleeLayout printsCallee.wellFormed rank [] closes_nil))
  have verbatim : Yields settings
      (writeVerbatim (String.ofList (calleeLayout rank first).characters)) () _ :=
    yields_writeVerbatim _
  rw [String.toList_ofList] at verbatim
  refine callee.bind ?_
  rw [if_neg noArray, if_neg noPattern]
  exact (yields_write "new ").andThen (verbatim.andThen (yields_applied printsArguments))

theorem printsAs_construction {callee : Part} {first : Expression} {arguments : List Part}
    {items : List Expression} (printsCallee : PrintsAs settings callee first)
    (printsArguments : List.Forall₂ (PrintsAs settings) arguments items)
    (location : Location) :
    PrintsAs settings (assembled location (.call .construction callee arguments false none none))
      (.construction first items) := by
  have sameArguments : arguments.isEmpty = items.isEmpty := by
    cases printsArguments <;> rfl
  have known : Precedence.rank? (if arguments.isEmpty then "new …" else "new … ( … )") =
      some (if items.isEmpty then 2 else 1) := by
    rw [sameArguments]
    cases items.isEmpty <;> decide
  refine printsAs_of_pattern _
    (.construction printsCallee.wellFormed (wellFormed_of_printsAs printsArguments)) rfl known
    rfl nofun (fun _ => rfl) ?_
  have tight : (if items.isEmpty then 2 else 1) ≤ 2 := by
    split <;> omega
  simp only [Expression.layout, Layout.characters_append, List.append_assoc]
  exact yields_construction printsCallee printsArguments tight

theorem printsAs_sequence {parts : List Part} {items : List Expression}
    (printsAs : List.Forall₂ (PrintsAs settings) parts items) (several : 2 ≤ items.length)
    (noSequence : ∀ item ∈ items, item.isSequence = false) (location : Location) :
    PrintsAs settings (assembled location (.sequence parts)) (.sequence items) := by
  have known : Precedence.rank? "… , …" = some 20 := by decide
  refine printsAs_of_pattern _
    (.sequence several (wellFormed_of_printsAs printsAs) noSequence) rfl known rfl nofun
    (fun _ => rfl) ?_
  rw [Expression.layout]
  exact yields_separated printsAs

/-- Outside of classes a name has no receiver. -/
theorem yields_name (keeps : settings.options.KeepsNames) (text : String) {role : Role}
    (place : role ∈ [Role.plain, .ranked, .memberName]) :
    Yields settings (name role text) () text.toList := by
  intro state isPlain fits
  refine ⟨{ state with text := state.text.write text }, isPlain.keeps _,
    IndentedText.continues_write isPlain.coherent fits, ?_⟩
  have noReceiver : ∀ index name, state.scopes.qualifier index name = none := by
    intro index name
    simp only [ScopeStack.qualifier, Scope.qualifier, isPlain.outside]
  simp only [List.mem_cons, List.not_mem_nil, or_false] at place
  rcases place with rfl | rfl | rfl
  · simp only [name, outcome_bind, outcome_read, outcome_get, outcome_write, keeps text,
      noReceiver]
    rfl
  · simp only [name, outcome_bind, outcome_read, outcome_get, outcome_write, keeps text,
      noReceiver]
    rfl
  · simp only [name, outcome_bind, outcome_read, outcome_write, keeps text]

theorem printsAs_name (keeps : settings.options.KeepsNames) (plain : PlainName)
    (ordinary : plain.text ∉ specialNames) (location : Location) :
    PrintsAs settings (assembled location (.identifier plain.text none false))
      (.name plain) := by
  have printed : ∀ role ∈ [Role.plain, .ranked, .memberName],
      Yields settings (identifier role plain.text none false) () plain.text.toList := by
    intro role place
    have all : Yields settings (identifier role plain.text none false) () _ :=
      (yields_name keeps plain.text place).andThen ((yields_pure ()).andThen (yields_pure ()))
    simpa using all
  have layout : (Expression.name plain).layout.characters = plain.text.toList := by
    simp only [Expression.layout, Layout.characters_cons, Layout.characters_nil, List.append_nil]
    rfl
  exact {
    wellFormed := .name plain
    rank := rfl
    callsInChain := rfl
    ordinary := by
      intro name isName
      cases isName
      exact ordinary
    isName := by
      intro other same
      cases same
      rfl
    prints := by
      intro role place
      rw [layout]
      exact printed role (List.mem_append_left [Role.memberName] place)
    printsName := by
      intro other same
      cases same
      exact printed .memberName (by simp) }

end Printer

/-- The results of a list of parts that all have one. -/
theorem forall₂_of_mapM {Item Value : Type} {items : List Item} {values : List Value}
    {result : Item → Option Value} (all : items.mapM result = some values) :
    List.Forall₂ (fun item value => result item = some value) items values := by
  induction items generalizing values with
  | nil =>
      cases all
      exact .nil
  | cons item others ih =>
      rw [List.mapM_cons] at all
      simp only [Option.bind_eq_bind, Option.pure_def, Option.bind_eq_some_iff] at all
      obtain ⟨value, first, rest, others, same⟩ := all
      cases same
      exact .cons first (ih others)

/-- A node is printed as the expression that it stands for, if there is one. -/
def Node.PrintsFaithfully (settings : Settings) (node : Node) : Prop :=
  ∀ expression, node.expression? = some expression →
    Printer.PrintsAs settings ⟨node, node.printAs⟩ expression

/-- The expressions of a list of nodes are those that the nodes are printed as. -/
theorem printsAs_of_mapM {settings : Settings}
    {nodes : List {node : Node // node.PrintsFaithfully settings}}
    {expressions : List Expression}
    (all : (nodes.map fun node => (⟨node.1, node.1.expression?⟩ : Folded _)).mapM
      (·.result) = some expressions) :
    List.Forall₂ (Printer.PrintsAs settings)
      (nodes.map fun node => ⟨node.1, node.1.printAs⟩) expressions := by
  have results := forall₂_of_mapM all
  rw [List.forall₂_map_left_iff] at results ⊢
  exact results.imp fun node expression stands => node.2 expression stands

/-- A tree is printed as the layout of the expression that it stands for. -/
theorem Node.printsFaithfully {settings : Settings} (keeps : settings.options.KeepsNames)
    (node : Node) : node.PrintsFaithfully settings := by
  refine Node.induction (motive := Node.PrintsFaithfully settings) ?_ node
  intro location shape expression stands
  rw [Node.expression?_eq, Shape.map_map] at stands
  rw [← Printer.assembled_eq, Shape.map_map]
  cases shape with
  | identifier name type optional =>
      cases type with
      | some type => contradiction
      | none =>
          cases optional with
          | true => contradiction
          | false =>
              simp only [Shape.map, Option.map_none, Shape.expression?] at stands
              split at stands
              · next isPlain =>
                  split at stands
                  · contradiction
                  · next ordinary =>
                      cases stands
                      exact Printer.printsAs_name keeps ⟨name, isPlain⟩ ordinary location
              · contradiction
  | unary form operator leading argument =>
      cases form with
      | unary =>
          cases leading with
          | false => contradiction
          | true =>
              simp only [Shape.map, Shape.expression?, Option.bind_eq_bind, Option.pure_def,
                Option.bind_eq_some_iff] at stands
              obtain ⟨known, isOperator, inner, isInner, same⟩ := stands
              cases same
              have isText := UnaryOperator.text_of_ofText? isOperator
              subst isText
              exact Printer.printsAs_unary (argument.2 inner isInner) known location
      | update =>
          simp only [Shape.map, Shape.expression?, Option.bind_eq_bind,
            Option.bind_eq_some_iff] at stands
          obtain ⟨known, isOperator, inner, isInner, same⟩ := stands
          have isText := UpdateOperator.text_of_ofText? isOperator
          subst isText
          split at same
          · next isTarget =>
              cases same
              exact Printer.printsAs_update (argument.2 inner isInner) isTarget known leading
                location
          · contradiction
  | binary form operator left right =>
      by_cases isAssignment : form = .assignment
      · subst isAssignment
        simp only [Shape.map, Shape.expression?, Option.bind_eq_bind,
          Option.bind_eq_some_iff] at stands
        obtain ⟨known, isOperator, target, isFirst, value, isSecond, same⟩ := stands
        have isText := AssignmentOperator.text_of_ofText? isOperator
        subst isText
        split at same
        · next isTarget =>
            cases same
            exact Printer.printsAs_assignment (left.2 target isFirst) isTarget
              (right.2 value isSecond) known location
        · contradiction
      · have stands : (do
            let operator ← BinaryOperator.ofText? operator
            let left ← left.1.expression?
            let right ← right.1.expression?
            if operator.form = form then some (.binary operator left right) else none) =
            some expression := by
          cases form with
          | assignment => contradiction
          | binary => exact stands
          | logical => exact stands
        simp only [Option.bind_eq_bind, Option.bind_eq_some_iff] at stands
        obtain ⟨known, isOperator, first, isFirst, second, isSecond, same⟩ := stands
        have isText := BinaryOperator.text_of_ofText? isOperator
        subst isText
        split at same
        · next isForm =>
            subst isForm
            cases same
            exact Printer.printsAs_binary (left.2 first isFirst) (right.2 second isSecond) known
              location
        · contradiction
  | conditional test consequent alternate =>
      simp only [Shape.map, Shape.expression?, Option.bind_eq_bind, Option.pure_def,
        Option.bind_eq_some_iff] at stands
      obtain ⟨first, isFirst, second, isSecond, third, isThird, same⟩ := stands
      cases same
      exact Printer.printsAs_conditional (test.2 first isFirst) (consequent.2 second isSecond)
        (alternate.2 third isThird) location
  | member object property computed optional =>
      cases optional with
      | true => cases computed <;> contradiction
      | false =>
          cases computed with
          | true =>
              simp only [Shape.map, Shape.expression?, Option.bind_eq_bind, Option.pure_def,
                Option.bind_eq_some_iff] at stands
              obtain ⟨first, isFirst, second, isSecond, same⟩ := stands
              cases same
              exact Printer.printsAs_index (object.2 first isFirst) (property.2 second isSecond)
                location
          | false =>
              simp only [Shape.map, Shape.expression?, Option.bind_eq_bind,
                Option.bind_eq_some_iff] at stands
              obtain ⟨first, isFirst, second, isSecond, same⟩ := stands
              split at same
              · next plain =>
                  cases same
                  exact Printer.printsAs_member (object.2 first isFirst)
                    (property.2 (.name plain) isSecond) location
              · contradiction
  | call form callee arguments optional typeParameters typeArguments =>
      cases optional with
      | true => contradiction
      | false =>
          cases typeParameters with
          | some types => contradiction
          | none =>
              cases typeArguments with
              | some types => contradiction
              | none =>
                  simp only [Shape.map, Option.map_none, Shape.expression?, Option.bind_eq_bind,
                    Option.bind_eq_some_iff] at stands
                  obtain ⟨first, isFirst, items, areItems, same⟩ := stands
                  have printsCallee := callee.2 first isFirst
                  have printsArguments := printsAs_of_mapM areItems
                  cases form with
                  | call =>
                      cases same
                      exact Printer.printsAs_call printsCallee printsArguments location
                  | construction =>
                      cases same
                      exact Printer.printsAs_construction printsCallee printsArguments location
  | sequence items =>
      simp only [Shape.map, Shape.expression?, Option.bind_eq_bind,
        Option.bind_eq_some_iff] at stands
      obtain ⟨expressions, areItems, same⟩ := stands
      split at same
      · next valid =>
          cases same
          simp only [Bool.and_eq_true, decide_eq_true_eq, List.all_eq_true,
            Bool.not_eq_true'] at valid
          exact Printer.printsAs_sequence (printsAs_of_mapM areItems) valid.1 valid.2 location
      · contradiction
  | _ => contradiction

/-- The tree of an expression is generated without any diagnostics, and the text
has the expression as its only reading. -/
theorem Settings.generate_reading (settings : Settings) (keeps : settings.options.KeepsNames)
    (tree : Node) (expression : Expression) (stands : tree.expression? = some expression) :
    ∃ (generated : Generated) (tokens : List Token),
      settings.generate tree = .ok generated ∧ generated.diagnostics = [] ∧
      tokenize? generated.text.toList = some tokens ∧
      ∀ reading, Reads .expression tokens reading ↔ reading = expression := by
  have printsAs := tree.printsFaithfully keeps expression stands
  obtain ⟨next, keeps, continues, ends⟩ :=
    printsAs.prints .plain (by simp) {} ⟨.inl rfl, rfl⟩ (.inl rfl)
  have written : next.text.characters = expression.layout.characters := by
    rw [IndentedText.characters, continues.reversed, List.reverse_append, List.reverse_reverse]
    rfl
  refine ⟨⟨next.text.toString, []⟩, expression.layout.tokens, ?_, rfl, ?_, ?_⟩
  · rw [generate_of_ends ends]
    rw [keeps.types, keeps.diagnostics]
    rfl
  · have separate := printsAs.wellFormed.separate [] closes_nil
    have tokens := Layout.tokenize?_characters separate
    rw [List.append_nil, tokenize?, Option.map_some, List.append_nil] at tokens
    rw [IndentedText.toString, String.toList_ofList, written]
    exact tokens
  · intro reading
    have reads := printsAs.wellFormed.readable.whole
    constructor
    · intro otherwise
      exact otherwise.unique reads
    · rintro rfl
      exact reads

/-- A product with a sum, and a construction of what a call gives. -/
theorem Settings.generate_reading_product :
    ∃ (generated : Generated) (tokens : List Token),
      Settings.generate {} ⟨{}, .binary .binary "*" ⟨{}, .identifier "a" none false⟩
        ⟨{}, .binary .binary "+" ⟨{}, .identifier "b" none false⟩
          ⟨{}, .call .construction
            ⟨{}, .call .call ⟨{}, .identifier "c" none false⟩ [] false none none⟩ [] false none
            none⟩⟩⟩ = .ok generated ∧
      generated.diagnostics = [] ∧ tokenize? generated.text.toList = some tokens ∧
      ∀ reading, Reads .expression tokens reading ↔
        reading = .binary .times (.name ⟨"a", by decide⟩)
          (.binary .plus (.name ⟨"b", by decide⟩)
            (.construction (.call (.name ⟨"c", by decide⟩) []) [])) :=
  Settings.generate_reading {} (Options.keepsNames_of_identifiers rfl) _ _ rfl

end ScriptBridge

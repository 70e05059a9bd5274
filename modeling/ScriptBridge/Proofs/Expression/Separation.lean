import ScriptBridge.Proofs.Expression.Syntax

/-!
# Layouts keep their tokens apart

Written one behind the other, the pieces of a layout do not merge into other
tokens.  Behind an expression there is only what cannot extend its last token,
and a sign before an operand meets a word or an opening parenthesis.
-/

namespace ScriptBridge

/-- Texts that may stand behind an expression. -/
def Closes (rest : List Char) : Prop :=
  ∀ next ∈ rest.head?, isWordCharacter next = false

/-- Texts that may stand behind a sign before an operand. -/
def Opens (rest : List Char) : Prop :=
  ∀ next ∈ rest.head?, isWordCharacter next = true ∨ next = '('

theorem closes_nil : Closes [] := by
  intro next isNext
  contradiction

theorem closes_cons {next : Char} (noWord : isWordCharacter next = false) (rest : List Char) :
    Closes (next :: rest) := by
  intro other isNext
  rw [List.head?_cons, Option.mem_some] at isNext
  exact isNext ▸ noWord

theorem opens_cons {next : Char} (known : isWordCharacter next = true ∨ next = '(')
    (rest : List Char) : Opens (next :: rest) := by
  intro other isNext
  rw [List.head?_cons, Option.mem_some] at isNext
  exact isNext ▸ known

namespace Piece

/-- Some signs are never extended. -/
theorem endsBefore_sign {text : String} (alone : text ∈ ["(", ")", "[", "]", ",", "++", "--"])
    (rest : List Char) : (Piece.sign text).EndsBefore rest := by
  have known : ∀ text ∈ ["(", ")", "[", "]", ",", "++", "--"],
      text ∈ signs ∧ extensions text = [] := by
    decide
  refine ⟨(known text alone).1, fun next _ => ?_⟩
  rw [(known text alone).2]
  exact List.not_mem_nil

/-- Words, blanks and opening parentheses extend no sign. -/
theorem extensions_apart {text : String} (known : text ∈ signs) {next : Char}
    (extending : next ∈ extensions text) :
    isWordCharacter next = false ∧ next ≠ '(' ∧ next ≠ ' ' := by
  have all : (signs.all fun text => (extensions text).all fun next =>
      !isWordCharacter next && next != '(' && next != ' ') = true := by
    decide +kernel
  have apart := List.all_eq_true.mp (List.all_eq_true.mp all text known) next extending
  simp only [Bool.and_eq_true, Bool.not_eq_true', bne_iff_ne, ne_eq] at apart
  exact ⟨apart.1.1, apart.1.2, apart.2⟩

/-- No sign is extended by a word or an opening parenthesis. -/
theorem endsBefore_sign_of_opens {text : String} (known : text ∈ signs) {rest : List Char}
    (opens : Opens rest) : (Piece.sign text).EndsBefore rest := by
  refine ⟨known, fun next isNext extending => ?_⟩
  obtain ⟨noWord, noParenthesis, _⟩ := extensions_apart known extending
  rcases opens next isNext with isWord | isParenthesis
  · exact Bool.false_ne_true (noWord.symm.trans isWord)
  · exact noParenthesis isParenthesis

theorem endsBefore_word_of_closes (plain : PlainName) {rest : List Char}
    (closes : Closes rest) : (Piece.word plain.text).EndsBefore rest :=
  ⟨plain.toList_ne_nil, plain.isWord, closes⟩

/-- Whether a text is written as one token before a blank. -/
def standsAlone (text : String) : Bool :=
  if Printer.isWordOperator text then !text.toList.isEmpty && text.toList.all isWordCharacter
  else signs.contains text

theorem endsBefore_operatorToken {text : String} (alone : standsAlone text = true)
    (rest : List Char) : (Piece.token (operatorToken text)).EndsBefore (' ' :: rest) := by
  unfold operatorToken
  unfold standsAlone at alone
  split at alone
  · next isWord =>
      rw [if_pos isWord]
      simp only [Bool.and_eq_true, Bool.not_eq_true', List.isEmpty_eq_false_iff,
        List.all_eq_true] at alone
      refine ⟨alone.1, alone.2, fun next isNext => ?_⟩
      rw [List.head?_cons, Option.mem_some] at isNext
      exact isNext ▸ by decide
  · next isSign =>
      rw [if_neg isSign]
      rw [List.contains_iff_mem] at alone
      refine ⟨alone, fun next isNext => ?_⟩
      rw [List.head?_cons, Option.mem_some] at isNext
      exact fun extending => (extensions_apart alone extending).2.2 isNext.symm

/-- Whatever a piece ends before, it holds no line end. -/
theorem EndsBefore.lineEnd_not_mem {piece : Piece} {rest : List Char}
    (ends : piece.EndsBefore rest) : '\n' ∉ piece.characters := by
  cases piece with
  | blank => decide
  | token token =>
      cases token with
      | word text =>
          intro place
          have isWord := ends.2.1 _ place
          contradiction
      | sign text =>
          have inLine : ∀ sign ∈ signs, '\n' ∉ sign.toList := by decide
          exact inLine text ends.1

end Piece

/-- Pieces that are kept apart stand in one line. -/
theorem Layout.lineEnd_not_mem {layout : Layout} {rest : List Char}
    (separate : layout.SeparateBefore rest) : '\n' ∉ layout.characters := by
  induction layout with
  | nil => exact List.not_mem_nil
  | cons piece layout ih =>
      rw [Layout.characters_cons, List.mem_append, not_or]
      exact ⟨separate.1.lineEnd_not_mem, ih separate.2⟩

namespace Expression

/-- A layout may be followed by everything that may follow an expression. -/
def Separate (layout : Layout) : Prop :=
  ∀ rest, Closes rest → layout.SeparateBefore rest

theorem separate_enclosed {layout : Layout} (separate : Separate layout) :
    Separate (enclosed layout) := by
  intro rest closes
  simp only [enclosed, Layout.separateBefore_append, Layout.separateBefore_cons,
    Layout.separateBefore_nil, and_true]
  refine ⟨⟨Piece.endsBefore_sign (by decide) _, ?_⟩, ?_⟩
  · exact separate _ (closes_cons (by decide) _)
  · exact Piece.endsBefore_sign (by decide) _

theorem separate_operandLayout {layout : Layout} (separate : Separate layout)
    {kind : Operand} {parent rank : Nat} : Separate (operandLayout kind parent rank layout) := by
  unfold operandLayout
  split
  · exact separate_enclosed separate
  · exact separate

/-- Two operands stay apart from the operator between them. -/
theorem separate_between {first second : Layout} (separateFirst : Separate first)
    (separateSecond : Separate second) {text : String} (alone : Piece.standsAlone text = true) :
    Separate (first ++ betweenLayout text ++ second) := by
  intro rest closes
  simp only [betweenLayout, Layout.separateBefore_append, Layout.separateBefore_cons,
    Layout.separateBefore_nil, and_true]
  refine ⟨⟨?_, trivial, ?_, trivial⟩, separateSecond rest closes⟩
  · exact separateFirst _ (closes_cons (by decide) _)
  · exact Piece.endsBefore_operatorToken alone _

theorem separate_itemsLayout {items : List Expression}
    (separate : ∀ item ∈ items, Separate item.layout) (kind : Operand) :
    Separate (itemsLayout kind items) := by
  induction items with
  | nil =>
      intro rest _
      rw [itemsLayout]
      trivial
  | cons item others ih =>
      have first : Separate (operandLayout kind 20 item.rank item.layout) :=
        separate_operandLayout (separate item (by simp))
      cases others with
      | nil =>
          rw [itemsLayout]
          exact first
      | cons next others =>
          have more := ih fun other place => separate other (by simp [place])
          intro rest closes
          simp only [itemsLayout, Layout.separateBefore_append, Layout.separateBefore_cons,
            Layout.separateBefore_nil, and_true]
          refine ⟨⟨?_, Piece.endsBefore_sign (by decide) _, trivial⟩, more rest closes⟩
          exact first _ (closes_cons (by decide) _)

theorem opens_operandLayout {kind : Operand} {parent rank : Nat} {layout : Layout}
    {rest : List Char}
    (bare : kind.needsParens rank parent = false → Opens (layout.characters ++ rest)) :
    Opens ((operandLayout kind parent rank layout).characters ++ rest) := by
  unfold operandLayout
  split
  · exact opens_cons (.inr rfl) _
  · next noParens => exact bare (by simpa using noParens)

theorem opens_name (plain : PlainName) (rest : List Char) :
    Opens (plain.text.toList ++ rest) := by
  have isWord := plain.isWord
  cases split : plain.text.toList with
  | nil => exact absurd split plain.toList_ne_nil
  | cons first others =>
      rw [split] at isWord
      exact opens_cons (.inl (isWord first (by simp))) _

/-- What binds tighter than an operator before its operand starts with a word or
an opening parenthesis. -/
theorem WellFormed.opens {expression : Expression} (wellFormed : expression.WellFormed)
    (tight : expression.rank ≤ 3) (rest : List Char) :
    Opens (expression.layout.characters ++ rest) := by
  induction wellFormed generalizing rest with
  | name plain =>
      simp only [layout, Layout.characters_cons, Layout.characters_nil, List.append_nil]
      exact opens_name plain rest
  | unary => simp [rank] at tight
  | update operator leading _ _ target =>
      cases leading with
      | true => simp [rank] at tight
      | false =>
          simp only [layout, Layout.characters_append, List.append_assoc]
          apply opens_operandLayout
          intro noParens
          simp only [Operand.needsParens, decide_eq_false_iff_not, Nat.not_le] at noParens
          exact target (by omega) _
  | binary operator _ _ _ _ =>
      cases operator <;> simp [rank, BinaryOperator.level] at tight
  | assignment => simp [rank] at tight
  | conditional => simp [rank] at tight
  | member property _ object =>
      simp only [layout, Layout.characters_append, List.append_assoc]
      apply opens_operandLayout
      intro noParens
      simp only [Operand.needsParens, decide_eq_false_iff_not, Nat.not_lt] at noParens
      exact object (by omega) _
  | index _ _ object _ =>
      simp only [layout, Layout.characters_append, List.append_assoc]
      apply opens_operandLayout
      intro noParens
      simp only [Operand.needsParens, decide_eq_false_iff_not, Nat.not_lt] at noParens
      exact object (by omega) _
  | call _ _ callee _ =>
      simp only [layout, Layout.characters_append, List.append_assoc]
      apply opens_operandLayout
      intro noParens
      simp only [Operand.needsParens, decide_eq_false_iff_not, Nat.not_lt] at noParens
      exact callee (by omega) _
  | construction =>
      rw [layout]
      exact opens_cons (.inl (by decide)) _
  | sequence => simp [rank] at tight

theorem WellFormed.opens_tightOperand {expression : Expression}
    (wellFormed : expression.WellFormed) (rest : List Char) :
    Opens ((operandLayout .tight 4 expression.rank expression.layout).characters ++ rest) := by
  apply opens_operandLayout
  intro noParens
  simp only [Operand.needsParens, decide_eq_false_iff_not, Nat.not_le] at noParens
  exact wellFormed.opens (by omega) rest

/-- The tokens of a well-formed expression do not run into each other. -/
theorem WellFormed.separate {expression : Expression} (wellFormed : expression.WellFormed) :
    Separate expression.layout := by
  induction wellFormed with
  | name plain =>
      intro rest closes
      rw [layout]
      exact ⟨Piece.endsBefore_word_of_closes plain closes, trivial⟩
  | unary operator isWellFormed argument =>
      intro rest closes
      simp only [layout, Layout.separateBefore_append, Layout.separateBefore_cons,
        Layout.separateBefore_nil, and_true]
      have alone : Piece.standsAlone operator.text = true := by cases operator <;> decide
      by_cases isWord : Printer.isWordOperator operator.text = true
      · rw [if_pos isWord]
        exact ⟨⟨Piece.endsBefore_operatorToken alone _, trivial, trivial⟩,
          separate_operandLayout argument rest closes⟩
      · rw [if_neg isWord, operatorToken, if_neg isWord]
        rw [Piece.standsAlone, if_neg isWord, List.contains_iff_mem] at alone
        exact ⟨⟨Piece.endsBefore_sign_of_opens alone (isWellFormed.opens_tightOperand rest),
          trivial⟩, separate_operandLayout argument rest closes⟩
  | update operator leading isWellFormed _ target =>
      have alone : operator.text ∈ ["(", ")", "[", "]", ",", "++", "--"] := by
        cases operator <;> decide
      have known : operator.text ∈ signs := by cases operator <;> decide
      intro rest closes
      cases leading with
      | true =>
          simp only [layout, Layout.separateBefore_append, Layout.separateBefore_cons,
            Layout.separateBefore_nil, and_true]
          exact ⟨Piece.endsBefore_sign_of_opens known (isWellFormed.opens_tightOperand rest),
            separate_operandLayout target rest closes⟩
      | false =>
          simp only [layout, Layout.separateBefore_append, Layout.separateBefore_cons,
            Layout.separateBefore_nil, and_true]
          refine ⟨separate_operandLayout target _ ?_, Piece.endsBefore_sign alone _⟩
          cases operator <;> exact closes_cons (by decide) _
  | binary operator _ _ left right =>
      have alone : Piece.standsAlone operator.text = true := by cases operator <;> decide
      rw [layout]
      exact separate_between (separate_operandLayout left) (separate_operandLayout right) alone
  | assignment operator _ _ _ target value =>
      have alone : Piece.standsAlone operator.text = true := by cases operator <;> decide
      rw [layout]
      exact separate_between (separate_operandLayout target) (separate_operandLayout value)
        alone
  | conditional _ _ _ test consequent alternate =>
      rw [layout]
      exact separate_between
        (separate_between (separate_operandLayout test) (separate_operandLayout consequent)
          (by decide))
        (separate_operandLayout alternate) (by decide)
  | member property _ object =>
      intro rest closes
      simp only [layout, Layout.separateBefore_append, Layout.separateBefore_cons,
        Layout.separateBefore_nil, and_true]
      refine ⟨separate_operandLayout object _ (closes_cons (by decide) _), ?_,
        Piece.endsBefore_word_of_closes property closes⟩
      rw [Layout.characters_cons, Layout.characters_nil, List.append_nil]
      exact Piece.endsBefore_sign_of_opens (by decide) (opens_name property rest)
  | index _ _ object property =>
      intro rest closes
      simp only [layout, Layout.separateBefore_append, Layout.separateBefore_cons,
        Layout.separateBefore_nil, and_true]
      exact ⟨⟨⟨separate_operandLayout object _ (closes_cons (by decide) _),
        Piece.endsBefore_sign (by decide) _⟩, property _ (closes_cons (by decide) _)⟩,
        Piece.endsBefore_sign (by decide) _⟩
  | call _ _ callee arguments =>
      intro rest closes
      simp only [layout, Layout.separateBefore_append]
      exact ⟨separate_operandLayout callee _ (closes_cons (by decide) _),
        separate_enclosed (separate_itemsLayout arguments .tight) rest closes⟩
  | construction _ _ callee arguments =>
      intro rest closes
      simp only [layout, Layout.separateBefore_append, Layout.separateBefore_cons,
        Layout.separateBefore_nil, and_true]
      refine ⟨⟨⟨?_, trivial⟩, ?_⟩,
        separate_enclosed (separate_itemsLayout arguments .tight) rest closes⟩
      · exact Piece.endsBefore_operatorToken (by decide : Piece.standsAlone "new" = true) _
      · split
        · exact separate_enclosed callee _ (closes_cons (by decide) _)
        · exact separate_operandLayout callee _ (closes_cons (by decide) _)
  | sequence _ _ _ items =>
      rw [layout]
      exact separate_itemsLayout items .loose

end Expression

end ScriptBridge

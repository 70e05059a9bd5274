import ScriptBridge.Proofs.Expression.Unambiguous

/-!
# Layouts read as their expressions

The layout of a well-formed expression is split into its tokens again, and these
tokens have the expression as a reading.  For an expression that binds tightly
it matters whether a call occurs in its chain, since such a chain cannot be the
callee of a construction.
-/

namespace ScriptBridge

theorem Reads.tier_mono {tight loose : Nat} {tokens : List Token} {expression : Expression}
    (reads : Reads (.tier tight) tokens expression) (looser : tight ≤ loose)
    (bound : loose ≤ 17) : Reads (.tier loose) tokens expression := by
  induction loose with
  | zero =>
      rw [Nat.le_zero.mp looser] at reads
      exact reads
  | succ loose ih =>
      rcases Nat.le_succ_iff.mp looser with below | same
      · exact .looser (by omega) (ih below (by omega))
      · rw [same] at reads
        exact reads

namespace Expression

/-- What a chain of accesses and calls is read as. -/
def chainGoal (expression : Expression) : Goal :=
  match expression.callsInChain with
  | true => .call
  | false => .member

theorem chainGoal_cases (expression : Expression) :
    expression.chainGoal = .call ∨ expression.chainGoal = .member := by
  unfold chainGoal
  split
  · exact .inl rfl
  · exact .inr rfl

theorem rank_eq_one_of_callsInChain {expression : Expression}
    (calls : expression.callsInChain = true) : expression.rank = 1 := by
  cases expression <;> simp_all [callsInChain, rank]

/-- Only sequences bind looser than assignments. -/
theorem rank_le {expression : Expression} (noSequence : expression.isSequence = false) :
    expression.rank ≤ 17 := by
  cases expression with
  | binary operator left right => exact Nat.le_trans operator.level_le (by decide)
  | update operator leading argument => cases leading <;> simp [rank]
  | construction callee arguments =>
      simp only [rank]
      split <;> omega
  | sequence items => contradiction
  | _ => simp [rank]

/-- The layout of an expression has it as a reading, in every tier that is loose
enough. -/
structure Readable (expression : Expression) : Prop where
  chain : expression.rank ≤ 2 →
    Reads expression.chainGoal expression.layout.tokens expression
  tier : ∀ limit, 2 ≤ limit → expression.rank ≤ limit → limit ≤ 17 →
    Reads (.tier limit) expression.layout.tokens expression
  whole : Reads .expression expression.layout.tokens expression

namespace Readable

variable {expression : Expression}

theorem of_tier (loose : 2 < expression.rank) (bound : expression.rank ≤ 17)
    (reads : Reads (.tier expression.rank) expression.layout.tokens expression) :
    Readable expression where
  chain _ := by omega
  tier limit _ fits bound := reads.tier_mono fits bound
  whole := .expressionOfTier (reads.tier_mono bound (Nat.le_refl 17))

theorem of_chain (reads : Reads expression.chainGoal expression.layout.tokens expression) :
    Readable expression := by
  have lowest : Reads (.tier 2) expression.layout.tokens expression := by
    rcases expression.chainGoal_cases with goal | goal
    · rw [goal] at reads
      exact .tierOfCall reads
    · rw [goal] at reads
      exact .tierOfConstruction (.constructionOfMember reads)
  exact {
    chain := fun _ => reads
    tier := fun limit low _ bound => lowest.tier_mono low bound
    whole := .expressionOfTier (lowest.tier_mono (by omega) (Nat.le_refl 17)) }

theorem enclosed (readable : Readable expression) :
    Reads .primary (enclosed expression.layout).tokens expression := by
  simp only [Expression.enclosed, Layout.tokens_append, Layout.tokens_token, Layout.tokens_nil]
  exact .parentheses readable.whole

/-- An operand is read in every tier that holds it if it has no parentheses. -/
theorem operand (readable : Readable expression) {kind : Operand} {parent : Nat} (limit : Nat)
    (low : 2 ≤ limit) (bound : limit ≤ 17)
    (bare : kind.needsParens expression.rank parent = false → expression.rank ≤ limit) :
    Reads (.tier limit) (operandLayout kind parent expression.rank expression.layout).tokens
      expression := by
  unfold operandLayout
  split
  · have lowest : Reads (.tier 2) _ expression :=
      .tierOfConstruction (.constructionOfMember (.memberOfPrimary readable.enclosed))
    exact lowest.tier_mono low bound
  · next noParens => exact readable.tier limit low (bare (by simpa using noParens)) bound

theorem tightOperand (readable : Readable expression) (parent limit : Nat) (low : 2 ≤ limit)
    (bound : limit ≤ 17) (fits : parent ≤ limit + 1) :
    Reads (.tier limit) (operandLayout .tight parent expression.rank expression.layout).tokens
      expression := by
  apply readable.operand limit low bound
  intro noParens
  simp only [Operand.needsParens, decide_eq_false_iff_not, Nat.not_le] at noParens
  omega

theorem looseOperand (readable : Readable expression) (parent limit : Nat) (low : 2 ≤ limit)
    (bound : limit ≤ 17) (fits : parent ≤ limit) :
    Reads (.tier limit) (operandLayout .loose parent expression.rank expression.layout).tokens
      expression := by
  apply readable.operand limit low bound
  intro noParens
  simp only [Operand.needsParens, decide_eq_false_iff_not, Nat.not_lt] at noParens
  omega

/-- The object of an access goes on with its chain. -/
theorem object (readable : Readable expression) :
    Reads expression.chainGoal (operandLayout .loose 1 expression.rank expression.layout).tokens
      expression := by
  unfold operandLayout
  split
  · next parens =>
      have noCall : expression.callsInChain = false := by
        by_contra calls
        rw [Bool.not_eq_false] at calls
        rw [rank_eq_one_of_callsInChain calls] at parens
        contradiction
      rw [chainGoal, noCall]
      exact .memberOfPrimary readable.enclosed
  · next noParens =>
      simp only [Operand.needsParens, decide_eq_true_eq, Nat.not_lt] at noParens
      exact readable.chain (by omega)

/-- The callee of a construction is read without a call in its chain. -/
theorem constructed (readable : Readable expression)
    (noCall : expression.callsInChain = false) (parent : Nat) (tight : parent ≤ 2) :
    Reads .member (operandLayout .loose parent expression.rank expression.layout).tokens
      expression := by
  unfold operandLayout
  split
  · exact .memberOfPrimary readable.enclosed
  · next noParens =>
      simp only [Operand.needsParens, decide_eq_true_eq, Nat.not_lt] at noParens
      have reads := readable.chain (Nat.le_trans noParens tight)
      rw [chainGoal, noCall] at reads
      exact reads

end Readable

/-- Items that stay within their tier are read as the list of them. -/
theorem reads_items {kind : Operand} {items : List Expression} (nonempty : items ≠ [])
    (readable : ∀ item ∈ items, Readable item)
    (bare : ∀ item ∈ items, kind.needsParens item.rank 20 = false → item.rank ≤ 17) :
    Reads .items (itemsLayout kind items).tokens (.sequence items) := by
  induction items with
  | nil => contradiction
  | cons item others ih =>
      have first := (readable item (by simp)).operand 17 (by decide) (by decide)
        (bare item (by simp))
      cases others with
      | nil =>
          rw [itemsLayout]
          exact .lastItem first
      | cons next others =>
          have rest := ih (by simp) (fun other place => readable other (by simp [place]))
            (fun other place => bare other (by simp [place]))
          simp only [itemsLayout, Layout.tokens_append, Layout.tokens_token, Layout.tokens_blank,
            Layout.tokens_nil]
          exact .moreItems first rest

theorem reads_arguments {arguments : List Expression}
    (readable : ∀ argument ∈ arguments, Readable argument) :
    Reads .arguments (enclosed (itemsLayout .tight arguments)).tokens (.sequence arguments) := by
  simp only [enclosed, Layout.tokens_append, Layout.tokens_token, Layout.tokens_nil]
  cases arguments with
  | nil =>
      rw [itemsLayout]
      exact .noArguments
  | cons first others =>
      refine .someArguments (reads_items (by simp) readable ?_)
      intro argument _ noParens
      apply rank_le
      cases argument with
      | sequence items => contradiction
      | _ => rfl

/-- The tokens of an operator between two operands. -/
theorem tokens_betweenLayout (text : String) :
    (betweenLayout text).tokens = [operatorToken text] :=
  rfl

theorem rank_of_isTarget {expression : Expression} (target : expression.isTarget = true) :
    expression.rank ≤ 1 := by
  cases expression <;> simp_all [isTarget, rank]

/-- A well-formed expression is a reading of its layout. -/
theorem WellFormed.readable {expression : Expression} (wellFormed : expression.WellFormed) :
    Readable expression := by
  induction wellFormed with
  | name plain => exact .of_chain (.memberOfPrimary (.name plain))
  | unary operator _ argument =>
      have reads := argument.tightOperand 4 4 (by decide) (by decide) (by decide)
      refine .of_tier (by simp [rank]) (by simp [rank]) ?_
      have spaced : Layout.tokens
          (if Printer.isWordOperator operator.text then [.blank] else []) = [] := by
        split <;> rfl
      simp only [layout, Layout.tokens_append, spaced]
      exact .unary operator reads
  | update operator leading _ isTarget target =>
      cases leading with
      | true =>
          have reads := target.tightOperand 4 4 (by decide) (by decide) (by decide)
          refine .of_tier (by simp [rank]) (by simp [rank]) ?_
          simp only [layout, Layout.tokens_append]
          exact .looser (by decide) (.updateBefore operator reads)
      | false =>
          have reads := target.tightOperand 3 2 (by decide) (by decide) (by decide)
          refine .of_tier (by simp [rank]) (by simp [rank]) ?_
          simp only [layout, Layout.tokens_append]
          exact .updateBehind operator reads
  | binary operator _ _ left right =>
      have high := operator.level_le
      by_cases isPower : operator = .power
      · subst isPower
        refine .of_tier (by simp [rank, BinaryOperator.level])
          (by simp [rank, BinaryOperator.level]) ?_
        simp only [layout, Layout.tokens_append, tokens_betweenLayout, if_true]
        exact .power (left.tightOperand 5 4 (by decide) (by decide) (by decide))
          (right.looseOperand 5 5 (by decide) (by decide) (by decide))
      · have low := BinaryOperator.five_lt_level isPower
        refine .of_tier (by simp only [rank]; omega) (by simp only [rank]; omega) ?_
        simp only [layout, Layout.tokens_append, tokens_betweenLayout, isPower, if_false]
        exact .binary operator isPower
          (left.looseOperand _ _ (by omega) (by omega) (Nat.le_refl _))
          (right.tightOperand _ _ (by omega) (by omega) (by omega))
  | assignment operator _ isTarget _ target value =>
      refine .of_tier (by simp [rank]) (by simp [rank]) ?_
      have tight := rank_of_isTarget isTarget
      simp only [layout, Layout.tokens_append, tokens_betweenLayout]
      refine .assignment operator (target.operand 2 (by decide) (by decide) ?_)
        (value.looseOperand 17 17 (by decide) (by decide) (by decide))
      intro _
      omega
  | conditional _ _ _ test consequent alternate =>
      refine .of_tier (by simp [rank]) (by simp [rank]) ?_
      simp only [layout, Layout.tokens_append, tokens_betweenLayout]
      exact .conditional (test.tightOperand 16 15 (by decide) (by decide) (by decide))
        (consequent.tightOperand 16 17 (by decide) (by decide) (by decide))
        (alternate.tightOperand 16 17 (by decide) (by decide) (by decide))
  | @member object property _ readable =>
      have reads := readable.object
      apply Readable.of_chain
      simp only [layout, Layout.tokens_append]
      change Reads object.chainGoal _ _
      rcases object.chainGoal_cases with goal | goal
      · rw [goal] at reads ⊢
        exact .callName property reads
      · rw [goal] at reads ⊢
        exact .memberName property reads
  | @index object _ _ _ readable property =>
      have reads := readable.object
      apply Readable.of_chain
      simp only [layout, Layout.tokens_append]
      change Reads object.chainGoal _ _
      rcases object.chainGoal_cases with goal | goal
      · rw [goal] at reads ⊢
        exact .callIndex reads property.whole
      · rw [goal] at reads ⊢
        exact .memberIndex reads property.whole
  | @call callee _ _ _ readable arguments =>
      have reads := readable.object
      apply Readable.of_chain
      simp only [layout, Layout.tokens_append]
      rcases callee.chainGoal_cases with goal | goal
      · rw [goal] at reads
        exact .callOfCall reads (reads_arguments arguments)
      · rw [goal] at reads
        exact .callOfMember reads (reads_arguments arguments)
  | construction _ _ callee arguments =>
      apply Readable.of_chain
      simp only [layout, Layout.tokens_append]
      refine .memberConstruction ?_ (reads_arguments arguments)
      split
      · exact .memberOfPrimary callee.enclosed
      · next noCall =>
          rw [Bool.not_eq_true] at noCall
          exact callee.constructed noCall _ (by split <;> omega)
  | @sequence items several _ noSequence readable =>
      have nonempty : items ≠ [] := by
        rintro rfl
        contradiction
      have reads : Reads .items (itemsLayout .loose items).tokens (.sequence items) :=
        reads_items nonempty readable fun item place _ => rank_le (noSequence item place)
      match items, several with
      | first :: second :: others, _ =>
          exact {
            chain := fun tight => by simp [rank] at tight
            tier := fun limit _ fits bound => by simp only [rank] at fits; omega
            whole := by
              rw [layout]
              exact .sequence reads }

end Expression

end ScriptBridge

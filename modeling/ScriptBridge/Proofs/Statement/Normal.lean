import ScriptBridge.Proofs.Expression.Layout
import ScriptBridge.Proofs.Statement.Unambiguous

/-!
# Normal forms are readable

The tokens of a normal form have it as a reading.  Since all its branches are
blocks, an `else` can only belong to the conditional statement in front of it.
-/

namespace ScriptBridge

namespace Expression

/-- A layout does not hold the word `in`. -/
def Spares (layout : Layout) : Prop :=
  .word "in" ∉ layout.tokens

instance (layout : Layout) : Decidable (Spares layout) :=
  inferInstanceAs (Decidable (.word "in" ∉ layout.tokens))

theorem Spares.append {first second : Layout} (sparesFirst : Spares first)
    (sparesSecond : Spares second) : Spares (first ++ second) := by
  rw [Spares, Layout.tokens_append, List.mem_append, not_or]
  exact ⟨sparesFirst, sparesSecond⟩

theorem Spares.operand {layout : Layout} (spares : Spares layout) {kind : Operand}
    {parent rank : Nat} : Spares (operandLayout kind parent rank layout) := by
  unfold operandLayout
  split
  · exact (Spares.append (by decide) spares).append (by decide)
  · exact spares

theorem spares_items {items : List Expression} (spares : ∀ item ∈ items, Spares item.layout)
    (kind : Operand) : Spares (itemsLayout kind items) := by
  induction items with
  | nil =>
      rw [itemsLayout]
      exact List.not_mem_nil
  | cons item others ih =>
      have first : Spares (operandLayout kind 20 item.rank item.layout) :=
        (spares item (by simp)).operand
      cases others with
      | nil =>
          rw [itemsLayout]
          exact first
      | cons next others =>
          rw [itemsLayout]
          exact (first.append (by decide)).append
            (ih fun other place => spares other (by simp [place]))

theorem usesIn_of_mem {items : List Expression} (unused : anyUsesIn items = false) :
    ∀ item ∈ items, item.usesIn = false := by
  induction items with
  | nil => nofun
  | cons item others ih =>
      rw [anyUsesIn, Bool.or_eq_false_iff] at unused
      intro other place
      rcases List.mem_cons.mp place with rfl | place
      · exact unused.1
      · exact ih unused.2 other place

theorem spares_name (plain : PlainName) : Spares [.word plain.text] := by
  have reserved : plain.text ≠ "in" := by
    intro same
    have isPlain := plain.isPlain
    rw [same] at isPlain
    contradiction
  simp [Spares, Ne.symm reserved]

/-- Without the operator, the word `in` does not occur. -/
theorem WellFormed.spares {expression : Expression} (wellFormed : expression.WellFormed)
    (unused : expression.usesIn = false) : Spares expression.layout := by
  induction wellFormed with
  | name plain =>
      rw [layout]
      exact spares_name plain
  | unary operator _ argument =>
      rw [layout]
      refine Spares.append (Spares.append ?_ ?_) (argument unused).operand
      · cases operator <;> decide
      · cases operator <;> decide
  | update operator leading _ _ target =>
      have spares : Spares [.sign operator.text] := by cases operator <;> decide
      cases leading with
      | true =>
          rw [layout]
          exact spares.append (target unused).operand
      | false =>
          rw [layout]
          exact (target unused).operand.append spares
  | binary operator _ _ left right =>
      simp only [usesIn, Bool.or_eq_false_iff, beq_eq_false_iff_ne] at unused
      have between : Spares (betweenLayout operator.text) := by
        have other := unused.1.1
        cases operator <;> first | contradiction | decide
      rw [layout]
      exact ((left unused.1.2).operand.append between).append (right unused.2).operand
  | assignment operator _ _ _ target value =>
      rw [usesIn, Bool.or_eq_false_iff] at unused
      rw [layout]
      refine ((target unused.1).operand.append ?_).append (value unused.2).operand
      cases operator <;> decide
  | conditional _ _ _ test consequent alternate =>
      simp only [usesIn, Bool.or_eq_false_iff] at unused
      rw [layout]
      exact ((((test unused.1.1).operand.append (by decide)).append
        (consequent unused.1.2).operand).append (by decide)).append (alternate unused.2).operand
  | member property _ object =>
      rw [layout]
      exact (object unused).operand.append
        (Spares.append (by decide : Spares [.sign "."]) (spares_name property))
  | index _ _ object property =>
      rw [usesIn, Bool.or_eq_false_iff] at unused
      rw [layout]
      exact (((object unused.1).operand.append (by decide)).append (property unused.2)).append
        (by decide)
  | call _ _ callee arguments =>
      rw [usesIn, Bool.or_eq_false_iff] at unused
      have spares := spares_items
        (fun argument place => arguments argument place (usesIn_of_mem unused.2 argument place))
        .tight
      rw [layout]
      exact (callee unused.1).operand.append ((Spares.append (by decide) spares).append (by decide))
  | construction _ _ callee arguments =>
      rw [usesIn, Bool.or_eq_false_iff] at unused
      have spares := spares_items
        (fun argument place => arguments argument place (usesIn_of_mem unused.2 argument place))
        .tight
      rw [layout]
      refine (Spares.append (by decide) ?_).append
        ((Spares.append (by decide) spares).append (by decide))
      split
      · exact (Spares.append (by decide) (callee unused.1)).append (by decide)
      · exact (callee unused.1).operand
  | sequence _ _ _ items =>
      rw [layout]
      exact spares_items
        (fun item place => items item place (usesIn_of_mem unused item place)) .loose

end Expression

theorem holdsBareIn_of_spares {layout : Layout} (spares : Expression.Spares layout) :
    holdsBareIn 0 layout.tokens = false := by
  unfold Expression.Spares at spares
  generalize layout.tokens = tokens at spares
  generalize 0 = depth
  induction tokens generalizing depth with
  | nil => rfl
  | cons token tokens ih =>
      rw [List.mem_cons, not_or] at spares
      have other : token ≠ .word "in" := fun same => spares.1 same.symm
      simp [holdsBareIn, ih spares.2, other]

/-! ## Simple statements and heads of loops -/

theorem Binding.WellFormed.reads {binding : Binding} (wellFormed : binding.WellFormed) :
    ReadsBinding binding.layout.tokens binding := by
  obtain ⟨name, value⟩ := binding
  cases value with
  | none => exact .bare name
  | some value =>
      refine .valued name
        ((wellFormed value rfl).readable.operand 17 (by decide) (by decide) fun bare => ?_)
      apply Expression.rank_le
      cases value with
      | sequence items => contradiction
      | _ => rfl

theorem reads_bindings {bindings : List Binding} (nonempty : bindings ≠ [])
    (wellFormed : ∀ binding ∈ bindings, binding.WellFormed) :
    ReadsBindings (bindingsLayout bindings).tokens bindings := by
  induction bindings with
  | nil => contradiction
  | cons binding others ih =>
      have first := (wellFormed binding (by simp)).reads
      cases others with
      | nil => exact .last first
      | cons next others =>
          have rest := ih (by simp) fun other place => wellFormed other (by simp [place])
          simp only [bindingsLayout, Layout.tokens_append]
          exact .more first rest

theorem reads_optional {value : Option Expression}
    (wellFormed : ∀ expression ∈ value, expression.WellFormed) :
    ReadsOptional (optionalLayout value).tokens value := by
  cases value with
  | none => exact .absent
  | some value => exact .present (wellFormed value rfl).readable.whole

theorem SimpleStatement.WellFormed.reads {content : SimpleStatement}
    (wellFormed : content.WellFormed) : ReadsSimple content.layout.tokens content := by
  cases content with
  | expression value =>
      exact .expression wellFormed.1.readable.whole wellFormed.2
  | declaration kind bindings =>
      exact .declaration kind (reads_bindings wellFormed.1 wellFormed.2)
  | returning value => exact .returning (reads_optional wellFormed)
  | throwing value => exact .throwing (Expression.WellFormed.readable wellFormed).whole
  | jump form => exact .jump form

theorem SimpleStatement.WellFormed.normal {content : SimpleStatement}
    (wellFormed : content.WellFormed) : content.normal.WellFormed := by
  cases content <;> exact wellFormed

theorem spares_bindings {bindings : List Binding}
    (wellFormed : ∀ binding ∈ bindings, binding.WellFormed)
    (unused : ∀ binding ∈ bindings, ∀ value ∈ binding.value, value.usesIn = false) :
    Expression.Spares (bindingsLayout bindings) := by
  have single : ∀ binding ∈ bindings, Expression.Spares binding.layout := by
    rintro ⟨name, value⟩ place
    cases value with
    | none => exact Expression.spares_name name
    | some value =>
        have spares := (wellFormed _ place value rfl).spares (unused _ place value rfl)
        exact ((Expression.spares_name name).append (by decide)).append spares.operand
  clear wellFormed unused
  induction bindings with
  | nil => exact List.not_mem_nil
  | cons binding others ih =>
      have first := single binding (by simp)
      cases others with
      | nil => exact first
      | cons next others =>
          exact (first.append (by decide)).append
            (ih fun other place => single other (by simp [place]))

theorem LoopStart.WellFormed.reads {start : LoopStart} (wellFormed : start.WellFormed) :
    ReadsStart start.layout.tokens start := by
  cases start with
  | nothing => exact .nothing
  | expression value =>
      obtain ⟨wellFormed, noPattern, unused⟩ := wellFormed
      exact .expression wellFormed.readable.whole noPattern
        (holdsBareIn_of_spares (wellFormed.spares unused))
  | declaration kind bindings =>
      obtain ⟨nonempty, wellFormed, unused⟩ := wellFormed
      exact .declaration kind (reads_bindings nonempty wellFormed)
        (holdsBareIn_of_spares (spares_bindings wellFormed unused))

theorem LoopTarget.WellFormed.reads {form : EachForm} {target : LoopTarget}
    (wellFormed : target.WellFormed form) : ReadsTarget form target.layout.tokens target := by
  cases target with
  | place target =>
      obtain ⟨wellFormed, isTarget, admits⟩ := wellFormed
      have tight := Expression.rank_of_isTarget isTarget
      exact .place (wellFormed.readable.tier 2 (by decide) (by omega) (by decide)) admits
  | declared kind name => exact .declared kind name

theorem tokens_parenthesized (word : String) (layout : Layout) :
    (parenthesized word layout).tokens =
      [Token.word word, .sign "("] ++ layout.tokens ++ [Token.sign ")"] := by
  simp only [parenthesized, Expression.enclosed, Layout.tokens_append, Layout.tokens_token,
    Layout.tokens_blank, Layout.tokens_nil, List.cons_append, List.nil_append]

theorem LoopHead.WellFormed.reads {head : LoopHead} (wellFormed : head.WellFormed) :
    ReadsHead head.layout.tokens head := by
  cases head with
  | whileLoop test =>
      rw [LoopHead.layout, tokens_parenthesized]
      exact .whileLoop (Expression.WellFormed.readable wellFormed).whole
  | counting start test update =>
      obtain ⟨wellFormed, wellFormedTest, wellFormedUpdate⟩ := wellFormed
      have reads := ReadsHead.counting wellFormed.reads (reads_optional wellFormedTest)
        (reads_optional wellFormedUpdate)
      simp only [LoopHead.layout, tokens_parenthesized, Layout.tokens_append, List.append_assoc]
        at reads ⊢
      exact reads
  | each form target collection =>
      obtain ⟨wellFormed, wellFormedCollection, noSequence⟩ := wellFormed
      have goal : Reads form.goal collection.layout.tokens collection := by
        cases form with
        | keys => exact wellFormedCollection.readable.whole
        | values =>
            exact wellFormedCollection.readable.tier 17 (by decide)
              (Expression.rank_le (noSequence rfl)) (by decide)
      have reads := ReadsHead.each form wellFormed.reads goal
      simp only [LoopHead.layout, tokens_parenthesized, Layout.tokens_append, List.append_assoc]
        at reads ⊢
      exact reads

theorem LoopHead.WellFormed.normal {head : LoopHead} (wellFormed : head.WellFormed) :
    head.normal.WellFormed := by
  cases head with
  | whileLoop => exact wellFormed
  | counting start => cases start <;> exact wellFormed
  | each form target => cases target <;> exact wellFormed

theorem reads_handler (caught : Option PlainName) :
    ReadsHandler (handlerLayout caught).tokens caught := by
  cases caught with
  | none => exact .unnamed
  | some name => exact .named name

/-! ## Statements -/

/-- Tokens that do not go on with a statement before them. -/
def Follows (rest : List Token) : Prop :=
  rest.head? ≠ some (.word "else") ∧ rest.head? ≠ some (.word "finally")

/-- Statements are read from their tokens, up to the end of a list. -/
def ItemsReadable (items : List Statement) : Prop :=
  ∀ rest, endsStatements rest = true →
    Parses .items (Statement.itemsTokens items ++ rest) (.block items) rest

theorem follows_of_items {input rest : List Token} {items : List Statement}
    (parses : Parses .items input (.block items) rest) (ends : endsStatements rest = true) :
    Follows input := by
  cases parses with
  | noItems =>
      cases input with
      | nil => exact ⟨by simp, by simp⟩
      | cons first others =>
          simp only [endsStatements, List.head?_cons, Option.all_some, decide_eq_true_eq] at ends
          rw [ends]
          exact ⟨by simp, by simp⟩
  | moreItems first _ =>
      obtain ⟨token, others, rfl, opening⟩ := first.opening (by decide)
      constructor <;>
      · intro same
        cases same
        exact opening (by decide)

/-- A statement is read from its tokens.  Of a block, also the list is. -/
structure StatementReadable (statement : Statement) : Prop where
  item : statement.isEmpty = false → ∀ rest, Follows rest →
    Parses .item (statement.tokens ++ rest) statement rest
  items : ∀ items, statement = .block items → ItemsReadable items

theorem ItemsReadable.block {items : List Statement} (readable : ItemsReadable items)
    (rest : List Token) :
    Parses .branch ((Statement.block items).tokens ++ rest) (.block items) rest := by
  simp only [Statement.tokens, List.append_assoc]
  exact .block (readable _ rfl)

theorem StatementReadable.of_branch {statement : Statement}
    (noBlock : ∀ items, statement ≠ .block items)
    (parses : ∀ rest, Follows rest →
      Parses .branch (statement.tokens ++ rest) statement rest) : StatementReadable statement where
  item _ rest follows := .itemOfBranch (parses rest follows)
  items items same := absurd same (noBlock items)

/-- In a block of its own, a statement is read whatever follows. -/
theorem StatementReadable.enclosed {statement : Statement}
    (readable : StatementReadable statement) :
    ∃ items, statement.enclosed = .block items ∧
      ∀ rest, Parses .branch ((Statement.block items).tokens ++ rest) (.block items) rest := by
  have alone : statement.isEmpty = false → ItemsReadable [statement] := by
    intro notEmpty rest ends
    have follows := follows_of_items (.noItems rest) ends
    rw [Statement.itemsTokens, Statement.itemsTokens, List.append_nil]
    exact .moreItems (readable.item notEmpty rest follows) (.noItems rest)
  cases statement with
  | empty => exact ⟨[], rfl, ItemsReadable.block fun rest _ => .noItems rest⟩
  | block items => exact ⟨items, rfl, (readable.items items rfl).block⟩
  | _ => exact ⟨_, rfl, (alone rfl).block⟩

theorem Parses.branch_of_item {input rest : List Token} {statement : Statement}
    (parses : Parses .item input statement rest)
    (notSimple : ∀ content, statement ≠ .simple content) :
    Parses .branch input statement rest := by
  cases parses with
  | lexical _ _ _ => exact absurd rfl (notSimple _)
  | itemOfBranch parses => exact parses

theorem Statement.isEmpty_normal (statement : Statement) :
    statement.normal.isEmpty = statement.isEmpty := by
  cases statement with
  | ifElse test consequent alternate =>
      rw [Statement.normal]
      split_ifs <;> rfl
  | _ =>
      rw [Statement.normal]
      try rfl

theorem itemsReadable_normal {items : List Statement}
    (readable : ∀ item ∈ items, StatementReadable item.normal) :
    ItemsReadable (Statement.normalItems items) := by
  induction items with
  | nil =>
      intro rest _
      rw [Statement.normalItems]
      exact .noItems rest
  | cons item others ih =>
      have more := ih fun other place => readable other (by simp [place])
      intro rest ends
      rw [Statement.normalItems]
      split
      · exact more rest ends
      · next notEmpty =>
          have moreReads := more rest ends
          have first := (readable item (by simp)).item
            (by rw [item.isEmpty_normal]; simpa using notEmpty) _
            (follows_of_items moreReads ends)
          rw [Statement.itemsTokens, List.append_assoc]
          exact .moreItems first moreReads

theorem readable_ifThen {test : Expression} (wellFormed : test.WellFormed)
    {consequent : Statement} (readable : StatementReadable consequent) :
    StatementReadable (.ifThen test consequent.enclosed) := by
  obtain ⟨items, isBlock, parses⟩ := readable.enclosed
  rw [isBlock]
  refine .of_branch nofun fun rest follows => ?_
  rw [Statement.tokens, tokens_parenthesized, List.append_assoc, List.append_assoc]
  exact .ifThen wellFormed.readable.whole (parses rest) follows.1

theorem readable_ifElse {test : Expression} (wellFormed : test.WellFormed)
    {consequent alternate : Statement} (readable : StatementReadable consequent)
    (parses : ∀ rest, Follows rest → Parses .branch (alternate.tokens ++ rest) alternate rest) :
    StatementReadable (.ifElse test consequent.enclosed alternate) := by
  obtain ⟨items, isBlock, parsesConsequent⟩ := readable.enclosed
  rw [isBlock]
  refine .of_branch nofun fun rest follows => ?_
  rw [Statement.tokens, tokens_parenthesized]
  simp only [List.append_assoc]
  exact .ifElse wellFormed.readable.whole (parsesConsequent _) (parses rest follows)

theorem Statement.normal_ne_simple {statement : Statement}
    (conditional : statement.isConditional = true) (content : SimpleStatement) :
    statement.normal ≠ .simple content := by
  cases statement with
  | ifThen => simp [Statement.normal]
  | ifElse =>
      rw [Statement.normal]
      split_ifs <;> simp
  | _ => contradiction

theorem Statement.isEmpty_of_isConditional {statement : Statement}
    (conditional : statement.isConditional = true) : statement.isEmpty = false := by
  cases statement <;> first | rfl | contradiction

/-- The normal form of a well-formed statement is a reading of its tokens. -/
theorem Statement.WellFormed.readable {statement : Statement}
    (wellFormed : statement.WellFormed) : StatementReadable statement.normal := by
  induction wellFormed with
  | empty =>
      refine .of_branch (by simp [Statement.normal]) fun rest _ => ?_
      rw [Statement.normal]
      exact .empty rest
  | @simple content wellFormed =>
      rw [Statement.normal]
      refine ⟨fun _ rest _ => ?_, nofun⟩
      have reads := wellFormed.normal.reads
      simp only [Statement.tokens, List.append_assoc]
      cases lexical : content.normal.isLexical with
      | true => exact .lexical rest reads lexical
      | false => exact .itemOfBranch (.simple rest reads lexical)
  | block _ items =>
      have readable := itemsReadable_normal items
      rw [Statement.normal]
      refine ⟨fun _ rest _ => .itemOfBranch (readable.block rest), ?_⟩
      intro items same
      cases same
      exact readable
  | ifThen wellFormed _ consequent =>
      rw [Statement.normal]
      exact readable_ifThen wellFormed consequent
  | @ifElse _ _ alternate wellFormed _ _ consequent readable =>
      rw [Statement.normal]
      split_ifs with noStatements conditional
      · exact readable_ifThen wellFormed consequent
      · refine readable_ifElse wellFormed consequent fun rest follows => ?_
        have notEmpty : alternate.normal.isEmpty = false := by
          rw [alternate.isEmpty_normal, Statement.isEmpty_of_isConditional conditional]
        exact (readable.item notEmpty rest follows).branch_of_item
          (Statement.normal_ne_simple conditional)
      · obtain ⟨items, isBlock, parses⟩ := readable.enclosed
        rw [isBlock]
        exact readable_ifElse wellFormed consequent fun rest _ => parses rest
  | loop wellFormed _ body =>
      obtain ⟨items, isBlock, parses⟩ := body.enclosed
      rw [Statement.normal, isBlock]
      refine .of_branch nofun fun rest _ => ?_
      rw [Statement.tokens, List.append_assoc]
      exact .loop wellFormed.normal.reads (parses rest)
  | doWhile _ wellFormed body =>
      obtain ⟨items, isBlock, parses⟩ := body.enclosed
      rw [Statement.normal, isBlock]
      refine .of_branch nofun fun rest _ => ?_
      rw [Statement.tokens, tokens_parenthesized]
      simp only [List.append_assoc]
      exact .doWhile (parses _) wellFormed.readable.whole
  | tryCatch caught _ _ body handler =>
      obtain ⟨items, isBlock, parses⟩ := body.enclosed
      obtain ⟨handled, isHandled, parsesHandler⟩ := handler.enclosed
      rw [Statement.normal, isBlock, isHandled]
      refine .of_branch nofun fun rest follows => ?_
      rw [Statement.tokens]
      simp only [List.append_assoc]
      exact .tryCatch (parses _) (reads_handler caught) (parsesHandler rest) follows.2
  | tryFinally _ _ body finalizer =>
      obtain ⟨items, isBlock, parses⟩ := body.enclosed
      obtain ⟨last, isLast, parsesLast⟩ := finalizer.enclosed
      rw [Statement.normal, isBlock, isLast]
      refine .of_branch nofun fun rest _ => ?_
      rw [Statement.tokens]
      simp only [List.append_assoc]
      exact .tryFinally (parses _) (parsesLast rest)
  | tryCatchFinally caught _ _ _ body handler finalizer =>
      obtain ⟨items, isBlock, parses⟩ := body.enclosed
      obtain ⟨handled, isHandled, parsesHandler⟩ := handler.enclosed
      obtain ⟨last, isLast, parsesLast⟩ := finalizer.enclosed
      rw [Statement.normal, isBlock, isHandled, isLast]
      refine .of_branch nofun fun rest _ => ?_
      rw [Statement.tokens]
      simp only [List.append_assoc]
      exact .tryCatchFinally (parses _) (reads_handler caught) (parsesHandler _)
        (parsesLast rest)

end ScriptBridge

import ScriptBridge.Proofs.Statement.Clause
import ScriptBridge.Proofs.Statement.Normal

/-!
# Printed statements

Outside of classes and without new names, each construct of statements is
printed as its normal form, one lemma for each construct.  A program of such
statements is generated without diagnostics, and the normal forms of its
statements are the one reading of the generated text.
-/

namespace ScriptBridge

theorem Statement.WellFormed.tokens_ne_nil {statement : Statement}
    (wellFormed : statement.WellFormed) (notEmpty : statement.isEmpty = false) :
    statement.normal.tokens ≠ [] := by
  have parses := wellFormed.readable.item (by rw [statement.isEmpty_normal, notEmpty]) []
    ⟨by simp, by simp⟩
  obtain ⟨first, others, same, _⟩ := parses.opening (by decide)
  rw [List.append_nil] at same
  simp [same]

theorem SimpleStatement.WellFormed.tokens_ne_nil {content : SimpleStatement}
    (wellFormed : content.WellFormed) : content.layout.tokens ≠ [] := by
  obtain ⟨first, others, _, same, _⟩ := wellFormed.reads.opening
  simp [same]

namespace Printer

variable {settings : Settings}

/-! ## Simple statements -/

/-- A construct within a line is printed as a simple statement. -/
theorem printsStatement_simple {location : Location} {shape : Shape Part}
    {content : SimpleStatement} (wellFormed : content.WellFormed)
    (isEmpty : (assembled location shape).node.isEmptyStatement = false)
    (noBlock : isBlock (assembled location shape) = false)
    (braces : alternative (assembled location shape) =
      (do write " else "; braced none (assembled location shape)))
    (semicolon : (assembled location shape).node.endsWithSemicolon = true)
    (yields : Yields settings (construct location shape .plain) ()
      content.normal.layout.characters) :
    PrintsStatement settings (assembled location shape) (.simple content) where
  wellFormed := .simple wellFormed
  isEmpty := isEmpty
  isBlock := noBlock
  printsBlock := nofun
  alternative := braces
  prints _ := by
    refine ⟨_, wellFormed.normal.tokens_ne_nil, ?_, yields.emits wellFormed.normal.separate⟩
    rw [semicolon, if_pos rfl, Statement.normal, Statement.tokens]
  printsConditional := nofun
  content := by
    intro other same
    cases same
    exact yields

theorem printsStatement_expression {expression : Part} {value : Expression}
    (printsAs : PrintsAs settings expression value)
    (noPattern : startsAsPattern value.layout.tokens = false) (location : Location) :
    PrintsStatement settings (assembled location (.expressionStatement expression))
      (.simple (.expression value)) :=
  printsStatement_simple ⟨printsAs.wellFormed, noPattern⟩ rfl rfl rfl rfl printsAs.print

theorem printsStatement_jump (form : JumpForm) (location : Location) :
    PrintsStatement settings (assembled location (.jump form none)) (.simple (.jump form)) := by
  have all : Yields settings (jump form none) () _ :=
    (yields_write (jumpWord form)).andThen (yields_pure ())
  rw [List.append_nil, ← characters_word] at all
  exact printsStatement_simple trivial rfl rfl rfl rfl all

theorem printsStatement_throw {argument : Part} {value : Expression}
    (printsAs : PrintsAs settings argument value) (location : Location) :
    PrintsStatement settings (assembled location (.exit .throwing (some argument)))
      (.simple (.throwing value)) := by
  have all : Yields settings (exit .throwing location.start (some argument)) () _ :=
    (yields_write "throw ").andThen printsAs.print
  refine printsStatement_simple printsAs.wellFormed rfl rfl rfl rfl ?_
  simp only [SimpleStatement.normal, SimpleStatement.layout, Layout.characters_append]
  exact all

/-! ## Statements with lines of their own -/

theorem emits_pure : Emits settings (pure ()) () (Spells · []) :=
  fun state plain =>
    ⟨state, [], plain.keeps state.text, .refl plain.coherent, spells_nil, rfl⟩

/-- Words between blanks. -/
theorem emits_write (text : String) (layout : Layout)
    (written : text.toList = layout.characters) (closed : layout.Closed) :
    Emits settings (write text) () (Spells · layout.tokens) := by
  have yields : Yields settings (write text) () text.toList := yields_write text
  rw [written] at yields
  exact yields.emitsClosed closed

theorem characters_parenthesized (word : String) (layout : Layout) :
    (parenthesized word layout).characters =
      word.toList ++ [' ', '('] ++ layout.characters ++ [')'] := by
  simp [parenthesized, Expression.enclosed, Piece.characters, Token.text]

/-- What stands in parentheses behind a word, with a blank behind it. -/
theorem emits_parenthesized {word opening : String}
    (opens : opening.toList = word.toList ++ [' ', '(']) {inner : Printer Unit} {layout : Layout}
    (yields : Yields settings inner () layout.characters)
    (closed : (parenthesized word layout).Closed) :
    Emits settings (do write opening; inner; write ") ") ()
      (Spells · (parenthesized word layout).tokens) := by
  have all := (yields_write opening).andThen (yields.andThen (yields_write ") "))
  have written : opening.toList ++ (layout.characters ++ ") ".toList) =
      (parenthesized word layout ++ [Piece.blank] : Layout).characters := by
    rw [Layout.characters_append, characters_parenthesized, opens]
    simp [Piece.characters]
  rw [written] at all
  have emits := all.emitsClosed (closed.append Layout.closed_blank)
  rw [Layout.tokens_append, Layout.tokens_blank, Layout.tokens_nil, List.append_nil] at emits
  exact emits

/-- A construct with lines of its own is printed as a statement without a semicolon. -/
theorem printsStatement_lines {location : Location} {shape : Shape Part}
    {statement : Statement} (wellFormed : statement.WellFormed)
    (isEmpty : (assembled location shape).node.isEmptyStatement = false)
    (noBlock : isBlock (assembled location shape) = false)
    (notEmpty : statement.isEmpty = false) (notBlock : statement.isBlock = false)
    (notSimple : ∀ content, statement ≠ .simple content)
    (braces : alternative (assembled location shape) =
      if statement.isEmptyBlock then pure ()
      else if statement.isConditional then
        (do write " else "; (assembled location shape).print)
      else (do write " else "; braced none (assembled location shape)))
    (noSemicolon : (assembled location shape).node.endsWithSemicolon = false)
    (emits : Emits settings (construct location shape .plain) ()
      (Spells · statement.normal.tokens)) :
    PrintsStatement settings (assembled location shape) statement where
  wellFormed := wellFormed
  isEmpty := isEmpty.trans notEmpty.symm
  isBlock := noBlock.trans notBlock.symm
  printsBlock isBlock := absurd isBlock (by simp [notBlock])
  alternative := braces
  prints _ := by
    refine ⟨_, wellFormed.tokens_ne_nil notEmpty, ?_, emits.mono fun _ => Spells.before⟩
    rw [noSemicolon]
    exact (List.append_nil _).symm
  printsConditional _ := emits
  content content same := absurd same (notSimple content)

/-! ## Conditional statements -/

/-- A conditional statement up to its alternative. -/
theorem emits_ifStatement {test consequent : Part} (alternate : Option Part)
    {condition : Expression} {statement : Statement} (printsTest : PrintsAs settings test condition)
    (printsConsequent : PrintsStatement settings consequent statement) {tokens : List Token}
    (emits : Emits settings (whenPresent alternate alternative) () (Spells · tokens)) :
    Emits settings (ifStatement test consequent alternate) ()
      (Spells · ((Statement.ifThen condition statement.normal.enclosed).tokens ++ tokens)) := by
  have closed : (parenthesized "if" condition.layout).Closed :=
    Layout.closed_parenthesized (by decide) printsTest.wellFormed.separate
  have head : Emits settings (do write "if ("; test.print; write ") ") () _ :=
    emits_parenthesized rfl printsTest.print closed
  have all := head.andThen (printsConsequent.emits_braced.andThen emits)
  rw [Statement.tokens, List.append_assoc]
  simpa only [ifStatement, bind_assoc] using all

theorem printsStatement_ifThen {test consequent : Part} {condition : Expression}
    {statement : Statement} (printsTest : PrintsAs settings test condition)
    (printsConsequent : PrintsStatement settings consequent statement) (location : Location) :
    PrintsStatement settings (assembled location (.ifStatement test consequent none))
      (.ifThen condition statement) := by
  refine printsStatement_lines (.ifThen printsTest.wellFormed printsConsequent.wellFormed) rfl rfl
    rfl rfl nofun rfl rfl ?_
  have emits := emits_ifStatement none printsTest printsConsequent emits_pure
  rw [List.append_nil] at emits
  rw [Statement.normal]
  exact emits

/-- The word between two branches. -/
theorem emits_else : Emits settings (write " else ") () (Spells · [.word "else"]) :=
  emits_write " else " [.blank, .word "else", .blank] rfl
    (Layout.closed_blank.append (Layout.closed_word (by decide)))

theorem tokens_ifElse (test : Expression) (consequent alternate : Statement) :
    (Statement.ifElse test consequent alternate).tokens =
      (Statement.ifThen test consequent).tokens ++ ([Token.word "else"] ++ alternate.tokens) := by
  simp only [Statement.tokens, List.append_assoc]

theorem printsStatement_ifElse {test consequent alternate : Part} {condition : Expression}
    {first second : Statement} (printsTest : PrintsAs settings test condition)
    (printsConsequent : PrintsStatement settings consequent first)
    (printsAlternate : PrintsStatement settings alternate second) (location : Location) :
    PrintsStatement settings (assembled location (.ifStatement test consequent (some alternate)))
      (.ifElse condition first second) := by
  refine printsStatement_lines
    (.ifElse printsTest.wellFormed printsConsequent.wellFormed printsAlternate.wellFormed) rfl rfl
    rfl rfl nofun rfl rfl ?_
  have branches := printsAlternate.alternative
  rw [Statement.normal]
  split_ifs at branches ⊢ with noStatements conditional
  · have emits : Emits settings (alternative alternate) () (Spells · []) := by
      rw [branches]
      exact emits_pure
    have all := emits_ifStatement (some alternate) printsTest printsConsequent emits
    rw [List.append_nil] at all
    exact all
  · have emits := emits_else.andThen (printsAlternate.printsConditional conditional)
    rw [← branches] at emits
    rw [tokens_ifElse]
    exact emits_ifStatement (some alternate) printsTest printsConsequent emits
  · have emits := emits_else.andThen printsAlternate.emits_braced
    rw [← branches] at emits
    rw [tokens_ifElse]
    exact emits_ifStatement (some alternate) printsTest printsConsequent emits

/-! ## Loops -/

/-- A head in parentheses and a body make a loop. -/
theorem printsStatement_loop {location : Location} {shape : Shape Part} {body : Part}
    {head : LoopHead} {statement : Statement} (wellFormed : head.WellFormed)
    (printsBody : PrintsStatement settings body statement) {printer : Printer Unit}
    (emits : Emits settings printer () (Spells · head.normal.layout.tokens))
    (isEmpty : (assembled location shape).node.isEmptyStatement = false)
    (noBlock : isBlock (assembled location shape) = false)
    (braces : alternative (assembled location shape) =
      (do write " else "; braced none (assembled location shape)))
    (noSemicolon : (assembled location shape).node.endsWithSemicolon = false)
    (prints : construct location shape .plain = (do printer; braced none body)) :
    PrintsStatement settings (assembled location shape) (.loop head statement) := by
  refine printsStatement_lines (.loop wellFormed printsBody.wellFormed) isEmpty noBlock rfl rfl
    nofun braces noSemicolon ?_
  rw [prints, Statement.normal, Statement.tokens]
  exact emits.andThen printsBody.emits_braced

theorem printsStatement_while {test body : Part} {condition : Expression} {statement : Statement}
    (printsTest : PrintsAs settings test condition)
    (printsBody : PrintsStatement settings body statement) (location : Location) :
    PrintsStatement settings (assembled location (.loop .whileLoop test body))
      (.loop (.whileLoop condition) statement) := by
  have wellFormed : (LoopHead.whileLoop condition).WellFormed := printsTest.wellFormed
  have head : Emits settings (do write "while ("; test.print; write ") ") () _ :=
    emits_parenthesized rfl printsTest.print wellFormed.closed
  refine printsStatement_loop wellFormed printsBody head rfl rfl rfl rfl ?_
  simp only [construct, withOperands, withoutOperands, loop, bind_assoc]

section Parts

variable {init test update : Option {node : Node // node.PrintsClause settings}}
variable {left right : {node : Node // node.PrintsClause settings}}

theorem printsStatement_forLoop (keeps : settings.options.KeepsNames) {start : LoopStart}
    {condition change : Option Expression}
    (isStart : loopStart? (init.map Node.withClause) = some start)
    (isTest : Node.optionalExpression? ((test.map Node.withClause).map (·.node)) = some condition)
    (isUpdate : Node.optionalExpression? ((update.map Node.withClause).map (·.node)) = some change)
    {body : Part} {statement : Statement} (printsBody : PrintsStatement settings body statement)
    (location : Location) :
    PrintsStatement settings
      (assembled location (.forLoop (init.map Node.asPart) (test.map Node.asPart)
        (update.map Node.asPart) body))
      (.loop (.counting start condition change) statement) := by
  obtain ⟨wellFormedStart, first⟩ := yields_start keeps isStart
  obtain ⟨wellFormedTest, second⟩ := yields_optional keeps isTest
  obtain ⟨wellFormedUpdate, third⟩ := yields_optional keeps isUpdate
  have wellFormed : (LoopHead.counting start condition change).WellFormed :=
    ⟨wellFormedStart, wellFormedTest, wellFormedUpdate⟩
  have inner := first.andThen ((yields_write ";").andThen (second.andThen
    ((yields_write ";").andThen third)))
  have written : start.normal.layout.characters ++ (";".toList ++
      ((optionalLayout condition).characters ++ (";".toList ++
        (optionalLayout change).characters))) =
      Layout.characters (start.normal.layout ++ [Piece.sign ";"] ++ optionalLayout condition ++
        [Piece.sign ";"] ++ optionalLayout change) := by
    simp [Piece.characters, Token.text]
  rw [written] at inner
  have opens : "for (".toList = "for".toList ++ [' ', '('] := rfl
  have head := emits_parenthesized opens inner wellFormed.normal.closed
  refine printsStatement_loop wellFormed printsBody head rfl rfl rfl rfl ?_
  simp only [construct, withOperands, withoutOperands, forLoop, bind_assoc]

theorem printsStatement_forEach (keeps : settings.options.KeepsNames) (form : EachForm)
    {target : LoopTarget} {collection : Expression}
    (isTarget : loopTarget? form (Node.withClause left) = some target)
    (isCollection : right.1.expression? = some collection)
    (noSequence : form = .values → collection.isSequence = false) {body : Part}
    {statement : Statement} (printsBody : PrintsStatement settings body statement)
    (location : Location) :
    PrintsStatement settings
      (assembled location (.forEach form (Node.asPart left) (Node.asPart right) body))
      (.loop (.each form target collection) statement) := by
  obtain ⟨wellFormedTarget, first⟩ := yields_target keeps isTarget
  have printsAs := printsAs_node keeps isCollection
  have wellFormed : (LoopHead.each form target collection).WellFormed :=
    ⟨wellFormedTarget, printsAs.wellFormed, noSequence⟩
  have inner := first.andThen ((yields_write " ").andThen ((yields_write (eachWord form)).andThen
    ((yields_write " ").andThen printsAs.print)))
  have written : target.normal.layout.characters ++ (" ".toList ++ ((eachWord form).toList ++
      (" ".toList ++ collection.layout.characters))) =
      Layout.characters (target.normal.layout ++ [Piece.blank, .word (eachWord form), .blank] ++
        collection.layout) := by
    simp [Piece.characters, Token.text]
  rw [written] at inner
  have opens : "for (".toList = "for".toList ++ [' ', '('] := rfl
  have head := emits_parenthesized opens inner wellFormed.normal.closed
  refine printsStatement_loop wellFormed printsBody head rfl rfl rfl rfl ?_
  simp only [construct, withOperands, withoutOperands, forEach, bind_assoc]
  rfl

/-- A returned value stands behind a blank. -/
theorem printsStatement_return (keeps : settings.options.KeepsNames) {value : Option Expression}
    (stands : Node.optionalExpression? ((test.map Node.withClause).map (·.node)) = some value)
    (location : Location) :
    PrintsStatement settings (assembled location (.exit .returning (test.map Node.asPart)))
      (.simple (.returning value)) := by
  cases test with
  | none =>
      cases stands
      have printed : Yields settings (write "return") () "return".toList :=
        yields_write "return"
      rw [← characters_word] at printed
      exact printsStatement_simple nofun rfl rfl rfl rfl printed
  | some part =>
      obtain ⟨wellFormed, _⟩ := yields_optional keeps stands
      simp only [Option.map_some, Node.optionalExpression?, Option.map_eq_some_iff] at stands
      obtain ⟨expression, isExpression, rfl⟩ := stands
      have printed := (yields_write "return ").andThen (printsAs_node keeps isExpression).print
      refine printsStatement_simple wellFormed rfl rfl rfl rfl ?_
      simp only [SimpleStatement.normal, SimpleStatement.layout, optionalLayout,
        Layout.characters_append]
      exact printed

end Parts

theorem printsStatement_doWhile {body test : Part} {statement : Statement}
    {condition : Expression} (printsBody : PrintsStatement settings body statement)
    (printsTest : PrintsAs settings test condition) (location : Location) :
    PrintsStatement settings (assembled location (.loop .doWhile test body))
      (.doWhile statement condition) where
  wellFormed := .doWhile printsBody.wellFormed printsTest.wellFormed
  isEmpty := rfl
  isBlock := rfl
  printsBlock := nofun
  alternative := rfl
  prints _ := by
    have closed : (parenthesized "while" condition.layout).Closed :=
      Layout.closed_parenthesized (by decide) printsTest.wellFormed.separate
    have tail : Yields settings (do write " while ("; test.print; write ")") ()
        (Layout.characters ([Piece.blank] ++ parenthesized "while" condition.layout)) := by
      rw [Layout.characters_append, characters_parenthesized, List.append_assoc]
      exact (yields_write " while (").andThen (printsTest.print.andThen (yields_write ")"))
    have start : Emits settings (write "do ") () (Spells · [.word "do"]) :=
      emits_write "do " [.word "do", .blank] rfl (Layout.closed_word (by decide))
    have all := start.andThen (printsBody.emits_braced.andThen
      (tail.emitsClosed (Layout.closed_blank.append closed)))
    refine ⟨[.word "do"] ++ (statement.normal.enclosed.tokens ++
      (parenthesized "while" condition.layout).tokens), List.cons_ne_nil _ _, ?_,
      all.mono fun _ => Spells.before⟩
    have semicolon :
        (assembled location (.loop .doWhile test body)).node.endsWithSemicolon = true := rfl
    rw [semicolon, if_pos rfl, Statement.normal, Statement.tokens]
    simp only [List.append_assoc]
  printsConditional := nofun
  content := nofun

/-! ## Guarded statements -/

/-- A handler is printed behind a blank. -/
theorem PrintsHandler.emits {handler : Part} {caught : Option PlainName} {statement : Statement}
    (prints : PrintsHandler settings handler caught statement) :
    Emits settings (do write " "; handler.print) ()
      (Spells · ((handlerLayout caught).tokens ++ statement.normal.enclosed.tokens)) :=
  (emits_write " " [.blank] rfl Layout.closed_blank).andThen prints.prints

/-- What is done in the end is printed behind its word. -/
theorem emits_finally {finalizer : Part} {statement : Statement}
    (prints : PrintsStatement settings finalizer statement) :
    Emits settings (do write " finally "; braced none finalizer) ()
      (Spells · ([Token.word "finally"] ++ statement.normal.enclosed.tokens)) :=
  (emits_write " finally " [.blank, .word "finally", .blank] rfl
    (Layout.closed_blank.append (Layout.closed_word (by decide)))).andThen prints.emits_braced

theorem emits_try : Emits settings (write "try ") () (Spells · [.word "try"]) :=
  emits_write "try " [.word "try", .blank] rfl (Layout.closed_word (by decide))

theorem printsStatement_tryCatch {body handler : Part} {first second : Statement}
    {caught : Option PlainName} (printsBody : PrintsStatement settings body first)
    (printsHandler : PrintsHandler settings handler caught second) (location : Location) :
    PrintsStatement settings (assembled location (.tryStatement body (some handler) none))
      (.tryCatch first caught second) := by
  refine printsStatement_lines (.tryCatch caught printsBody.wellFormed printsHandler.wellFormed)
    rfl rfl rfl rfl nofun rfl rfl ?_
  have all := emits_try.andThen (printsBody.emits_braced.andThen
    (printsHandler.emits.andThen emits_pure))
  rw [List.append_nil] at all
  simp only [Statement.normal, Statement.tokens, List.append_assoc]
  exact all

theorem printsStatement_tryFinally {body finalizer : Part} {first second : Statement}
    (printsBody : PrintsStatement settings body first)
    (printsFinalizer : PrintsStatement settings finalizer second) (location : Location) :
    PrintsStatement settings (assembled location (.tryStatement body none (some finalizer)))
      (.tryFinally first second) := by
  refine printsStatement_lines (.tryFinally printsBody.wellFormed printsFinalizer.wellFormed)
    rfl rfl rfl rfl nofun rfl rfl ?_
  have all := emits_try.andThen (printsBody.emits_braced.andThen
    (emits_pure.andThen (emits_finally printsFinalizer)))
  simp only [Statement.normal, Statement.tokens, List.append_assoc]
  exact all

theorem printsStatement_tryCatchFinally {body handler finalizer : Part}
    {first second third : Statement} {caught : Option PlainName}
    (printsBody : PrintsStatement settings body first)
    (printsHandler : PrintsHandler settings handler caught second)
    (printsFinalizer : PrintsStatement settings finalizer third) (location : Location) :
    PrintsStatement settings
      (assembled location (.tryStatement body (some handler) (some finalizer)))
      (.tryCatchFinally first caught second third) := by
  refine printsStatement_lines (.tryCatchFinally caught printsBody.wellFormed
    printsHandler.wellFormed printsFinalizer.wellFormed) rfl rfl rfl rfl nofun rfl rfl ?_
  have all := emits_try.andThen (printsBody.emits_braced.andThen
    (printsHandler.emits.andThen (emits_finally printsFinalizer)))
  simp only [Statement.normal, Statement.tokens, List.append_assoc] at all ⊢
  exact all

/-- The name that a handler binds is printed without its type. -/
theorem yields_caught (keeps : settings.options.KeepsNames)
    {param : Option {node : Node // node.PrintsClause settings}} {caught : Option PlainName}
    (stands : Node.caught? ((param.map Node.withClause).map (·.node)) = some caught) :
    Yields settings
      (do
        write "catch"
        whenPresent (param.map Node.asPart) fun part => do
          write " ("
          caughtName part
          write ")"
        write " ") ()
      (handlerLayout caught).characters := by
  cases param with
  | none =>
      cases stands
      exact (yields_write "catch").andThen ((yields_pure ()).andThen (yields_write " "))
  | some part =>
      simp only [Option.map_some, Node.caught?, Option.bind_eq_bind, Option.pure_def,
        Option.bind_eq_some_iff] at stands
      obtain ⟨text, isText, name, isName, same⟩ := stands
      cases same
      obtain rfl := PlainName.text_of_ofText? isName
      have bound : caughtName (Node.asPart part) = Printer.name .declaredName name.text := by
        unfold caughtName
        rw [show (Node.asPart part).node.identifier? = some name.text from isText]
      have declared := (yields_write " (").andThen
        ((yields_declaredName keeps name.text).andThen (yields_write ")"))
      rw [← bound] at declared
      have all := (yields_write "catch").andThen (declared.andThen (yields_write " "))
      simp only [handlerLayout, Layout.characters_append, characters_parenthesized,
        characters_word, List.append_assoc] at all ⊢
      exact all

theorem printsHandler_catch (keeps : settings.options.KeepsNames)
    {param : Option {node : Node // node.PrintsClause settings}} {caught : Option PlainName}
    (stands : Node.caught? ((param.map Node.withClause).map (·.node)) = some caught)
    {body : Part} {statement : Statement} (printsBody : PrintsStatement settings body statement)
    (location : Location) :
    PrintsHandler settings (assembled location (.catchClause (param.map Node.asPart) body))
      caught statement where
  wellFormed := printsBody.wellFormed
  prints := by
    have all := ((yields_caught keeps stands).emitsClosed (closed_handler caught)).andThen
      printsBody.emits_braced
    simp only [bind_assoc] at all
    exact all

/-! ## Declarations, blocks and the empty statement -/

theorem printsStatement_declaration (keeps : settings.options.KeepsNames)
    {nodes : List {node : Node // node.PrintsClause settings}} {bindings : List Binding}
    (all : (nodes.map Node.withClause).mapM (·.node.binding?) = some bindings)
    (nonempty : bindings ≠ []) (kind : String) (location : Location) :
    PrintsStatement settings
      (assembled location (.variableDeclaration (nodes.map Node.asPart) kind))
      (.simple (.declaration (.ofText kind) bindings)) := by
  have stand := forall₂_of_mapM all
  rw [List.forall₂_map_left_iff] at stand
  obtain ⟨wellFormed, yields⟩ := yields_declaration keeps
    (List.forall₂_map_left_iff.mpr stand : List.Forall₂ _ (nodes.map Subtype.val) bindings) kind
  rw [List.map_map] at yields
  exact printsStatement_simple ⟨nonempty, wellFormed⟩ rfl rfl rfl rfl yields

theorem printsStatement_empty (location : Location) :
    PrintsStatement settings (assembled location (.leaf .empty)) .empty where
  wellFormed := .empty
  isEmpty := rfl
  isBlock := rfl
  printsBlock := nofun
  alternative := rfl
  prints := nofun
  printsConditional := nofun
  content := nofun

theorem wellFormed_of_printsStatement {parts : List Part} {items : List Statement}
    (prints : List.Forall₂ (PrintsStatement settings) parts items) :
    ∀ item ∈ items, item.WellFormed := by
  induction prints with
  | nil => nofun
  | cons first _ ih =>
      intro item place
      rcases List.mem_cons.mp place with rfl | place
      · exact first.wellFormed
      · exact ih item place

theorem printsStatement_block {parts : List Part} {items : List Statement}
    (prints : List.Forall₂ (PrintsStatement settings) parts items) (location : Location) :
    PrintsStatement settings (assembled location (.group .block parts)) (.block items) := by
  have emits := emits_block prints
  exact {
    wellFormed := .block (wellFormed_of_printsStatement prints)
    isEmpty := rfl
    isBlock := rfl
    printsBlock := fun _ => by
      rw [Statement.normal]
      exact emits
    alternative := by
      cases prints <;> rfl
    prints := fun _ => by
      refine ⟨(Statement.block (Statement.normalItems items)).tokens, ?_, ?_,
        emits.mono fun _ => Spells.before⟩
      · simp [Statement.tokens]
      · rw [Statement.normal]
        exact (List.append_nil _).symm
    printsConditional := nofun
    content := nofun }

end Printer

/-- The statements of a list of nodes are those that the nodes are printed as. -/
theorem printsStatements_of_mapM {settings : Settings}
    {nodes : List {node : Node // node.PrintsClause settings}} {items : List Statement}
    (all : (nodes.map Node.withClause).mapM (·.statement?) = some items) :
    List.Forall₂ (Printer.PrintsStatement settings) (nodes.map Node.asPart) items := by
  have results := forall₂_of_mapM all
  rw [List.forall₂_map_left_iff] at results ⊢
  exact results.imp fun _ _ stands => Printer.printsStatement_of_statement? stands

/-- A tree is printed as the clause that it stands for. -/
theorem Node.printsClause {settings : Settings} (keeps : settings.options.KeepsNames)
    (node : Node) : node.PrintsClause settings := by
  refine Node.induction (motive := Node.PrintsClause settings) ?_ node
  intro location shape clause stands
  rw [Node.clause?_eq, Shape.map_map] at stands
  rw [← Printer.assembled_eq, Shape.map_map]
  change (shape.map Node.withClause).clause? = some clause at stands
  change Printer.PrintsClause settings (Printer.assembled location (shape.map Node.asPart)) clause
  cases shape with
  | leaf form =>
      cases form with
      | empty =>
          cases stands
          exact Printer.printsStatement_empty location
      | _ => contradiction
  | expressionStatement expression =>
      simp only [Shape.map, Shape.clause?, Option.bind_eq_bind, Option.bind_eq_some_iff] at stands
      obtain ⟨value, isValue, same⟩ := stands
      split at same
      · contradiction
      · next noPattern =>
          cases same
          exact Printer.printsStatement_expression (Printer.printsAs_node keeps isValue)
            (by simpa using noPattern) location
  | variableDeclaration declarations kind =>
      simp only [Shape.map, Shape.clause?, Option.bind_eq_bind, Option.bind_eq_some_iff] at stands
      obtain ⟨bindings, areBindings, same⟩ := stands
      split at same
      · contradiction
      · next nonempty =>
          cases same
          exact Printer.printsStatement_declaration keeps areBindings
            (by simpa using nonempty) kind location
  | exit form argument =>
      cases form with
      | returning =>
          simp only [Shape.map, Shape.clause?, Option.bind_eq_bind, Option.pure_def,
            Option.bind_eq_some_iff] at stands
          obtain ⟨value, isValue, same⟩ := stands
          cases same
          exact Printer.printsStatement_return keeps isValue location
      | throwing =>
          cases argument with
          | none => contradiction
          | some argument =>
              simp only [Shape.map, Option.map_some, Shape.clause?, Option.bind_eq_bind,
                Option.pure_def, Option.bind_eq_some_iff] at stands
              obtain ⟨value, isValue, same⟩ := stands
              cases same
              exact Printer.printsStatement_throw (Printer.printsAs_node keeps isValue) location
  | jump form label =>
      cases label with
      | some label => contradiction
      | none =>
          cases stands
          exact Printer.printsStatement_jump form location
  | group form body =>
      cases form with
      | block =>
          simp only [Shape.map, Shape.clause?, Option.bind_eq_bind, Option.pure_def,
            Option.bind_eq_some_iff] at stands
          obtain ⟨items, areItems, same⟩ := stands
          cases same
          exact Printer.printsStatement_block (printsStatements_of_mapM areItems) location
      | _ => contradiction
  | ifStatement test consequent alternate =>
      cases alternate with
      | none =>
          simp only [Shape.map, Option.map_none, Shape.clause?, Option.bind_eq_bind,
            Option.pure_def, Option.bind_eq_some_iff] at stands
          obtain ⟨condition, isTest, first, isFirst, same⟩ := stands
          cases same
          exact Printer.printsStatement_ifThen (Printer.printsAs_node keeps isTest)
            (Printer.printsStatement_of_statement? isFirst) location
      | some alternate =>
          simp only [Shape.map, Option.map_some, Shape.clause?, Option.bind_eq_bind,
            Option.pure_def, Option.bind_eq_some_iff] at stands
          obtain ⟨condition, isTest, first, isFirst, second, isSecond, same⟩ := stands
          cases same
          exact Printer.printsStatement_ifElse (Printer.printsAs_node keeps isTest)
            (Printer.printsStatement_of_statement? isFirst)
            (Printer.printsStatement_of_statement? isSecond) location
  | loop form test body =>
      cases form with
      | whileLoop =>
          simp only [Shape.map, Shape.clause?, Option.bind_eq_bind, Option.pure_def,
            Option.bind_eq_some_iff] at stands
          obtain ⟨condition, isTest, repeated, isBody, same⟩ := stands
          cases same
          exact Printer.printsStatement_while (Printer.printsAs_node keeps isTest)
            (Printer.printsStatement_of_statement? isBody) location
      | doWhile =>
          simp only [Shape.map, Shape.clause?, Option.bind_eq_bind, Option.pure_def,
            Option.bind_eq_some_iff] at stands
          obtain ⟨repeated, isBody, condition, isTest, same⟩ := stands
          cases same
          exact Printer.printsStatement_doWhile (Printer.printsStatement_of_statement? isBody)
            (Printer.printsAs_node keeps isTest) location
  | forLoop init test update body =>
      simp only [Shape.map, Shape.clause?, Option.bind_eq_bind, Option.pure_def,
        Option.bind_eq_some_iff] at stands
      obtain ⟨start, isStart, condition, isTest, change, isUpdate, repeated, isBody, same⟩ := stands
      cases same
      exact Printer.printsStatement_forLoop keeps isStart isTest isUpdate
        (Printer.printsStatement_of_statement? isBody) location
  | forEach form left right body =>
      simp only [Shape.map, Shape.clause?, Option.bind_eq_bind, Option.bind_eq_some_iff] at stands
      obtain ⟨target, isTarget, collection, isCollection, repeated, isBody, same⟩ := stands
      split at same
      · contradiction
      · next valid =>
          cases same
          exact Printer.printsStatement_forEach keeps form isTarget isCollection
            (fun values => by simpa [values] using valid)
            (Printer.printsStatement_of_statement? isBody) location
  | tryStatement body handler finalizer =>
      cases handler with
      | none =>
          cases finalizer with
          | none => contradiction
          | some finalizer =>
              simp only [Shape.map, Option.map_none, Option.map_some, Shape.clause?,
                Option.bind_eq_bind, Option.pure_def, Option.bind_eq_some_iff] at stands
              obtain ⟨guarded, isBody, last, isLast, same⟩ := stands
              cases same
              exact Printer.printsStatement_tryFinally
                (Printer.printsStatement_of_statement? isBody)
                (Printer.printsStatement_of_statement? isLast) location
      | some handler =>
          cases finalizer with
          | none =>
              simp only [Shape.map, Option.map_none, Option.map_some, Shape.clause?,
                Option.bind_eq_bind, Option.pure_def, Option.bind_eq_some_iff] at stands
              obtain ⟨⟨caught, handled⟩, isHandler, guarded, isBody, same⟩ := stands
              cases same
              exact Printer.printsStatement_tryCatch
                (Printer.printsStatement_of_statement? isBody)
                (Printer.printsHandler_of_handler? isHandler) location
          | some finalizer =>
              simp only [Shape.map, Option.map_some, Shape.clause?, Option.bind_eq_bind,
                Option.pure_def, Option.bind_eq_some_iff] at stands
              obtain ⟨⟨caught, handled⟩, isHandler, guarded, isBody, last, isLast, same⟩ := stands
              cases same
              exact Printer.printsStatement_tryCatchFinally
                (Printer.printsStatement_of_statement? isBody)
                (Printer.printsHandler_of_handler? isHandler)
                (Printer.printsStatement_of_statement? isLast) location
  | catchClause param body =>
      simp only [Shape.map, Shape.clause?, Option.bind_eq_bind, Option.pure_def,
        Option.bind_eq_some_iff] at stands
      obtain ⟨caught, isCaught, handled, isBody, same⟩ := stands
      cases same
      exact Printer.printsHandler_catch keeps isCaught
        (Printer.printsStatement_of_statement? isBody) location
  | _ => contradiction

/-- The statements of a program are those that its nodes are printed as. -/
theorem printsStatements_of_statements {settings : Settings}
    (keeps : settings.options.KeepsNames) {body : List Node} {items : List Statement}
    (stand : body.mapM Node.statement? = some items) :
    List.Forall₂ (Printer.PrintsStatement settings)
      (body.map fun node => ⟨node, node.printAs⟩) items := by
  have results := forall₂_of_mapM stand
  rw [List.forall₂_map_left_iff]
  refine results.imp fun node item stands => ?_
  let part : {node : Node // node.PrintsClause settings} := ⟨node, node.printsClause keeps⟩
  exact @Printer.printsStatement_of_statement? settings part item stands

/-- A program of statements over expressions is generated without diagnostics, and
the normal forms of its statements are the only reading of the text. -/
theorem Settings.generate_program_reading (settings : Settings)
    (keeps : settings.options.KeepsNames) (location : Location) (body : List Node)
    (items : List Statement) (stand : body.mapM Node.statement? = some items) :
    ∃ (generated : Generated) (tokens : List Token),
      settings.generate ⟨location, .group .program body⟩ = .ok generated ∧
      generated.diagnostics = [] ∧ tokenize? generated.text.toList = some tokens ∧
      ∀ reading, ReadsProgram tokens reading ↔ reading = Statement.normalItems items := by
  have prints := printsStatements_of_statements keeps stand
  obtain ⟨next, written, unchanged, goesOn, ⟨spells, _⟩, ends⟩ :=
    Printer.emits_statements prints false {} ⟨.inl rfl, rfl⟩
  have characters : next.text.characters = written := by
    rw [IndentedText.characters, goesOn.reversed, List.reverse_append, List.reverse_reverse]
    rfl
  refine ⟨⟨next.text.toString, []⟩, Statement.itemsTokens (Statement.normalItems items), ?_, rfl,
    ?_, ?_⟩
  · have program : (Node.printAs ⟨location, .group .program body⟩ .plain).outcome settings {} =
        .ok ((), next) := by
      rw [Node.printAs_eq]
      change (Printer.topLevel (body.map fun node => ⟨node, node.printAs⟩)).outcome settings {} = _
      rw [Printer.topLevel, Printer.outcome_bind, ends]
      rfl
    rw [generate_of_ends program, unchanged.types, unchanged.diagnostics]
    rfl
  · have tokens := spells [] closes_nil
    rw [List.append_nil, tokenize?, Option.map_some, List.append_nil] at tokens
    rw [IndentedText.toString, String.toList_ofList, characters]
    exact tokens
  · have wellFormed := Printer.wellFormed_of_printsStatement prints
    have reads := itemsReadable_normal (fun item place => (wellFormed item place).readable) [] rfl
    rw [List.append_nil] at reads
    intro reading
    constructor
    · intro otherwise
      exact ReadsProgram.unique otherwise reads
    · rintro rfl
      exact reads

/-- An alternative that belongs to the inner of two conditional statements, before
one that belongs to the outer, and a loop with a guarded body. -/
theorem Settings.generate_program_reading_branches :
    let name (text : String) : Node := ⟨{}, .identifier text none false⟩
    let jump (form : JumpForm) : Node := ⟨{}, .jump form none⟩
    let empty : Node := ⟨{}, .leaf .empty⟩
    let block (items : List Node) : Node := ⟨{}, .group .block items⟩
    let plain (text : String) (isPlain : isPlainWord text = true) : Expression :=
      .name ⟨text, isPlain⟩
    ∃ (generated : Generated) (tokens : List Token),
      Settings.generate {} ⟨{}, .group .program
        [⟨{}, .ifStatement (name "a")
          ⟨{}, .ifStatement (name "b") (jump .breaking) (some empty)⟩
          (some ⟨{}, .ifStatement (name "c") (jump .continuing) (some (block []))⟩)⟩,
        empty,
        ⟨{}, .forEach .values
          ⟨{}, .variableDeclaration [⟨{}, .declarator (name "x") none⟩] "var"⟩ (name "d")
          ⟨{}, .tryStatement (block [empty])
            (some ⟨{}, .catchClause (some (name "e")) (jump .breaking)⟩) none⟩⟩]⟩ =
        .ok generated ∧
      generated.diagnostics = [] ∧ tokenize? generated.text.toList = some tokens ∧
      ∀ reading, ReadsProgram tokens reading ↔ reading =
        [.ifElse (plain "a" (by decide))
          (.block [.ifElse (plain "b" (by decide)) (.block [.simple (.jump .breaking)])
            (.block [])])
          (.ifThen (plain "c" (by decide)) (.block [.simple (.jump .continuing)])),
        .loop (.each .values (.declared .letting ⟨"x", by decide⟩) (plain "d" (by decide)))
          (.block [.tryCatch (.block []) (some ⟨"e", by decide⟩)
            (.block [.simple (.jump .breaking)])])] :=
  Settings.generate_program_reading {} (Options.keepsNames_of_identifiers rfl) {} _
    [.ifElse (.name ⟨"a", by decide⟩)
      (.ifElse (.name ⟨"b", by decide⟩) (.simple (.jump .breaking)) .empty)
      (.ifElse (.name ⟨"c", by decide⟩) (.simple (.jump .continuing)) (.block [])),
    .empty,
    .loop (.each .values (.declared .variable ⟨"x", by decide⟩) (.name ⟨"d", by decide⟩))
      (.tryCatch (.block [.empty]) (some ⟨"e", by decide⟩) (.simple (.jump .breaking)))]
    rfl

/-- A block with an empty statement stays behind `else`.  A statement that starts as the
declaration of a pattern, and a loop over values that starts as a declaration or as a
function, have no reading. -/
theorem Settings.generate_program_misread :
    let name (text : String) : Node := ⟨{}, .identifier text none false⟩
    let empty : Node := ⟨{}, .leaf .empty⟩
    let plain (text : String) (isPlain : isPlainWord text = true) : Expression :=
      .name ⟨text, isPlain⟩
    let prints (statement : Node) (text : String) (holds : List Token → Prop) : Prop :=
      Settings.generate {} ⟨{}, .group .program [statement]⟩ = .ok ⟨text, []⟩ ∧
        ∃ tokens, tokenize? text.toList = some tokens ∧ holds tokens
    prints ⟨{}, .ifStatement (name "a") ⟨{}, .expressionStatement (name "b")⟩
        (some ⟨{}, .group .block [empty]⟩)⟩
      "if (a) \x7b\n    b;\n\x7d else \x7b\x7d"
      (¬ ReadsProgram · [.ifThen (plain "a" (by decide))
        (.block [.simple (.expression (plain "b" (by decide)))])]) ∧
    prints ⟨{}, .expressionStatement ⟨{}, .member (name "let") (name "a") true false⟩⟩
      "let[a];" (fun tokens => ∀ items, ¬ ReadsProgram tokens items) ∧
    prints ⟨{}, .forEach .values (name "let") (name "a") empty⟩
      "for (let of a) \x7b\x7d" (fun tokens => ∀ items, ¬ ReadsProgram tokens items) ∧
    prints ⟨{}, .forEach .values (name "async") (name "a") empty⟩
      "for (async of a) \x7b\x7d" (fun tokens => ∀ items, ¬ ReadsProgram tokens items) := by
  dsimp only
  refine ⟨⟨rfl, ?_⟩, ⟨rfl, ?_⟩, ⟨rfl, ?_⟩, ⟨rfl, ?_⟩⟩
  · refine ⟨[.word "if", .sign "(", .word "a", .sign ")", .sign "\x7b", .word "b", .sign ";",
      .sign "\x7d", .word "else", .sign "\x7b", .sign "\x7d"], by decide +kernel, fun reads => ?_⟩
    cases reads.found 20 fun _ => rfl
  · refine ⟨[.word "let", .sign "[", .word "a", .sign "]", .sign ";"], by decide +kernel,
      fun items reads => ?_⟩
    cases reads.found 20 fun _ => rfl
  · refine ⟨[.word "for", .sign "(", .word "let", .word "of", .word "a", .sign ")", .sign "\x7b",
      .sign "\x7d"], by decide +kernel, fun items reads => ?_⟩
    cases reads.found 20 fun _ => rfl
  · refine ⟨[.word "for", .sign "(", .word "async", .word "of", .word "a", .sign ")",
      .sign "\x7b", .sign "\x7d"], by decide +kernel, fun items reads => ?_⟩
    cases reads.found 20 fun _ => rfl

end ScriptBridge

import ScriptBridge.Emit.Statement
import ScriptBridge.Proofs.Expression.Syntax

/-!
# Statements

This is the abstract syntax of statements over expressions, free of locations.
A statement has a normal form: its lists hold no empty statements, its branches
and bodies are blocks, and everything it declares is declared by `let` or
`const`.  The normal form is what statements are written in.
-/

namespace ScriptBridge

namespace Expression

mutual

/-- Whether the operator `in` occurs in an expression. -/
def usesIn : Expression → Bool
  | .name _ => false
  | .unary _ argument => argument.usesIn
  | .update _ _ argument => argument.usesIn
  | .binary operator left right => operator == .isIn || left.usesIn || right.usesIn
  | .assignment _ target value => target.usesIn || value.usesIn
  | .conditional test consequent alternate =>
      test.usesIn || consequent.usesIn || alternate.usesIn
  | .member object _ => object.usesIn
  | .index object property => object.usesIn || property.usesIn
  | .call callee arguments => callee.usesIn || anyUsesIn arguments
  | .construction callee arguments => callee.usesIn || anyUsesIn arguments
  | .sequence items => anyUsesIn items

/-- Whether the operator `in` occurs in one of several expressions. -/
def anyUsesIn : List Expression → Bool
  | [] => false
  | expression :: others => expression.usesIn || anyUsesIn others

end

end Expression

/-! ## Lookaheads

Some starts of statements are kept by the grammar for declarations and functions. -/

/-- Whether tokens start with `let [`, which starts the declaration of a pattern. -/
def startsAsPattern (tokens : List Token) : Bool :=
  [Token.word "let", .sign "["].isPrefixOf tokens

/-- Whether tokens start with `async of`, which starts a function. -/
def startsAsFunction (tokens : List Token) : Bool :=
  [Token.word "async", .word "of"].isPrefixOf tokens

/-- Whether the target of a loop over a collection may start with the given tokens.  In a
loop over values the word `let` declares. -/
def EachForm.admits : EachForm → List Token → Bool
  | .keys, tokens => !startsAsPattern tokens
  | .values, tokens => !([Token.word "let"].isPrefixOf tokens || startsAsFunction tokens)

/-- Whether tokens may stand as the target of a loop over a collection. -/
def EachForm.admitsTarget (form : EachForm) (tokens : List Token) : Bool :=
  form.admits (tokens ++ [Token.word (Printer.eachWord form)])

/-- The ways to declare variables. -/
inductive DeclarationKind where
  | variable
  | letting
  | constant
  deriving DecidableEq, Repr

namespace DeclarationKind

/-- The word in front of a declaration. -/
def word : DeclarationKind → String
  | .variable => "var"
  | .letting => "let"
  | .constant => "const"

/-- The kind with a given word; without a known word, variables are declared. -/
def ofText (text : String) : DeclarationKind :=
  if text = "const" then .constant else if text = "let" then .letting else .variable

/-- Only constants are told apart from other variables. -/
def normal : DeclarationKind → DeclarationKind
  | .constant => .constant
  | _ => .letting

end DeclarationKind

/-- One declared variable, possibly with a value. -/
structure Binding where
  name : PlainName
  value : Option Expression := none

/-- Statements without statements in them, which end with a semicolon. -/
inductive SimpleStatement where
  | expression (value : Expression)
  | declaration (kind : DeclarationKind) (bindings : List Binding)
  | returning (value : Option Expression)
  | throwing (value : Expression)
  | jump (form : JumpForm)

/-- What a counting loop does first. -/
inductive LoopStart where
  | nothing
  | expression (value : Expression)
  | declaration (kind : DeclarationKind) (bindings : List Binding)

/-- What a loop over a collection assigns to. -/
inductive LoopTarget where
  | place (target : Expression)
  | declared (kind : DeclarationKind) (name : PlainName)

/-- What stands in front of the body of a loop. -/
inductive LoopHead where
  | whileLoop (test : Expression)
  | counting (start : LoopStart) (test update : Option Expression)
  | each (form : EachForm) (target : LoopTarget) (collection : Expression)

/-- A statement. -/
inductive Statement where
  | empty
  | simple (content : SimpleStatement)
  | block (items : List Statement)
  | ifThen (test : Expression) (consequent : Statement)
  | ifElse (test : Expression) (consequent alternate : Statement)
  | loop (head : LoopHead) (body : Statement)
  | doWhile (body : Statement) (test : Expression)
  | tryCatch (body : Statement) (caught : Option PlainName) (handler : Statement)
  | tryFinally (body finalizer : Statement)
  | tryCatchFinally (body : Statement) (caught : Option PlainName)
      (handler finalizer : Statement)

/-! ## Well-formed statements -/

/-- The values of declared variables are well-formed. -/
def Binding.WellFormed (binding : Binding) : Prop :=
  ∀ value ∈ binding.value, value.WellFormed

/-- The expressions of a simple statement are well-formed, and it does not start as
the declaration of a pattern. -/
def SimpleStatement.WellFormed : SimpleStatement → Prop
  | .expression value => value.WellFormed ∧ startsAsPattern value.layout.tokens = false
  | .declaration _ bindings => bindings ≠ [] ∧ ∀ binding ∈ bindings, binding.WellFormed
  | .returning value => ∀ expression ∈ value, expression.WellFormed
  | .throwing value => value.WellFormed
  | .jump _ => True

/-- A loop starts like a simple statement, but without the operator `in`. -/
def LoopStart.WellFormed : LoopStart → Prop
  | .nothing => True
  | .expression value =>
      value.WellFormed ∧ startsAsPattern value.layout.tokens = false ∧ value.usesIn = false
  | .declaration _ bindings =>
      bindings ≠ [] ∧ (∀ binding ∈ bindings, binding.WellFormed) ∧
        ∀ binding ∈ bindings, ∀ value ∈ binding.value, value.usesIn = false

/-- A loop assigns to a name or a member that may stand at its start. -/
def LoopTarget.WellFormed (form : EachForm) : LoopTarget → Prop
  | .place target =>
      target.WellFormed ∧ target.isTarget = true ∧ form.admitsTarget target.layout.tokens = true
  | .declared _ _ => True

/-- The parts of the head of a loop are well-formed, and a sequence is a collection
of keys only. -/
def LoopHead.WellFormed : LoopHead → Prop
  | .whileLoop test => test.WellFormed
  | .counting start test update =>
      start.WellFormed ∧ (∀ expression ∈ test, expression.WellFormed) ∧
        ∀ expression ∈ update, expression.WellFormed
  | .each form target collection =>
      target.WellFormed form ∧ collection.WellFormed ∧
        (form = .values → collection.isSequence = false)

/-- The statements with well-formed parts. -/
inductive Statement.WellFormed : Statement → Prop where
  | empty : WellFormed .empty
  | simple {content : SimpleStatement} : content.WellFormed → WellFormed (.simple content)
  | block {items : List Statement} :
      (∀ item ∈ items, WellFormed item) → WellFormed (.block items)
  | ifThen {test : Expression} {consequent : Statement} :
      test.WellFormed → WellFormed consequent → WellFormed (.ifThen test consequent)
  | ifElse {test : Expression} {consequent alternate : Statement} :
      test.WellFormed → WellFormed consequent → WellFormed alternate →
        WellFormed (.ifElse test consequent alternate)
  | loop {head : LoopHead} {body : Statement} :
      head.WellFormed → WellFormed body → WellFormed (.loop head body)
  | doWhile {body : Statement} {test : Expression} :
      WellFormed body → test.WellFormed → WellFormed (.doWhile body test)
  | tryCatch {body : Statement} (caught : Option PlainName) {handler : Statement} :
      WellFormed body → WellFormed handler → WellFormed (.tryCatch body caught handler)
  | tryFinally {body finalizer : Statement} :
      WellFormed body → WellFormed finalizer → WellFormed (.tryFinally body finalizer)
  | tryCatchFinally {body : Statement} (caught : Option PlainName)
      {handler finalizer : Statement} :
      WellFormed body → WellFormed handler → WellFormed finalizer →
        WellFormed (.tryCatchFinally body caught handler finalizer)

/-! ## Normal forms -/

/-- The normal form of a simple statement. -/
def SimpleStatement.normal : SimpleStatement → SimpleStatement
  | .declaration kind bindings => .declaration kind.normal bindings
  | content => content

/-- The normal form of the start of a loop. -/
def LoopStart.normal : LoopStart → LoopStart
  | .declaration kind bindings => .declaration kind.normal bindings
  | start => start

/-- The normal form of the target of a loop. -/
def LoopTarget.normal : LoopTarget → LoopTarget
  | .declared kind name => .declared kind.normal name
  | target => target

/-- The normal form of the head of a loop. -/
def LoopHead.normal : LoopHead → LoopHead
  | .whileLoop test => .whileLoop test
  | .counting start test update => .counting start.normal test update
  | .each form target collection => .each form target.normal collection

namespace Statement

/-- Whether a statement is the empty one. -/
def isEmpty : Statement → Bool
  | .empty => true
  | _ => false

/-- Whether a statement is a block without statements. -/
def isEmptyBlock : Statement → Bool
  | .block [] => true
  | _ => false

/-- Whether a statement is a conditional one. -/
def isConditional : Statement → Bool
  | .ifThen .. => true
  | .ifElse .. => true
  | _ => false

/-- A block as it is, any other statement in a block of its own. -/
def enclosed : Statement → Statement
  | .empty => .block []
  | .block items => .block items
  | statement => .block [statement]

mutual

/-- The normal form of a statement.  A conditional statement stays behind `else`
as it is, and an alternative without statements is dropped. -/
def normal : Statement → Statement
  | .empty => .empty
  | .simple content => .simple content.normal
  | .block items => .block (normalItems items)
  | .ifThen test consequent => .ifThen test consequent.normal.enclosed
  | .ifElse test consequent alternate =>
      if alternate.isEmptyBlock then .ifThen test consequent.normal.enclosed
      else if alternate.isConditional then
        .ifElse test consequent.normal.enclosed alternate.normal
      else .ifElse test consequent.normal.enclosed alternate.normal.enclosed
  | .loop head body => .loop head.normal body.normal.enclosed
  | .doWhile body test => .doWhile body.normal.enclosed test
  | .tryCatch body caught handler =>
      .tryCatch body.normal.enclosed caught handler.normal.enclosed
  | .tryFinally body finalizer => .tryFinally body.normal.enclosed finalizer.normal.enclosed
  | .tryCatchFinally body caught handler finalizer =>
      .tryCatchFinally body.normal.enclosed caught handler.normal.enclosed
        finalizer.normal.enclosed

/-- The normal forms of the statements of a list, less the empty ones. -/
def normalItems : List Statement → List Statement
  | [] => []
  | item :: rest =>
      if item.isEmpty then normalItems rest else item.normal :: normalItems rest

end

end Statement

/-! ## Layouts -/

/-- How a declared variable is written. -/
def Binding.layout : Binding → Layout
  | ⟨name, none⟩ => [.word name.text]
  | ⟨name, some value⟩ =>
      [.word name.text] ++ Expression.betweenLayout "=" ++
        Expression.operandLayout .tight 20 value.rank value.layout

/-- How declared variables are written. -/
def bindingsLayout : List Binding → Layout
  | [] => []
  | [binding] => binding.layout
  | binding :: next :: rest =>
      binding.layout ++ [.sign ",", .blank] ++ bindingsLayout (next :: rest)

/-- How a declaration of variables is written. -/
def declarationLayout (kind : DeclarationKind) (bindings : List Binding) : Layout :=
  [Piece.word kind.word, .blank] ++ bindingsLayout bindings

/-- How an expression is written that may be absent. -/
def optionalLayout : Option Expression → Layout
  | none => []
  | some value => [.blank] ++ value.layout

/-- How a simple statement is written, without its semicolon. -/
def SimpleStatement.layout : SimpleStatement → Layout
  | .expression value => value.layout
  | .declaration kind bindings => declarationLayout kind bindings
  | .returning value => [.word "return"] ++ optionalLayout value
  | .throwing value => [.word "throw", .blank] ++ value.layout
  | .jump form => [.word (Printer.jumpWord form)]

/-- How the start of a loop is written. -/
def LoopStart.layout : LoopStart → Layout
  | .nothing => []
  | .expression value => value.layout
  | .declaration kind bindings => declarationLayout kind bindings

/-- How the target of a loop is written. -/
def LoopTarget.layout : LoopTarget → Layout
  | .place target => target.layout
  | .declared kind name => declarationLayout kind [⟨name, none⟩]

/-- A word with something in parentheses behind it. -/
def parenthesized (word : String) (layout : Layout) : Layout :=
  [Piece.word word, .blank] ++ Expression.enclosed layout

/-- How the head of a loop is written. -/
def LoopHead.layout : LoopHead → Layout
  | .whileLoop test => parenthesized "while" test.layout
  | .counting start test update =>
      parenthesized "for"
        (start.layout ++ [.sign ";"] ++ optionalLayout test ++ [.sign ";"] ++
          optionalLayout update)
  | .each form target collection =>
      parenthesized "for"
        (target.layout ++ [.blank, .word (Printer.eachWord form), .blank] ++ collection.layout)

/-- How the start of a handler is written. -/
def handlerLayout : Option PlainName → Layout
  | none => [.word "catch", .blank]
  | some name => parenthesized "catch" [.word name.text] ++ [.blank]

namespace Statement

mutual

/-- The tokens of a statement. -/
def tokens : Statement → List Token
  | .empty => [.sign ";"]
  | .simple content => content.layout.tokens ++ [.sign ";"]
  | .block items => [.sign "\x7b"] ++ itemsTokens items ++ [.sign "\x7d"]
  | .ifThen test consequent =>
      (parenthesized "if" test.layout).tokens ++ consequent.tokens
  | .ifElse test consequent alternate =>
      (parenthesized "if" test.layout).tokens ++ consequent.tokens ++ [.word "else"] ++
        alternate.tokens
  | .loop head body => head.layout.tokens ++ body.tokens
  | .doWhile body test =>
      [.word "do"] ++ body.tokens ++ (parenthesized "while" test.layout).tokens ++ [.sign ";"]
  | .tryCatch body caught handler =>
      [.word "try"] ++ body.tokens ++ (handlerLayout caught).tokens ++ handler.tokens
  | .tryFinally body finalizer =>
      [.word "try"] ++ body.tokens ++ [.word "finally"] ++ finalizer.tokens
  | .tryCatchFinally body caught handler finalizer =>
      [.word "try"] ++ body.tokens ++ (handlerLayout caught).tokens ++ handler.tokens ++
        [.word "finally"] ++ finalizer.tokens

/-- The tokens of the statements of a list. -/
def itemsTokens : List Statement → List Token
  | [] => []
  | item :: rest => item.tokens ++ itemsTokens rest

end

end Statement

end ScriptBridge

/-!
## The grammar of statements

Simple statements and the heads of loops are read as a whole.  A statement is
read at the front of a list of tokens and leaves the others behind, since a
conditional statement without an alternative looks ahead: no `else` may follow.
Declarations by `let` and `const` stand only in lists of statements.  What else starts
with `let` must not go on as the declaration of a pattern would.

The lookaheads of the grammar are part of it.  Names that are declared twice and the
like, which are errors of texts that the grammar reads, are not.
-/

namespace ScriptBridge

/-- Tokens as a declared variable. -/
inductive ReadsBinding : List Token → Binding → Prop where
  | bare (name : PlainName) : ReadsBinding [.word name.text] ⟨name, none⟩
  | valued (name : PlainName) {tokens : List Token} {value : Expression} :
      Reads (.tier 17) tokens value →
        ReadsBinding ([Token.word name.text, .sign "="] ++ tokens) ⟨name, some value⟩

/-- Tokens as declared variables with commas between them. -/
inductive ReadsBindings : List Token → List Binding → Prop where
  | last {tokens : List Token} {binding : Binding} :
      ReadsBinding tokens binding → ReadsBindings tokens [binding]
  | more {first second : List Token} {binding : Binding} {bindings : List Binding} :
      ReadsBinding first binding → ReadsBindings second bindings →
        ReadsBindings (first ++ [Token.sign ","] ++ second) (binding :: bindings)

/-- Tokens as an expression that may be absent. -/
inductive ReadsOptional : List Token → Option Expression → Prop where
  | absent : ReadsOptional [] none
  | present {tokens : List Token} {value : Expression} :
      Reads .expression tokens value → ReadsOptional tokens (some value)

/-- Tokens as a simple statement without its semicolon. -/
inductive ReadsSimple : List Token → SimpleStatement → Prop where
  | expression {tokens : List Token} {value : Expression} :
      Reads .expression tokens value → startsAsPattern tokens = false →
        ReadsSimple tokens (.expression value)
  | declaration (kind : DeclarationKind) {tokens : List Token} {bindings : List Binding} :
      ReadsBindings tokens bindings →
        ReadsSimple ([Token.word kind.word] ++ tokens) (.declaration kind bindings)
  | returning {tokens : List Token} {value : Option Expression} :
      ReadsOptional tokens value →
        ReadsSimple ([Token.word "return"] ++ tokens) (.returning value)
  | throwing {tokens : List Token} {value : Expression} :
      Reads .expression tokens value →
        ReadsSimple ([Token.word "throw"] ++ tokens) (.throwing value)
  | jump (form : JumpForm) : ReadsSimple [.word (Printer.jumpWord form)] (.jump form)

/-- Whether the operator `in` stands outside of parentheses, of brackets and of
the middle of conditional expressions, where it would end the target of a loop. -/
def holdsBareIn : Nat → List Token → Bool
  | _, [] => false
  | depth, token :: rest =>
      if token ∈ [.sign "(", .sign "[", .sign "?"] then holdsBareIn (depth + 1) rest
      else if token ∈ [.sign ")", .sign "]", .sign ":"] then holdsBareIn (depth - 1) rest
      else if token = .word "in" && depth = 0 then true
      else holdsBareIn depth rest

/-- Tokens as the start of a counting loop. -/
inductive ReadsStart : List Token → LoopStart → Prop where
  | nothing : ReadsStart [] .nothing
  | expression {tokens : List Token} {value : Expression} :
      Reads .expression tokens value → startsAsPattern tokens = false →
        holdsBareIn 0 tokens = false → ReadsStart tokens (.expression value)
  | declaration (kind : DeclarationKind) {tokens : List Token} {bindings : List Binding} :
      ReadsBindings tokens bindings → holdsBareIn 0 tokens = false →
        ReadsStart ([Token.word kind.word] ++ tokens) (.declaration kind bindings)

/-- Tokens as the target of a loop over a collection. -/
inductive ReadsTarget (form : EachForm) : List Token → LoopTarget → Prop where
  | place {tokens : List Token} {target : Expression} :
      Reads (.tier 2) tokens target → form.admitsTarget tokens = true →
        ReadsTarget form tokens (.place target)
  | declared (kind : DeclarationKind) (name : PlainName) :
      ReadsTarget form [.word kind.word, .word name.text] (.declared kind name)

/-- The tokens that a collection is read from.  A sequence is a collection of keys
only. -/
def EachForm.goal : EachForm → Goal
  | .keys => .expression
  | .values => .tier 17

/-- Tokens as the head of a loop. -/
inductive ReadsHead : List Token → LoopHead → Prop where
  | whileLoop {tokens : List Token} {test : Expression} :
      Reads .expression tokens test →
        ReadsHead ([Token.word "while", .sign "("] ++ tokens ++ [Token.sign ")"]) (.whileLoop test)
  | counting {first second third : List Token} {start : LoopStart}
      {test update : Option Expression} :
      ReadsStart first start → ReadsOptional second test → ReadsOptional third update →
        ReadsHead
          ([Token.word "for", .sign "("] ++ first ++ [Token.sign ";"] ++ second ++
            [Token.sign ";"] ++ third ++ [Token.sign ")"])
          (.counting start test update)
  | each (form : EachForm) {first second : List Token} {target : LoopTarget}
      {collection : Expression} :
      ReadsTarget form first target → Reads form.goal second collection →
        ReadsHead
          ([Token.word "for", .sign "("] ++ first ++ [Token.word (Printer.eachWord form)] ++
            second ++ [Token.sign ")"])
          (.each form target collection)

/-- Tokens as the start of a handler. -/
inductive ReadsHandler : List Token → Option PlainName → Prop where
  | unnamed : ReadsHandler [.word "catch"] none
  | named (name : PlainName) :
      ReadsHandler [.word "catch", .sign "(", .word name.text, .sign ")"] (some name)

/-- Whether a statement is a declaration that belongs to the list around it. -/
def SimpleStatement.isLexical : SimpleStatement → Bool
  | .declaration kind _ => kind != .variable
  | _ => false

/-- Where a statement is read. -/
inductive Place where
  /-- As a branch or a body. -/
  | branch
  /-- As one of a list. -/
  | item
  /-- As many as there are of a list. -/
  | items
  deriving DecidableEq, Repr

/-- The readings of statements at the front of tokens, with the tokens behind
them.  A list of statements is read as the block of them. -/
inductive Parses : Place → List Token → Statement → List Token → Prop where
  | empty (rest : List Token) : Parses .branch (.sign ";" :: rest) .empty rest
  | simple {tokens : List Token} {content : SimpleStatement} (rest : List Token) :
      ReadsSimple tokens content → content.isLexical = false →
        Parses .branch (tokens ++ .sign ";" :: rest) (.simple content) rest
  | lexical {tokens : List Token} {content : SimpleStatement} (rest : List Token) :
      ReadsSimple tokens content → content.isLexical = true →
        Parses .item (tokens ++ .sign ";" :: rest) (.simple content) rest
  | block {input rest : List Token} {items : List Statement} :
      Parses .items input (.block items) (.sign "\x7d" :: rest) →
        Parses .branch (.sign "\x7b" :: input) (.block items) rest
  | ifThen {tokens input rest : List Token} {test : Expression} {consequent : Statement} :
      Reads .expression tokens test → Parses .branch input consequent rest →
        rest.head? ≠ some (.word "else") →
        Parses .branch ([Token.word "if", .sign "("] ++ tokens ++ .sign ")" :: input)
          (.ifThen test consequent) rest
  | ifElse {tokens input other rest : List Token} {test : Expression}
      {consequent alternate : Statement} :
      Reads .expression tokens test →
        Parses .branch input consequent (.word "else" :: other) →
        Parses .branch other alternate rest →
        Parses .branch ([Token.word "if", .sign "("] ++ tokens ++ .sign ")" :: input)
          (.ifElse test consequent alternate) rest
  | loop {tokens input rest : List Token} {head : LoopHead} {body : Statement} :
      ReadsHead tokens head → Parses .branch input body rest →
        Parses .branch (tokens ++ input) (.loop head body) rest
  | doWhile {input tokens rest : List Token} {body : Statement} {test : Expression} :
      Parses .branch input body
        ([Token.word "while", .sign "("] ++ tokens ++ .sign ")" :: .sign ";" :: rest) →
        Reads .expression tokens test →
        Parses .branch (.word "do" :: input) (.doWhile body test) rest
  | tryCatch {input tokens other rest : List Token} {items handled : List Statement}
      {caught : Option PlainName} :
      Parses .branch input (.block items) (tokens ++ other) → ReadsHandler tokens caught →
        Parses .branch other (.block handled) rest → rest.head? ≠ some (.word "finally") →
        Parses .branch (.word "try" :: input) (.tryCatch (.block items) caught (.block handled))
          rest
  | tryFinally {input other rest : List Token} {items last : List Statement} :
      Parses .branch input (.block items) (.word "finally" :: other) →
        Parses .branch other (.block last) rest →
        Parses .branch (.word "try" :: input) (.tryFinally (.block items) (.block last)) rest
  | tryCatchFinally {input tokens other final rest : List Token}
      {items handled last : List Statement} {caught : Option PlainName} :
      Parses .branch input (.block items) (tokens ++ other) → ReadsHandler tokens caught →
        Parses .branch other (.block handled) (.word "finally" :: final) →
        Parses .branch final (.block last) rest →
        Parses .branch (.word "try" :: input)
          (.tryCatchFinally (.block items) caught (.block handled) (.block last)) rest
  | itemOfBranch {input rest : List Token} {statement : Statement} :
      Parses .branch input statement rest → Parses .item input statement rest
  | noItems (rest : List Token) : Parses .items rest (.block []) rest
  | moreItems {input middle rest : List Token} {item : Statement} {items : List Statement} :
      Parses .item input item middle → Parses .items middle (.block items) rest →
        Parses .items input (.block (item :: items)) rest

/-- The readings of tokens as the statements of a program. -/
def ReadsProgram (tokens : List Token) (items : List Statement) : Prop :=
  Parses .items tokens (.block items) []

end ScriptBridge

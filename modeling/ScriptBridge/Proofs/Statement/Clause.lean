import ScriptBridge.Proofs.Expression.Printing
import ScriptBridge.Proofs.Statement.Blocks

/-!
# Statements of trees

A tree stands for a statement, or for the handler of a guarded one, if it is
built from the constructs of statements over expressions and nothing else, and if none
of them starts as the grammar forbids.  What
needs no lines of its own, declarations of variables, simple statements and the
heads of loops, is printed as the layout of its normal form.
-/

namespace ScriptBridge

/-- The name with a given text, if it is one. -/
def PlainName.ofText? (text : String) : Option PlainName :=
  if isPlain : isPlainWord text = true then some ⟨text, isPlain⟩ else none

theorem PlainName.text_of_ofText? {text : String} {name : PlainName}
    (found : ofText? text = some name) : name.text = text := by
  unfold ofText? at found
  split at found
  · cases found
    rfl
  · contradiction

namespace Node

/-- The expression that a tree stands for where there may be none. -/
def optionalExpression? : Option Node → Option (Option Expression)
  | none => some none
  | some node => node.expression?.map some

/-- The variable that a declarator declares. -/
def binding? : Node → Option Binding
  | ⟨_, .declarator ⟨_, .identifier name none false⟩ init⟩ => do
      return ⟨← PlainName.ofText? name, ← optionalExpression? init⟩
  | _ => none

/-- The name that a handler binds, whatever its type. -/
def caught? : Option Node → Option (Option PlainName)
  | none => some none
  | some node => do
      return some (← PlainName.ofText? (← node.identifier?))

end Node

/-- What a tree of a statement stands for. -/
inductive Clause where
  | statement (content : Statement)
  /-- The handler of a guarded statement. -/
  | handler (caught : Option PlainName) (body : Statement)

/-- The statement that a part stands for. -/
def Folded.statement? (part : Folded (Option Clause)) : Option Statement :=
  match part.result with
  | some (.statement content) => some content
  | _ => none

/-- The handler that a part stands for. -/
def Folded.handler? (part : Folded (Option Clause)) : Option (Option PlainName × Statement) :=
  match part.result with
  | some (.handler caught body) => some (caught, body)
  | _ => none

/-- The variables that a part declares. -/
def Folded.declaration? (part : Folded (Option Clause)) :
    Option (DeclarationKind × List Binding) :=
  match part.result with
  | some (.statement (.simple (.declaration kind bindings))) => some (kind, bindings)
  | _ => none

/-- What a counting loop does first; the operator `in` does not occur there. -/
def loopStart? : Option (Folded (Option Clause)) → Option LoopStart
  | none => some .nothing
  | some part =>
      match part.declaration? with
      | some (kind, bindings) =>
          if bindings.all fun binding => !binding.value.any Expression.usesIn then
            some (.declaration kind bindings)
          else none
      | none => do
          let value ← part.node.expression?
          if startsAsPattern value.layout.tokens || value.usesIn then none
          else some (.expression value)

/-- What a loop over a collection assigns to. -/
def loopTarget? (form : EachForm) (part : Folded (Option Clause)) : Option LoopTarget :=
  match part.declaration? with
  | some (kind, [⟨name, none⟩]) => some (.declared kind name)
  | some _ => none
  | none => do
      let target ← part.node.expression?
      if target.isTarget && form.admitsTarget target.layout.tokens then some (.place target)
      else none

/-- The clause of a shape, given those of its parts. -/
def Shape.clause? : Shape (Folded (Option Clause)) → Option Clause
  | .leaf .empty => some (.statement .empty)
  | .expressionStatement expression => do
      let value ← expression.node.expression?
      if startsAsPattern value.layout.tokens then none
      else some (.statement (.simple (.expression value)))
  | .variableDeclaration declarations kind => do
      let bindings ← declarations.mapM (·.node.binding?)
      if bindings.isEmpty then none
      else some (.statement (.simple (.declaration (.ofText kind) bindings)))
  | .exit .returning value => do
      return .statement (.simple (.returning (← Node.optionalExpression? (value.map (·.node)))))
  | .exit .throwing (some value) => do
      return .statement (.simple (.throwing (← value.node.expression?)))
  | .jump form none => some (.statement (.simple (.jump form)))
  | .group .block body => do
      return .statement (.block (← body.mapM (·.statement?)))
  | .ifStatement test consequent none => do
      return .statement (.ifThen (← test.node.expression?) (← consequent.statement?))
  | .ifStatement test consequent (some alternate) => do
      return .statement (.ifElse (← test.node.expression?) (← consequent.statement?)
        (← alternate.statement?))
  | .loop .whileLoop test body => do
      return .statement (.loop (.whileLoop (← test.node.expression?)) (← body.statement?))
  | .loop .doWhile test body => do
      return .statement (.doWhile (← body.statement?) (← test.node.expression?))
  | .forLoop init test update body => do
      let start ← loopStart? init
      let test ← Node.optionalExpression? (test.map (·.node))
      let update ← Node.optionalExpression? (update.map (·.node))
      return .statement (.loop (.counting start test update) (← body.statement?))
  | .forEach form left right body => do
      let target ← loopTarget? form left
      let collection ← right.node.expression?
      let body ← body.statement?
      if form = .values ∧ collection.isSequence then none
      else some (.statement (.loop (.each form target collection) body))
  | .tryStatement body (some handler) none => do
      let (caught, handled) ← handler.handler?
      return .statement (.tryCatch (← body.statement?) caught handled)
  | .tryStatement body none (some finalizer) => do
      return .statement (.tryFinally (← body.statement?) (← finalizer.statement?))
  | .tryStatement body (some handler) (some finalizer) => do
      let (caught, handled) ← handler.handler?
      return .statement (.tryCatchFinally (← body.statement?) caught handled
        (← finalizer.statement?))
  | .catchClause param body => do
      return .handler (← Node.caught? (param.map (·.node))) (← body.statement?)
  | _ => none

/-- The clause that a tree stands for, if it is one of statements over expressions. -/
def Node.clause? : Node → Option Clause :=
  fold fun _ shape => shape.clause?

theorem Node.clause?_eq (location : Location) (shape : Shape Node) :
    Node.clause? ⟨location, shape⟩ =
      (shape.map fun part => ⟨part, part.clause?⟩).clause? := by
  unfold Node.clause?
  rw [Node.fold_eq]

/-- The statement that a tree stands for.  None is one that would be written with a start
that the grammar keeps for something else: an expression statement or the start of a loop
with `let [`, or the target of a loop over values with `let` or as `async`. -/
def Node.statement? (node : Node) : Option Statement :=
  Folded.statement? ⟨node, node.clause?⟩

namespace Printer

variable {settings : Settings}

theorem PrintsAs.print {part : Part} {expression : Expression}
    (printsAs : PrintsAs settings part expression) :
    Yields settings part.print () expression.layout.characters :=
  printsAs.prints .plain (by simp)

theorem printsAs_node (keeps : settings.options.KeepsNames) {node : Node}
    {expression : Expression} (stands : node.expression? = some expression) :
    PrintsAs settings ⟨node, node.printAs⟩ expression :=
  node.printsFaithfully keeps expression stands

theorem characters_word (text : String) : Layout.characters [.word text] = text.toList := by
  simp only [Layout.characters_cons, Layout.characters_nil, List.append_nil]
  rfl

/-! ## Declarations -/

/-- A declared name is remembered, which leaves the text as it is. -/
theorem yields_declaredName (keeps : settings.options.KeepsNames) (text : String) :
    Yields settings (name .declaredName text) () text.toList := by
  intro state plain fits
  refine ⟨{ state with
      text := state.text.write text
      scopes := state.scopes.declareLocal text }, ⟨?_, rfl, rfl⟩,
    IndentedText.continues_write plain.coherent fits, ?_⟩
  · have outside := plain.outside
    simp only [ScopeStack.declareLocal, ScopeStack.modifyTop, Scope.modifyFunction]
    split
    · exact outside
    · exact outside
  · simp only [name, outcome_bind, outcome_read, outcome_modifyScopes, outcome_write,
      keeps text]

theorem yields_declaredIdentifier (keeps : settings.options.KeepsNames) (location : Location)
    (text : String) :
    Yields settings (Node.printAs ⟨location, .identifier text none false⟩ .declaredName) ()
      text.toList := by
  rw [Node.printAs_eq]
  have all : Yields settings (identifier .declaredName text none false) () _ :=
    (yields_declaredName keeps text).andThen ((yields_pure ()).andThen (yields_pure ()))
  rw [List.append_nil, List.append_nil] at all
  exact all

/-- A declarator is printed as the variable that it declares. -/
theorem yields_binding (keeps : settings.options.KeepsNames) {node : Node} {binding : Binding}
    (stands : node.binding? = some binding) :
    binding.WellFormed ∧ Yields settings (node.printAs .plain) () binding.layout.characters := by
  unfold Node.binding? at stands
  split at stands
  · next location nameLocation text init =>
      simp only [Option.bind_eq_bind, Option.pure_def, Option.bind_eq_some_iff] at stands
      obtain ⟨name, isName, value, isValue, same⟩ := stands
      cases same
      obtain rfl := PlainName.text_of_ofText? isName
      have declared := yields_declaredIdentifier keeps nameLocation name.text
      rw [Node.printAs_eq]
      cases init with
      | none =>
          cases isValue
          have printed := declared.andThen (yields_pure ())
          rw [List.append_nil, ← characters_word] at printed
          exact ⟨nofun, printed⟩
      | some init =>
          simp only [Node.optionalExpression?, Option.map_eq_some_iff] at isValue
          obtain ⟨expression, isExpression, rfl⟩ := isValue
          have printsAs := printsAs_node keeps isExpression
          have printed := declared.andThen
            ((yields_write " = ").andThen (printsAs.operand .tight 20))
          refine ⟨?_, ?_⟩
          · intro other same
            cases same
            exact printsAs.wellFormed
          · rw [Binding.layout, Layout.characters_append, Layout.characters_append,
              characters_word, List.append_assoc]
            exact printed
  · contradiction

theorem yields_bindings (keeps : settings.options.KeepsNames) {nodes : List Node}
    {bindings : List Binding}
    (stand : List.Forall₂ (fun node binding => Node.binding? node = some binding) nodes bindings) :
    (∀ binding ∈ bindings, binding.WellFormed) ∧
      Yields settings
        (separated Folded.print (nodes.map fun node => (⟨node, node.printAs⟩ : Part))) ()
        (bindingsLayout bindings).characters := by
  induction stand with
  | nil => exact ⟨nofun, yields_pure ()⟩
  | cons first others ih =>
      obtain ⟨wellFormed, printed⟩ := yields_binding keeps first
      refine ⟨?_, ?_⟩
      · intro binding place
        rcases List.mem_cons.mp place with rfl | place
        · exact wellFormed
        · exact ih.1 binding place
      · cases others with
        | nil => exact printed
        | cons second others =>
            have all := printed.andThen ((yields_write ", ").andThen ih.2)
            simp only [bindingsLayout, Layout.characters_append, List.append_assoc]
            exact all

/-- Only the words of constants are kept apart. -/
theorem DeclarationKind.word_normal (kind : String) :
    (DeclarationKind.ofText kind).normal.word = if kind = "const" then "const" else "let" := by
  unfold DeclarationKind.ofText
  split_ifs <;> rfl

theorem yields_declaration (keeps : settings.options.KeepsNames) {nodes : List Node}
    {bindings : List Binding}
    (stand : List.Forall₂ (fun node binding => Node.binding? node = some binding) nodes bindings)
    (kind : String) :
    (∀ binding ∈ bindings, binding.WellFormed) ∧
      Yields settings
        (variableDeclaration .plain (nodes.map fun node => (⟨node, node.printAs⟩ : Part)) kind) ()
        (declarationLayout (DeclarationKind.ofText kind).normal bindings).characters := by
  obtain ⟨wellFormed, printed⟩ := yields_bindings keeps stand
  have word : Yields settings (write (if kind = "const" then "const " else "let ")) ()
      (Layout.characters [.word (DeclarationKind.ofText kind).normal.word, .blank]) := by
    rw [DeclarationKind.word_normal]
    split
    · exact yields_write "const "
    · exact yields_write "let "
  have all := (yields_pure ()).andThen (word.andThen printed)
  rw [declarationLayout, Layout.characters_append]
  exact ⟨wellFormed, all⟩

/-! ## Heads of loops -/

/-- A part is printed as the handler of a guarded statement. -/
structure PrintsHandler (settings : Settings) (part : Part) (caught : Option PlainName)
    (body : Statement) : Prop where
  wellFormed : body.WellFormed
  prints : Emits settings part.print ()
    (Spells · ((handlerLayout caught).tokens ++ body.normal.enclosed.tokens))

/-- A part is printed as a clause. -/
def PrintsClause (settings : Settings) (part : Part) : Clause → Prop
  | .statement content => PrintsStatement settings part content
  | .handler caught body => PrintsHandler settings part caught body

end Printer

/-- A node is printed as the clause that it stands for, if there is one. -/
def Node.PrintsClause (settings : Settings) (node : Node) : Prop :=
  ∀ clause, node.clause? = some clause →
    Printer.PrintsClause settings ⟨node, node.printAs⟩ clause

/-- A node with the clause that it stands for. -/
def Node.withClause {settings : Settings} (node : {node : Node // node.PrintsClause settings}) :
    Folded (Option Clause) :=
  ⟨node.1, node.1.clause?⟩

/-- A node with its printer. -/
def Node.asPart {settings : Settings} (node : {node : Node // node.PrintsClause settings}) :
    Part :=
  ⟨node.1, node.1.printAs⟩

namespace Printer

variable {settings : Settings} {part : {node : Node // node.PrintsClause settings}}

theorem printsStatement_of_statement? {content : Statement}
    (stands : (Node.withClause part).statement? = some content) :
    PrintsStatement settings (Node.asPart part) content := by
  unfold Folded.statement? at stands
  split at stands
  · next found =>
      cases stands
      exact part.2 _ found
  · contradiction

theorem printsHandler_of_handler? {caught : Option PlainName} {body : Statement}
    (stands : (Node.withClause part).handler? = some (caught, body)) :
    PrintsHandler settings (Node.asPart part) caught body := by
  unfold Folded.handler? at stands
  split at stands
  · next found =>
      cases stands
      exact part.2 _ found
  · contradiction

theorem printsStatement_of_declaration? {kind : DeclarationKind} {bindings : List Binding}
    (stands : (Node.withClause part).declaration? = some (kind, bindings)) :
    PrintsStatement settings (Node.asPart part) (.simple (.declaration kind bindings)) := by
  unfold Folded.declaration? at stands
  split at stands
  · next found =>
      cases stands
      exact part.2 _ found
  · contradiction

theorem PrintsStatement.wellFormed_content {part : Part} {content : SimpleStatement}
    (prints : PrintsStatement settings part (.simple content)) : content.WellFormed := by
  cases prints.wellFormed with
  | simple wellFormed => exact wellFormed

/-- What a counting loop does first is printed like a statement. -/
theorem yields_start (keeps : settings.options.KeepsNames)
    {init : Option {node : Node // node.PrintsClause settings}} {start : LoopStart}
    (stands : loopStart? (init.map Node.withClause) = some start) :
    start.WellFormed ∧ Yields settings (whenPresent (init.map Node.asPart) Folded.print) ()
      start.normal.layout.characters := by
  cases init with
  | none =>
      cases stands
      exact ⟨trivial, yields_pure ()⟩
  | some part =>
      simp only [Option.map_some, loopStart?] at stands
      split at stands
      · next kind bindings declares =>
          have prints := printsStatement_of_declaration? declares
          split at stands
          · next unused =>
              cases stands
              obtain ⟨nonempty, wellFormed⟩ := prints.wellFormed_content
              refine ⟨⟨nonempty, wellFormed, ?_⟩, prints.content _ rfl⟩
              intro binding place value isValue
              have spared := List.all_eq_true.mp unused binding place
              rw [Option.mem_def] at isValue
              simpa [isValue] using spared
          · contradiction
      · simp only [Option.bind_eq_bind, Option.bind_eq_some_iff] at stands
        obtain ⟨value, isValue, same⟩ := stands
        split at same
        · contradiction
        · next valid =>
            cases same
            simp only [Bool.or_eq_true, not_or, Bool.not_eq_true] at valid
            have printsAs := printsAs_node keeps isValue
            exact ⟨⟨printsAs.wellFormed, valid⟩, printsAs.print⟩

/-- What a loop over a collection assigns to is printed like a statement. -/
theorem yields_target (keeps : settings.options.KeepsNames) {form : EachForm}
    {target : LoopTarget} (stands : loopTarget? form (Node.withClause part) = some target) :
    target.WellFormed form ∧ Yields settings (Node.asPart part).print ()
      target.normal.layout.characters := by
  unfold loopTarget? at stands
  split at stands
  · next kind name declares =>
      cases stands
      exact ⟨trivial, (printsStatement_of_declaration? declares).content _ rfl⟩
  · contradiction
  · simp only [Option.bind_eq_bind, Option.bind_eq_some_iff] at stands
    obtain ⟨target, isTarget, same⟩ := stands
    split at same
    · next valid =>
        cases same
        simp only [Bool.and_eq_true] at valid
        have printsAs := printsAs_node keeps isTarget
        exact ⟨⟨printsAs.wellFormed, valid⟩, printsAs.print⟩
    · contradiction

/-- What may be absent is printed behind a blank. -/
theorem yields_optional (keeps : settings.options.KeepsNames)
    {present : Option {node : Node // node.PrintsClause settings}} {value : Option Expression}
    (stands : Node.optionalExpression? ((present.map Node.withClause).map (·.node)) =
      some value) :
    (∀ expression ∈ value, expression.WellFormed) ∧
      Yields settings
        (whenPresent (present.map Node.asPart) fun part => do
          write " "
          Folded.print part)
        () (optionalLayout value).characters := by
  cases present with
  | none =>
      cases stands
      exact ⟨nofun, yields_pure ()⟩
  | some part =>
      simp only [Option.map_some, Node.optionalExpression?, Option.map_eq_some_iff] at stands
      obtain ⟨expression, isExpression, rfl⟩ := stands
      have printsAs := printsAs_node keeps isExpression
      refine ⟨?_, ?_⟩
      · intro other same
        cases same
        exact printsAs.wellFormed
      · rw [optionalLayout, Layout.characters_append]
        exact (yields_write " ").andThen printsAs.print

end Printer

end ScriptBridge

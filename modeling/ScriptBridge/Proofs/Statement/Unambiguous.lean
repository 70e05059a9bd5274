import ScriptBridge.Proofs.Statement.Reader

/-!
# The grammar of statements is unambiguous

The reader finds every reading of the grammar: first the simple statements and
the heads of loops, then the statements themselves, by induction over their
readings.  Since it gives one answer, no text has two readings.
-/

namespace ScriptBridge

variable {tokens input rest : List Token}

/-! ## Simple statements -/

theorem endsItems_semicolon (rest : List Token) : EndsItems (.sign ";" :: rest) :=
  ⟨show (18 : Nat) ≤ 20 by decide, rfl⟩

theorem expect_of_head? {token : Token} (other : rest.head? ≠ some token) :
    expect token rest = none := by
  cases rest with
  | nil => rfl
  | cons first rest =>
      rw [List.head?_cons, ne_eq, Option.some.injEq] at other
      simp [expect, other]

theorem settles_readTest {test : Expression} (reads : Reads .expression tokens test)
    (rest : List Token) :
    Settles (readTest · (.sign "(" :: (tokens ++ .sign ")" :: rest))) (test, rest) :=
  (reads.found _ (endsItems_parenthesis rest)).bind (Settles.some _)

theorem ReadsOptional.settles {value : Option Expression} (reads : ReadsOptional tokens value)
    {text : String} (known : Token.sign text ∉ expressionSigns)
    (ends : EndsItems (.sign text :: rest)) :
    Settles (readOptional (.sign text) · (tokens ++ .sign text :: rest))
      (value, .sign text :: rest) := by
  cases reads with
  | absent =>
      simp only [readOptional, List.nil_append, List.head?_cons, if_true]
      exact Settles.some _
  | present reads =>
      obtain ⟨first, others, rfl, starts⟩ := reads.startsExpression
      have notClosing : first ≠ .sign text := by
        rintro rfl
        rcases starts with ⟨plain, same, -⟩ | isSign
        · contradiction
        · exact known isSign
      simp only [readOptional, List.cons_append, List.head?_cons, Option.some.injEq, notClosing,
        if_false]
      exact (reads.found _ ends).bind (Settles.some _)

theorem readName_text (name : PlainName) (rest : List Token) :
    readName (.word name.text :: rest) = some (name, rest) := by
  simp only [readName, name.isPlain, ↓reduceDIte]

theorem ReadsBinding.settles {binding : Binding} (reads : ReadsBinding tokens binding)
    (ends : 18 ≤ reach rest) : Settles (readBinding · (tokens ++ rest)) (binding, rest) := by
  cases reads with
  | bare name =>
      have unvalued : expect (.sign "=") rest = none := by
        apply expect_of_head?
        intro assigned
        rw [reach, assigned] at ends
        exact absurd ends (by decide)
      simp only [readBinding, List.singleton_append, readName_text, Option.bind_eq_bind,
        Option.bind_some, unvalued]
      exact Settles.some _
  | valued name reads =>
      simp only [readBinding, List.cons_append, List.nil_append, readName_text, expect_self,
        Option.bind_eq_bind, Option.bind_some]
      exact (reads.found.settles (Nat.le_refl 17) ends ends).bind (Settles.some _)

theorem ReadsBindings.settles {bindings : List Binding} (reads : ReadsBindings tokens bindings)
    (ends : EndsItems rest) : Settles (readBindings · (tokens ++ rest)) (bindings, rest) := by
  induction reads with
  | last reads =>
      apply Settles.step
      simp only [readBindings]
      apply (reads.settles ends.1).bind
      simp only [ends.2]
      exact Settles.some _
  | more first _ more =>
      apply Settles.step
      simp only [readBindings, List.append_assoc]
      apply (first.settles (Nat.le_trans (by decide) (Nat.le_of_eq (reach_comma _).symm))).bind
      exact more.bind (Settles.some _)

theorem DeclarationKind.opening (kind : DeclarationKind) :
    (Token.word kind.word).opening = .simple (.declaration kind) := by
  cases kind <;> decide

theorem opening_jumpWord (form : JumpForm) :
    (Token.word (Printer.jumpWord form)).opening = .simple (.jump form) := by
  cases form <;> decide

theorem openingBefore_jumpWord (form : JumpForm) (rest : List Token) :
    (Token.word (Printer.jumpWord form)).openingBefore rest = .simple (.jump form) := by
  rw [Token.openingBefore, if_neg (fun both => absurd both.1 (by cases form <;> decide)),
    opening_jumpWord]

theorem semicolon_ne_bracket : Token.sign ";" ≠ .sign "[" := by
  decide

theorem ReadsBindings.startsWithName {bindings : List Binding}
    (reads : ReadsBindings tokens bindings) (rest : List Token) :
    startsWithName (tokens ++ rest) = true := by
  have single {tokens : List Token} {binding : Binding} (reads : ReadsBinding tokens binding)
      (rest : List Token) : ScriptBridge.startsWithName (tokens ++ rest) = true := by
    cases reads with
    | bare name => exact name.isPlain
    | valued name => exact name.isPlain
  cases reads with
  | last reads => exact single reads rest
  | more reads =>
      rw [List.append_assoc, List.append_assoc]
      exact single reads _

/-- What declares is read as a declaration, since a name stands behind it. -/
theorem DeclarationKind.openingBefore (kind : DeclarationKind) {rest : List Token}
    (named : startsWithName rest = true) :
    (Token.word kind.word).openingBefore rest = .simple (.declaration kind) := by
  rw [Token.openingBefore, if_neg (by simp [named]), kind.opening]

/-- Whatever stands behind its first token, a simple statement starts as one. -/
theorem ReadsSimple.opening {content : SimpleStatement} (reads : ReadsSimple tokens content) :
    ∃ first others form, tokens = first :: others ∧ first.opening = .simple form := by
  cases reads with
  | expression reads => exact reads.opening
  | declaration kind => exact ⟨_, _, _, rfl, kind.opening⟩
  | returning => exact ⟨_, _, .returning, rfl, by decide⟩
  | throwing => exact ⟨_, _, .throwing, rfl, by decide⟩
  | jump form => exact ⟨_, _, _, rfl, opening_jumpWord form⟩

/-- The reader finds every simple statement. -/
theorem ReadsSimple.settles {content : SimpleStatement} (reads : ReadsSimple tokens content)
    (rest : List Token) :
    Settles (readSimple · (tokens ++ .sign ";" :: rest)) (content, .sign ";" :: rest) := by
  cases reads with
  | expression reads noPattern =>
      have found := reads.found _ (endsItems_semicolon rest)
      have noName : startsWithName (.sign ";" :: rest) = false := rfl
      obtain ⟨first, others, rfl, opening⟩ := reads.openingBefore (.inl noName)
      have goesOn := @startsAsPattern_append _ _ _ rest noPattern semicolon_ne_bracket
      rw [List.cons_append] at goesOn
      simp only [readSimple, List.cons_append, opening, goesOn]
      exact found.bind (Settles.some _)
  | declaration kind reads =>
      have named := reads.startsWithName (.sign ";" :: rest)
      simp only [readSimple, List.cons_append, List.nil_append, kind.openingBefore named]
      exact (reads.settles (endsItems_semicolon rest)).bind (Settles.some _)
  | returning reads =>
      exact (reads.settles (by decide) (endsItems_semicolon rest)).bind (Settles.some _)
  | throwing reads => exact (reads.found _ (endsItems_semicolon rest)).bind (Settles.some _)
  | jump form =>
      simp only [readSimple, List.singleton_append, openingBefore_jumpWord]
      exact Settles.some _

/-! ## Heads of loops -/

theorem ReadsBinding.balanced {binding : Binding} (reads : ReadsBinding tokens binding) :
    Balanced tokens := by
  cases reads with
  | bare name => exact balanced_word _
  | valued name reads =>
      exact ((balanced_word _).append (balanced_token (by decide))).append reads.balanced

theorem ReadsBindings.balanced {bindings : List Binding}
    (reads : ReadsBindings tokens bindings) : Balanced tokens := by
  induction reads with
  | last reads => exact reads.balanced
  | more first _ more =>
      exact (first.balanced.append (balanced_token (by decide))).append more

theorem ReadsStart.balanced {start : LoopStart} (reads : ReadsStart tokens start) :
    Balanced tokens := by
  cases reads with
  | nothing => exact balanced_nil
  | expression reads => exact reads.balanced
  | declaration kind reads => exact (balanced_word _).append reads.balanced

theorem ReadsTarget.balanced {form : EachForm} {target : LoopTarget}
    (reads : ReadsTarget form tokens target) :
    Balanced tokens := by
  cases reads with
  | place reads => exact reads.balanced
  | declared kind name => exact (balanced_word _).append (balanced_word _)

theorem ReadsStart.settles {start : LoopStart} (reads : ReadsStart tokens start)
    (rest : List Token) :
    Settles (readLoopStart · (tokens ++ .sign ";" :: rest)) (start, .sign ";" :: rest) := by
  cases reads with
  | nothing => exact Settles.some _
  | expression reads noPattern =>
      have found := reads.found _ (endsItems_semicolon rest)
      have noName : startsWithName (.sign ";" :: rest) = false := rfl
      obtain ⟨first, others, rfl, opening⟩ := reads.openingBefore (.inl noName)
      have goesOn := @startsAsPattern_append _ _ _ rest noPattern semicolon_ne_bracket
      rw [List.cons_append] at goesOn
      simp only [readLoopStart, List.cons_append, opening, goesOn]
      exact found.bind (Settles.some _)
  | declaration kind reads =>
      have named := reads.startsWithName (.sign ";" :: rest)
      simp only [readLoopStart, List.cons_append, List.nil_append, kind.openingBefore named]
      exact (reads.settles (endsItems_semicolon rest)).bind (Settles.some _)

theorem three_le_reach_eachWord (form : EachForm) (rest : List Token) :
    3 ≤ reach (.word (Printer.eachWord form) :: rest) := by
  cases form with
  | keys => exact (by decide : 3 ≤ 9)
  | values => exact (by decide : 3 ≤ 20)

/-- A name may stand in front of `in`, but no `let` in front of `of`. -/
theorem EachForm.noName_or_noLet (form : EachForm) (admits : form.admitsTarget tokens = true)
    (isSome : tokens ≠ []) (rest : List Token) :
    startsWithName (.word (Printer.eachWord form) :: rest) = false ∨
      [Token.word "let"].isPrefixOf tokens = false := by
  cases form with
  | keys => exact .inl rfl
  | values =>
      obtain ⟨first, others, rfl⟩ := List.exists_cons_of_ne_nil isSome
      rw [admitsTarget, EachForm.admits, Bool.not_eq_true', Bool.or_eq_false_iff] at admits
      exact .inr admits.1

/-- The tokens of a target start neither as a pattern nor as a function. -/
theorem EachForm.starts_admitted (form : EachForm) {first : Token} {others : List Token}
    (starts : StartsExpression (first :: others))
    (admits : form.admitsTarget (first :: others) = true) (rest : List Token) :
    (startsAsPattern (first :: others ++ .word (Printer.eachWord form) :: rest) ||
      startsAsFunction (first :: others ++ .word (Printer.eachWord form) :: rest)) = false := by
  rw [EachForm.admitsTarget] at admits
  rw [Bool.or_eq_false_iff]
  cases form with
  | keys =>
      rw [EachForm.admits, Bool.not_eq_true'] at admits
      refine ⟨isPrefixOf_pair admits, ?_⟩
      cases others with
      | nil => exact isPrefixOf_pair (by simp [List.isPrefixOf, Printer.eachWord])
      | cons second others => exact starts.startsAsFunction (List.cons_ne_nil _ _) _
  | values =>
      rw [EachForm.admits, Bool.not_eq_true', Bool.or_eq_false_iff] at admits
      obtain ⟨noLet, noFunction⟩ := admits
      refine ⟨?_, isPrefixOf_pair noFunction⟩
      have other : (Token.word "let" == first) = false := by
        simpa [List.isPrefixOf] using noLet
      rw [startsAsPattern, List.cons_append, List.isPrefixOf, other, Bool.false_and]

theorem ReadsTarget.settles {form : EachForm} {target : LoopTarget}
    (reads : ReadsTarget form tokens target) (rest : List Token) :
    Settles (readLoopTarget · (tokens ++ .word (Printer.eachWord form) :: rest))
      (target, .word (Printer.eachWord form) :: rest) := by
  cases reads with
  | place reads admits =>
      have ends := three_le_reach_eachWord form rest
      have found := reads.found.settles (Nat.le_refl 2) ends ends
      have starts := reads.startsExpression
      obtain ⟨first, others, rfl, opening⟩ :=
        reads.openingBefore (form.noName_or_noLet admits starts.ne_nil rest)
      have goesOn := form.starts_admitted starts admits rest
      rw [List.cons_append] at goesOn
      simp only [readLoopTarget, List.cons_append, opening, goesOn]
      exact found.bind (Settles.some _)
  | declared kind name =>
      have named : startsWithName
          (.word name.text :: .word (Printer.eachWord form) :: rest) = true := name.isPlain
      simp only [readLoopTarget, List.cons_append, List.nil_append, kind.openingBefore named,
        readName_text]
      exact Settles.some _

theorem settles_readCollection {form : EachForm} {collection : Expression}
    (reads : Reads form.goal tokens collection) (rest : List Token) :
    Settles (readCollection · (.word (Printer.eachWord form) :: (tokens ++ .sign ")" :: rest)))
      (form, collection, .sign ")" :: rest) := by
  have ends := endsItems_parenthesis rest
  cases form with
  | keys => exact (reads.found _ ends).bind (Settles.some _)
  | values => exact (reads.found.settles (Nat.le_refl 17) ends.1 ends.1).bind (Settles.some _)

theorem expect_while_for (rest : List Token) :
    expect (.word "while") (.word "for" :: rest) = none :=
  rfl

/-- The reader finds every head of a loop. -/
theorem ReadsHead.settles {head : LoopHead} (reads : ReadsHead tokens head)
    (rest : List Token) : Settles (readHead · (tokens ++ rest)) (head, rest) := by
  cases reads with
  | whileLoop reads =>
      simp only [List.append_assoc, List.cons_append, List.nil_append]
      exact (settles_readTest reads rest).bind (Settles.some _)
  | @counting first second third _ _ _ start test update =>
      simp only [List.append_assoc, List.cons_append, List.nil_append]
      have semicolon : holdsSemicolon 0
          (first ++ .sign ";" :: (second ++ .sign ";" :: (third ++ .sign ")" :: rest))) = true :=
        start.balanced 0 _
      simp only [readHead, expect_while_for, expect_self, Option.bind_eq_bind, Option.bind_some,
        semicolon, if_true]
      apply (start.settles _).bind
      apply (test.settles (by decide) (endsItems_semicolon _)).bind
      exact (update.settles (by decide) (endsItems_parenthesis rest)).bind (Settles.some _)
  | @each form first second _ _ target collection =>
      simp only [List.append_assoc, List.cons_append, List.nil_append]
      have noSemicolon : holdsSemicolon 0
          (first ++ .word (Printer.eachWord form) :: (second ++ .sign ")" :: rest)) = false := by
        rw [target.balanced, ← List.singleton_append, balanced_word, collection.balanced]
        rfl
      simp only [readHead, expect_while_for, expect_self, Option.bind_eq_bind, Option.bind_some,
        noSemicolon, Bool.false_eq_true, if_false]
      apply (target.settles _).bind
      exact (settles_readCollection collection rest).bind (Settles.some _)

/-! ## Statements -/

theorem ReadsHead.opening {head : LoopHead} (reads : ReadsHead tokens head) :
    ∃ first others, tokens = first :: others ∧ first.opening = .loop := by
  cases reads with
  | whileLoop => exact ⟨_, _, rfl, by decide⟩
  | counting => exact ⟨_, _, rfl, by decide⟩
  | each => exact ⟨_, _, rfl, by decide⟩

/-- Every statement has a first token, and it starts a statement. -/
theorem Parses.opening {place : Place} {statement : Statement}
    (parses : Parses place input statement rest) (single : place ≠ .items) :
    ∃ first others, input = first :: others ∧ first.opening ≠ .closing := by
  induction parses with
  | simple rest reads | lexical rest reads =>
      obtain ⟨first, others, form, rfl, opening⟩ := reads.opening
      exact ⟨first, _, rfl, by simp [opening]⟩
  | loop reads =>
      obtain ⟨first, others, rfl, opening⟩ := reads.opening
      exact ⟨first, _, rfl, by simp [opening]⟩
  | itemOfBranch _ ih => exact ih (by decide)
  | noItems => contradiction
  | moreItems => contradiction
  | _ => exact ⟨_, _, rfl, by decide⟩

theorem Parses.block_input {items : List Statement}
    (parses : Parses .branch input (.block items) rest) :
    ∃ inner, input = .sign "\x7b" :: inner := by
  cases parses with
  | block => exact ⟨_, rfl⟩

/-- The reader finds a statement, or the statements of a list up to its end. -/
def FoundStatement : Place → List Token → Statement → List Token → Prop
  | .items, input, statement, rest =>
      endsStatements rest = true → ∃ items, statement = .block items ∧
        Settles (readStatements · input) (items, rest)
  | _, input, statement, rest => Settles (readStatement · input) (statement, rest)

theorem settles_readHandler {caught : Option PlainName} (reads : ReadsHandler tokens caught)
    {items : List Statement} (handler : Parses .branch input (.block items) rest) :
    ∃ others, tokens = .word "catch" :: others ∧
      readHandler (others ++ input) = some (caught, input) := by
  cases reads with
  | unnamed =>
      obtain ⟨inner, rfl⟩ := handler.block_input
      exact ⟨[], rfl, rfl⟩
  | named name =>
      refine ⟨_, rfl, ?_⟩
      simp only [readHandler, List.cons_append, List.nil_append, expect_self, readName_text]
      rfl

/-- The reader finds every reading of a statement. -/
theorem Parses.found {place : Place} {statement : Statement}
    (parses : Parses place input statement rest) : FoundStatement place input statement rest := by
  induction parses with
  | empty rest => exact Settles.step (Settles.some _)
  | simple rest reads | lexical rest reads =>
      have found := reads.settles rest
      obtain ⟨first, others, form, rfl, opening⟩ := reads.opening
      apply Settles.step
      simp only [readStatement, List.cons_append, opening]
      exact found.bind (Settles.some _)
  | block _ found =>
      obtain ⟨items, same, settles⟩ := found rfl
      cases same
      exact Settles.step (settles.bind (Settles.some _))
  | ifThen reads _ noElse consequent =>
      apply Settles.step
      apply (settles_readTest reads _).bind
      apply Settles.bind consequent
      simp only [expect_of_head? noElse]
      exact Settles.some _
  | ifElse reads _ _ consequent alternate =>
      apply Settles.step
      apply (settles_readTest reads _).bind
      apply Settles.bind consequent
      exact Settles.bind alternate (Settles.some _)
  | loop reads _ body =>
      have found := reads.settles
      obtain ⟨first, others, rfl, opening⟩ := reads.opening
      apply Settles.step
      simp only [readStatement, List.cons_append, opening]
      apply (found _).bind
      exact Settles.bind body (Settles.some _)
  | doWhile _ reads body =>
      apply Settles.step
      apply Settles.bind body
      exact (settles_readTest reads _).bind (Settles.some _)
  | tryCatch _ reads handler noFinally body handled =>
      obtain ⟨others, rfl, caught⟩ := settles_readHandler reads handler
      apply Settles.step
      apply Settles.bind body
      simp only [List.cons_append, expect_self, caught]
      apply Settles.bind handled
      simp only [expect_of_head? noFinally]
      exact Settles.some _
  | tryFinally _ _ body finalizer =>
      apply Settles.step
      apply Settles.bind body
      apply (Settles.some _).bind
      exact Settles.bind finalizer (Settles.some _)
  | tryCatchFinally _ reads handler _ body handled finalizer =>
      obtain ⟨others, rfl, caught⟩ := settles_readHandler reads handler
      apply Settles.step
      apply Settles.bind body
      simp only [List.cons_append, expect_self, caught]
      apply Settles.bind handled
      exact Settles.bind finalizer (Settles.some _)
  | itemOfBranch _ found => exact found
  | noItems rest =>
      intro ends
      refine ⟨[], rfl, Settles.step ?_⟩
      simp only [readStatements, if_pos ends]
      exact Settles.some _
  | moreItems parses _ item more =>
      intro ends
      obtain ⟨items, same, settles⟩ := more ends
      cases same
      obtain ⟨first, others, rfl, opening⟩ := parses.opening (by decide)
      have goesOn : ¬ endsStatements (first :: others) = true := by
        intro closes
        simp only [endsStatements, List.head?_cons, Option.all_some, decide_eq_true_eq] at closes
        rw [closes] at opening
        exact opening (by decide)
      refine ⟨_, rfl, Settles.step ?_⟩
      simp only [readStatements, if_neg goesOn]
      apply Settles.bind item
      exact settles.bind (Settles.some _)

/-- Every reading of a program is what the reader finds, however much fuel it has. -/
theorem ReadsProgram.found {items : List Statement} (reads : ReadsProgram tokens items)
    (enough : Nat) {outcome : Option (List Statement × List Token)}
    (read : ∀ fuel, readStatements (fuel + enough) tokens = outcome) :
    outcome = some (items, []) := by
  obtain ⟨_, same, bound, settles⟩ := Parses.found reads rfl
  cases same
  rw [← read bound]
  exact settles _ (Nat.le_add_right ..)

/-- A program has at most one reading. -/
theorem ReadsProgram.unique {first second : List Statement}
    (readsFirst : ReadsProgram tokens first) (readsSecond : ReadsProgram tokens second) :
    first = second := by
  obtain ⟨items, same, settles⟩ := Parses.found readsFirst rfl
  obtain ⟨others, sameOthers, settlesOthers⟩ := Parses.found readsSecond rfl
  cases same
  cases sameOthers
  exact congrArg Prod.fst (settles.unique settlesOthers)

end ScriptBridge

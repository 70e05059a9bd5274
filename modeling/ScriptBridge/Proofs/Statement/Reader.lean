import ScriptBridge.Proofs.Expression.Unambiguous
import ScriptBridge.Proofs.Statement.Syntax

/-!
# Reading statements

The first token decides what kind of statement is read, and for `let`, which may be a
name as well, the token behind it.  Only the two kinds of `for` share their start; they
are told apart by the semicolons of the counting loop, which no expression holds.  The
reader finds all simple statements and all heads of loops of the grammar.
-/

namespace ScriptBridge

/-- What a simple statement starts as. -/
inductive SimpleForm where
  | declaration (kind : DeclarationKind)
  | returning
  | throwing
  | jump (form : JumpForm)
  | expression
  deriving DecidableEq, Repr

/-- What a statement starts as. -/
inductive Opening where
  /-- No statement starts here. -/
  | closing
  | empty
  | block
  | conditional
  | loop
  | doWhile
  | guarded
  | simple (form : SimpleForm)
  deriving DecidableEq, Repr

/-- The tokens that tell what a statement is. -/
def openings : List (Token × Opening) :=
  [(.sign "\x7d", .closing), (.word "else", .closing), (.word "finally", .closing),
    (.sign ";", .empty), (.sign "\x7b", .block), (.word "if", .conditional),
    (.word "while", .loop), (.word "for", .loop), (.word "do", .doWhile),
    (.word "try", .guarded), (.word "var", .simple (.declaration .variable)),
    (.word "let", .simple (.declaration .letting)),
    (.word "const", .simple (.declaration .constant)), (.word "return", .simple .returning),
    (.word "throw", .simple .throwing), (.word "break", .simple (.jump .breaking)),
    (.word "continue", .simple (.jump .continuing))]

/-- What a statement with the given first token starts as. -/
def Token.opening (token : Token) : Opening :=
  (openings.lookup token).getD (.simple .expression)

/-- Whether a name stands at the front of tokens. -/
def startsWithName (tokens : List Token) : Bool :=
  tokens.head?.any fun
    | .word text => isPlainWord text
    | .sign _ => false

/-- What a statement starts as in which the given tokens stand behind the first one.
The word `let` declares only what is a name. -/
def Token.openingBefore (token : Token) (rest : List Token) : Opening :=
  if token = .word "let" ∧ startsWithName rest = false then .simple .expression
  else token.opening

/-! ## The reader -/

/-- Whether a semicolon stands before the parenthesis that closes. -/
def holdsSemicolon : Nat → List Token → Bool
  | _, [] => false
  | depth, token :: rest =>
      if token = .sign ";" then true
      else if token = .sign "(" then holdsSemicolon (depth + 1) rest
      else if token = .sign ")" then
        match depth with
        | 0 => false
        | depth + 1 => holdsSemicolon depth rest
      else holdsSemicolon depth rest

/-- Read an expression between parentheses. -/
def readTest (fuel : Nat) (tokens : List Token) : Option (Expression × List Token) := do
  let rest ← expect (.sign "(") tokens
  let (test, rest) ← readExpression fuel rest
  let rest ← expect (.sign ")") rest
  return (test, rest)

/-- Read an expression, or nothing before the given token. -/
def readOptional (closing : Token) (fuel : Nat) (tokens : List Token) :
    Option (Option Expression × List Token) :=
  if tokens.head? = some closing then some (none, tokens)
  else do
    let (value, rest) ← readExpression fuel tokens
    return (some value, rest)

/-- Read a name. -/
def readName : List Token → Option (PlainName × List Token)
  | .word text :: rest =>
      if isPlain : isPlainWord text = true then some (⟨text, isPlain⟩, rest) else none
  | _ => none

/-- Read a declared variable. -/
def readBinding (fuel : Nat) (tokens : List Token) : Option (Binding × List Token) := do
  let (name, rest) ← readName tokens
  match expect (.sign "=") rest with
  | none => return (⟨name, none⟩, rest)
  | some rest => do
      let (value, rest) ← readAt fuel 17 rest
      return (⟨name, some value⟩, rest)

/-- Read declared variables. -/
def readBindings : Nat → List Token → Option (List Binding × List Token)
  | 0, _ => none
  | fuel + 1, tokens => do
      let (binding, rest) ← readBinding fuel tokens
      match expect (.sign ",") rest with
      | none => return ([binding], rest)
      | some rest => do
          let (bindings, rest) ← readBindings fuel rest
          return (binding :: bindings, rest)

/-- Read a simple statement without its semicolon. -/
def readSimple (fuel : Nat) : List Token → Option (SimpleStatement × List Token)
  | [] => none
  | token :: rest =>
      match token.openingBefore rest with
      | .simple (.declaration kind) => do
          let (bindings, rest) ← readBindings fuel rest
          return (.declaration kind bindings, rest)
      | .simple .returning => do
          let (value, rest) ← readOptional (.sign ";") fuel rest
          return (.returning value, rest)
      | .simple .throwing => do
          let (value, rest) ← readExpression fuel rest
          return (.throwing value, rest)
      | .simple (.jump form) => some (.jump form, rest)
      | _ =>
          if startsAsPattern (token :: rest) then none
          else do
            let (value, rest) ← readExpression fuel (token :: rest)
            return (.expression value, rest)

/-- Read the start of a counting loop. -/
def readLoopStart (fuel : Nat) : List Token → Option (LoopStart × List Token)
  | [] => none
  | token :: rest =>
      match token.openingBefore rest with
      | .empty => some (.nothing, token :: rest)
      | .simple (.declaration kind) => do
          let (bindings, rest) ← readBindings fuel rest
          return (.declaration kind bindings, rest)
      | _ =>
          if startsAsPattern (token :: rest) then none
          else do
            let (value, rest) ← readExpression fuel (token :: rest)
            return (.expression value, rest)

/-- Read the target of a loop over a collection. -/
def readLoopTarget (fuel : Nat) : List Token → Option (LoopTarget × List Token)
  | [] => none
  | token :: rest =>
      match token.openingBefore rest with
      | .simple (.declaration kind) => do
          let (name, rest) ← readName rest
          return (.declared kind name, rest)
      | _ =>
          if startsAsPattern (token :: rest) || startsAsFunction (token :: rest) then none
          else do
            let (target, rest) ← readAt fuel 2 (token :: rest)
            return (.place target, rest)

/-- Read a collection behind the word in front of it. -/
def readCollection (fuel : Nat) (tokens : List Token) :
    Option (EachForm × Expression × List Token) :=
  match expect (.word "in") tokens with
  | some rest => do
      let (collection, rest) ← readExpression fuel rest
      return (.keys, collection, rest)
  | none => do
      let rest ← expect (.word "of") tokens
      let (collection, rest) ← readAt fuel 17 rest
      return (.values, collection, rest)

/-- Read the head of a loop. -/
def readHead (fuel : Nat) (tokens : List Token) : Option (LoopHead × List Token) :=
  match expect (.word "while") tokens with
  | some rest => do
      let (test, rest) ← readTest fuel rest
      return (.whileLoop test, rest)
  | none => do
      let rest ← expect (.word "for") tokens
      let rest ← expect (.sign "(") rest
      if holdsSemicolon 0 rest then do
        let (start, rest) ← readLoopStart fuel rest
        let rest ← expect (.sign ";") rest
        let (test, rest) ← readOptional (.sign ";") fuel rest
        let rest ← expect (.sign ";") rest
        let (update, rest) ← readOptional (.sign ")") fuel rest
        let rest ← expect (.sign ")") rest
        return (.counting start test update, rest)
      else do
        let (target, rest) ← readLoopTarget fuel rest
        let (form, collection, rest) ← readCollection fuel rest
        let rest ← expect (.sign ")") rest
        return (.each form target collection, rest)

/-- Read the name that a handler binds, if it binds one. -/
def readHandler (tokens : List Token) : Option (Option PlainName × List Token) :=
  match expect (.sign "(") tokens with
  | none => some (none, tokens)
  | some rest => do
      let (name, rest) ← readName rest
      let rest ← expect (.sign ")") rest
      return (some name, rest)

/-- Whether a list of statements ends before the given tokens. -/
def endsStatements (tokens : List Token) : Bool :=
  tokens.head?.all (· = .sign "\x7d")

mutual

/-- Read a statement. -/
def readStatement : Nat → List Token → Option (Statement × List Token)
  | 0, _ => none
  | _ + 1, [] => none
  | fuel + 1, token :: rest =>
      match token.opening with
      | .closing => none
      | .empty => some (.empty, rest)
      | .block => do
          let (items, rest) ← readStatements fuel rest
          let rest ← expect (.sign "\x7d") rest
          return (.block items, rest)
      | .conditional => do
          let (test, rest) ← readTest fuel rest
          let (consequent, rest) ← readStatement fuel rest
          match expect (.word "else") rest with
          | none => return (.ifThen test consequent, rest)
          | some rest => do
              let (alternate, rest) ← readStatement fuel rest
              return (.ifElse test consequent alternate, rest)
      | .loop => do
          let (head, rest) ← readHead fuel (token :: rest)
          let (body, rest) ← readStatement fuel rest
          return (.loop head body, rest)
      | .doWhile => do
          let (body, rest) ← readStatement fuel rest
          let rest ← expect (.word "while") rest
          let (test, rest) ← readTest fuel rest
          let rest ← expect (.sign ";") rest
          return (.doWhile body test, rest)
      | .guarded => do
          let (body, rest) ← readStatement fuel rest
          match expect (.word "catch") rest with
          | none => do
              let rest ← expect (.word "finally") rest
              let (finalizer, rest) ← readStatement fuel rest
              return (.tryFinally body finalizer, rest)
          | some rest => do
              let (caught, rest) ← readHandler rest
              let (handler, rest) ← readStatement fuel rest
              match expect (.word "finally") rest with
              | none => return (.tryCatch body caught handler, rest)
              | some rest => do
                  let (finalizer, rest) ← readStatement fuel rest
                  return (.tryCatchFinally body caught handler finalizer, rest)
      | .simple _ => do
          let (content, rest) ← readSimple fuel (token :: rest)
          let rest ← expect (.sign ";") rest
          return (.simple content, rest)

/-- Read the statements of a list. -/
def readStatements : Nat → List Token → Option (List Statement × List Token)
  | 0, _ => none
  | fuel + 1, tokens =>
      if endsStatements tokens then some ([], tokens)
      else do
        let (item, rest) ← readStatement fuel tokens
        let (items, rest) ← readStatements fuel rest
        return (item :: items, rest)

end

/-! ## Expressions in statements -/

/-- The tokens other than names that expressions start with. -/
def expressionSigns : List Token :=
  [.sign "(", .word "new", .sign "!", .sign "~", .sign "+", .sign "-", .word "typeof",
    .word "void", .word "delete", .sign "++", .sign "--"]

/-- Tokens that start with an operator, a parenthesis or a name, with no other name
behind it. -/
def StartsExpression (tokens : List Token) : Prop :=
  ∃ first others, tokens = first :: others ∧
    ((∃ plain : PlainName, first = .word plain.text ∧ startsWithName others = false) ∨
      first ∈ expressionSigns)

theorem StartsExpression.ne_nil {tokens : List Token} (starts : StartsExpression tokens) :
    tokens ≠ [] := by
  obtain ⟨first, others, rfl, -⟩ := starts
  exact List.cons_ne_nil first others

theorem startsExpression_of_sign {first : Token} (known : first ∈ expressionSigns)
    (others : List Token) : StartsExpression (first :: others) :=
  ⟨first, others, rfl, .inr known⟩

theorem startsWithName_append {first second : List Token} (outer : startsWithName first = false)
    (inner : startsWithName second = false) : startsWithName (first ++ second) = false := by
  cases first with
  | nil => exact inner
  | cons token others => exact outer

theorem StartsExpression.append {first second : List Token} (starts : StartsExpression first)
    (next : startsWithName second = false) : StartsExpression (first ++ second) := by
  obtain ⟨token, others, rfl, ⟨plain, isName, behind⟩ | known⟩ := starts
  · exact ⟨token, _, rfl, .inl ⟨plain, isName, startsWithName_append behind next⟩⟩
  · exact startsExpression_of_sign known _

theorem startsWithName_arguments {tokens : List Token} {expression : Expression}
    (reads : Reads .arguments tokens expression) : startsWithName tokens = false := by
  cases reads <;> rfl

/-- An expression starts with a name, an operator or a parenthesis. -/
theorem Reads.startsExpression {goal : Goal} {tokens : List Token} {expression : Expression}
    (reads : Reads goal tokens expression) : StartsExpression tokens := by
  induction reads with
  | name plain => exact ⟨_, _, rfl, .inl ⟨plain, rfl, rfl⟩⟩
  | parentheses => exact startsExpression_of_sign (by decide) _
  | memberConstruction => exact startsExpression_of_sign (by decide) _
  | bareConstruction => exact startsExpression_of_sign (by decide) _
  | updateBefore operator => exact startsExpression_of_sign (by cases operator <;> decide) _
  | unary operator => exact startsExpression_of_sign (by cases operator <;> decide) _
  | noArguments => exact startsExpression_of_sign (by decide) _
  | someArguments => exact startsExpression_of_sign (by decide) _
  | memberOfPrimary _ ih | constructionOfMember _ ih | tierOfConstruction _ ih
  | tierOfCall _ ih | looser _ _ ih | lastItem _ ih | expressionOfTier _ ih | sequence _ ih =>
      exact ih
  | memberName _ _ ih | callName _ _ ih => exact ih.append rfl
  | updateBehind operator _ ih => exact ih.append (by cases operator <;> rfl)
  | callOfMember _ applied ih _ | callOfCall _ applied ih _ =>
      exact ih.append (startsWithName_arguments applied)
  | memberIndex _ _ ih _ | callIndex _ _ ih _ =>
      rw [List.append_assoc, List.append_assoc]
      exact ih.append rfl
  | conditional _ _ _ ih _ _ =>
      simp only [List.append_assoc]
      exact ih.append rfl
  | power _ _ ih _ | moreItems _ _ ih _ =>
      rw [List.append_assoc]
      exact ih.append rfl
  | binary operator _ _ _ ih _ =>
      rw [List.append_assoc]
      exact ih.append (by cases operator <;> rfl)
  | assignment operator _ _ ih _ =>
      rw [List.append_assoc]
      exact ih.append (by cases operator <;> rfl)

/-- Of the names, only `let` tells what a statement is. -/
theorem PlainName.opening (plain : PlainName) (noLet : plain.text ≠ "let") :
    (Token.word plain.text).opening = .simple .expression := by
  have unknown : openings.lookup (.word plain.text) = none := by
    rw [List.lookup_eq_none_iff]
    intro entry place
    rw [bne_iff_ne]
    intro same
    have reserved : (openings.all fun entry =>
        !isPlainWord entry.1.text || entry.1 == .word "let") = true := by
      decide
    have isReserved := List.all_eq_true.mp reserved entry place
    rw [← same] at isReserved
    simp [Token.text, plain.isPlain, noLet] at isReserved
  rw [Token.opening, unknown]
  rfl

/-- The first token of an expression starts a simple statement. -/
theorem Reads.opening {goal : Goal} {tokens : List Token} {expression : Expression}
    (reads : Reads goal tokens expression) :
    ∃ first others form, tokens = first :: others ∧ first.opening = .simple form := by
  obtain ⟨first, others, same, ⟨plain, rfl, -⟩ | known⟩ := reads.startsExpression
  · by_cases isLet : plain.text = "let"
    · exact ⟨_, others, .declaration .letting, same, by rw [isLet]; decide⟩
    · exact ⟨_, others, _, same, plain.opening isLet⟩
  · have all : ∀ token ∈ expressionSigns, token.opening = .simple .expression := by decide
    exact ⟨first, others, _, same, all first known⟩

/-- The word `let` in front of what is no name is read as an expression. -/
theorem Reads.openingBefore {goal : Goal} {tokens rest : List Token} {expression : Expression}
    (reads : Reads goal tokens expression)
    (ends : startsWithName rest = false ∨ [Token.word "let"].isPrefixOf tokens = false) :
    ∃ first others, tokens = first :: others ∧
      first.openingBefore (others ++ rest) = .simple .expression := by
  obtain ⟨first, others, rfl, starts⟩ := reads.startsExpression
  refine ⟨first, others, rfl, ?_⟩
  unfold Token.openingBefore
  split
  · rfl
  · next declares =>
    rcases starts with ⟨plain, rfl, behind⟩ | known
    · refine plain.opening fun isLet => ?_
      rcases ends with ends | other
      · exact declares ⟨by rw [isLet], startsWithName_append behind ends⟩
      · rw [isLet] at other
        exact absurd other (by simp [List.isPrefixOf])
    · have all : ∀ token ∈ expressionSigns, token.opening = .simple .expression := by decide
      exact all first known

theorem isPrefixOf_pair {first second token next : Token} {others rest : List Token}
    (other : [first, second].isPrefixOf (token :: others ++ [next]) = false) :
    [first, second].isPrefixOf (token :: others ++ next :: rest) = false := by
  cases others with
  | nil => simpa [List.isPrefixOf] using other
  | cons behind others => simpa [List.isPrefixOf] using other

/-- Only a bracket behind the tokens makes the start of a pattern out of them. -/
theorem startsAsPattern_append {token next : Token} {others rest : List Token}
    (noPattern : startsAsPattern (token :: others) = false) (other : next ≠ .sign "[") :
    startsAsPattern (token :: others ++ next :: rest) = false := by
  apply isPrefixOf_pair
  cases others with
  | nil => simp [List.isPrefixOf, Ne.symm other]
  | cons behind others => simpa [startsAsPattern, List.isPrefixOf] using noPattern

/-- An expression does not start as a function does. -/
theorem StartsExpression.startsAsFunction {token : Token} {others : List Token}
    (starts : StartsExpression (token :: others)) (isSome : others ≠ []) (rest : List Token) :
    startsAsFunction (token :: others ++ rest) = false := by
  obtain ⟨second, others, rfl⟩ := List.exists_cons_of_ne_nil isSome
  obtain ⟨first, _, same, ⟨plain, rfl, behind⟩ | known⟩ := starts
  · cases same
    have other : second ≠ .word "of" := by
      rintro rfl
      cases behind
    simp [ScriptBridge.startsAsFunction, List.isPrefixOf, Ne.symm other]
  · cases same
    have other : token ≠ .word "async" := by
      rintro rfl
      exact absurd known (by decide)
    simp [ScriptBridge.startsAsFunction, List.isPrefixOf, Ne.symm other]

/-- Passing over tokens keeps whether a semicolon stands behind them. -/
def Balanced (tokens : List Token) : Prop :=
  ∀ depth rest, holdsSemicolon depth (tokens ++ rest) = holdsSemicolon depth rest

theorem balanced_nil : Balanced [] :=
  fun _ _ => rfl

theorem balanced_token {token : Token}
    (neutral : token ∉ [Token.sign ";", .sign "(", .sign ")"]) : Balanced [token] := by
  intro depth rest
  simp only [List.mem_cons, List.not_mem_nil, or_false, not_or] at neutral
  simp [holdsSemicolon, neutral]

theorem balanced_word (text : String) : Balanced [.word text] :=
  balanced_token (by simp)

theorem Balanced.append {first second : List Token} (balancedFirst : Balanced first)
    (balancedSecond : Balanced second) : Balanced (first ++ second) := by
  intro depth rest
  rw [List.append_assoc, balancedFirst, balancedSecond]

theorem Balanced.parentheses {tokens : List Token} (balanced : Balanced tokens) :
    Balanced ([Token.sign "("] ++ tokens ++ [Token.sign ")"]) := by
  intro depth rest
  rw [List.append_assoc, List.append_assoc]
  change holdsSemicolon (depth + 1) (tokens ++ _) = _
  rw [balanced]
  rfl

/-- No expression holds a semicolon, and its parentheses are balanced. -/
theorem Reads.balanced {goal : Goal} {tokens : List Token} {expression : Expression}
    (reads : Reads goal tokens expression) : Balanced tokens := by
  induction reads with
  | name plain => exact balanced_word _
  | parentheses _ inner => exact inner.parentheses
  | noArguments => exact balanced_nil.parentheses
  | someArguments _ inner => exact inner.parentheses
  | memberOfPrimary _ ih | constructionOfMember _ ih | tierOfConstruction _ ih
  | tierOfCall _ ih | looser _ _ ih | lastItem _ ih | expressionOfTier _ ih | sequence _ ih =>
      exact ih
  | memberName property _ ih | callName property _ ih =>
      exact ih.append ((balanced_token (by decide)).append (balanced_word _))
  | memberIndex _ _ ih inner | callIndex _ _ ih inner =>
      exact ((ih.append (balanced_token (by decide))).append inner).append
        (balanced_token (by decide))
  | memberConstruction _ _ ih applied => exact ((balanced_word _).append ih).append applied
  | bareConstruction _ ih => exact (balanced_word _).append ih
  | callOfMember _ _ ih applied | callOfCall _ _ ih applied => exact ih.append applied
  | updateBehind operator _ ih =>
      exact ih.append (balanced_token (by cases operator <;> decide))
  | updateBefore operator _ ih =>
      exact (balanced_token (by cases operator <;> decide)).append ih
  | unary operator _ ih => exact (balanced_token (by cases operator <;> decide)).append ih
  | power _ _ left right =>
      exact (left.append (balanced_token (by decide))).append right
  | binary operator _ _ _ left right =>
      exact (left.append (balanced_token (by cases operator <;> decide))).append right
  | conditional _ _ _ test consequent alternate =>
      exact ((((test.append (balanced_token (by decide))).append consequent).append
        (balanced_token (by decide))).append alternate)
  | assignment operator _ _ target value =>
      exact (target.append (balanced_token (by cases operator <;> decide))).append value
  | moreItems _ _ first others =>
      exact (first.append (balanced_token (by decide))).append others

end ScriptBridge

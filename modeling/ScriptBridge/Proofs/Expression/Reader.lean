import ScriptBridge.Proofs.Expression.Syntax

/-!
# Reading expressions

The reader climbs from operator to operator and stops at the first token that
binds too loosely for the rank at which it reads.  It finds every reading of the
grammar, and it gives one answer, so no text has two readings.
-/

namespace ScriptBridge

/-- What may go on with an expression that has been read. -/
inductive Link where
  | dot
  | bracket
  | parenthesis
  | update (operator : UpdateOperator)
  | binary (operator : BinaryOperator)
  | question
  | assignment (operator : AssignmentOperator)
  deriving DecidableEq, Repr

/-- How loosely a reader has to bind to go on with a link. -/
def Link.reach : Link → Nat
  | .dot => 1
  | .bracket => 1
  | .parenthesis => 2
  | .update _ => 3
  | .binary operator => operator.level
  | .question => 16
  | .assignment _ => 17

/-- The link that a token starts. -/
def Token.link? (token : Token) : Option Link :=
  if token = .sign "." then some .dot
  else if token = .sign "[" then some .bracket
  else if token = .sign "(" then some .parenthesis
  else if token = .sign "?" then some .question
  else if operatorToken token.text = token then
    ((UpdateOperator.ofText? token.text).map Link.update).or
      (((BinaryOperator.ofText? token.text).map Link.binary).or
        ((AssignmentOperator.ofText? token.text).map Link.assignment))
  else none

/-- How loosely a reader has to bind to go on; no reader goes on behind tokens
without a link. -/
def reach (tokens : List Token) : Nat :=
  match tokens.head?.bind Token.link? with
  | some link => link.reach
  | none => 20

/-- Pass over an expected token. -/
def expect (token : Token) : List Token → Option (List Token)
  | first :: rest => if first = token then some rest else none
  | [] => none

@[simp]
theorem expect_self (token : Token) (rest : List Token) :
    expect token (token :: rest) = some rest := by
  simp [expect]

/-- The rank at which the right operand of an operator is read. -/
def BinaryOperator.rightRank (operator : BinaryOperator) : Nat :=
  if operator = .power then 5 else operator.level - 1

namespace PlainName

theorem unaryOperator? (plain : PlainName) : UnaryOperator.ofText? plain.text = none := by
  rw [UnaryOperator.ofText?, List.find?_eq_none]
  intro operator _ same
  have noWord : isPlainWord operator.text = false := by cases operator <;> decide
  rw [beq_iff_eq.mp same, plain.isPlain] at noWord
  contradiction

theorem updateOperator? (plain : PlainName) : UpdateOperator.ofText? plain.text = none := by
  rw [UpdateOperator.ofText?, List.find?_eq_none]
  intro operator _ same
  have noWord : isPlainWord operator.text = false := by cases operator <;> decide
  rw [beq_iff_eq.mp same, plain.isPlain] at noWord
  contradiction

theorem text_ne_new (plain : PlainName) : plain.text ≠ "new" := by
  intro same
  have isPlain := plain.isPlain
  rw [same] at isPlain
  contradiction

end PlainName

theorem BinaryOperator.link?_token (operator : BinaryOperator) :
    (operatorToken operator.text).link? = some (.binary operator) := by
  cases operator <;> decide

theorem AssignmentOperator.link?_token (operator : AssignmentOperator) :
    (operatorToken operator.text).link? = some (.assignment operator) := by
  cases operator <;> decide

mutual

/-- Read an expression that binds at most as loosely as a rank. -/
def readAt : Nat → Nat → List Token → Option (Expression × List Token)
  | 0, _, _ => none
  | fuel + 1, rank, tokens => do
      let (start, rest) ← readStart fuel tokens
      climb fuel rank start rest

/-- Read an expression up to the first link. -/
def readStart : Nat → List Token → Option (Expression × List Token)
  | 0, _ => none
  | _ + 1, [] => none
  | fuel + 1, token :: rest =>
      if token = .word "new" then do
        let (callee, rest) ← readAt fuel 1 rest
        if (expect (.sign "(") rest).isSome then do
          let (arguments, rest) ← readArguments fuel rest
          return (.construction callee arguments, rest)
        else return (.construction callee [], rest)
      else if token = .sign "(" then do
        let (expression, rest) ← readExpression fuel rest
        let rest ← expect (.sign ")") rest
        return (expression, rest)
      else
        match UnaryOperator.ofText? token.text, UpdateOperator.ofText? token.text with
        | some operator, _ => do
            let (argument, rest) ← readAt fuel 4 rest
            return (.unary operator argument, rest)
        | none, some operator => do
            let (target, rest) ← readAt fuel 4 rest
            return (.update operator true target, rest)
        | none, none =>
            if isPlain : isPlainWord token.text = true then
              some (.name ⟨token.text, isPlain⟩, rest)
            else none

/-- Go on with an expression while the links bind tightly enough. -/
def climb : Nat → Nat → Expression → List Token → Option (Expression × List Token)
  | 0, _, _, _ => none
  | fuel + 1, rank, expression, tokens =>
      if rank < reach tokens then some (expression, tokens)
      else do
        let (longer, rest) ← extend fuel expression tokens
        climb fuel rank longer rest

/-- Go on with an expression by one link. -/
def extend : Nat → Expression → List Token → Option (Expression × List Token)
  | 0, _, _ => none
  | _ + 1, _, [] => none
  | fuel + 1, expression, token :: rest =>
      match token.link? with
      | none => none
      | some .dot =>
          match rest with
          | .word text :: rest =>
              if isPlain : isPlainWord text = true then
                some (.member expression ⟨text, isPlain⟩, rest)
              else none
          | _ => none
      | some .bracket => do
          let (property, rest) ← readExpression fuel rest
          let rest ← expect (.sign "]") rest
          return (.index expression property, rest)
      | some .parenthesis => do
          let (arguments, rest) ← readArguments fuel (token :: rest)
          return (.call expression arguments, rest)
      | some (.update operator) => some (.update operator false expression, rest)
      | some (.binary operator) => do
          let (right, rest) ← readAt fuel operator.rightRank rest
          return (.binary operator expression right, rest)
      | some .question => do
          let (consequent, rest) ← readAt fuel 17 rest
          let rest ← expect (.sign ":") rest
          let (alternate, rest) ← readAt fuel 17 rest
          return (.conditional expression consequent alternate, rest)
      | some (.assignment operator) => do
          let (value, rest) ← readAt fuel 17 rest
          return (.assignment operator expression value, rest)

/-- Read expressions with commas between them. -/
def readItems : Nat → List Token → Option (List Expression × List Token)
  | 0, _ => none
  | fuel + 1, tokens => do
      let (item, rest) ← readAt fuel 17 tokens
      match expect (.sign ",") rest with
      | none => return ([item], rest)
      | some rest => do
          let (items, rest) ← readItems fuel rest
          return (item :: items, rest)

/-- Read any expression. -/
def readExpression : Nat → List Token → Option (Expression × List Token)
  | 0, _ => none
  | fuel + 1, tokens => do
      let (items, rest) ← readItems fuel tokens
      match items with
      | [item] => return (item, rest)
      | _ => return (.sequence items, rest)

/-- Read items between parentheses. -/
def readArguments : Nat → List Token → Option (List Expression × List Token)
  | 0, _ => none
  | fuel + 1, tokens => do
      let rest ← expect (.sign "(") tokens
      match expect (.sign ")") rest with
      | some rest => return ([], rest)
      | none => do
          let (items, rest) ← readItems fuel rest
          let rest ← expect (.sign ")") rest
          return (items, rest)

end

/-- A computation with fuel has a result from some amount of fuel on. -/
def Settles {Result : Type} (run : Nat → Option Result) (result : Result) : Prop :=
  ∃ enough, ∀ fuel, enough ≤ fuel → run fuel = some result

namespace Settles

variable {Result Other : Type}

theorem unique {run : Nat → Option Result} {first second : Result}
    (settlesFirst : Settles run first) (settlesSecond : Settles run second) :
    first = second := by
  obtain ⟨enough, runsFirst⟩ := settlesFirst
  obtain ⟨enough', runsSecond⟩ := settlesSecond
  have runs := runsFirst (max enough enough') (Nat.le_max_left ..)
  rw [runsSecond (max enough enough') (Nat.le_max_right ..)] at runs
  exact (Option.some.inj runs).symm

theorem some (result : Result) : Settles (fun _ => .some result) result :=
  ⟨0, fun _ _ => rfl⟩

/-- One unit of fuel may be spent on a step. -/
theorem step {run : Nat → Option Result} {result : Result}
    (settles : Settles (fun fuel => run (fuel + 1)) result) : Settles run result := by
  obtain ⟨enough, runs⟩ := settles
  refine ⟨enough + 1, fun fuel large => ?_⟩
  cases fuel with
  | zero => omega
  | succ fuel => exact runs fuel (by omega)

theorem bind {first : Nat → Option Other} {rest : Nat → Other → Option Result}
    {value : Other} {result : Result} (settles : Settles first value)
    (goesOn : Settles (fun fuel => rest fuel value) result) :
    Settles (fun fuel => first fuel >>= rest fuel) result := by
  obtain ⟨enough, runs⟩ := settles
  obtain ⟨enough', runsOn⟩ := goesOn
  refine ⟨max enough enough', fun fuel large => ?_⟩
  have goes := runsOn fuel (by omega)
  simp only [runs fuel (by omega), Option.bind_eq_bind, Option.bind_some, goes]

end Settles

section Steps

variable {rank : Nat} {token : Token} {tokens rest : List Token}
variable {expression longer : Expression} {items : List Expression}
variable {result : Expression × List Token}

theorem settles_read (start : Settles (readStart · tokens) (expression, rest))
    (goesOn : Settles (climb · rank expression rest) result) :
    Settles (readAt · rank tokens) result := by
  apply Settles.step
  simp only [readAt]
  exact start.bind goesOn

theorem settles_climb_stop (stops : rank < reach tokens) :
    Settles (climb · rank expression tokens) (expression, tokens) := by
  apply Settles.step
  simp only [climb, if_pos stops]
  exact Settles.some _

theorem settles_climb (goes : reach tokens ≤ rank)
    (extension : Settles (extend · expression tokens) (longer, rest))
    (goesOn : Settles (climb · rank longer rest) result) :
    Settles (climb · rank expression tokens) result := by
  apply Settles.step
  simp only [climb, if_neg (Nat.not_lt.mpr goes)]
  exact extension.bind goesOn

/-! ## Starts -/

theorem settles_readStart_name (plain : PlainName) :
    Settles (readStart · (.word plain.text :: rest)) (.name plain, rest) := by
  apply Settles.step
  simp only [readStart, Token.word.injEq, plain.text_ne_new, Token.text, plain.unaryOperator?,
    plain.updateOperator?, plain.isPlain, ↓reduceDIte, if_false, reduceCtorEq]
  exact Settles.some _

theorem settles_readStart_parentheses
    (inner : Settles (readExpression · tokens) (expression, .sign ")" :: rest)) :
    Settles (readStart · (.sign "(" :: tokens)) (expression, rest) := by
  apply Settles.step
  simp only [readStart, if_true, if_false, reduceCtorEq]
  exact inner.bind (Settles.some _)

theorem settles_readStart_unary (operator : UnaryOperator)
    (argument : Settles (readAt · 4 tokens) (expression, rest)) :
    Settles (readStart · (operatorToken operator.text :: tokens))
      (.unary operator expression, rest) := by
  apply Settles.step
  cases operator <;> exact argument.bind (Settles.some _)

theorem settles_readStart_update (operator : UpdateOperator)
    (target : Settles (readAt · 4 tokens) (expression, rest)) :
    Settles (readStart · (.sign operator.text :: tokens))
      (.update operator true expression, rest) := by
  apply Settles.step
  cases operator <;> exact target.bind (Settles.some _)

theorem settles_readStart_construction
    (callee : Settles (readAt · 1 tokens) (expression, .sign "(" :: rest))
    {remaining : List Token}
    (applied : Settles (readArguments · (.sign "(" :: rest)) (items, remaining)) :
    Settles (readStart · (.word "new" :: tokens)) (.construction expression items, remaining) := by
  apply Settles.step
  simp only [readStart, if_true]
  apply callee.bind
  simp only [expect_self, Option.isSome_some, if_true]
  exact applied.bind (Settles.some _)

theorem settles_readStart_bareConstruction
    (callee : Settles (readAt · 1 tokens) (expression, rest))
    (unapplied : expect (.sign "(") rest = none) :
    Settles (readStart · (.word "new" :: tokens)) (.construction expression [], rest) := by
  apply Settles.step
  simp only [readStart, if_true]
  apply callee.bind
  simp only [unapplied]
  exact Settles.some _

/-! ## Links -/

theorem settles_extend_dot (property : PlainName) :
    Settles (extend · expression (.sign "." :: .word property.text :: rest))
      (.member expression property, rest) := by
  apply Settles.step
  simp only [extend, Token.link?, if_true, dif_pos property.isPlain]
  exact Settles.some _

theorem settles_extend_bracket {property : Expression}
    (inner : Settles (readExpression · tokens) (property, .sign "]" :: rest)) :
    Settles (extend · expression (.sign "[" :: tokens)) (.index expression property, rest) :=
  Settles.step (inner.bind (Settles.some _))

theorem settles_extend_parenthesis
    (applied : Settles (readArguments · (.sign "(" :: tokens)) (items, rest)) :
    Settles (extend · expression (.sign "(" :: tokens)) (.call expression items, rest) :=
  Settles.step (applied.bind (Settles.some _))

theorem settles_extend_update (operator : UpdateOperator) :
    Settles (extend · expression (.sign operator.text :: rest))
      (.update operator false expression, rest) := by
  apply Settles.step
  cases operator <;> exact Settles.some _

theorem settles_extend_binary (operator : BinaryOperator) {right : Expression}
    (operand : Settles (readAt · operator.rightRank tokens) (right, rest)) :
    Settles (extend · expression (operatorToken operator.text :: tokens))
      (.binary operator expression right, rest) := by
  apply Settles.step
  simp only [extend, operator.link?_token]
  exact operand.bind (Settles.some _)

theorem settles_extend_question {consequent alternate : Expression} {others : List Token}
    (second : Settles (readAt · 17 tokens) (consequent, .sign ":" :: others))
    (third : Settles (readAt · 17 others) (alternate, rest)) :
    Settles (extend · expression (.sign "?" :: tokens))
      (.conditional expression consequent alternate, rest) := by
  apply Settles.step
  apply second.bind
  exact third.bind (Settles.some _)

theorem settles_extend_assignment (operator : AssignmentOperator) {value : Expression}
    (operand : Settles (readAt · 17 tokens) (value, rest)) :
    Settles (extend · expression (operatorToken operator.text :: tokens))
      (.assignment operator expression value, rest) := by
  apply Settles.step
  simp only [extend, operator.link?_token]
  exact operand.bind (Settles.some _)

/-! ## Lists -/

theorem settles_readItems_last (item : Settles (readAt · 17 tokens) (expression, rest))
    (ends : expect (.sign ",") rest = none) :
    Settles (readItems · tokens) ([expression], rest) := by
  apply Settles.step
  simp only [readItems]
  apply item.bind
  simp only [ends]
  exact Settles.some _

theorem settles_readItems_more {others : List Token}
    (item : Settles (readAt · 17 tokens) (expression, .sign "," :: others))
    (more : Settles (readItems · others) (items, rest)) :
    Settles (readItems · tokens) (expression :: items, rest) := by
  apply Settles.step
  simp only [readItems]
  apply item.bind
  exact more.bind (Settles.some _)

theorem settles_readExpression_single
    (item : Settles (readItems · tokens) ([expression], rest)) :
    Settles (readExpression · tokens) (expression, rest) := by
  apply Settles.step
  simp only [readExpression]
  exact item.bind (Settles.some _)

theorem settles_readExpression_sequence {first second : Expression}
    (several : Settles (readItems · tokens) (first :: second :: items, rest)) :
    Settles (readExpression · tokens) (.sequence (first :: second :: items), rest) := by
  apply Settles.step
  simp only [readExpression]
  exact several.bind (Settles.some _)

theorem settles_readArguments_none :
    Settles (readArguments · (.sign "(" :: .sign ")" :: rest)) ([], rest) :=
  Settles.step (Settles.some _)

theorem settles_readArguments_some (nonempty : expect (.sign ")") tokens = none)
    (inner : Settles (readItems · tokens) (items, .sign ")" :: rest)) :
    Settles (readArguments · (.sign "(" :: tokens)) (items, rest) := by
  apply Settles.step
  simp only [readArguments, expect_self, nonempty, Option.bind_eq_bind, Option.bind_some]
  exact inner.bind (Settles.some _)

end Steps

end ScriptBridge

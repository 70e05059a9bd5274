import ScriptBridge.Emit.Expression
import ScriptBridge.Proofs.Expression.Token

/-!
# Expressions

This is the abstract syntax of expressions over names and operators, free of
locations and of the other constructs of trees.  The layout of an expression
puts an operand in parentheses by comparing its rank with that of the operator
around it.
-/

namespace ScriptBridge

/-- The words that cannot be names. -/
def reservedWords : List String :=
  ["await", "break", "case", "catch", "class", "const", "continue", "debugger", "default",
    "delete", "do", "else", "enum", "export", "extends", "false", "finally", "for", "function",
    "if", "import", "in", "instanceof", "new", "null", "return", "super", "switch", "this",
    "throw", "true", "try", "typeof", "var", "void", "while", "with", "yield"]

/-- Whether a text is a word that may be a name. -/
def isPlainWord (text : String) : Bool :=
  text.toList.all isWordCharacter &&
    text.toList.head?.any (fun first => !first.isDigit) && !reservedWords.contains text

/-- A name. -/
structure PlainName where
  text : String
  isPlain : isPlainWord text = true
  deriving DecidableEq, Repr

namespace PlainName

theorem toList_ne_nil (plain : PlainName) : plain.text.toList ≠ [] := by
  intro empty
  have isPlain := plain.isPlain
  simp [isPlainWord, empty] at isPlain

theorem isWord (plain : PlainName) :
    ∀ character ∈ plain.text.toList, isWordCharacter character = true := by
  have isPlain := plain.isPlain
  simp only [isPlainWord, Bool.and_eq_true, List.all_eq_true] at isPlain
  exact isPlain.1.1

end PlainName

/-- Operators before their operand. -/
inductive UnaryOperator where
  | not
  | complement
  | plus
  | minus
  | typeOf
  | void
  | delete
  deriving DecidableEq, Repr

/-- Operators that change their operand. -/
inductive UpdateOperator where
  | increment
  | decrement
  deriving DecidableEq, Repr

/-- Operators between two operands. -/
inductive BinaryOperator where
  | power
  | times
  | dividedBy
  | remainder
  | plus
  | minus
  | shiftLeft
  | shiftRight
  | shiftRightUnsigned
  | less
  | lessOrEqual
  | greater
  | greaterOrEqual
  | isIn
  | instanceOf
  | equal
  | notEqual
  | identical
  | notIdentical
  | bitAnd
  | bitXor
  | bitOr
  | and
  | or
  | coalesce
  deriving DecidableEq, Repr

/-- Operators that assign to their left operand. -/
inductive AssignmentOperator where
  | assign
  | plus
  | minus
  | times
  | dividedBy
  | remainder
  | power
  | shiftLeft
  | shiftRight
  | shiftRightUnsigned
  | bitAnd
  | bitXor
  | bitOr
  | and
  | or
  | coalesce
  deriving DecidableEq, Repr

/-- The token of an operator that is written as given. -/
def operatorToken (text : String) : Token :=
  if Printer.isWordOperator text then .word text else .sign text

namespace UnaryOperator

/-- How the operator is written. -/
def text : UnaryOperator → String
  | .not => "!"
  | .complement => "~"
  | .plus => "+"
  | .minus => "-"
  | .typeOf => "typeof"
  | .void => "void"
  | .delete => "delete"

/-- All operators before their operand. -/
def all : List UnaryOperator :=
  [.not, .complement, .plus, .minus, .typeOf, .void, .delete]

/-- The operator with a given text. -/
def ofText? (text : String) : Option UnaryOperator :=
  all.find? fun operator => operator.text == text

theorem text_of_ofText? {operator : UnaryOperator} {text : String}
    (found : ofText? text = some operator) : operator.text = text := by
  unfold ofText? at found
  have same := List.find?_some found
  exact beq_iff_eq.mp same

end UnaryOperator

namespace UpdateOperator

/-- How the operator is written. -/
def text : UpdateOperator → String
  | .increment => "++"
  | .decrement => "--"

/-- The operator with a given text. -/
def ofText? (text : String) : Option UpdateOperator :=
  [UpdateOperator.increment, .decrement].find? fun operator => operator.text == text

theorem text_of_ofText? {operator : UpdateOperator} {text : String}
    (found : ofText? text = some operator) : operator.text = text := by
  unfold ofText? at found
  have same := List.find?_some found
  exact beq_iff_eq.mp same

end UpdateOperator

namespace BinaryOperator

/-- How the operator is written. -/
def text : BinaryOperator → String
  | .power => "**"
  | .times => "*"
  | .dividedBy => "/"
  | .remainder => "%"
  | .plus => "+"
  | .minus => "-"
  | .shiftLeft => "<<"
  | .shiftRight => ">>"
  | .shiftRightUnsigned => ">>>"
  | .less => "<"
  | .lessOrEqual => "<="
  | .greater => ">"
  | .greaterOrEqual => ">="
  | .isIn => "in"
  | .instanceOf => "instanceof"
  | .equal => "=="
  | .notEqual => "!="
  | .identical => "==="
  | .notIdentical => "!=="
  | .bitAnd => "&"
  | .bitXor => "^"
  | .bitOr => "|"
  | .and => "&&"
  | .or => "||"
  | .coalesce => "??"

/-- How loosely the operator binds. -/
def level : BinaryOperator → Nat
  | .power => 5
  | .times | .dividedBy | .remainder => 6
  | .plus | .minus => 7
  | .shiftLeft | .shiftRight | .shiftRightUnsigned => 8
  | .less | .lessOrEqual | .greater | .greaterOrEqual | .isIn | .instanceOf => 9
  | .equal | .notEqual | .identical | .notIdentical => 10
  | .bitAnd => 11
  | .bitXor => 12
  | .bitOr => 13
  | .and => 14
  | .or | .coalesce => 15

theorem level_le (operator : BinaryOperator) : operator.level ≤ 15 := by
  cases operator <;> decide

theorem five_lt_level {operator : BinaryOperator} (notPower : operator ≠ .power) :
    5 < operator.level := by
  cases operator <;> first | contradiction | decide

/-- The form of tree in which the operator occurs. -/
def form : BinaryOperator → BinaryForm
  | .and | .or | .coalesce => .logical
  | _ => .binary

/-- All operators between two operands. -/
def all : List BinaryOperator :=
  [.power, .times, .dividedBy, .remainder, .plus, .minus, .shiftLeft, .shiftRight,
    .shiftRightUnsigned, .less, .lessOrEqual, .greater, .greaterOrEqual, .isIn, .instanceOf,
    .equal, .notEqual, .identical, .notIdentical, .bitAnd, .bitXor, .bitOr, .and, .or,
    .coalesce]

/-- The operator with a given text. -/
def ofText? (text : String) : Option BinaryOperator :=
  all.find? fun operator => operator.text == text

theorem text_of_ofText? {operator : BinaryOperator} {text : String}
    (found : ofText? text = some operator) : operator.text = text := by
  unfold ofText? at found
  have same := List.find?_some found
  exact beq_iff_eq.mp same

end BinaryOperator

namespace AssignmentOperator

/-- How the operator is written. -/
def text : AssignmentOperator → String
  | .assign => "="
  | .plus => "+="
  | .minus => "-="
  | .times => "*="
  | .dividedBy => "/="
  | .remainder => "%="
  | .power => "**="
  | .shiftLeft => "<<="
  | .shiftRight => ">>="
  | .shiftRightUnsigned => ">>>="
  | .bitAnd => "&="
  | .bitXor => "^="
  | .bitOr => "|="
  | .and => "&&="
  | .or => "||="
  | .coalesce => "??="

/-- All operators that assign. -/
def all : List AssignmentOperator :=
  [.assign, .plus, .minus, .times, .dividedBy, .remainder, .power, .shiftLeft, .shiftRight,
    .shiftRightUnsigned, .bitAnd, .bitXor, .bitOr, .and, .or, .coalesce]

/-- The operator with a given text. -/
def ofText? (text : String) : Option AssignmentOperator :=
  all.find? fun operator => operator.text == text

theorem text_of_ofText? {operator : AssignmentOperator} {text : String}
    (found : ofText? text = some operator) : operator.text = text := by
  unfold ofText? at found
  have same := List.find?_some found
  exact beq_iff_eq.mp same

end AssignmentOperator

/-- An expression over names. -/
inductive Expression where
  | name (plain : PlainName)
  | unary (operator : UnaryOperator) (argument : Expression)
  | update (operator : UpdateOperator) (leading : Bool) (argument : Expression)
  | binary (operator : BinaryOperator) (left right : Expression)
  | assignment (operator : AssignmentOperator) (target value : Expression)
  | conditional (test consequent alternate : Expression)
  | member (object : Expression) (property : PlainName)
  | index (object property : Expression)
  | call (callee : Expression) (arguments : List Expression)
  | construction (callee : Expression) (arguments : List Expression)
  | sequence (items : List Expression)

namespace Expression

/-- Whether an expression is a sequence. -/
def isSequence : Expression → Bool
  | .sequence _ => true
  | _ => false

/-- Whether an expression may be changed or assigned to. -/
def isTarget : Expression → Bool
  | .name _ => true
  | .member .. => true
  | .index .. => true
  | _ => false

/-- The expressions in which only names and members are changed or assigned to,
and in which sequences have several items, none of them a sequence. -/
inductive WellFormed : Expression → Prop where
  | name (plain : PlainName) : WellFormed (.name plain)
  | unary (operator : UnaryOperator) {argument : Expression} :
      WellFormed argument → WellFormed (.unary operator argument)
  | update (operator : UpdateOperator) (leading : Bool) {target : Expression} :
      WellFormed target → target.isTarget = true →
        WellFormed (.update operator leading target)
  | binary (operator : BinaryOperator) {left right : Expression} :
      WellFormed left → WellFormed right → WellFormed (.binary operator left right)
  | assignment (operator : AssignmentOperator) {target value : Expression} :
      WellFormed target → target.isTarget = true → WellFormed value →
        WellFormed (.assignment operator target value)
  | conditional {test consequent alternate : Expression} :
      WellFormed test → WellFormed consequent → WellFormed alternate →
        WellFormed (.conditional test consequent alternate)
  | member {object : Expression} (property : PlainName) :
      WellFormed object → WellFormed (.member object property)
  | index {object property : Expression} :
      WellFormed object → WellFormed property → WellFormed (.index object property)
  | call {callee : Expression} {arguments : List Expression} :
      WellFormed callee → (∀ argument ∈ arguments, WellFormed argument) →
        WellFormed (.call callee arguments)
  | construction {callee : Expression} {arguments : List Expression} :
      WellFormed callee → (∀ argument ∈ arguments, WellFormed argument) →
        WellFormed (.construction callee arguments)
  | sequence {items : List Expression} :
      2 ≤ items.length → (∀ item ∈ items, WellFormed item) →
        (∀ item ∈ items, item.isSequence = false) → WellFormed (.sequence items)

/-- How loosely an expression binds. -/
def rank : Expression → Nat
  | .name _ => 0
  | .unary .. => 4
  | .update _ leading _ => if leading then 4 else 3
  | .binary operator _ _ => operator.level
  | .assignment .. => 17
  | .conditional .. => 16
  | .member .. => 1
  | .index .. => 1
  | .call .. => 1
  | .construction _ arguments => if arguments.isEmpty then 2 else 1
  | .sequence _ => 20

/-- Whether a call occurs along a chain of member accesses. -/
def callsInChain : Expression → Bool
  | .call .. => true
  | .member object _ => object.callsInChain
  | .index object _ => object.callsInChain
  | _ => false

/-- A layout between parentheses. -/
def enclosed (layout : Layout) : Layout :=
  [Piece.sign "("] ++ layout ++ [Piece.sign ")"]

/-- The layout of an operand under an operator. -/
def operandLayout (kind : Operand) (parent rank : Nat) (layout : Layout) : Layout :=
  if kind.needsParens rank parent then enclosed layout else layout

/-- An operator between its operands. -/
def betweenLayout (text : String) : Layout :=
  [.blank, .token (operatorToken text), .blank]

mutual

/-- How an expression is written. -/
def layout : Expression → Layout
  | .name plain => [.word plain.text]
  | .unary operator argument =>
      [.token (operatorToken operator.text)] ++
        (if Printer.isWordOperator operator.text then [.blank] else []) ++
        operandLayout .tight 4 argument.rank argument.layout
  | .update operator true argument =>
      [.sign operator.text] ++ operandLayout .tight 4 argument.rank argument.layout
  | .update operator false argument =>
      operandLayout .tight 3 argument.rank argument.layout ++ [.sign operator.text]
  | .binary operator left right =>
      operandLayout (if operator = .power then .tight else .loose) operator.level left.rank
          left.layout ++
        betweenLayout operator.text ++
        operandLayout (if operator = .power then .loose else .tight) operator.level right.rank
          right.layout
  | .assignment operator target value =>
      operandLayout .tight 17 target.rank target.layout ++ betweenLayout operator.text ++
        operandLayout .loose 17 value.rank value.layout
  | .conditional test consequent alternate =>
      operandLayout .tight 16 test.rank test.layout ++ betweenLayout "?" ++
        operandLayout .tight 16 consequent.rank consequent.layout ++ betweenLayout ":" ++
        operandLayout .tight 16 alternate.rank alternate.layout
  | .member object property =>
      operandLayout .loose 1 object.rank object.layout ++ [.sign ".", .word property.text]
  | .index object property =>
      operandLayout .loose 1 object.rank object.layout ++ [.sign "["] ++ property.layout ++
        [.sign "]"]
  | .call callee arguments =>
      operandLayout .loose 1 callee.rank callee.layout ++
        enclosed (itemsLayout .tight arguments)
  | .construction callee arguments =>
      [.word "new", .blank] ++
        (if callee.callsInChain then enclosed callee.layout
          else operandLayout .loose (if arguments.isEmpty then 2 else 1) callee.rank
            callee.layout) ++
        enclosed (itemsLayout .tight arguments)
  | .sequence items => itemsLayout .loose items

/-- How the items of a list are written. -/
def itemsLayout (kind : Operand) : List Expression → Layout
  | [] => []
  | [item] => operandLayout kind 20 item.rank item.layout
  | item :: next :: rest =>
      operandLayout kind 20 item.rank item.layout ++ [.sign ",", .blank] ++
        itemsLayout kind (next :: rest)

end

end Expression

end ScriptBridge

/-!
## The grammar of expressions

The grammar has one tier for each rank of operators.  A tier holds the next
tighter one; the binary operators group from the left, with the exception of
the power, and an assignment groups from the right.  Below the tiers stand
members, constructions and calls, which decide to which callee arguments belong.
-/

namespace ScriptBridge

/-- What tokens may be read as. -/
inductive Goal where
  /-- A name, or an expression between parentheses. -/
  | primary
  /-- A primary with accesses behind it, or a construction with arguments. -/
  | member
  /-- A member, or a construction without arguments. -/
  | construction
  /-- A member with arguments, and with accesses and arguments behind them. -/
  | call
  /-- An expression that binds at most as loosely as the given rank. -/
  | tier (rank : Nat)
  /-- Expressions with commas between them. -/
  | items
  /-- Any expression. -/
  | expression
  /-- Items between the parentheses of a call. -/
  | arguments
  deriving DecidableEq, Repr

/-- The readings of tokens.  Items and arguments are read as the sequence of
their expressions. -/
inductive Reads : Goal → List Token → Expression → Prop where
  | name (plain : PlainName) : Reads .primary [Token.word plain.text] (.name plain)
  | parentheses {tokens : List Token} {expression : Expression} :
      Reads .expression tokens expression →
        Reads .primary ([Token.sign "("] ++ tokens ++ [Token.sign ")"]) expression
  | memberOfPrimary {tokens : List Token} {expression : Expression} :
      Reads .primary tokens expression → Reads .member tokens expression
  | memberName {tokens : List Token} {object : Expression} (property : PlainName) :
      Reads .member tokens object →
        Reads .member (tokens ++ [Token.sign ".", .word property.text]) (.member object property)
  | memberIndex {tokens inner : List Token} {object property : Expression} :
      Reads .member tokens object → Reads .expression inner property →
        Reads .member (tokens ++ [Token.sign "["] ++ inner ++ [Token.sign "]"])
          (.index object property)
  | memberConstruction {tokens applied : List Token} {callee : Expression}
      {arguments : List Expression} :
      Reads .member tokens callee → Reads .arguments applied (.sequence arguments) →
        Reads .member ([Token.word "new"] ++ tokens ++ applied) (.construction callee arguments)
  | constructionOfMember {tokens : List Token} {expression : Expression} :
      Reads .member tokens expression → Reads .construction tokens expression
  | bareConstruction {tokens : List Token} {callee : Expression} :
      Reads .construction tokens callee →
        Reads .construction ([Token.word "new"] ++ tokens) (.construction callee [])
  | callOfMember {tokens applied : List Token} {callee : Expression}
      {arguments : List Expression} :
      Reads .member tokens callee → Reads .arguments applied (.sequence arguments) →
        Reads .call (tokens ++ applied) (.call callee arguments)
  | callOfCall {tokens applied : List Token} {callee : Expression}
      {arguments : List Expression} :
      Reads .call tokens callee → Reads .arguments applied (.sequence arguments) →
        Reads .call (tokens ++ applied) (.call callee arguments)
  | callName {tokens : List Token} {object : Expression} (property : PlainName) :
      Reads .call tokens object →
        Reads .call (tokens ++ [Token.sign ".", .word property.text]) (.member object property)
  | callIndex {tokens inner : List Token} {object property : Expression} :
      Reads .call tokens object → Reads .expression inner property →
        Reads .call (tokens ++ [Token.sign "["] ++ inner ++ [Token.sign "]"])
          (.index object property)
  | tierOfConstruction {tokens : List Token} {expression : Expression} :
      Reads .construction tokens expression → Reads (.tier 2) tokens expression
  | tierOfCall {tokens : List Token} {expression : Expression} :
      Reads .call tokens expression → Reads (.tier 2) tokens expression
  | looser {rank : Nat} {tokens : List Token} {expression : Expression} :
      rank < 17 → Reads (.tier rank) tokens expression →
        Reads (.tier (rank + 1)) tokens expression
  | updateBehind {tokens : List Token} {target : Expression} (operator : UpdateOperator) :
      Reads (.tier 2) tokens target →
        Reads (.tier 3) (tokens ++ [Token.sign operator.text]) (.update operator false target)
  | updateBefore {tokens : List Token} {target : Expression} (operator : UpdateOperator) :
      Reads (.tier 4) tokens target →
        Reads (.tier 3) ([Token.sign operator.text] ++ tokens) (.update operator true target)
  | unary {tokens : List Token} {argument : Expression} (operator : UnaryOperator) :
      Reads (.tier 4) tokens argument →
        Reads (.tier 4) ([operatorToken operator.text] ++ tokens) (.unary operator argument)
  | power {first second : List Token} {left right : Expression} :
      Reads (.tier 4) first left → Reads (.tier 5) second right →
        Reads (.tier 5) (first ++ [operatorToken BinaryOperator.power.text] ++ second)
          (.binary .power left right)
  | binary {first second : List Token} {left right : Expression} (operator : BinaryOperator) :
      operator ≠ .power → Reads (.tier operator.level) first left →
        Reads (.tier (operator.level - 1)) second right →
        Reads (.tier operator.level) (first ++ [operatorToken operator.text] ++ second)
          (.binary operator left right)
  | conditional {first second third : List Token} {test consequent alternate : Expression} :
      Reads (.tier 15) first test → Reads (.tier 17) second consequent →
        Reads (.tier 17) third alternate →
        Reads (.tier 16) (first ++ [Token.sign "?"] ++ second ++ [Token.sign ":"] ++ third)
          (.conditional test consequent alternate)
  | assignment {first second : List Token} {target value : Expression}
      (operator : AssignmentOperator) :
      Reads (.tier 2) first target → Reads (.tier 17) second value →
        Reads (.tier 17) (first ++ [operatorToken operator.text] ++ second)
          (.assignment operator target value)
  | lastItem {tokens : List Token} {expression : Expression} :
      Reads (.tier 17) tokens expression → Reads .items tokens (.sequence [expression])
  | moreItems {first second : List Token} {item : Expression} {items : List Expression} :
      Reads (.tier 17) first item → Reads .items second (.sequence items) →
        Reads .items (first ++ [Token.sign ","] ++ second) (.sequence (item :: items))
  | expressionOfTier {tokens : List Token} {expression : Expression} :
      Reads (.tier 17) tokens expression → Reads .expression tokens expression
  | sequence {tokens : List Token} {first second : Expression} {others : List Expression} :
      Reads .items tokens (.sequence (first :: second :: others)) →
        Reads .expression tokens (.sequence (first :: second :: others))
  | noArguments : Reads .arguments [Token.sign "(", .sign ")"] (.sequence [])
  | someArguments {tokens : List Token} {items : List Expression} :
      Reads .items tokens (.sequence items) →
        Reads .arguments ([Token.sign "("] ++ tokens ++ [Token.sign ")"]) (.sequence items)

end ScriptBridge

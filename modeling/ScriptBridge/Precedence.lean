import ScriptBridge.Tree.Node

/-!
# Precedence of operators

Every operator has a written pattern, with dots for its operands, and a rank:
the smaller the rank, the tighter it binds.  An operand is put in parentheses
when it binds too loosely for the place where it stands.
-/

namespace ScriptBridge

/-- How tightly an operator binds; zero is tightest. -/
abbrev Rank := Nat

namespace Precedence

/-- The patterns of all operators, grouped from the tightest to the loosest. -/
def levels : List (List String) :=
  [["( … )"],
   ["… . …", "… [ … ]", "new … ( … )", "… ( … )"],
   ["new …"],
   ["… ++", "… --"],
   ["! …", "~ …", "+ …", "- …", "++ …", "-- …", "typeof …", "void …", "delete …", "await …"],
   ["… ** …"],
   ["… * …", "… / …", "… % …"],
   ["… + …", "… - …"],
   ["… << …", "… >> …", "… >>> …"],
   ["… < …", "… <= …", "… > …", "… >= …", "… in …", "… instanceof …"],
   ["… == …", "… != …", "… === …", "… !== …"],
   ["… & …"],
   ["… ^ …"],
   ["… | …"],
   ["… && …"],
   ["… || …", "… ?? …"],
   ["… ? … : …"],
   ["… = …", "… += …", "… -= …", "… *= …", "… /= …", "… %= …", "… **= …", "… <<= …",
    "… >>= …", "… >>>= …", "… &= …", "… ^= …", "… |= …", "… &&= …", "… ||= …", "… ??= …"],
   ["yield …", "yield* …"],
   ["..."],
   ["… , …"]]

/-- The rank of a pattern, if it is known. -/
def rank? (pattern : String) : Option Rank :=
  levels.findIdx? fun level => level.contains pattern

/-- The rank of everything that is no operator. -/
def primary : Rank := 0

/-- The rank of an operator that is not known: looser than every other. -/
def unranked : Rank := 999

/-- The rank of a pattern; one that is not known binds loosest. -/
def rankOf (pattern : String) : Rank :=
  (rank? pattern).getD unranked

/-- The rank of assignments. -/
def assignment : Rank :=
  rankOf "… = …"

/-- The rank of the comma, against which the items of lists are put in
parentheses. -/
def comma : Rank :=
  rankOf "… , …"

end Precedence

/-- How an operand relates to its operator. -/
inductive Operand where
  /-- It may bind as tightly as the operator. -/
  | loose
  /-- It must bind tighter than the operator. -/
  | tight
  deriving DecidableEq, Repr

/-- Whether an operand of rank `child` needs parentheses under an operator of
rank `parent`. -/
def Operand.needsParens (operand : Operand) (child parent : Rank) : Bool :=
  match operand with
  | .loose => parent < child
  | .tight => parent ≤ child

namespace Shape

variable {Part : Type}

/-- Whether an operator groups from the right. -/
def isRightAssociative : Shape Part → Bool
  | .binary .assignment .. => true
  | .binary .binary operator .. => operator == "**"
  | _ => false

/-- The pattern of an operator. -/
def operatorPattern? : Shape Part → Option String
  | .unary _ operator leading _ =>
      some (if leading then operator ++ " …" else "… " ++ operator)
  | .binary _ operator _ _ => some ("… " ++ operator ++ " …")
  | .member _ _ computed _ => some (if computed then "… [ … ]" else "… . …")
  | .conditional .. => some "… ? … : …"
  | .call .call .. => some "… ( … )"
  | .call .construction _ arguments .. =>
      some (if arguments.isEmpty then "new …" else "new … ( … )")
  | .sequence .. => some "… , …"
  | .spread .spread .. => some "..."
  | .unsupported .yield => some "yield …"
  | .unsupported .await => some "await …"
  | .function .arrow .. => some "… = …"
  | _ => none

/-- The rank of a shape. -/
def rank (shape : Shape Part) : Rank :=
  match shape.operatorPattern? with
  | some pattern => Precedence.rankOf pattern
  | none => Precedence.primary

end Shape

/-- The expression under any number of casts.  Casts leave no trace in generated
code, so an operand has the rank of what its casts wrap. -/
def Node.underCasts : Node → Node
  | ⟨_, .cast expression _⟩ => expression.underCasts
  | node => node

end ScriptBridge

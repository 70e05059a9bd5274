import ScriptBridge.Proofs.Expression.Reader

/-!
# The grammar is unambiguous

Reading at a rank finds every expression of a goal that binds at most as loosely,
if the tokens behind it do not bind too tightly.  What is found is handed on to
the rest of the climb, so that an operator which groups from the left can take it
as its left operand.
-/

namespace ScriptBridge

namespace Goal

/-- The rank from which on a reader finds the expressions of a goal. -/
def base : Goal → Nat
  | .primary => 0
  | .member => 1
  | .construction => 1
  | .call => 2
  | .tier rank => rank
  | _ => 17

/-- How loosely the tokens behind an expression of a goal have to bind.  An
expression that ends in an operand of its own must not lose it to them. -/
def need : Goal → Nat
  | .primary => 0
  | .member => 0
  | .construction => 3
  | .call => 0
  | .tier rank =>
      if rank ≤ 2 then 3 else if rank ≤ 4 then 5 else if rank = 5 then 6
      else if rank ≤ 15 then rank else 18
  | _ => 18

end Goal

/-- A list of items ends before the given tokens. -/
def EndsItems (rest : List Token) : Prop :=
  18 ≤ reach rest ∧ expect (.sign ",") rest = none

/-- The reader finds an expression of a goal and goes on behind it. -/
def Found : Goal → List Token → Expression → Prop
  | .items, tokens, expression =>
      ∀ rest, EndsItems rest → ∃ items, expression = .sequence items ∧
        Settles (readItems · (tokens ++ rest)) (items, rest)
  | .expression, tokens, expression =>
      ∀ rest, EndsItems rest →
        Settles (readExpression · (tokens ++ rest)) (expression, rest)
  | .arguments, tokens, expression =>
      ∀ rest, ∃ inner items, tokens = .sign "(" :: inner ∧ expression = .sequence items ∧
        Settles (readArguments · (tokens ++ rest)) (items, rest)
  | goal, tokens, expression =>
      ∀ rank rest result, goal.base ≤ rank → goal.need ≤ reach rest →
        Settles (climb · rank expression rest) result →
        Settles (readAt · rank (tokens ++ rest)) result

/-- An expression is read alone if the tokens behind it bind looser. -/
theorem Found.settles {rank : Nat} {tokens rest : List Token} {expression : Expression}
    (found : Found (.tier rank) tokens expression) {limit : Nat} (fits : rank ≤ limit)
    (needs : (Goal.tier rank).need ≤ reach rest) (stops : limit < reach rest) :
    Settles (readAt · limit (tokens ++ rest)) (expression, rest) :=
  found limit rest _ fits needs (settles_climb_stop stops)

theorem reach_parenthesis (rest : List Token) : reach (.sign "(" :: rest) = 2 := rfl

theorem reach_question (rest : List Token) : reach (.sign "?" :: rest) = 16 := rfl

theorem reach_colon (rest : List Token) : reach (.sign ":" :: rest) = 20 := rfl

theorem reach_comma (rest : List Token) : reach (.sign "," :: rest) = 20 := rfl

theorem reach_binary (operator : BinaryOperator) (rest : List Token) :
    reach (operatorToken operator.text :: rest) = operator.level := by
  simp only [reach, List.head?_cons, Option.bind_some, operator.link?_token, Link.reach]

theorem reach_assignment (operator : AssignmentOperator) (rest : List Token) :
    reach (operatorToken operator.text :: rest) = 17 := by
  simp only [reach, List.head?_cons, Option.bind_some, operator.link?_token, Link.reach]

theorem reach_update (operator : UpdateOperator) (rest : List Token) :
    reach (.sign operator.text :: rest) = 3 := by
  cases operator <;> rfl

theorem endsItems_parenthesis (rest : List Token) : EndsItems (.sign ")" :: rest) :=
  ⟨show (18 : Nat) ≤ 20 by decide, rfl⟩

theorem endsItems_bracket (rest : List Token) : EndsItems (.sign "]" :: rest) :=
  ⟨show (18 : Nat) ≤ 20 by decide, rfl⟩

theorem endsItems_nil : EndsItems [] :=
  ⟨show (18 : Nat) ≤ 20 by decide, rfl⟩

/-- No expression starts with a closing parenthesis. -/
theorem Reads.starts {goal : Goal} {tokens : List Token} {expression : Expression}
    (reads : Reads goal tokens expression) :
    ∃ first others, tokens = first :: others ∧ first ≠ .sign ")" := by
  induction reads with
  | name plain => exact ⟨_, _, rfl, by simp⟩
  | parentheses => exact ⟨_, _, rfl, by decide⟩
  | memberConstruction => exact ⟨_, _, rfl, by decide⟩
  | bareConstruction => exact ⟨_, _, rfl, by decide⟩
  | updateBefore operator => exact ⟨_, _, rfl, by cases operator <;> decide⟩
  | unary operator => exact ⟨_, _, rfl, by cases operator <;> decide⟩
  | noArguments => exact ⟨_, _, rfl, by decide⟩
  | someArguments => exact ⟨_, _, rfl, by decide⟩
  | memberOfPrimary _ ih | constructionOfMember _ ih | tierOfConstruction _ ih
  | tierOfCall _ ih | looser _ _ ih | lastItem _ ih | expressionOfTier _ ih | sequence _ ih =>
      exact ih
  | memberName _ _ ih | callName _ _ ih | updateBehind _ _ ih =>
      obtain ⟨first, others, rfl, notClosing⟩ := ih
      exact ⟨first, _, rfl, notClosing⟩
  | memberIndex _ _ ih _ | callOfMember _ _ ih _ | callOfCall _ _ ih _ | callIndex _ _ ih _
  | power _ _ ih _ | binary _ _ _ _ ih _ | conditional _ _ _ ih _ _ | assignment _ _ _ ih _
  | moreItems _ _ ih _ =>
      obtain ⟨first, others, rfl, notClosing⟩ := ih
      exact ⟨first, _, rfl, notClosing⟩

/-- Tokens that no argument list may follow do not open one. -/
theorem expect_parenthesis {rest : List Token} (looser : 3 ≤ reach rest) :
    expect (.sign "(") rest = none := by
  cases rest with
  | nil => rfl
  | cons token rest =>
      by_cases opening : token = .sign "("
      · rw [opening, reach_parenthesis] at looser
        contradiction
      · simp [expect, opening]

/-- The next looser tier asks for no more than the tier itself. -/
theorem Goal.need_tier_succ (rank : Nat) :
    (Goal.tier rank).need ≤ (Goal.tier (rank + 1)).need := by
  simp only [Goal.need]
  split_ifs <;> omega

/-- The reader finds every reading of the grammar. -/
theorem Reads.found {goal : Goal} {tokens : List Token} {expression : Expression}
    (reads : Reads goal tokens expression) : Found goal tokens expression := by
  induction reads with
  | name plain =>
      intro rank rest result _ _ goesOn
      exact settles_read (settles_readStart_name plain) goesOn
  | parentheses _ inner =>
      intro rank rest result _ _ goesOn
      have inside := inner (.sign ")" :: rest) (endsItems_parenthesis rest)
      rw [List.append_assoc, List.append_assoc]
      exact settles_read (settles_readStart_parentheses inside) goesOn
  | memberOfPrimary _ found =>
      intro rank rest result _ _ goesOn
      exact found rank rest result (Nat.zero_le _) (Nat.zero_le _) goesOn
  | memberName property _ found | callName property _ found =>
      intro rank rest result fits _ goesOn
      rw [List.append_assoc]
      apply found rank _ result fits (Nat.zero_le _)
      refine settles_climb ?_ (settles_extend_dot property) goesOn
      exact Nat.le_trans (by decide : 1 ≤ _) fits
  | memberIndex _ _ found inner | callIndex _ _ found inner =>
      intro rank rest result fits _ goesOn
      have inside := inner (.sign "]" :: rest) (endsItems_bracket rest)
      rw [List.append_assoc, List.append_assoc, List.append_assoc]
      apply found rank _ result fits (Nat.zero_le _)
      refine settles_climb ?_ (settles_extend_bracket inside) goesOn
      exact Nat.le_trans (by decide : 1 ≤ _) fits
  | memberConstruction _ _ found applied =>
      intro rank rest result _ _ goesOn
      obtain ⟨inner, arguments, rfl, same, appliedSettles⟩ := applied rest
      cases same
      have callee := found 1 (.sign "(" :: inner ++ rest) _ (Nat.le_refl 1) (Nat.zero_le _)
        (settles_climb_stop (Nat.lt_of_lt_of_eq (by decide) (reach_parenthesis _).symm))
      rw [List.append_assoc, List.append_assoc]
      exact settles_read (settles_readStart_construction callee appliedSettles) goesOn
  | constructionOfMember _ found =>
      intro rank rest result fits _ goesOn
      exact found rank rest result fits (Nat.zero_le _) goesOn
  | bareConstruction _ found =>
      intro rank rest result _ needs goesOn
      have callee := found 1 rest _ (Nat.le_refl 1) needs
        (settles_climb_stop (Nat.lt_of_lt_of_le (by decide) needs))
      exact settles_read
        (settles_readStart_bareConstruction callee (expect_parenthesis needs)) goesOn
  | callOfMember _ _ found applied | callOfCall _ _ found applied =>
      intro rank rest result fits _ goesOn
      obtain ⟨inner, arguments, rfl, same, appliedSettles⟩ := applied rest
      cases same
      rw [List.append_assoc]
      apply found rank _ result (Nat.le_trans (by decide) fits) (Nat.zero_le _)
      exact settles_climb fits (settles_extend_parenthesis appliedSettles) goesOn
  | tierOfConstruction _ found =>
      intro rank rest result fits needs goesOn
      exact found rank rest result (Nat.le_trans (by decide) fits) needs goesOn
  | tierOfCall _ found =>
      intro rank rest result fits _ goesOn
      exact found rank rest result fits (Nat.zero_le _) goesOn
  | looser _ _ found =>
      intro rank rest result fits needs goesOn
      exact found rank rest result (Nat.le_of_succ_le fits)
        (Nat.le_trans (Goal.need_tier_succ _) needs) goesOn
  | updateBehind operator _ found =>
      intro rank rest result fits _ goesOn
      rw [List.append_assoc]
      apply found rank _ result (Nat.le_of_succ_le fits) (Nat.le_of_eq (reach_update ..).symm)
      refine settles_climb ?_ (settles_extend_update operator) goesOn
      exact Nat.le_trans (Nat.le_of_eq (reach_update ..)) fits
  | updateBefore operator _ found =>
      intro rank rest result _ needs goesOn
      have target := found.settles (Nat.le_refl 4) needs needs
      exact settles_read (settles_readStart_update operator target) goesOn
  | unary operator _ found =>
      intro rank rest result _ needs goesOn
      have argument := found.settles (Nat.le_refl 4) needs needs
      exact settles_read (settles_readStart_unary operator argument) goesOn
  | power _ _ foundLeft foundRight =>
      intro rank rest result fits needs goesOn
      have right := foundRight.settles (Nat.le_refl 5) needs needs
      rw [List.append_assoc, List.append_assoc]
      apply foundLeft rank _ result (Nat.le_of_succ_le fits)
        (Nat.le_of_eq (reach_binary .power _).symm)
      refine settles_climb ?_ (settles_extend_binary .power right) goesOn
      exact fits
  | binary operator notPower _ _ foundLeft foundRight =>
      intro rank rest result fits needs goesOn
      have low := BinaryOperator.five_lt_level notPower
      have high := operator.level_le
      have needLevel : (Goal.tier operator.level).need = operator.level := by
        simp only [Goal.need]
        split_ifs <;> omega
      have needTighter : (Goal.tier (operator.level - 1)).need ≤ operator.level := by
        simp only [Goal.need]
        split_ifs <;> omega
      rw [needLevel] at needs
      have right := foundRight.settles (Nat.le_refl _) (Nat.le_trans needTighter needs)
        (by omega)
      rw [List.append_assoc, List.append_assoc]
      apply foundLeft rank _ result fits
      · exact Nat.le_of_eq (needLevel.trans (reach_binary operator _).symm)
      · refine settles_climb (Nat.le_trans (Nat.le_of_eq (reach_binary operator _)) fits)
          (settles_extend_binary operator ?_) goesOn
        rw [BinaryOperator.rightRank, if_neg notPower]
        exact right
  | conditional _ _ _ foundTest foundConsequent foundAlternate =>
      intro rank rest result fits needs goesOn
      have alternate := foundAlternate.settles (Nat.le_refl 17) needs needs
      simp only [List.append_assoc]
      apply foundTest rank _ result (Nat.le_of_succ_le fits)
        (Nat.le_trans (by decide) (Nat.le_of_eq (reach_question _).symm))
      refine settles_climb fits (settles_extend_question ?_ alternate) goesOn
      exact foundConsequent.settles (Nat.le_refl 17)
        (Nat.le_trans (by decide) (Nat.le_of_eq (reach_colon _).symm))
        (Nat.le_trans (by decide) (Nat.le_of_eq (reach_colon _).symm))
  | assignment operator _ _ foundTarget foundValue =>
      intro rank rest result fits needs goesOn
      have value := foundValue.settles (Nat.le_refl 17) needs needs
      rw [List.append_assoc, List.append_assoc]
      apply foundTarget rank _ result (Nat.le_trans (by decide) fits)
        (Nat.le_trans (by decide) (Nat.le_of_eq (reach_assignment operator _).symm))
      exact settles_climb (Nat.le_trans (Nat.le_of_eq (reach_assignment operator _)) fits)
        (settles_extend_assignment operator value) goesOn
  | lastItem _ found =>
      intro rest ends
      have item := found.settles (Nat.le_refl 17) ends.1 ends.1
      exact ⟨_, rfl, settles_readItems_last item ends.2⟩
  | moreItems _ _ found more =>
      intro rest ends
      obtain ⟨items, same, moreSettles⟩ := more rest ends
      cases same
      rw [List.append_assoc, List.append_assoc]
      refine ⟨_, rfl, settles_readItems_more ?_ moreSettles⟩
      exact found.settles (Nat.le_refl 17)
        (Nat.le_trans (by decide) (Nat.le_of_eq (reach_comma _).symm))
        (Nat.le_trans (by decide) (Nat.le_of_eq (reach_comma _).symm))
  | expressionOfTier _ found =>
      intro rest ends
      have item := found.settles (Nat.le_refl 17) ends.1 ends.1
      exact settles_readExpression_single (settles_readItems_last item ends.2)
  | sequence _ several =>
      intro rest ends
      obtain ⟨items, same, severalSettles⟩ := several rest ends
      cases same
      exact settles_readExpression_sequence severalSettles
  | noArguments =>
      intro rest
      exact ⟨_, _, rfl, rfl, settles_readArguments_none⟩
  | someArguments items inner =>
      intro rest
      obtain ⟨first, others, rfl, notClosing⟩ := items.starts
      obtain ⟨items, same, innerSettles⟩ :=
        inner (.sign ")" :: rest) (endsItems_parenthesis rest)
      cases same
      refine ⟨_, _, rfl, rfl, ?_⟩
      rw [List.append_assoc, List.append_assoc]
      exact settles_readArguments_some (by simp [expect, notClosing]) innerSettles

/-- Tokens have at most one reading. -/
theorem Reads.unique {tokens : List Token} {first second : Expression}
    (readsFirst : Reads .expression tokens first)
    (readsSecond : Reads .expression tokens second) : first = second := by
  have same := (readsFirst.found [] endsItems_nil).unique (readsSecond.found [] endsItems_nil)
  exact congrArg Prod.fst same

end ScriptBridge

import ScriptBridge.Normalize.Declarations

/-!
# Names within the limit of patterns

The pattern for a function with a given name grows with the name.  What each part of it
adds to the automata has a bound, so a name of ordinary length is never too long.
-/

namespace ScriptBridge

/-! ## What a step adds -/

namespace AutomatonSize

/-- A step adds at most so much memory. -/
def AddsAtMost (step : AutomatonSize → AutomatonSize) (bound : Nat) : Prop :=
  ∀ size, (step size).memory ≤ size.memory + bound

theorem memory_addMoves_le (size : AutomatonSize) (count : Nat) :
    (size.addMoves count).memory ≤ size.memory + (32 + 8 * count) := by
  simp only [addMoves, stateMemory, moveMemory]
  omega

namespace AddsAtMost

variable {first second : AutomatonSize → AutomatonSize} {one two : Nat}

theorem comp (ofFirst : AddsAtMost first one) (ofSecond : AddsAtMost second two) :
    AddsAtMost (fun size => second (first size)) (one + two) := by
  intro size
  calc (second (first size)).memory
      ≤ (first size).memory + two := ofSecond (first size)
    _ ≤ size.memory + one + two := Nat.add_le_add_right (ofFirst size) two
    _ = size.memory + (one + two) := Nat.add_assoc _ _ _

theorem plain (count : Nat) : AddsAtMost (·.addPlain count) (32 * count) := by
  intro size
  simp only [addPlain, stateMemory]
  omega

theorem branching (references : Nat) :
    AddsAtMost (·.addBranching references) (32 + 4 * references) := by
  intro size
  simp only [addBranching, stateMemory, referenceMemory]
  omega

theorem once (adds : AddsAtMost first one) : AddsAtMost (addCopies first 1) one := by
  intro size
  simp only [addCopies]
  split
  · exact adds size
  · exact Nat.le_add_right _ _

end AddsAtMost

end AutomatonSize

open AutomatonSize (AddsAtMost)

/-! ## Sets -/

/-- The number of moves and ends of a tree. -/
def ByteTree.weight : ByteTree → Nat
  | .done => 1
  | .move _ next further => 1 + next.weight + further.weight

theorem ByteTree.memory_addStates_le (target : Nat) (tree : ByteTree) (moves : List Move)
    (built : AutomatonSize × StateTable (List Move)) :
    (tree.addStates target moves built).2.1.memory ≤
      built.1.memory + 40 * (moves.length + tree.weight) := by
  induction tree generalizing moves built with
  | done =>
      have adds := built.1.memory_addMoves_le moves.length
      simp only [addStates, weight]
      split
      · exact Nat.le_add_right _ _
      · dsimp only
        omega
  | move range next further ihNext ihFurther =>
      cases next with
      | done =>
          have inFurther := ihFurther ((range, target) :: moves) built
          rw [List.length_cons] at inFurther
          simp only [addStates, weight]
          omega
      | move =>
          have inNext := ihNext [] built
          rw [addStates]
          generalize (ByteTree.move _ _ _).addStates target [] built = reached at inNext ⊢
          obtain ⟨state, rebuilt⟩ := reached
          have inFurther := ihFurther ((range, state) :: moves) rebuilt
          rw [List.length_cons] at inFurther
          simp only [weight, List.length_nil] at inNext inFurther ⊢
          omega

namespace EncodedSet

theorem memory_addSequence_le (sequence : List CodeRange) (state : Nat)
    (built : AutomatonSize × StateTable Step) :
    (addSequence sequence state built).1.memory ≤ built.1.memory + 32 * sequence.length := by
  induction sequence generalizing state built with
  | nil => exact Nat.le_add_right _ _
  | cons range rest ih =>
      obtain ⟨low, high⟩ := range
      obtain ⟨size, table⟩ := built
      have adds : (size.addPlain 1).memory ≤ size.memory + 32 * 1 := AddsAtMost.plain 1 size
      rw [addSequence, List.length_cons]
      split
      · exact Nat.le_trans (ih _ _) (by dsimp only; omega)
      · exact Nat.le_trans (ih _ _) (by dsimp only; omega)

theorem memory_foldl_addSequence_le (sequences : List (List CodeRange)) (target : Nat)
    (built : AutomatonSize × StateTable Step) :
    (sequences.foldl (fun built sequence => addSequence sequence target built) built).1.memory ≤
      built.1.memory + 32 * sequences.flatten.length := by
  induction sequences generalizing built with
  | nil => exact Nat.le_add_right _ _
  | cons sequence rest ih =>
      have adds := memory_addSequence_le sequence target built
      rw [List.foldl_cons, List.flatten_cons, List.length_append]
      exact Nat.le_trans (ih _) (by omega)

/-- The memory that is enough for the states of a set. -/
def memoryBound (members : EncodedSet) : Nat :=
  64 + 8 * members.ranges.length + 40 * members.tree.weight +
    4 * members.sequences.length + 32 * members.sequences.flatten.length

theorem addsAtMost_addStates (members : EncodedSet) (direction : ReadingDirection) :
    AddsAtMost (members.addStates direction) members.memoryBound := by
  intro size
  have plain : (size.addPlain 1).memory ≤ size.memory + 32 * 1 := AddsAtMost.plain 1 size
  unfold addStates memoryBound
  split
  · have moves := (size.addPlain 1).memory_addMoves_le members.ranges.length
    omega
  · cases direction with
    | forward =>
        have states := members.tree.memory_addStates_le size.states []
          (size.addPlain 1, ⟨10000, {}⟩)
        rw [List.length_nil] at states
        dsimp only at states ⊢
        omega
    | backward =>
        have branches : (size.addBranching members.sequences.length).memory ≤
            size.memory + (32 + 4 * members.sequences.length) :=
          AddsAtMost.branching _ size
        have target : ((size.addBranching members.sequences.length).addPlain 1).memory ≤
            (size.addBranching members.sequences.length).memory + 32 * 1 :=
          AddsAtMost.plain 1 _
        have states := memory_foldl_addSequence_le members.sequences (size.states + 1)
          ((size.addBranching members.sequences.length).addPlain 1, ⟨1000, {}⟩)
        dsimp only at states ⊢
        omega

end EncodedSet

/-! ## Patterns -/

namespace SimplePattern

theorem addsAtMost_addRepetitions {copy : AutomatonSize → AutomatonSize} {bound least : Nat}
    (adds : AddsAtMost copy bound) (atMostOne : least ≤ 1) :
    AddsAtMost (addRepetitions copy true least none) (40 + bound) := by
  match least, atMostOne with
  | 0, _ => exact (AddsAtMost.branching 2).comp adds
  | 1, _ =>
      rw [Nat.add_comm]
      exact adds.once.comp (.branching 2)

theorem addsAtMost_literal (direction : ReadingDirection) (text : List Char) :
    AddsAtMost (addStates direction (.literal text)) (byteCount text * 32) := by
  intro size
  rw [addStates]
  exact Nat.le_refl _

theorem addsAtMost_nil (direction : ReadingDirection) :
    AddsAtMost (addParts direction []) 0 := by
  intro size
  rw [addParts]
  exact Nat.le_refl _

theorem addsAtMost_cons {direction : ReadingDirection} {part : SimplePattern}
    {rest : List SimplePattern} {one two : Nat}
    (ofPart : AddsAtMost (addStates direction part) one)
    (ofRest : AddsAtMost (addParts direction rest) two) :
    AddsAtMost (addParts direction (part :: rest)) (one + two) := by
  intro size
  cases direction with
  | forward =>
      rw [addParts]
      exact ofPart.comp ofRest size
  | backward =>
      rw [addParts, Nat.add_comm one two]
      exact ofRest.comp ofPart size

end SimplePattern

/-! ## The pattern for a name -/

namespace PatternExpression

open SimplePattern

theorem simplified_inOrder_cons (first second : PatternExpression)
    (rest : List PatternExpression) :
    (inOrder (first :: second :: rest)).simplified =
      first.simplified.andThen (inOrder (second :: rest)).simplified :=
  rfl

theorem simplified_only (character : Char) :
    (one (.only character)).simplified = .literal [character] := by
  have valid : ¬ (0xD800 ≤ character.toNat ∧ character.toNat ≤ 0xDFFF) := by
    rintro ⟨low, high⟩
    rcases character.valid with below | ⟨above, -⟩
    · exact absurd (show character.toNat < 0xD800 from below) (by omega)
    · exact absurd (show 0xDFFF < character.toNat from above) (by omega)
  have ranges : CodeRange.withoutSurrogates (CharClass.ranges (.only character)) =
      [(character.toNat, character.toNat)] := by
    simp [CharClass.ranges, CodeRange.withoutSurrogates, valid]
  simp [simplified, simplifiedBranches, firstOf, ofRanges, ranges]

/-- What is neither a literal nor a sequence stays a part of its own. -/
theorem simplified_cons {first : PatternExpression} {tail : List PatternExpression}
    (isMore : tail ≠ []) (single : first.simplified.parts = [first.simplified])
    (isOther : first.simplified.literal? = none) :
    (inOrder (first :: tail)).simplified =
      ofParts (first.simplified :: (inOrder tail).simplified.parts) := by
  obtain ⟨second, others, isTail⟩ := List.exists_cons_of_ne_nil isMore
  rw [isTail, simplified_inOrder_cons, andThen, single, List.foldr_cons, List.foldr_nil]
  congr 1
  cases isFirst : first.simplified with
  | literal text =>
      rw [isFirst] at isOther
      cases isOther
  | _ => rfl

/-- Characters in a row become one part, in front of what is not a literal. -/
theorem parts_simplified_text {text : List Char} (isSome : text ≠ [])
    {tail : List PatternExpression} (isMore : tail ≠ []) {part : SimplePattern}
    {rest : List SimplePattern} (parts : (inOrder tail).simplified.parts = part :: rest)
    (isOther : part.literal? = none) :
    (inOrder (text.map (fun character => .one (.only character)) ++ tail)).simplified.parts =
      .literal text :: part :: rest := by
  have pushed (character : Char) : pushPart (.literal [character]) (part :: rest) =
      .literal [character] :: part :: rest := by
    cases part with
    | literal => cases isOther
    | _ => rfl
  induction text with
  | nil => exact absurd rfl isSome
  | cons character text ih =>
      obtain ⟨second, others, isTail⟩ := List.exists_cons_of_ne_nil isMore
      rw [List.map_cons, List.cons_append]
      cases text with
      | nil =>
          rw [List.map_nil, List.nil_append, isTail, simplified_inOrder_cons, ← isTail,
            simplified_only, andThen, parts]
          show (ofParts (pushPart (.literal [character]) (part :: rest))).parts = _
          rw [pushed]
          rfl
      | cons next text =>
          have inText := ih (List.cons_ne_nil _ _)
          rw [List.map_cons, List.cons_append] at inText ⊢
          rw [simplified_inOrder_cons, simplified_only, andThen, inText]
          rfl

end PatternExpression

namespace Normalize

open PatternExpression SimplePattern

/-- The parts of the pattern for the head of a function. -/
def functionHeadParts (name : List Char) : List SimplePattern :=
  let blanks : SimplePattern := (PatternExpression.one .blank).simplified
  [.condition (.edge .boundary .word), .literal "function".toList, .repeated blanks 1 none true,
    .literal name, .repeated blanks 0 none true, .literal ['(']]

theorem simplified_functionHeadExpression {name : List Char} (isSome : name ≠ []) :
    (functionHeadExpression name).simplified = .sequence (functionHeadParts name) := by
  have ofName := @parts_simplified_text name isSome
    [.repeated (.one .blank) 0 none true, .one (.only '(')] (List.cons_ne_nil _ _)
    (.repeated (PatternExpression.one .blank).simplified 0 none true) [.literal ['(']]
    (by rw [simplified_cons (List.cons_ne_nil _ _) rfl rfl]; rfl) rfl
  have ofWord := @parts_simplified_text "function".toList (by decide)
    (.repeated (.one .blank) 1 none true :: (name.map (fun character => .one (.only character)) ++
      [.repeated (.one .blank) 0 none true, .one (.only '(')])) (List.cons_ne_nil _ _)
    (.repeated (PatternExpression.one .blank).simplified 1 none true)
    (.literal name :: .repeated (PatternExpression.one .blank).simplified 0 none true ::
      [.literal ['(']])
    (by rw [simplified_cons (by simp) rfl rfl, ofName]; rfl) rfl
  rw [functionHeadExpression, List.append_assoc, List.cons_append, List.cons_append,
    simplified_cons (by simp) rfl rfl]
  simp only [List.map_cons, List.map_nil] at ofWord ⊢
  rw [ofWord]
  rfl

theorem simplified_blank :
    (PatternExpression.one .blank).simplified = .set (.ofRanges (CharClass.ranges .blank)) := by
  rfl

theorem addsAtMost_blanks (direction : ReadingDirection) {least : Nat} (atMostOne : least ≤ 1) :
    AddsAtMost (addStates direction
      (.repeated (PatternExpression.one .blank).simplified least none true)) 3000 := by
  have few : 40 + (EncodedSet.ofRanges (CharClass.ranges .blank)).memoryBound ≤ 3000 := by
    decide
  have takes : ((PatternExpression.one .blank).simplified.takesCharacter &&
      !(PatternExpression.one .blank).simplified.hasVoid) = true := by
    decide
  have ofOne : AddsAtMost (addStates direction (PatternExpression.one .blank).simplified)
      (EncodedSet.ofRanges (CharClass.ranges .blank)).memoryBound := by
    rw [simplified_blank]
    intro size
    rw [addStates]
    exact EncodedSet.addsAtMost_addStates _ direction size
  intro size
  rw [addStates, takes]
  exact Nat.le_trans (addsAtMost_addRepetitions ofOne atMostOne size) (by omega)

theorem addsAtMost_functionHeadParts (direction : ReadingDirection) (name : List Char) :
    AddsAtMost (addParts direction (functionHeadParts name)) (6320 + byteCount name * 32) := by
  have condition : AddsAtMost (addStates direction (.condition (.edge .boundary .word))) 32 := by
    intro size
    rw [addStates]
    exact Nat.le_refl _
  have adds := addsAtMost_cons condition <|
    addsAtMost_cons (addsAtMost_literal direction "function".toList) <|
    addsAtMost_cons (addsAtMost_blanks direction (Nat.le_refl 1)) <|
    addsAtMost_cons (addsAtMost_literal direction name) <|
    addsAtMost_cons (addsAtMost_blanks direction (Nat.zero_le 1)) <|
    addsAtMost_cons (addsAtMost_literal direction ['(']) (addsAtMost_nil direction)
  have ofWord : byteCount "function".toList = 8 := by decide
  have ofEnd : byteCount ['('] = 1 := by decide
  rw [ofWord, ofEnd] at adds
  intro size
  exact Nat.le_trans (adds size) (by omega)

/-- The pattern for a name is within its limit, unless the name takes hundreds of
thousands of bytes. -/
theorem fitsLimit_functionHeadExpression {name : List Char} (isSome : name ≠ [])
    (short : byteCount name ≤ 300000) : (functionHeadExpression name).fitsLimit = true := by
  have lead (anchored : Bool) : (leadSize anchored).memory ≤ 112 := by
    cases anchored <;> decide
  have plain (size : AutomatonSize) : (size.addPlain 1).memory ≤ size.memory + 32 :=
    AddsAtMost.plain 1 size
  have parts := addsAtMost_functionHeadParts
  have forward : ((sequence (functionHeadParts name)).automatonSize .forward).memory ≤
      6528 + byteCount name * 32 := by
    rw [automatonSize, addStates, addStates]
    generalize isStart : leadSize _ = start
    have small : start.memory ≤ 112 := isStart ▸ lead _
    have opened := plain start
    have inside := parts .forward name (start.addPlain 1)
    have closed := plain (addParts .forward (functionHeadParts name) (start.addPlain 1))
    exact Nat.le_trans (plain _) (by omega)
  have backward : ((sequence (functionHeadParts name)).automatonSize .backward).memory ≤
      6528 + byteCount name * 32 := by
    rw [automatonSize, addStates]
    generalize isStart : leadSize _ = start
    have small : start.memory ≤ 112 := isStart ▸ lead _
    have inside := parts .backward name start
    exact Nat.le_trans (plain _) (by omega)
  have fits {size : AutomatonSize} (bounded : size.memory ≤ 6528 + byteCount name * 32) :
      size.fits = true :=
    decide_eq_true (show size.memory ≤ 10485760 by omega)
  rw [PatternExpression.fitsLimit, simplified_functionHeadExpression isSome]
  simp [fits forward, fits backward]

end Normalize

end ScriptBridge

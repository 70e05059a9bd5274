import ScriptBridge.Proofs.Expression.Separation
import ScriptBridge.Proofs.Placement.Added

/-!
# The construct at the very left

The text of an operator starts with that of its first operand, unless the operand is put
in parentheses.  So the text of every expression starts with a parenthesis or with the
text of its leader: the leftmost construct that has no operand in front of it.  Behind the
text of the leader no word goes on.
-/

namespace ScriptBridge

theorem closes_cons_iff (character : Char) (rest : List Char) :
    Closes (character :: rest) ↔ isWordCharacter character = false := by
  simp [Closes]

instance : DecidablePred Closes
  | [] => .isTrue closes_nil
  | character :: rest => decidable_of_iff' _ (closes_cons_iff character rest)

theorem Closes.append {first second : List Char} (before : Closes first)
    (behind : Closes second) : Closes (first ++ second) := by
  cases first with
  | nil => exact behind
  | cons character rest => exact before

theorem Closes.append_left {first second : List Char} (before : Closes first)
    (nonempty : first ≠ []) : Closes (first ++ second) := by
  cases first with
  | nil => exact absurd rfl nonempty
  | cons character rest => exact before

/-- Indentation does not join a word to another one. -/
theorem AreBlank.closes {characters : List Char} (blank : AreBlank characters) :
    Closes characters := by
  intro character isFirst
  rw [blank character (List.mem_of_mem_head? isFirst)]
  rfl

/-- The leader of an operand, which is none behind a parenthesis. -/
def leaderIn (kind : Operand) (parent : Rank) (operand : Folded (Option Node)) : Option Node :=
  if kind.needsParens operand.node.underCasts.shape.rank parent then none else operand.result

/-- Whether there are no type arguments or they stand between angle brackets. -/
def areBracketed : Option Node → Bool
  | none | some ⟨_, .typeList _⟩ => true
  | some _ => false

/-- How a bare name is written. -/
def Settings.bareName (settings : Settings) (scopes : ScopeStack) (source : String) : String :=
  let renamed := settings.options.renameIdentifier source
  (scopes.qualifier settings.index renamed).getD "" ++ renamed

/-- Whether a callee is a name for whose constructions the pattern is written. -/
def Node.isPatternCallee (settings : Settings) (scopes : ScopeStack) (callee : Node) : Bool :=
  match callee.shape with
  | .identifier source none false => settings.bareName scopes source == "RegExp"
  | _ => false

/-- The leader of the expression at the very left of another one, if there is one. -/
def Shape.leader? (settings : Settings) (scopes : ScopeStack)
    (shape : Shape (Folded (Option Node))) : Option (Option Node) :=
  match shape with
  | .unary _ operator false argument =>
      if operator = "++" ∨ operator = "--" then some (leaderIn .tight shape.rank argument)
      else none
  | .binary _ _ left _ =>
      some (leaderIn (if shape.isRightAssociative then .tight else .loose) shape.rank left)
  | .conditional test _ _ => some (leaderIn .tight shape.rank test)
  | .call .call callee _ _ typeParameters typeArguments =>
      if callee.node.identifier? ≠ some Printer.rawCodeName ∧
          areBracketed ((chosenTypeArguments typeParameters typeArguments).map (·.node)) then
        some (leaderIn .loose shape.rank callee)
      else none
  | .call .construction callee (pattern :: _) _ _ _ =>
      if callee.node.isPatternCallee settings scopes then some pattern.result else none
  | .member object _ _ _ => some (leaderIn .loose shape.rank object)
  | .sequence (first :: _) => some (leaderIn .loose shape.rank first)
  | .cast expression _ => some expression.result
  | _ => none

/-- The leftmost construct of an expression, in front of which no other one stands; none if
the expression starts with a parenthesis. -/
def Node.leader? (settings : Settings) (scopes : ScopeStack) : Node → Option Node :=
  fold fun location shape =>
    (shape.leader? settings scopes).getD (some ⟨location, shape.map (·.node)⟩)

/-- A node with its leader. -/
def Node.withLeader (settings : Settings) (scopes : ScopeStack) (node : Node) :
    Folded (Option Node) :=
  ⟨node, node.leader? settings scopes⟩

theorem Node.leader?_eq (settings : Settings) (scopes : ScopeStack) (location : Location)
    (shape : Shape Node) :
    leader? settings scopes ⟨location, shape⟩ =
      ((shape.map (withLeader settings scopes)).leader? settings scopes).getD
        (some ⟨location, shape⟩) := by
  have itself : (shape.map (withLeader settings scopes)).map (·.node) = shape := by
    rw [Shape.map_map]
    exact Shape.map_id shape
  have folded : leader? settings scopes ⟨location, shape⟩ =
      ((shape.map (withLeader settings scopes)).leader? settings scopes).getD
        (some ⟨location, (shape.map (withLeader settings scopes)).map (·.node)⟩) := by
    unfold leader?
    rw [fold_eq]
    rfl
  rw [folded, itself]

/-- From one state to a later one nothing but indentation is written, and the scopes stay as
they are. -/
structure PrinterState.Indents (state next : PrinterState) : Prop where
  scopes : next.scopes = state.scopes
  text : ∃ lead, AreBlank lead ∧ next.text.characters = state.text.characters ++ lead

namespace PrinterState.Indents

variable {state middle next : PrinterState}

theorem refl (state : PrinterState) : state.Indents state :=
  ⟨rfl, [], fun _ place => absurd place List.not_mem_nil, by simp⟩

theorem trans (first : state.Indents middle) (second : middle.Indents next) :
    state.Indents next := by
  obtain ⟨lead, blank, isMiddle⟩ := first.text
  obtain ⟨shift, blankShift, isNext⟩ := second.text
  refine ⟨second.scopes.trans first.scopes, lead ++ shift, ?_, ?_⟩
  · exact fun character place => (List.mem_append.mp place).elim (blank _) (blankShift _)
  · rw [isNext, isMiddle, List.append_assoc]

theorem of_diagnostics (state : PrinterState) (diagnostics : List Diagnostic) :
    state.Indents { state with diagnostics } :=
  ⟨rfl, (refl state).text⟩

end PrinterState.Indents

/-- How the text between two states starts: with a parenthesis, or with the text of the
leader. -/
inductive StartsAs (settings : Settings) (state next : PrinterState) : Option Node → Prop where
  | enclosed {lead rest : List Char} : AreBlank lead →
      next.text.characters = state.text.characters ++ lead ++ '(' :: rest →
      StartsAs settings state next none
  | leading {leader : Node} {role : Role} {begun reached : PrinterState} {rest : List Char} :
      role = .plain ∨ role = .ranked → state.Indents begun →
      (leader.printAs role).outcome settings begun = .ok ((), reached) →
      Closes rest → next.text.characters = reached.text.characters ++ rest →
      StartsAs settings state next (some leader)

namespace StartsAs

variable {settings : Settings} {state middle next : PrinterState} {leader : Option Node}

theorem more (starts : StartsAs settings state middle leader) {added : List Char}
    (apart : Closes added) (goesOn : next.text.characters = middle.text.characters ++ added) :
    StartsAs settings state next leader := by
  cases starts with
  | @enclosed lead rest blank isMiddle =>
      have isNext : next.text.characters =
          state.text.characters ++ lead ++ '(' :: (rest ++ added) := by
        rw [goesOn, isMiddle, List.append_assoc _ (_ :: _)]
        rfl
      exact .enclosed blank isNext
  | leading plain indents printed apartRest isMiddle =>
      refine .leading plain indents printed (apartRest.append apart) ?_
      rw [goesOn, isMiddle, List.append_assoc]

/-- Indentation may stand in front. -/
theorem behind (indents : state.Indents middle) (starts : StartsAs settings middle next leader) :
    StartsAs settings state next leader := by
  cases starts with
  | @enclosed lead rest blank isNext =>
      obtain ⟨shift, blankShift, isMiddle⟩ := indents.text
      have blankAll : AreBlank (shift ++ lead) := fun character place =>
        (List.mem_append.mp place).elim (blankShift _) (blank _)
      have isAll : next.text.characters =
          state.text.characters ++ (shift ++ lead) ++ '(' :: rest := by
        rw [isNext, isMiddle, List.append_assoc _ shift]
      exact .enclosed blankAll isAll
  | leading plain indentsLeader printed apart isNext =>
      exact .leading plain (indents.trans indentsLeader) printed apart isNext

end StartsAs

namespace Printer

variable {settings : Settings} {scopes : ScopeStack} {leader : Option Node}

/-- Within the scopes at hand, the text of a printer starts with its leader. -/
def Begins (settings : Settings) (scopes : ScopeStack) (leader : Option Node)
    (printer : Printer Unit) : Prop :=
  ∀ state next, state.scopes = scopes → printer.outcome settings state = .ok ((), next) →
    StartsAs settings state next leader

theorem enclosedIf_false (opening closing : String) (printer : Printer Unit) :
    enclosedIf false opening closing printer = printer := by
  simp [enclosedIf, writeIf]

/-- What a printer adds does not go on with a word in front of it. -/
def AddsApart (settings : Settings) (printer : Printer Unit) : Prop :=
  ∀ state next, printer.outcome settings state = .ok ((), next) →
    ∃ added, Closes added ∧ next.text.characters = state.text.characters ++ added

theorem AddsApart.pure : AddsApart settings (Pure.pure ()) := by
  intro state next ends
  cases ends
  exact ⟨[], closes_nil, by simp⟩

/-- A sign in front keeps everything behind it apart. -/
theorem AddsApart.write {sign : String} (apart : Closes sign.toList)
    (nonempty : sign.toList ≠ []) (inLine : '\n' ∉ sign.toList) {rest : Unit → Printer Unit}
    (adds : ∀ value, Adds settings (rest value)) :
    AddsApart settings (Printer.write sign >>= rest) := by
  intro state next ends
  obtain ⟨_, reached, isReached, goesOn⟩ := outcome_bind_eq_ok ends
  obtain ⟨later, isLater⟩ := adds _ _ _ _ goesOn
  cases isReached
  obtain ⟨lead, blank, isWritten⟩ := state.text.characters_write_line inLine
  refine ⟨lead ++ (sign.toList ++ later), ?_, ?_⟩
  · exact blank.closes.append (apart.append_left nonempty)
  · rw [← isLater]
    simp only [isWritten, List.append_assoc]

namespace Begins

theorem andThen {first : Printer Unit} {rest : Unit → Printer Unit}
    (begins : Begins settings scopes leader first)
    (apart : ∀ value, AddsApart settings (rest value)) :
    Begins settings scopes leader (first >>= rest) := by
  intro state next inScopes ends
  obtain ⟨_, middle, isMiddle, goesOn⟩ := outcome_bind_eq_ok ends
  obtain ⟨added, isApart, isNext⟩ := apart _ _ _ goesOn
  exact (begins _ _ inScopes isMiddle).more isApart isNext

theorem ranked {role : Role} {place : Position} {shape : Shape Part}
    {rest : Rank → Printer Unit} (begins : Begins settings scopes leader (rest shape.rank)) :
    Begins settings scopes leader (ownRank role place shape >>= rest) := by
  intro state next inScopes ends
  obtain ⟨rank, middle, isRank, goesOn⟩ := outcome_bind_eq_ok ends
  obtain ⟨rfl, diagnostics, rfl⟩ := ownRank_eq_ok isRank
  exact (begins { state with diagnostics } _ inScopes goesOn).behind
    (.of_diagnostics state diagnostics)

/-- A printer between parentheses, or bare. -/
theorem enclosedIf {printer : Printer Unit} (condition : Bool)
    (begins : condition = false → Begins settings scopes leader printer)
    (adds : Adds settings printer) :
    Begins settings scopes (if condition then none else leader)
      (enclosedIf condition "(" ")" printer) := by
  cases condition with
  | false =>
      rw [enclosedIf_false]
      exact begins rfl
  | true =>
      intro state next _ ends
      obtain ⟨_, opened, isOpened, goesOn⟩ := outcome_bind_eq_ok ends
      have addsRest : Adds settings (do printer; writeIf true ")") :=
        adds.bind fun _ => .write ")"
      obtain ⟨later, isLater⟩ := addsRest _ _ _ goesOn
      cases isOpened
      obtain ⟨lead, blank, isWritten⟩ :=
        state.text.characters_write_line (show '\n' ∉ "(".toList by decide)
      have isNext : next.text.characters = state.text.characters ++ lead ++ '(' :: later := by
        rw [← isLater]
        simp only [isWritten, List.append_assoc]
        rfl
      exact .enclosed blank isNext

theorem operand {kind : Operand} {parent : Rank} {node : Node}
    (begins : Begins settings scopes (node.leader? settings scopes) (node.printAs .ranked)) :
    Begins settings scopes (leaderIn kind parent (node.withLeader settings scopes))
      (operand kind parent node.toPart) := by
  intro state next inScopes ends
  obtain ⟨rank, middle, isRank, goesOn⟩ := outcome_bind_eq_ok ends
  obtain ⟨rfl, diagnostics, rfl⟩ := rankOf_eq_ok isRank
  have adds : Adds settings (node.printAs .ranked) :=
    .of_leads fun _ _ => (node.balanced_toPart settings).role .ranked trivial
  exact (enclosedIf _ (fun _ => begins) adds { state with diagnostics } _ inScopes goesOn).behind
    (.of_diagnostics state diagnostics)

end Begins

/-- Taking back a bare name leaves only the indentation in front of it. -/
theorem taken_bareName {role : Role} (bare : role.isBare) {source text : String}
    {state next : PrinterState} (noLineEnd : '\n' ∉ (settings.bareName state.scopes source).toList)
    (ends : (textOf (name role source)).outcome settings state = .ok (text, next)) :
    text = settings.bareName state.scopes source ∧ state.Indents next := by
  have adds : Adds settings (name role source) :=
    .of_leads fun _ _ => .name False.elim role False.elim
  obtain ⟨reached, inner, isTaken, scopes, indents⟩ := textOf_eq_ok adds ends
  rw [outcome_name bare] at inner
  -- Behind the mark no line starts, so nothing but the name is written.
  have isWritten : reached.text.characters =
      state.text.mark.1.characters ++ (settings.bareName state.scopes source).toList := by
    cases inner
    rw [← IndentedText.characters_foldl_put _ state.text.atLineStart_mark, Settings.bareName,
      String.toList_append, List.foldl_append]
    · rfl
    · exact fun character place => ne_of_mem_of_not_mem place noLineEnd
  cases inner
  exact ⟨String.toList_injective (List.append_cancel_left (isTaken.symm.trans isWritten)),
    scopes, indents⟩

end Printer

namespace Node

open Printer

variable {settings : Settings} {scopes : ScopeStack} {role : Role}

/-- A construct without another one in front is its own leader. -/
theorem begins_itself (node : Node) (plain : role = .plain ∨ role = .ranked) :
    Begins settings scopes (some node) (node.printAs role) := by
  intro state next _ ends
  exact .leading plain (.refl state) ends closes_nil (by simp)

/-- The construction of a pattern is written as the pattern. -/
theorem begins_pattern {callee pattern : Node} {rest : List Node} {types : Option Part}
    {rank : Rank} {leader : Option Node} (isPattern : callee.isPatternCallee settings scopes)
    (begins : Begins settings scopes leader (pattern.printAs .plain)) :
    Begins settings scopes leader
      (construction rank callee.toPart ((pattern :: rest).map toPart) types) := by
  obtain ⟨location, shape⟩ := callee
  unfold isPatternCallee at isPattern
  split at isPattern
  · next source isShape =>
      cases isShape
      have isText : settings.bareName scopes source = "RegExp" := beq_iff_eq.mp isPattern
      have isName : constructed rank (toPart ⟨location, .identifier source none false⟩) =
          name .ranked source := by
        have loose : Operand.loose.needsParens Precedence.primary rank = false := by
          simp [Operand.needsParens, Precedence.primary]
        have printed : printAs ⟨location, .identifier source none false⟩ .ranked =
            name .ranked source := by
          rw [printAs_eq]
          exact bind_pure _
        calc constructed rank (toPart ⟨location, .identifier source none false⟩)
          _ = enclosedIf (Operand.loose.needsParens Precedence.primary rank) "(" ")"
                (printAs ⟨location, .identifier source none false⟩ .ranked) := rfl
          _ = name .ranked source := by
            rw [loose, enclosedIf_false, printed]
      intro state next inScopes ends
      obtain ⟨text, middle, isTaken, goesOn⟩ := outcome_bind_eq_ok ends
      rw [isName] at isTaken
      have noLineEnd : '\n' ∉ (settings.bareName state.scopes source).toList := by
        rw [inScopes, isText]
        decide
      obtain ⟨rfl, indents⟩ := taken_bareName rfl noLineEnd isTaken
      rw [inScopes, isText, if_neg (by decide), if_pos rfl] at goesOn
      exact (begins _ _ (indents.scopes.trans inScopes) goesOn).behind indents
  · cases isPattern

/-- Type arguments start with an angle bracket. -/
theorem apart_applied {opening : String} (apart : Closes opening.toList)
    (nonempty : opening.toList ≠ []) (inLine : '\n' ∉ opening.toList) (arguments : List Node)
    {types : Option Node} (bracketed : areBracketed types) :
    AddsApart settings
      (applied opening (arguments.map toPart) (types.map toPart)) := by
  have addsArguments : ∀ value : Unit, Adds settings (do
      separated listItem (arguments.map toPart)
      write ")") := by
    intro _
    refine Adds.bind (.of_leads fun _ _ => .separated fun part isPart => ?_) fun _ => .write ")"
    exact .listItem (balanced_of_mem_map part isPart)
  cases types with
  | none => exact .write apart nonempty inLine addsArguments
  | some types =>
      obtain ⟨location, shape⟩ := types
      cases shape with
      | typeList params =>
          unfold applied
          simp only [Option.map_some, whenPresent, Folded.print, printAs_part, toPart, printAs_eq,
            construct, withOperands, withoutOperands, typeList, Shape.map, bind_assoc]
          refine AddsApart.write (by decide) (by decide) (by decide) fun _ => ?_
          refine Adds.bind (.of_leads fun _ _ => .separated fun part isPart => ?_) fun _ => ?_
          · exact (balanced_of_mem_map part isPart).role .typeName trivial
          · exact (Adds.write ">").bind fun _ => (Adds.write opening).bind addsArguments
      | _ => cases bracketed

/-- The text of an expression starts with its leader. -/
theorem begins (node : Node) (plain : role = .plain ∨ role = .ranked) :
    Begins settings scopes (node.leader? settings scopes) (node.printAs role) := by
  induction node using parts_induction generalizing role with
  | step node ih =>
      obtain ⟨location, shape⟩ := node
      have itself : Begins settings scopes (some ⟨location, shape⟩)
          (printAs ⟨location, shape⟩ role) := begins_itself ⟨location, shape⟩ plain
      have first (part : Node) (isPart : part ∈ shape.parts) (kind : Operand) (parent : Rank) :
          Begins settings scopes (leaderIn kind parent (part.withLeader settings scopes))
            (Printer.operand kind parent part.toPart) :=
        .operand (ih part isPart (.inr rfl))
      rw [printAs_eq] at itself
      rw [leader?_eq, printAs_eq]
      cases shape with
      | unary form operator leading argument =>
          cases leading with
          | true => exact itself
          | false =>
              dsimp only [Shape.map, Shape.leader?]
              split
              · next isStep =>
                  have apart : Closes operator.toList := by
                    rcases isStep with rfl | rfl <;> decide
                  have nonempty : operator.toList ≠ [] := by
                    rcases isStep with rfl | rfl <;> decide
                  have inLine : '\n' ∉ operator.toList := by
                    rcases isStep with rfl | rfl <;> decide
                  refine .ranked ((first argument (by simp [Shape.parts]) _ _).andThen fun _ => ?_)
                  rw [← bind_pure (write operator)]
                  exact .write apart nonempty inLine .pure
              · exact itself
      | binary form operator left right =>
          have behind (kind : Operand) (rank : Rank) : AddsApart settings (do
              write " "
              write operator
              write " "
              Printer.operand kind rank right.toPart) :=
            .write (by decide) (by decide) (by decide) fun _ => (Adds.write operator).bind
              fun _ => (Adds.write " ").bind fun _ => adds_operand kind rank right
          -- Which operand may be of the same rank depends on the form.
          cases form <;>
            exact .ranked ((first left (by simp [Shape.parts]) _ _).andThen fun _ => behind _ _)
      | conditional test consequent alternate =>
          refine .ranked ((first test (by simp [Shape.parts]) _ _).andThen fun _ => ?_)
          exact .write (by decide) (by decide) (by decide) fun _ =>
            (adds_operand _ _ consequent).bind fun _ => (Adds.write " : ").bind
              fun _ => adds_operand _ _ alternate
      | call form callee arguments optional typeParameters typeArguments =>
          cases form with
          | construction =>
              cases arguments with
              | nil => exact itself
              | cons pattern rest =>
                  dsimp only [Shape.map]
                  rw [List.map_cons]
                  dsimp only [Shape.leader?]
                  split
                  · next isPattern =>
                      refine .ranked (begins_pattern isPattern ?_)
                      exact ih pattern (by simp [Shape.parts]) (.inl rfl)
                  · exact itself
          | call =>
              dsimp only [Shape.map, Shape.leader?]
              split
              · next isCall =>
                  have isKept : ¬ callee.identifier? = some rawCodeName := isCall.1
                  have bracketed := isCall.2
                  simp only [construct, withOperands, Printer.call]
                  rw [if_neg isKept]
                  refine .ranked ((first callee (by simp [Shape.parts]) _ _).andThen fun _ => ?_)
                  rw [Shape.chosenTypeArguments_map]
                  rw [Shape.chosenTypeArguments_map, Option.map_map] at bracketed
                  have chosen : Folded.node ∘ withLeader settings scopes = id := rfl
                  rw [chosen, Option.map_id] at bracketed
                  cases optional with
                  | true => exact apart_applied (by decide) (by decide) (by decide) _ bracketed
                  | false => exact apart_applied (by decide) (by decide) (by decide) _ bracketed
              · exact itself
      | member object property computed optional =>
          have addsProperty (role : Role) (closed : role.Closed) :
              Adds settings (property.printAs role) :=
            .of_leads fun _ _ => (property.balanced_toPart settings).role role closed
          refine .ranked ((first object (by simp [Shape.parts]) _ _).andThen fun _ => ?_)
          cases computed with
          | true =>
              have behind : ∀ _ : Unit, Adds settings (do
                  property.printAs .plain
                  write "]") :=
                fun _ => (addsProperty .plain trivial).bind fun _ => .write "]"
              cases optional <;> exact .write (by decide) (by decide) (by decide) behind
          | false =>
              cases optional <;>
                exact .write (by decide) (by decide) (by decide)
                  fun _ => addsProperty .memberName trivial
      | sequence expressions =>
          cases expressions with
          | nil => exact itself
          | cons item rest =>
              have begins := first item (by simp [Shape.parts]) .loose
              cases rest with
              | nil => exact .ranked (begins _)
              | cons next rest =>
                  refine .ranked ((begins _).andThen fun _ => ?_)
                  refine .write (by decide) (by decide) (by decide) fun _ => ?_
                  have balanced : ∀ part ∈ (next :: rest).map toPart,
                      part.Balanced settings False := balanced_of_mem_map
                  exact .of_leads fun _ _ => .separated fun part isPart =>
                    .operand _ _ (balanced part isPart)
      | cast expression type =>
          have plainCast : role.underCast = .plain ∨ role.underCast = .ranked := by
            rcases plain with rfl | rfl
            · exact .inl rfl
            · exact .inr rfl
          exact ih expression (by simp [Shape.parts]) plainCast
      | _ => exact itself

end Node

end ScriptBridge

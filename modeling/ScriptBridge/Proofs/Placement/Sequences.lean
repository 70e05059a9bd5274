import ScriptBridge.Proofs.Placement.Added

/-!
# Sequences among other expressions

In many places the grammar takes a single expression, so that a sequence needs
parentheses there.  Arguments, elements, initializers, spread arguments, bodies of arrow
functions, assigned values and the branches of a choice are printed as operands and get
them.  Values and keys of entries, defaults, values of fields and the collections of loops
are printed as they are, and a sequence stands bare in them.
-/

namespace ScriptBridge

/-- A construct with one part left open, in a place for a single expression. -/
inductive Slot where
  | argument (form : CallForm) (callee : Node) (earlier later : List Node) (optional : Bool)
      (typeParameters typeArguments : Option Node)
  | element (earlier later : List (Option Node))
  | initializer (name : Node)
  | spread (declaredType : Option Node)
  | arrowBody (marks : FunctionMarks) (name : Option Node) (params : List Node)
      (returnType : Option Node)
  | assigned (operator : String) (left : Node)
  | consequent (test other : Node)
  | alternate (test other : Node)
  | entryValue (key : Node) (computed shorthand : Bool)
  | entryKey (value : Node) (shorthand : Bool)
  | methodKey (marks : SignatureMarks) (params : List Node) (returnType : Option Node)
  | fieldKey (declaredType : Option Node) (readonly optional : Bool)
  | default (left : Node)
  | fieldValue (marks : PropertyMarks) (key : Node) (declaredType : Option Node)
      (decorators : List Node)
  | collection (left body : Node)

namespace Slot

/-- The construct with the open part filled in. -/
def fill (expression : Node) : Slot → Shape Node
  | .argument form callee earlier later optional typeParameters typeArguments =>
      .call form callee (earlier ++ expression :: later) optional typeParameters typeArguments
  | .element earlier later => .arrayLiteral (earlier ++ some expression :: later)
  | .initializer name => .declarator name (some expression)
  | .spread declaredType => .spread .spread expression declaredType
  | .arrowBody marks name params returnType =>
      .function .arrow marks name params (some expression) returnType
  | .assigned operator left => .binary .assignment operator left expression
  | .consequent test other => .conditional test expression other
  | .alternate test other => .conditional test other expression
  | .entryValue key computed shorthand => .entry key expression computed shorthand
  | .entryKey value shorthand => .entry expression value true shorthand
  | .methodKey marks params returnType =>
      .methodSignature { marks with computed := true } expression params returnType
  | .fieldKey declaredType readonly optional =>
      .propertySignature expression declaredType readonly optional true
  | .default left => .assignmentPattern left expression
  | .fieldValue marks key declaredType decorators =>
      .classProperty marks key (some expression) declaredType decorators
  | .collection left body => .forEach .values left expression body

/-- What stands in front of a sequence in the open part. -/
def opening : Slot → String
  | .entryValue .. => ": "
  | .entryKey .. | .methodKey .. | .fieldKey .. => "["
  | .default .. | .fieldValue .. => " = "
  | .collection .. => " of "
  | _ => "("

/-- What stands behind a sequence in the open part. -/
def closing : Slot → String
  | .entryValue .. | .default .. => ""
  | .entryKey .. | .methodKey .. | .fieldKey .. => "]"
  | .fieldValue .. => ";"
  | .collection .. => ") "
  | _ => ")"

/-- Calls that are not written as something else, and assignments by an operator that binds
tighter than the comma. -/
def IsOrdinary (settings : Settings) : Slot → Prop
  | .argument .call callee .. => callee.identifier? ≠ some Printer.rawCodeName
  | .argument .construction callee .. => callee.IsKeptCallee settings
  | .assigned operator _ => Precedence.rankOf ("… " ++ operator ++ " …") < Precedence.comma
  | _ => True

end Slot

/-- Whether an expression is a sequence, possibly under casts. -/
def Node.isSequence (node : Node) : Bool :=
  match node.underCasts.shape with
  | .sequence _ => true
  | _ => false

namespace Node

variable {node : Node}

theorem operatorPattern?_of_isSequence (sequence : node.isSequence) :
    node.underCasts.shape.operatorPattern? = some "… , …" := by
  unfold isSequence at sequence
  split at sequence
  · next isShape => rw [isShape]; rfl
  · cases sequence

/-- A sequence is printed in the same way whether its rank has been looked up or not. -/
theorem printAs_ranked_of_isSequence (sequence : node.isSequence) :
    node.printAs .ranked = node.printAs .plain := by
  fun_induction underCasts node with
  | case1 location expression declaredType ih =>
      rw [printAs_eq, printAs_eq]
      exact ih sequence
  | case2 node noCast =>
      obtain ⟨location, shape⟩ := node
      rw [printAs_eq, printAs_eq]
      cases shape with
      | sequence expressions => rfl
      | cast expression declaredType =>
          exact (noCast location expression declaredType rfl).elim
      | _ => cases sequence

end Node

namespace Printer

variable {settings : Settings} {expression : Node} {Result : Type}

theorem rankOf_of_isSequence (sequence : expression.isSequence) :
    rankOf expression.toPart = pure Precedence.comma := by
  simp only [rankOf_part, Node.toPart, Node.operatorPattern?_of_isSequence sequence]
  rfl

/-- A sequence gets parentheses as an operand of whatever binds tighter. -/
theorem shows_operand (sequence : expression.isSequence) {kind : Operand} {parent : Rank}
    (enclosed : kind.needsParens Precedence.comma parent) :
    Shows settings (expression.printAs .plain) "(" ")" (operand kind parent expression.toPart) := by
  unfold operand
  rw [rankOf_of_isSequence sequence, pure_bind, enclosed]
  change Shows _ _ _ _ (do
    write "("
    expression.printAs .ranked
    write ")")
  rw [Node.printAs_ranked_of_isSequence sequence]
  exact .between (by decide) (by decide)

theorem shows_listItem (sequence : expression.isSequence) :
    Shows settings (expression.printAs .plain) "(" ")" (listItem expression.toPart) :=
  shows_operand sequence rfl

theorem isBlock_of_isSequence (sequence : expression.isSequence) :
    isBlock expression.toPart = false := by
  obtain ⟨location, shape⟩ := expression
  cases shape with
  | group form body => cases sequence
  | _ => rfl

theorem shows_arrowBody (sequence : expression.isSequence) :
    Shows settings (expression.printAs .plain) "(" ")" (arrowBody expression.toPart) := by
  have looser : decide (Precedence.assignment < Precedence.comma) = true := by
    decide
  unfold arrowBody
  rw [isBlock_of_isSequence sequence, if_neg Bool.false_ne_true, rankOf_of_isSequence sequence,
    pure_bind, looser, Bool.or_true]
  change Shows _ _ _ _ (do
    write "("
    expression.printAs .ranked
    write ")")
  rw [Node.printAs_ranked_of_isSequence sequence]
  exact .between (by decide) (by decide)

theorem shows_applied (sequence : expression.isSequence) (opening : String)
    (earlier later : List Node) (typeParameters typeArguments : Option Node) :
    Shows settings (expression.printAs .plain) "(" ")"
      (applied opening ((earlier ++ expression :: later).map Node.toPart)
        (chosenTypeArguments (typeParameters.map Node.toPart)
          (typeArguments.map Node.toPart))) := by
  have addsTypes : Adds settings (whenPresent (chosenTypeArguments
      (typeParameters.map Node.toPart) (typeArguments.map Node.toPart)) Folded.print) :=
    .of_leads fun _ _ => .chosenTypes Node.balanced_of_map Node.balanced_of_map
  unfold applied
  refine .after addsTypes fun _ _ _ _ => .after (.write opening) fun _ _ _ _ => ?_
  rw [List.map_append, List.map_cons]
  refine Shows.andThen (.separated _ (shows_listItem sequence) ?_ ?_) fun _ => .write ")"
  · exact fun part isPart => .of_leads fun _ _ => .listItem (Node.balanced_of_mem_map part isPart)
  · exact .of_leads fun _ _ => .separated fun part isPart =>
      .listItem (Node.balanced_of_mem_map part isPart)

theorem shows_arrayLiteral (sequence : expression.isSequence)
    (earlier later : List (Option Node)) :
    Shows settings (expression.printAs .plain) "(" ")"
      (arrayLiteral ((earlier ++ some expression :: later).map (·.map Node.toPart))) := by
  have leads (elements : List (Option Node)) (origin : PrinterState) (depth : Depth) :
      ∀ element ∈ elements.map (·.map Node.toPart),
        Leads settings False origin depth depth (whenPresent element listItem) := by
    intro element isElement
    obtain ⟨node, -, rfl⟩ := List.mem_map.mp isElement
    exact .whenPresent fun part isPart => .listItem (Node.balanced_of_map part isPart)
  unfold arrayLiteral
  refine .after (.write "[") fun _ _ _ _ => ?_
  rw [List.map_append, List.map_cons]
  refine Shows.andThen (.separated _ (shows_listItem sequence) ?_ ?_) fun _ => .write "]"
  · exact fun element isElement => .of_leads fun _ _ => leads earlier _ _ element isElement
  · exact .of_leads fun _ _ => .separated (leads later _ _)

/-- A key between brackets is printed as it is. -/
theorem shows_entryKey (expression : Node) :
    Shows settings (expression.printAs .plain) "[" "]" (entryKey expression.toPart true) :=
  .between (by decide) (by decide)

end Printer

namespace Slot

open Printer

variable {settings : Settings} {expression : Node}

/-- An ordinary call or construction prints its arguments. -/
theorem shows_argument (sequence : expression.isSequence) {form : CallForm} {callee : Node}
    {earlier later : List Node} {optional : Bool} {typeParameters typeArguments : Option Node}
    (ordinary : (argument form callee earlier later optional typeParameters
      typeArguments).IsOrdinary settings) (location : Location) (role : Role) :
    Shows settings (expression.printAs .plain) "(" ")" (Node.printAs ⟨location, .call form callee
      (earlier ++ expression :: later) optional typeParameters typeArguments⟩ role) := by
  have applied (opening : String) :
      Shows settings (expression.printAs .plain) "(" ")"
        (applied opening ((earlier ++ expression :: later).map Node.toPart)
          (chosenTypeArguments (typeParameters.map Node.toPart)
            (typeArguments.map Node.toPart))) :=
    shows_applied sequence opening earlier later typeParameters typeArguments
  rw [Node.printAs_eq]
  cases form with
  | call =>
      have isCall : ¬ callee.identifier? = some rawCodeName := ordinary
      simp only [Shape.map, construct, withOperands, call]
      rw [if_neg isCall]
      refine .after (adds_ownRank _ _ _) fun _ rank _ _ => ?_
      exact .after (adds_operand .loose rank callee) fun _ _ _ _ => applied _
  | construction =>
      simp only [Shape.map, construct]
      refine .after (adds_ownRank _ _ _) fun _ rank _ _ => ?_
      have addsCallee : Adds settings (textOf (constructed rank callee.toPart)) := by
        rw [← bind_pure (textOf _)]
        exact .of_leads fun _ _ => .textOf
          (fun _ => .constructed (callee.balanced_toPart settings)) fun _ _ => .pure _
      refine .after addsCallee fun state text next ends => ?_
      obtain ⟨noArray, noPattern⟩ := ordinary rank state text next ends
      rw [if_neg noArray, if_neg noPattern]
      refine .after (.write "new ") fun _ _ _ _ => .after ?_ fun _ _ _ _ => applied "("
      exact .of_leads fun _ _ => .writeVerbatim rfl False.elim

/-- The assigned value and the branches of a choice. -/
theorem shows_operator (sequence : expression.isSequence) {slot : Slot} {operator : String}
    {left : Node} (isSlot : slot = assigned operator left)
    (ordinary : slot.IsOrdinary settings) (location : Location) (role : Role) :
    Shows settings (expression.printAs .plain) "(" ")"
      (Node.printAs ⟨location, slot.fill expression⟩ role) := by
  subst isSlot
  have binds : Precedence.rankOf ("… " ++ operator ++ " …") < Precedence.comma := ordinary
  rw [Node.printAs_eq]
  simp only [fill, Shape.map, construct]
  refine .after (adds_ownRank _ _ _) fun _ rank _ ends => ?_
  obtain ⟨rfl, -⟩ := ownRank_eq_ok ends
  refine .after (adds_operand _ _ left) fun _ _ _ _ => .after (.write " ") fun _ _ _ _ =>
    .after (.write operator) fun _ _ _ _ => .after (.write " ") fun _ _ _ _ => ?_
  exact shows_operand sequence (decide_eq_true binds)

theorem shows_consequent (sequence : expression.isSequence) (test other : Node)
    (location : Location) (role : Role) :
    Shows settings (expression.printAs .plain) "(" ")"
      (Node.printAs ⟨location, .conditional test expression other⟩ role) := by
  have binds : Operand.tight.needsParens Precedence.comma (Precedence.rankOf "… ? … : …") := by
    decide
  rw [Node.printAs_eq]
  simp only [Shape.map, construct]
  refine .after (adds_ownRank _ _ _) fun _ rank _ ends => ?_
  obtain ⟨rfl, -⟩ := ownRank_eq_ok ends
  refine .after (adds_operand _ _ test) fun _ _ _ _ => .after (.write " ? ") fun _ _ _ _ => ?_
  exact (shows_operand sequence binds).andThen fun _ =>
    (Adds.write " : ").bind fun _ => adds_operand _ _ other

theorem shows_alternate (sequence : expression.isSequence) (test other : Node)
    (location : Location) (role : Role) :
    Shows settings (expression.printAs .plain) "(" ")"
      (Node.printAs ⟨location, .conditional test other expression⟩ role) := by
  have binds : Operand.tight.needsParens Precedence.comma (Precedence.rankOf "… ? … : …") := by
    decide
  rw [Node.printAs_eq]
  simp only [Shape.map, construct]
  refine .after (adds_ownRank _ _ _) fun _ rank _ ends => ?_
  obtain ⟨rfl, -⟩ := ownRank_eq_ok ends
  refine .after (adds_operand _ _ test) fun _ _ _ _ => .after (.write " ? ") fun _ _ _ _ =>
    .after (adds_operand _ _ other) fun _ _ _ _ => .after (.write " : ") fun _ _ _ _ => ?_
  exact shows_operand sequence binds

theorem shows_spread (sequence : expression.isSequence) (declaredType : Option Node)
    (location : Location) (role : Role) :
    Shows settings (expression.printAs .plain) "(" ")"
      (Node.printAs ⟨location, .spread .spread expression declaredType⟩ role) := by
  have binds : Operand.loose.needsParens Precedence.comma (Precedence.rankOf "...") := by
    decide
  rw [Node.printAs_eq]
  simp only [Shape.map, construct]
  refine .after (adds_ownRank _ _ _) fun _ rank _ ends => ?_
  obtain ⟨rfl, -⟩ := ownRank_eq_ok ends
  exact .after (.write "...") fun _ _ _ _ => shows_operand sequence binds

/-- The value of a field stands between the sign and the semicolon. -/
theorem shows_fieldValue (marks : PropertyMarks) (key : Node) (declaredType : Option Node)
    (decorators : List Node) (location : Location) (role : Role) :
    Shows settings (expression.printAs .plain) " = " ";" (Node.printAs ⟨location,
      .classProperty marks key (some expression) declaredType decorators⟩ role) := by
  have reports (present : Bool) (what : String) :
      Adds settings (unsupportedIf present location.start what) :=
    .of_leads fun _ _ => .unsupportedIf present _ what
  have words (condition : Bool) (word : String) : Adds settings (writeIf condition word) :=
    .of_leads fun _ _ => .wordIf fun asked => asked.elim
  have named (name : Option String) : Adds settings (whenPresent name fun name =>
      modifyScopes fun scopes => scopes.declareProperty name marks.static) := by
    cases name with
    | none => exact .of_leads fun _ _ => .pure _
    | some name => exact adds_modifyScopes fun scopes => scopes.declareProperty name marks.static
  rw [Node.printAs_eq]
  simp only [Shape.map, construct, withOperands, withoutOperands, classProperty]
  refine .after (reports _ _) fun _ _ _ _ => .after (reports _ _) fun _ _ _ _ =>
    .after (reports _ _) fun _ _ _ _ => .after (reports _ _) fun _ _ _ _ =>
    .after (reports _ _) fun _ _ _ _ => ?_
  refine .after (.of_leads fun _ _ => .accessibility False.elim) fun _ _ _ _ =>
    .after (words _ _) fun _ _ _ _ => .after (words _ _) fun _ _ _ _ => ?_
  refine .after (.of_leads fun _ _ => (key.balanced_toPart settings).role .key trivial)
    fun _ _ _ _ => ?_
  refine .after (.of_leads fun _ _ => ?_) fun _ name _ _ => .after (named name) fun _ _ _ _ => ?_
  · rw [← bind_pure (partName? _)]
    exact .partName? (.pure _)
  · refine .after (adds_declaredType declaredType) fun _ _ _ _ => ?_
    simp only [Option.map_some, whenPresent, bind_assoc]
    exact .between (by decide) (by decide)

theorem shows_collection (left body : Node) (location : Location) (role : Role) :
    Shows settings (expression.printAs .plain) " of " ") "
      (Node.printAs ⟨location, .forEach .values left expression body⟩ role) := by
  rw [Node.printAs_eq]
  refine .after (.write "for (") fun _ _ _ _ => ?_
  refine .after (.of_leads fun _ _ => (left.balanced_toPart settings).plain) fun _ _ _ _ => ?_
  rw [eachWord, write_bind_write, write_bind_write]
  exact .within (by decide) (by decide) fun _ =>
    .of_leads fun _ _ => .inBraces (body.balanced_toPart settings)

/-- A sequence in a place for a single expression stands between the texts of the place,
which are parentheses in some places only. -/
theorem shows_sequence (slot : Slot) (settings : Settings) (expression : Node)
    (sequence : expression.isSequence) (ordinary : slot.IsOrdinary settings)
    (location : Location) (role : Role) :
    Shows settings (expression.printAs .plain) slot.opening slot.closing
      (Node.printAs ⟨location, slot.fill expression⟩ role) := by
  cases slot with
  | argument form callee earlier later optional typeParameters typeArguments =>
      exact shows_argument sequence ordinary location role
  | element earlier later =>
      rw [Node.printAs_eq]
      exact shows_arrayLiteral sequence earlier later
  | initializer name =>
      rw [Node.printAs_eq]
      refine .after (.of_leads fun _ _ =>
        (name.balanced_toPart settings).role .declaredName trivial) fun _ _ _ _ => ?_
      exact .after (.write " = ") fun _ _ _ _ => shows_listItem sequence
  | spread declaredType => exact shows_spread sequence declaredType location role
  | arrowBody marks name params returnType =>
      rw [Node.printAs_eq]
      refine .withinFunction "" false false ?_
      refine .after (adds_parameters params) fun _ _ _ _ =>
        .after (adds_declaredType returnType) fun _ _ _ _ => ?_
      exact .after (.write " => ") fun _ _ _ _ => shows_arrowBody sequence
  | assigned operator left => exact shows_operator sequence rfl ordinary location role
  | consequent test other => exact shows_consequent sequence test other location role
  | alternate test other => exact shows_alternate sequence test other location role
  | entryValue key computed shorthand =>
      rw [Node.printAs_eq]
      refine .after (.of_leads fun _ _ => .entryKey (key.balanced_toPart settings))
        fun _ _ _ _ => ?_
      exact .behind (show '\n' ∉ ": ".toList by decide)
  | entryKey value shorthand =>
      rw [Node.printAs_eq]
      exact (shows_entryKey expression).andThen fun _ =>
        (Adds.write ": ").bind fun _ => .of_leads fun _ _ => (value.balanced_toPart settings).plain
  | methodKey marks params returnType =>
      rw [Node.printAs_eq]
      refine .after (.of_leads fun _ _ => .accessibility False.elim) fun _ _ _ _ =>
        .after (.of_leads fun _ _ => .wordIf fun asked => asked.elim) fun _ _ _ _ => ?_
      refine (shows_entryKey expression).andThen fun _ => .of_leads fun _ _ => ?_
      apply (Leads.wordIf fun asked => asked.elim).andThen
      apply (Leads.withinFunction _ _ _ fun _ => .parameters Node.balanced_of_mem_map).andThen
      exact (Leads.declaredType Node.balanced_of_map).andThen (.word fun asked => asked.elim)
  | fieldKey declaredType readonly optional =>
      rw [Node.printAs_eq]
      refine .after (.of_leads fun _ _ => .wordIf fun asked => asked.elim) fun _ _ _ _ => ?_
      refine (shows_entryKey expression).andThen fun _ => .of_leads fun _ _ => ?_
      apply (Leads.wordIf fun asked => asked.elim).andThen
      exact (Leads.declaredType Node.balanced_of_map).andThen (.word fun asked => asked.elim)
  | default left =>
      rw [Node.printAs_eq]
      refine .after (.of_leads fun _ _ =>
        (left.balanced_toPart settings).role _ (Role.closed_binding role)) fun _ _ _ _ => ?_
      exact .behind (show '\n' ∉ " = ".toList by decide)
  | fieldValue marks key declaredType decorators =>
      exact shows_fieldValue marks key declaredType decorators location role
  | collection left body => exact shows_collection left body location role

/-- The text of a construct with a sequence in a place for a single expression: what stands
in front, the text that opens the place, the sequence, the text that closes the place, and
what stands behind.  The opening and closing texts are parentheses for arguments, elements,
initializers, spread arguments, bodies of arrow functions, assigned values and branches,
and for no other place. -/
theorem print_between (slot : Slot) (settings : Settings) (expression : Node)
    (sequence : expression.isSequence) (ordinary : slot.IsOrdinary settings)
    (location : Location) (role : Role) (state next : PrinterState)
    (ends : (Node.printAs ⟨location, slot.fill expression⟩ role).outcome settings state =
      .ok ((), next)) :
    ∃ reached left : PrinterState,
      (expression.printAs .plain).outcome settings reached = .ok ((), left) ∧
      ∃ before inside lead behind, AreBlank lead ∧
        reached.text.characters = state.text.characters ++ before ++ slot.opening.toList ∧
        left.text.characters = reached.text.characters ++ inside ∧
        next.text.characters = state.text.characters ++ before ++ slot.opening.toList ++ inside ++
          lead ++ slot.closing.toList ++ behind := by
  obtain ⟨reached, left, printed, before, lead, behind, blank, isReached, isNext⟩ :=
    slot.shows_sequence settings expression sequence ordinary location role _ _ _ ends
  have adds : Adds settings (expression.printAs .plain) :=
    .of_leads fun _ _ => (expression.balanced_toPart settings).plain
  obtain ⟨inside, isLeft⟩ := adds _ _ _ printed
  refine ⟨reached, left, printed, before, inside, lead, behind, blank, isReached, isLeft.symm, ?_⟩
  rw [isNext, ← isLeft, isReached]

/-- A sequence under a cast as the second argument of a call. -/
theorem print_between_call :
    let name (text : String) : Node := ⟨{}, .identifier text none false⟩
    let slot : Slot := .argument .call (name "f") [name "a"] [] false none none
    let sequence : Node :=
      ⟨{}, .cast ⟨{}, .sequence [name "b", name "c"]⟩ ⟨{}, .keywordType .any⟩⟩
    sequence.isSequence ∧ slot.IsOrdinary {} ∧ slot.opening = "(" ∧ slot.closing = ")" ∧
    ∃ next, (Node.printAs ⟨{}, slot.fill sequence⟩ .plain).outcome {} {} = .ok ((), next) ∧
      next.text.toString = "f(a, (b, c))" ∧
      ∃ before inside lead behind,
        next.text.characters =
          before ++ "(".toList ++ inside ++ lead ++ ")".toList ++ behind := by
  intro name slot sequence
  have isCall : slot.IsOrdinary {} := by
    change (name "f").identifier? ≠ some rawCodeName
    decide
  refine ⟨rfl, isCall, rfl, rfl, ?_⟩
  have printed : ((Node.printAs ⟨{}, slot.fill sequence⟩ .plain).outcome {} {}).toOption.map
      (fun result => result.2.text.toString) = some "f(a, (b, c))" := by
    decide
  cases ends : (Node.printAs ⟨{}, slot.fill sequence⟩ .plain).outcome {} {} with
  | error diagnostic =>
      rw [ends] at printed
      cases printed
  | ok result =>
      rw [ends] at printed
      obtain ⟨_, _, -, before, inside, lead, behind, -, -, -, isNext⟩ :=
        print_between slot {} sequence rfl isCall {} .plain {} result.2 ends
      exact ⟨result.2, rfl, Option.some.inj printed, before, inside, lead, behind, isNext⟩

/-- As the value of an entry a sequence is printed bare, and the comma in it now separates
entries. -/
theorem generate_entry_sequence :
    let name (text : String) : Node := ⟨{}, .identifier text none false⟩
    let sequence : Node := ⟨{}, .sequence [name "b", name "c"]⟩
    let entry : Node := ⟨{}, (entryValue (name "a") false false).fill sequence⟩
    let call : Node :=
      ⟨{}, .call .call (name "f") [⟨{}, .objectLiteral [entry]⟩] false none none⟩
    Settings.generate {} ⟨{}, .group .program [⟨{}, .expressionStatement call⟩]⟩ =
      .ok ⟨"f(\x7ba: b, c\x7d);", []⟩ := by
  rfl

end Slot

end ScriptBridge

import ScriptBridge.Proofs.Balance.Effects
import ScriptBridge.Emit.Tree

/-!
# Balanced expressions

A construct is balanced if it leads from every depth to the same depth.  Types and
expressions are balanced if their parts are: every bracket is closed by the printer
that opened it, and what is taken back and written again closes what it opens.
-/

namespace ScriptBridge

/-- A role whose text, if it has one, closes what it opens. -/
def Role.Closed : Role → Prop
  | .block (some text) => ∀ awaited, Bracket.read awaited text.toList = some awaited
  | _ => True

theorem Role.closed_binding (role : Role) : role.binding.Closed := by
  cases role <;> trivial

theorem Role.closed_underCast (role : Role) : role.underCast.Closed := by
  cases role <;> trivial

/-- A part that leads from every depth to the same depth, in every role. -/
structure Part.Balanced (settings : Settings) (followed : Prop) (part : Part) : Prop where
  words : followed → part.node.WithoutBrackets settings.options
  leads : ∀ origin depth role, (followed → role.Closed) →
    Printer.Leads settings followed origin depth depth (part.printAs role)

variable {settings : Settings} {followed : Prop} {origin : PrinterState} {depth : Depth}

theorem Part.Balanced.role {part : Part} (balanced : part.Balanced settings followed)
    (role : Role) (closed : role.Closed) :
    Printer.Leads settings followed origin depth depth (part.printAs role) :=
  balanced.leads origin depth role fun _ => closed

theorem Part.Balanced.plain {part : Part} (balanced : part.Balanced settings followed) :
    Printer.Leads settings followed origin depth depth part.print :=
  balanced.role .plain trivial

/-! ## Names in trees -/

namespace Node.WithoutBrackets

variable {options : Options} {node : Node} {name : String}

theorem identifier? (without : node.WithoutBrackets options)
    (isName : node.identifier? = some name) :
    Bracket.Absent name.toList := by
  have own := (withoutBrackets_iff.mp without).1
  unfold Node.identifier? at isName
  split at isName
  · next source _ _ isShape =>
      cases isName
      exact own _ (by rw [isShape]; exact List.mem_cons_self)
  · cases isName

theorem stringLiteral? (without : node.WithoutBrackets options)
    (isText : node.stringLiteral? = some name) : Bracket.Absent name.toList := by
  have own := (withoutBrackets_iff.mp without).1
  unfold Node.stringLiteral? at isText
  split at isText
  · next raw value isShape =>
      refine own _ ?_
      rw [isShape]
      exact List.mem_cons_of_mem _ (Option.mem_toList.mpr isText)
  · cases isText

theorem dottedName? (without : node.WithoutBrackets options)
    (isName : node.dottedName? = some name) :
    Bracket.Absent name.toList := by
  induction node using parts_induction generalizing name with
  | step node ih =>
      obtain ⟨location, shape⟩ := node
      obtain ⟨own, parts⟩ := withoutBrackets_iff.mp without
      unfold Node.dottedName? at isName
      split at isName
      · next isShape =>
          cases isShape
          cases isName
          exact own _ List.mem_cons_self
      · next left right isShape =>
          cases isShape
          split at isName
          · next first second isFirst isSecond =>
              cases isName
              have before := ih left (by simp [Shape.parts]) (parts left (by simp [Shape.parts]))
                isFirst
              have behind := ih right (by simp [Shape.parts])
                (parts right (by simp [Shape.parts])) isSecond
              rw [String.toList_append, String.toList_append]
              exact (before.append (Bracket.absent_of_all rfl)).append behind
          · cases isName
      · cases isName

end Node.WithoutBrackets

/-- Quotes around a text are no matter for brackets. -/
theorem Bracket.read_unquoted {text : String} {awaited : List Bracket}
    (reads : Bracket.read awaited text.toList = some awaited) :
    Bracket.read awaited (unquoted text).toList = some awaited := by
  unfold unquoted
  split
  · next first second rest isText =>
      split
      · next quoted =>
          obtain ⟨isQuote, isLast⟩ := quoted
          have plain : isBracket first = false := by
            rcases isQuote with rfl | rfl <;> rfl
          obtain ⟨inside, isInside⟩ := List.getLast?_eq_some_iff.mp isLast
          have ends : ∀ next, read next [first] = some next := by
            intro next
            rw [read_cons, step_plain plain]
            rfl
          rw [isText, isInside, read_cons, step_plain plain, Option.bind_some, read_append] at reads
          simp only [ends, Option.bind_fun_some] at reads
          rw [String.toList_ofList, isInside, List.dropLast_concat]
          exact reads
      · exact reads
  · exact reads

namespace Printer

namespace Leads

/-! ## Lists and operands -/

theorem separated {Item : Type} {print : Item → Printer Unit} {items : List Item}
    (each : ∀ item ∈ items, Leads settings followed origin depth depth (print item)) :
    Leads settings followed origin depth depth (separated print items) := by
  induction items with
  | nil => exact pure ()
  | cons item rest ih =>
      obtain ⟨first, others⟩ := List.forall_mem_cons.mp each
      cases rest with
      | nil => exact first
      | cons next rest => exact first.andThen ((word fun _ _ => rfl).andThen (ih others))

theorem whenPresent {Item : Type} {print : Item → Printer Unit} {item : Option Item}
    (each : ∀ present ∈ item, Leads settings followed origin depth depth (print present)) :
    Leads settings followed origin depth depth (whenPresent item print) := by
  cases item with
  | none => exact pure ()
  | some present => exact each present rfl

theorem enclosedIf (kind : Bracket) {condition : Bool} {opening closing : String}
    {printer : Printer Unit}
    (opened : ∀ awaited, Bracket.read awaited opening.toList = some (kind :: awaited))
    (closed : ∀ awaited, Bracket.read (kind :: awaited) closing.toList = some awaited)
    (inside : ∀ depth, Leads settings followed origin depth depth printer) :
    Leads settings followed origin depth depth
      (enclosedIf condition opening closing printer) := by
  cases condition with
  | true => exact (opens kind opened).andThen ((inside _).andThen (closes closed))
  | false => exact (pure ()).andThen ((inside _).andThen (pure ()))

theorem operand (kind : Operand) (parent : Rank) {child : Part}
    (balanced : child.Balanced settings followed) :
    Leads settings followed origin depth depth (operand kind parent child) :=
  (lookUpRank _ _).bind fun _ =>
    enclosedIf .round (fun _ => rfl) (fun _ => rfl) fun _ => balanced.role .ranked trivial

theorem listItem {child : Part} (balanced : child.Balanced settings followed) :
    Leads settings followed origin depth depth (listItem child) :=
  operand _ _ balanced

theorem declaredType {type : Option Part}
    (balanced : ∀ part ∈ type, part.Balanced settings followed) :
    Leads settings followed origin depth depth (declaredType type) := by
  apply whenPresent
  intro part isType
  exact (word fun _ _ => rfl).andThen (balanced part isType).plain

theorem parameters {params : List Part}
    (balanced : ∀ part ∈ params, part.Balanced settings followed) :
    Leads settings followed origin depth depth (parameters params) := by
  apply (opens .round fun _ => rfl).andThen
  refine andThen (separated ?_) (closes fun _ => rfl)
  intro part member
  exact (balanced part member).role .parameter trivial

/-- A part behind a space. -/
theorem afterSpace {part : Option Part} (role : Role) (closed : role.Closed)
    (balanced : ∀ present ∈ part, present.Balanced settings followed) :
    Leads settings followed origin depth depth
      (Printer.whenPresent part fun present => do
        Printer.write " "
        present.printAs role) := by
  apply whenPresent
  intro present isPart
  exact (word fun _ _ => rfl).andThen ((balanced present isPart).role role closed)

/-! ## Types -/

theorem typeClause {type : Part} (balanced : type.Balanced settings followed) :
    Leads settings followed origin depth depth (typeClause type) := by
  apply textOf fun _ => balanced.plain
  intro text reads
  split
  · exact word fun _ _ => rfl
  · exact writeVerbatim rfl reads

theorem chosenTypes {typeParameters typeArguments : Option Part}
    (params : ∀ part ∈ typeParameters, part.Balanced settings followed)
    (arguments : ∀ part ∈ typeArguments, part.Balanced settings followed) :
    Leads settings followed origin depth depth
      (Printer.whenPresent (chosenTypeArguments typeParameters typeArguments) Folded.print) := by
  apply whenPresent
  intro part chosen
  cases typeArguments with
  | some types =>
      exact (arguments part chosen).plain
  | none => exact (params part chosen).plain

theorem namedType {name : Part} {typeParameters typeArguments : Option Part}
    (balanced : name.Balanced settings followed)
    (params : ∀ part ∈ typeParameters, part.Balanced settings followed)
    (arguments : ∀ part ∈ typeArguments, part.Balanced settings followed) :
    Leads settings followed origin depth depth (namedType name typeParameters typeArguments) :=
  (balanced.role .typeName trivial).andThen (chosenTypes params arguments)

theorem typeList {params : List Part}
    (balanced : ∀ part ∈ params, part.Balanced settings followed) :
    Leads settings followed origin depth depth (typeList params) := by
  apply (word fun _ _ => rfl).andThen
  refine andThen (separated ?_) (word fun _ _ => rfl)
  intro part member
  exact (balanced part member).role .typeName trivial

theorem qualifiedName {left right : Part} (balancedLeft : left.Balanced settings followed)
    (balancedRight : right.Balanced settings followed) :
    Leads settings followed origin depth depth (qualifiedName left right) := by
  unfold Printer.qualifiedName
  split
  · next first second isFirst isSecond =>
      apply (plainWord fun asked => (balancedLeft.words asked).dottedName? isFirst).andThen
      apply (word fun _ _ => rfl).andThen
      exact plainWord fun asked => (balancedRight.words asked).dottedName? isSecond
  · apply balancedLeft.plain.andThen
    exact (word fun _ _ => rfl).andThen (balancedRight.role .memberName trivial)

theorem arrayType {element : Part} (balanced : element.Balanced settings followed) :
    Leads settings followed origin depth depth (arrayType element) :=
  balanced.plain.andThen (word fun _ _ => rfl)

/-! ## Expressions -/

theorem identifier (without : followed → settings.WithoutBrackets) {role : Role}
    {source : String} {type : Option Part} {optional : Bool}
    (plain : followed → Bracket.Absent source.toList)
    (balanced : ∀ part ∈ type, part.Balanced settings followed) :
    Leads settings followed origin depth depth (identifier role source type optional) := by
  apply (name without role plain).andThen
  exact (wordIf fun _ _ => rfl).andThen (declaredType balanced)

theorem literal {raw : String} {value : Json}
    (plain : followed → Bracket.Absent
      (settings.options.renameLiteral (if raw.isEmpty then value.compact else raw)).toList) :
    Leads settings followed origin depth depth (literal raw value) :=
  askingOptions (plainWord plain)

theorem unary {rank : Rank} {operator : String} {leading : Bool} {argument : Part}
    (plain : followed → Bracket.Absent operator.toList)
    (balanced : argument.Balanced settings followed) :
    Leads settings followed origin depth depth (unary rank operator leading argument) := by
  unfold Printer.unary
  split
  · apply (plainWord plain).andThen
    exact (wordIf fun _ _ => rfl).andThen (operand _ _ balanced)
  · exact (operand _ _ balanced).andThen (plainWord plain)

theorem binary {rank : Rank} {fromRight : Bool} {operator : String} {left right : Part}
    (plain : followed → Bracket.Absent operator.toList)
    (balancedLeft : left.Balanced settings followed)
    (balancedRight : right.Balanced settings followed) :
    Leads settings followed origin depth depth (binary rank fromRight operator left right) := by
  apply (operand _ _ balancedLeft).andThen
  apply (word fun _ _ => rfl).andThen
  apply (plainWord plain).andThen
  exact (word fun _ _ => rfl).andThen (operand _ _ balancedRight)

theorem conditional {rank : Rank} {test consequent alternate : Part}
    (balancedTest : test.Balanced settings followed)
    (balancedFirst : consequent.Balanced settings followed)
    (balancedSecond : alternate.Balanced settings followed) :
    Leads settings followed origin depth depth (conditional rank test consequent alternate) := by
  apply (operand _ _ balancedTest).andThen
  apply (word fun _ _ => rfl).andThen
  apply (operand _ _ balancedFirst).andThen
  exact (word fun _ _ => rfl).andThen (operand _ _ balancedSecond)

theorem spread {rank : Rank} {argument : Part} (balanced : argument.Balanced settings followed) :
    Leads settings followed origin depth depth (spread rank argument) :=
  (word fun _ _ => rfl).andThen (operand _ _ balanced)

theorem rest {role : Role} {argument : Part} {type : Option Part}
    (balanced : argument.Balanced settings followed)
    (balancedType : ∀ part ∈ type, part.Balanced settings followed) :
    Leads settings followed origin depth depth (rest role argument type) := by
  apply (word fun _ _ => rfl).andThen
  exact (balanced.role _ role.closed_binding).andThen (declaredType balancedType)

theorem assignmentPattern {role : Role} {left right : Part}
    (balancedLeft : left.Balanced settings followed)
    (balancedRight : right.Balanced settings followed) :
    Leads settings followed origin depth depth (assignmentPattern role left right) := by
  apply (balancedLeft.role _ role.closed_binding).andThen
  exact (word fun _ _ => rfl).andThen balancedRight.plain

theorem member {rank : Rank} {object property : Part} {computed optional : Bool}
    (balancedObject : object.Balanced settings followed)
    (balancedProperty : property.Balanced settings followed) :
    Leads settings followed origin depth depth
      (member rank object property computed optional) := by
  apply (operand _ _ balancedObject).andThen
  cases computed with
  | true =>
      apply (opens .square fun _ => by cases optional <;> rfl).andThen
      exact balancedProperty.plain.andThen (closes fun _ => rfl)
  | false =>
      apply (word fun _ _ => by cases optional <;> rfl).andThen
      exact balancedProperty.role .memberName trivial

theorem applied {opening : String} {arguments : List Part} {types : Option Part}
    (opened : ∀ awaited, Bracket.read awaited opening.toList = some (.round :: awaited))
    (balanced : ∀ part ∈ arguments, part.Balanced settings followed)
    (typesLead : ∀ depth, Leads settings followed origin depth depth
      (Printer.whenPresent types Folded.print)) :
    Leads settings followed origin depth depth (applied opening arguments types) := by
  apply (typesLead _).andThen
  apply (opens .round opened).andThen
  refine andThen (separated ?_) (closes fun _ => rfl)
  intro part member
  exact listItem (balanced part member)

theorem arrayLiteral {elements : List (Option Part)}
    (balanced : ∀ element ∈ elements, ∀ part ∈ element, part.Balanced settings followed) :
    Leads settings followed origin depth depth (arrayLiteral elements) := by
  apply (opens .square fun _ => rfl).andThen
  refine andThen (separated ?_) (closes fun _ => rfl)
  intro element isElement
  apply whenPresent
  intro part isPart
  exact listItem (balanced element isElement part isPart)

theorem objectLiteral {properties : List Part}
    (balanced : ∀ part ∈ properties, part.Balanced settings followed) :
    Leads settings followed origin depth depth (objectLiteral properties) := by
  apply (opens .curly fun _ => rfl).andThen
  refine andThen (separated ?_) (closes fun _ => rfl)
  intro part isPart
  exact (balanced part isPart).plain

theorem entryKey {key : Part} {computed : Bool} (balanced : key.Balanced settings followed) :
    Leads settings followed origin depth depth (entryKey key computed) := by
  unfold Printer.entryKey
  split
  · exact enclosedIf .square (fun _ => rfl) (fun _ => rfl) fun _ => balanced.plain
  · exact balanced.role .key trivial

theorem entry {key value : Part} {computed : Bool} (balancedKey : key.Balanced settings followed)
    (balancedValue : value.Balanced settings followed) :
    Leads settings followed origin depth depth (entry key value computed) := by
  apply (entryKey balancedKey).andThen
  exact (word fun _ _ => rfl).andThen balancedValue.plain

/-! ## Calls and functions -/

theorem rawCode {arguments : List Part}
    (balanced : ∀ part ∈ arguments, part.Balanced settings followed) :
    Leads settings followed origin depth depth (rawCode arguments) := by
  cases arguments with
  | nil => exact pure ()
  | cons code others =>
      have first := balanced code List.mem_cons_self
      simp only [Printer.rawCode]
      split
      · next text isText =>
          exact plainWord fun asked => (first.words asked).stringLiteral? isText
      · apply textOf fun _ => first.plain
        intro text reads
        exact writeVerbatim rfl fun asked => Bracket.read_unquoted (reads asked)

theorem call {role : Role} {position : Position} {shape : Shape Part} {callee : Part}
    {arguments : List Part} {optional : Bool} {typeParameters typeArguments : Option Part}
    (balancedCallee : callee.Balanced settings followed)
    (balanced : ∀ part ∈ arguments, part.Balanced settings followed)
    (balancedParams : ∀ part ∈ typeParameters, part.Balanced settings followed)
    (balancedTypes : ∀ part ∈ typeArguments, part.Balanced settings followed) :
    Leads settings followed origin depth depth
      (call (Printer.ownRank role position shape) callee arguments optional
        (chosenTypeArguments typeParameters typeArguments)) := by
  unfold Printer.call
  split
  · exact rawCode balanced
  · apply (ownRank _ _ _).bind
    intro rank
    apply (operand _ _ balancedCallee).andThen
    exact applied (fun _ => by cases optional <;> rfl) balanced fun _ =>
      chosenTypes balancedParams balancedTypes

theorem constructed {rank : Rank} {callee : Part} (balanced : callee.Balanced settings followed) :
    Leads settings followed origin depth depth (constructed rank callee) := by
  unfold Printer.constructed
  split
  · exact enclosedIf .round (fun _ => rfl) (fun _ => rfl) fun _ => balanced.plain
  · exact operand _ _ balanced

theorem construction {rank : Rank} {callee : Part} {arguments : List Part}
    {typeParameters typeArguments : Option Part}
    (balancedCallee : callee.Balanced settings followed)
    (balanced : ∀ part ∈ arguments, part.Balanced settings followed)
    (balancedParams : ∀ part ∈ typeParameters, part.Balanced settings followed)
    (balancedTypes : ∀ part ∈ typeArguments, part.Balanced settings followed) :
    Leads settings followed origin depth depth
      (construction rank callee arguments
        (chosenTypeArguments typeParameters typeArguments)) := by
  apply textOf fun _ => constructed balancedCallee
  intro text reads
  split
  · exact word fun _ _ => rfl
  · split
    · apply whenPresent
      intro part isFirst
      exact (balanced part (List.mem_of_head? isFirst)).plain
    · apply (word fun _ _ => rfl).andThen
      apply (writeVerbatim rfl reads).andThen
      exact applied (fun _ => rfl) balanced fun _ => chosenTypes balancedParams balancedTypes

theorem arrowBody {body : Part} (balanced : body.Balanced settings followed) :
    Leads settings followed origin depth depth (arrowBody body) := by
  unfold Printer.arrowBody
  split
  · exact balanced.plain
  · apply (lookUpRank _ _).bind
    intro rank
    exact enclosedIf .round (fun _ => rfl) (fun _ => rfl) fun _ => balanced.role .ranked trivial

theorem arrow {position : Position} {params : List Part} {body returnType : Option Part}
    (balancedParams : ∀ part ∈ params, part.Balanced settings followed)
    (balancedBody : ∀ part ∈ body, part.Balanced settings followed)
    (balancedType : ∀ part ∈ returnType, part.Balanced settings followed) :
    Leads settings followed origin depth depth (arrow position params body returnType) := by
  apply withinFunction
  intro origin
  apply (parameters balancedParams).andThen
  apply (declaredType balancedType).andThen
  apply (word fun _ _ => rfl).andThen
  cases body with
  | some body => exact arrowBody (balancedBody body rfl)
  | none => exact unsupported position _

end Leads

end Printer

end ScriptBridge

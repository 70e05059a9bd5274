import ScriptBridge.Proofs.Printing.Inspection
import ScriptBridge.Proofs.Printing.Roles
import ScriptBridge.Proofs.Tree.Search

/-!
# Nodes that resemble each other

Constructs look at their parts besides printing them.  Two nodes resemble each other if they
look the same in this way, whatever is printed for them.  The look of a node is that of its
shape and of the parts that it is looked at through, so it is enough if the parts resemble each
other.  Only whether a superclass is called inside a part is no matter of its look.
-/

namespace ScriptBridge

/-- Whether a question is about the look of a part. -/
def Question.isLook : Question → Bool
  | .printed _ | .operand | .superCall => false
  | _ => true

/-- Whether a part is printed in a role to answer a question. -/
def Question.PrintsIn (role : Role) : Question → Prop
  | .printed asked => role = asked
  | .operand => role = .ranked
  | _ => False

/-- Two nodes of the same look. -/
structure Node.Resembles (first second : Node) : Prop where
  answers : ∀ {question : Question}, question.isLook → ∀ print other,
    question.SameAnswer ⟨first, print⟩ ⟨second, other⟩
  ranked : ∀ print other,
    Printer.rankOf (⟨first, print⟩ : Part) = Printer.rankOf (⟨second, other⟩ : Part)
  exported : ∀ location, Node.endsWithSemicolon ⟨location, .exportDefault first⟩ =
    Node.endsWithSemicolon ⟨location, .exportDefault second⟩

namespace Node

theorem Resembles.refl (node : Node) : node.Resembles node where
  answers {question} look print other := by
    cases question with
    | printed | operand | superCall => cases look
    | methodFunction form => exact ⟨rfl, rfl, rfl⟩
    | specifier => exact ⟨fun _ => rfl, fun _ _ => rfl, rfl, rfl⟩
    | _ => simp [Question.SameAnswer]
  ranked _ _ := rfl
  exported _ := rfl

theorem Resembles.trans {first middle last : Node} (before : first.Resembles middle)
    (behind : middle.Resembles last) : first.Resembles last where
  answers {question} look print other := by
    have start := before.answers look print other
    have goesOn := behind.answers look other other
    cases question with
    | printed | operand | superCall => cases look
    | arrowBody => exact ⟨start.1.trans goesOn.1, start.2.trans goesOn.2⟩
    | statement =>
        obtain ⟨empty, semicolon, break_, block, emptyBlock, conditional⟩ := start
        obtain ⟨empty', semicolon', break', block', emptyBlock', conditional'⟩ := goesOn
        exact ⟨empty.trans empty', semicolon.trans semicolon', break_.trans break',
          block.trans block', emptyBlock.trans emptyBlock', conditional.trans conditional'⟩
    | methodFunction form =>
        exact ⟨start.1.trans goesOn.1, start.2.1.trans goesOn.2.1, start.2.2.trans goesOn.2.2⟩
    | specifier =>
        exact ⟨fun options => (start.1 options).trans (goesOn.1 options),
          fun clause text => (start.2.1 clause text).trans (goesOn.2.1 clause text),
          start.2.2.1.trans goesOn.2.2.1, start.2.2.2.trans goesOn.2.2.2⟩
    | _ => exact Eq.trans start goesOn
  ranked print other := (before.ranked print other).trans (behind.ranked other other)
  exported location := (before.exported location).trans (behind.exported location)

variable {Item : Type} {first second : Item → Node}

/-! ### The looks of a node through its parts -/

section Parts

variable (location : Location) (shape : Shape Item)
  (parts : ∀ part, (first part).Resembles (second part))

include parts

theorem callsInChain_of_parts :
    callsInChain ⟨location, shape.map first⟩ = callsInChain ⟨location, shape.map second⟩ := by
  cases shape with
  | call form => cases form <;> rfl
  | member object =>
      exact (parts object).answers (rfl : Question.callsInChain.isLook)
        (fun _ => pure ()) (fun _ => pure ())
  | _ => rfl

theorem lastName?_of_parts :
    lastName? ⟨location, shape.map first⟩ = lastName? ⟨location, shape.map second⟩ := by
  cases shape with
  | member object property computed =>
      cases computed with
      | true => rfl
      | false =>
          exact (parts property).answers (rfl : Question.lastName.isLook)
            (fun _ => pure ()) (fun _ => pure ())
  | _ => rfl

theorem dottedName?_of_parts :
    dottedName? ⟨location, shape.map first⟩ = dottedName? ⟨location, shape.map second⟩ := by
  have same (part : Item) : (first part).dottedName? = (second part).dottedName? :=
    (parts part).answers (rfl : Question.dottedName.isLook) (fun _ => pure ()) (fun _ => pure ())
  cases shape with
  | qualifiedName left right => simp [Shape.map, dottedName?, same left, same right]
  | _ => rfl

theorem endsWithSemicolon_of_parts :
    endsWithSemicolon ⟨location, shape.map first⟩ =
      endsWithSemicolon ⟨location, shape.map second⟩ := by
  cases shape with
  | leaf form => cases form <;> rfl
  | loop form => cases form <;> rfl
  | exportNamed declaration =>
      cases declaration with
      | none => rfl
      | some declaration =>
          exact ((parts declaration).answers (rfl : Question.statement.isLook)
            (fun _ => pure ()) (fun _ => pure ())).2.1
  | exportDefault declaration => exact (parts declaration).exported location
  | _ => rfl

theorem importedName?_of_parts (options : Options) :
    options.importedName? ⟨location, shape.map first⟩ =
      options.importedName? ⟨location, shape.map second⟩ := by
  have same (part : Item) : (first part).identifier? = (second part).identifier? :=
    (parts part).answers (rfl : Question.name.isLook) (fun _ => pure ()) (fun _ => pure ())
  cases shape with
  | importSpecifier imported binding =>
      cases binding with
      | none => simp [Shape.map, Options.importedName?, same imported]
      | some binding => simp [Shape.map, Options.importedName?, same imported, same binding]
  | importBinding form binding => simp [Shape.map, Options.importedName?, same binding]
  | _ => rfl

/-- Two nodes at the same place, with parts that resemble each other. -/
theorem resembles_of_parts :
    Resembles ⟨location, shape.map first⟩ ⟨location, shape.map second⟩ where
  answers {question} look print other := by
    have sameTag : (shape.map first).tag = (shape.map second).tag :=
      (Shape.tag_map _ _).trans (Shape.tag_map _ _).symm
    cases question with
    | printed | operand | superCall => cases look
    | rawCodeName | text | name => cases shape <;> rfl
    | callsInChain => exact callsInChain_of_parts location shape parts
    | lastName => exact lastName?_of_parts location shape parts
    | dottedName => exact dottedName?_of_parts location shape parts
    | arrowBody =>
        cases shape with
        | group form => cases form <;> exact ⟨rfl, rfl⟩
        | _ => exact ⟨rfl, rfl⟩
    | statement =>
        refine ⟨by cases shape <;> rfl, endsWithSemicolon_of_parts location shape parts, ?_⟩
        cases shape with
        | group form statements => cases form <;> cases statements <;> exact ⟨rfl, rfl, rfl, rfl⟩
        | jump form => cases form <;> exact ⟨rfl, rfl, rfl, rfl⟩
        | _ => exact ⟨rfl, rfl, rfl, rfl⟩
    | methodFunction form =>
        refine ⟨?_, rfl, sameTag⟩
        cases shape with
        | function functionForm => cases functionForm <;> cases form <;> rfl
        | _ => rfl
    | specifier =>
        refine ⟨importedName?_of_parts location shape parts, fun clause text => ?_, rfl, sameTag⟩
        cases shape with
        | importBinding form => cases form <;> rfl
        | _ => rfl
  ranked print other := by
    have pattern : (shape.map first).operatorPattern? = (shape.map second).operatorPattern? := by
      rw [Printer.operatorPattern?_map, Printer.operatorPattern?_map]
    cases shape with
    | cast expression => exact (parts expression).ranked print other
    | _ => exact congrArg (Printer.lookUpRank location.start) pattern
  exported place := by
    cases shape with
    | function form => cases form <;> rfl
    | classDefinition form => cases form <;> rfl
    | _ => rfl

end Parts

/-- Two nodes at the same place are printed alike if their parts answer alike whatever is asked
of them. -/
theorem printAs_eq_of_answers (location : Location) (shape : Shape Item) (role : Role)
    (same : Printer.Every
      (fun question part => question.SameAnswer (first part).toPart (second part).toPart)
      (shape.questions first location.start role)) :
    printAs ⟨location, shape.map first⟩ role = printAs ⟨location, shape.map second⟩ role := by
  rw [printAs_eq, printAs_eq, Shape.map_map, Shape.map_map]
  exact Printer.construct_exchange location role shape same

theorem Resembles.sameAnswer {first second : Node} (look : first.Resembles second)
    {question : Question}
    (printed : ∀ role, question.PrintsIn role → first.printAs role = second.printAs role)
    (calls : question = .superCall →
      first.hasDescendant isSuperCall = second.hasDescendant isSuperCall) :
    question.SameAnswer first.toPart second.toPart := by
  cases question with
  | printed role => exact printed role rfl
  | operand => exact ⟨look.ranked _ _, printed .ranked rfl⟩
  | superCall => exact calls rfl
  | _ => exact look.answers rfl _ _

/-! ## Interchangeable nodes -/

/-- Whether a node is the superclass. -/
def isSuper (node : Node) : Bool :=
  match node.shape with
  | .leaf .super => true
  | _ => false

/-- Two nodes that are printed alike, wherever they stand. -/
structure Interchangeable (first second : Node) : Prop where
  look : first.Resembles second
  isSuper : first.isSuper = second.isSuper
  isSuperCall : first.isSuperCall = second.isSuperCall
  calls : first.hasDescendant Node.isSuperCall = second.hasDescendant Node.isSuperCall
  printed : ∀ role, first.printAs role = second.printAs role

theorem Interchangeable.refl (node : Node) : node.Interchangeable node :=
  ⟨.refl node, rfl, rfl, rfl, fun _ => rfl⟩

theorem Interchangeable.trans {first middle last : Node} (before : first.Interchangeable middle)
    (behind : middle.Interchangeable last) : first.Interchangeable last where
  look := before.look.trans behind.look
  isSuper := before.isSuper.trans behind.isSuper
  isSuperCall := before.isSuperCall.trans behind.isSuperCall
  calls := before.calls.trans behind.calls
  printed role := (before.printed role).trans (behind.printed role)

theorem isSuperCall_call (location : Location) (callee : Node) (arguments : List Node)
    (optional : Bool) (typeParameters typeArguments : Option Node) :
    isSuperCall ⟨location, .call .call callee arguments optional typeParameters typeArguments⟩ =
      callee.isSuper := by
  obtain ⟨place, shape⟩ := callee
  cases shape with
  | leaf form => cases form <;> rfl
  | _ => rfl

/-- Nodes at the same place are interchangeable if their parts are. -/
theorem interchangeable_of_parts (location : Location) (shape : Shape Item)
    (parts : ∀ part, (first part).Interchangeable (second part)) :
    Interchangeable ⟨location, shape.map first⟩ ⟨location, shape.map second⟩ where
  look := resembles_of_parts location shape fun part => (parts part).look
  isSuper := by cases shape <;> rfl
  isSuperCall := by
    cases shape with
    | call form callee =>
        cases form with
        | call => simp only [Shape.map, isSuperCall_call, (parts callee).isSuper]
        | construction => rfl
    | _ => rfl
  calls := by
    simp only [hasDescendant_eq, Shape.children_map, List.any_map, Function.comp_def,
      (parts _).isSuperCall, (parts _).calls]
  printed role :=
    printAs_eq_of_answers location shape role fun asked _ =>
      (parts asked.2).look.sameAnswer (fun role _ => (parts asked.2).printed role)
        fun _ => (parts asked.2).calls

end Node

theorem Settings.generate_eq_of_printAs (settings : Settings) {first second : Node}
    (printed : first.printAs .plain = second.printAs .plain) :
    settings.generate first = settings.generate second := by
  rw [generate_eq, generate_eq, printed]

end ScriptBridge

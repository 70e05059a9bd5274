import ScriptBridge.Proofs.Printing.Resemblance
import ScriptBridge.Proofs.Printing.StatementLists

/-!
# Calls of the superclass

A constructor that never calls its superclass is printed as if such a call were its first
statement.  The call is put in front of the other statements without being one of them, yet the
text is the same, also if none of the others leaves a trace.  Around the constructor nobody can
tell the difference: only constructors ask whether a superclass is called.
-/

namespace ScriptBridge

namespace Node

/-- A call of the superclass without arguments, as a statement. -/
def superCallStatement (statement call callee : Location) : Node :=
  ⟨statement, .expressionStatement ⟨call, .call .call ⟨callee, .leaf .super⟩ [] false none none⟩⟩

/-- Whether a superclass is called below a node. -/
def CallsSuper (node : Node) : Prop :=
  ∃ call ∈ node.reachable fun _ => true, call.isSuperCall = true

theorem callsSuper_iff (node : Node) :
    node.CallsSuper ↔ node.hasDescendant isSuperCall = true := by
  rw [hasDescendant_eq_any, List.any_eq_true, CallsSuper]

theorem callsSuper_block (location statement call callee : Location) (statements : List Node) :
    CallsSuper
      ⟨location, .group .block (superCallStatement statement call callee :: statements)⟩ := by
  rw [callsSuper_iff, hasDescendant_eq]
  simp [Shape.children, Shape.parts, superCallStatement, hasDescendant_eq, isSuperCall]

end Node

namespace IndentedText

theorem write_append (text : IndentedText) (first second : String) :
    text.write (first ++ second) = (text.write first).write second := by
  simp [write, List.foldl_append]

theorem size_put (text : IndentedText) (character : Char) :
    text.size < (text.put character).size := by
  have started : text.size ≤ text.startLine.size := by
    unfold startLine
    split
    · exact Nat.le_add_left _ _
    · exact le_rfl
  unfold put
  split
  · exact Nat.lt_add_of_pos_left Nat.one_pos
  · exact started.trans_lt (Nat.lt_add_of_pos_left character.utf8Size_pos)

theorem size_write (text : IndentedText) {added : String} (nonempty : added.toList ≠ []) :
    text.size < (text.write added).size := by
  obtain ⟨first, rest, isAdded⟩ := List.exists_cons_of_ne_nil nonempty
  have written : text.write added = (text.put first).write (String.ofList rest) := by
    simp [write, isAdded]
  rw [written]
  exact (text.size_put first).trans_le (size_le_of_grows (prefix_write _ _))

end IndentedText

namespace Printer

variable {settings : Settings}

theorem outcome_superCallStatement (statement call callee : Location) (state : PrinterState) :
    ((Node.superCallStatement statement call callee).printAs .plain).outcome settings state =
      .ok ((), { state with text := state.text.write "super()" }) := by
  have printed : (Node.superCallStatement statement call callee).printAs .plain =
      (do write "super"; write "("; write ")" : Printer Unit) := by
    rfl
  rw [printed]
  simp only [outcome_bind, outcome_write, ← IndentedText.write_append]
  rfl

/-- A call of the superclass in front of the statements of a block is the same text as one among
them. -/
theorem block_superCall (statement call callee : Location) (body : List Node) :
    block (some superCall) (body.map Node.toPart) =
      block none ((Node.superCallStatement statement call callee :: body).map Node.toPart) := by
  refine ext_outcome fun settings state => ?_
  let opened : PrinterState := { state with text := (state.text.write "\x7b").indent.newLine }
  have isStatement :
      (Node.superCallStatement statement call callee).toPart.node.isEmptyStatement = false := rfl
  have printed : (Node.superCallStatement statement call callee).toPart.print.outcome settings
      (lineStarted false opened) = .ok ((), { opened with text := opened.text.write "super()" }) :=
    outcome_superCallStatement statement call callee opened
  have grown : (opened.text.write "super()").size ≠ opened.text.size :=
    (opened.text.size_write (by decide)).ne'
  have asStatement : (statements false
      ((Node.superCallStatement statement call callee :: body).map Node.toPart)).outcome settings
        opened = (statements true (body.map Node.toPart)).outcome settings
          { opened with text := opened.text.write superCall } := by
    rw [List.map_cons, outcome_statements_cons _ _ isStatement printed grown,
      show superCall = "super()" ++ ";" from rfl, IndentedText.write_append]
    rfl
  rw [outcome_block, outcome_block, Option.isSome_none, Option.getD_none,
    IndentedText.write_empty, asStatement]
  rfl

/-! ## Constructors -/

/-- A constructor prints its parameters and its body, without a type. -/
theorem methodFunction_constructor (owner : Position) (isAbstract : Bool) (params : List Part)
    (body : Part) (returnType : Option Part) :
    methodFunction owner true isAbstract params (some body) returnType = (do
      parameters params
      write " "
      withinMemberBody (braced
        (if body.node.hasDescendant Node.isSuperCall then none else some superCall) body)) := by
  cases calls : body.node.hasDescendant Node.isSuperCall <;> simp [methodFunction, calls]

end Printer

namespace Node

open Printer

/-- In braces, statements that call no superclass are printed with such a call added as they are
printed with such a call among them. -/
theorem braced_superCallStatement (location statement call callee : Location)
    (statements : List Node) :
    braced (some superCall) (toPart ⟨location, .group .block statements⟩) =
      braced none (toPart ⟨location, .group .block
        (superCallStatement statement call callee :: statements)⟩) := by
  change printAs _ _ = printAs _ _
  rw [printAs_eq, printAs_eq]
  exact block_superCall statement call callee statements

end Node

/-- A constructor, but for the body of its function. -/
structure Constructor where
  location : Location
  form : MethodForm
  marks : MethodMarks
  key : Node
  functionLocation : Location
  functionForm : FunctionForm
  functionMarks : FunctionMarks
  name : Option Node
  params : List Node
  returnType : Option Node
  isConstructor : marks.kind = .constructor

namespace Constructor

open Printer

/-- The function of the constructor, with a body. -/
def function (constructor : Constructor) (body : Node) : Node :=
  ⟨constructor.functionLocation, .function constructor.functionForm constructor.functionMarks
    constructor.name constructor.params (some body) constructor.returnType⟩

/-- The constructor with a body. -/
def withBody (constructor : Constructor) (body : Node) : Node :=
  ⟨constructor.location, .method constructor.form constructor.marks constructor.key
    (constructor.function body)⟩

variable (constructor : Constructor)

/-- Whether a method may have the function does not depend on the body. -/
theorem methodMarks?_function (body other : Node) :
    methodMarks? constructor.form (constructor.function body).toPart =
      methodMarks? constructor.form (constructor.function other).toPart := by
  unfold function
  cases constructor.functionForm <;> cases constructor.form <;> rfl

/-- The body of a constructor that is printed is put in braces, with a call of the superclass if
there is none below it. -/
theorem printAs_function {body : Node} (owner : Position) (isAbstract : Bool)
    (known : (methodMarks? constructor.form (constructor.function body).toPart).isSome) :
    (constructor.function body).printAs (.method owner true isAbstract) = (do
      parameters (constructor.params.map Node.toPart)
      write " "
      withinMemberBody (braced
        (if body.hasDescendant Node.isSuperCall then none else some superCall) body.toPart)) := by
  obtain ⟨location, form, marks, key, functionLocation, functionForm, functionMarks, name, params,
    returnType, isConstructor⟩ := constructor
  unfold function at known ⊢
  rw [Node.printAs_eq]
  have asMethod := methodFunction_constructor owner isAbstract (params.map Node.toPart) body.toPart
    (returnType.map Node.toPart)
  cases functionForm with
  | expression => exact asMethod
  | emptyBody => exact asMethod
  | declaration | arrow | declared => cases known

/-- Of a constructor nothing shows that depends on its body. -/
theorem resembles_withBody (body other : Node) :
    (constructor.withBody body).Resembles (constructor.withBody other) where
  answers {question} look print others := by
    cases question with
    | printed | operand | superCall => cases look
    | arrowBody => exact ⟨rfl, rfl⟩
    | statement => exact ⟨rfl, rfl, rfl, rfl, rfl, rfl⟩
    | methodFunction form => exact ⟨by cases form <;> rfl, rfl, rfl⟩
    | specifier => exact ⟨fun _ => rfl, fun _ _ => rfl, rfl, rfl⟩
    | _ => rfl
  ranked _ _ := rfl
  exported _ := rfl

/-- With a call of the superclass as its first statement a constructor is printed as without. -/
theorem printAs_withBody_superCall (block statement call callee : Location)
    {statements : List Node} (noCall : ¬ Node.CallsSuper ⟨block, .group .block statements⟩)
    (role : Role) :
    (constructor.withBody ⟨block, .group .block statements⟩).printAs role =
      (constructor.withBody ⟨block, .group .block
        (Node.superCallStatement statement call callee :: statements)⟩).printAs role := by
  have without : Node.hasDescendant Node.isSuperCall ⟨block, .group .block statements⟩ = false := by
    rwa [Node.callsSuper_iff, Bool.not_eq_true] at noCall
  have has := (Node.callsSuper_iff _).mp
    (Node.callsSuper_block block statement call callee statements)
  have isConstructor : decide (constructor.marks.kind = .constructor) = true :=
    decide_eq_true constructor.isConstructor
  have sameMarks := constructor.methodMarks?_function ⟨block, .group .block statements⟩
    ⟨block, .group .block (Node.superCallStatement statement call callee :: statements)⟩
  unfold withBody
  rw [Node.printAs_eq, Node.printAs_eq]
  refine method_exchange constructor.form _ constructor.marks ⟨sameMarks, rfl, rfl⟩
    (fun known => ?_) fun other => absurd constructor.isConstructor other
  rw [isConstructor]
  change Node.printAs _ _ = Node.printAs _ _
  rw [constructor.printAs_function _ _ known,
    constructor.printAs_function _ _ (sameMarks ▸ known), without, has]
  rw [if_neg Bool.false_ne_true, if_pos rfl,
    Node.braced_superCallStatement block statement call callee statements]

end Constructor

/-! ## Trees with more calls -/

/-- Whether a shape is that of a constructor. -/
def Shape.isConstructor {Part : Type} : Shape Part → Bool
  | .method _ marks _ _ => marks.kind = .constructor
  | _ => false

theorem Shape.isConstructor_map {Part Other : Type} (change : Part → Other) (shape : Shape Part) :
    (shape.map change).isConstructor = shape.isConstructor := by
  cases shape <;> rfl

/-- A tree in which some constructors got a call of the superclass as their first statement.  They
did not call the superclass before, and none of them stands inside another constructor. -/
inductive Node.GainsSuperCalls : Node → Node → Prop where
  | same (node : Node) : GainsSuperCalls node node
  | inside (location : Location) (shape : Shape (Node × Node))
      (noConstructor : shape.isConstructor = false)
      (parts : ∀ pair ∈ shape.parts, GainsSuperCalls pair.1 pair.2) :
      GainsSuperCalls ⟨location, shape.map Prod.fst⟩ ⟨location, shape.map Prod.snd⟩
  | added (constructor : Constructor) (block statement call callee : Location)
      (statements : List Node) (noCall : ¬ CallsSuper ⟨block, .group .block statements⟩) :
      GainsSuperCalls (constructor.withBody ⟨block, .group .block statements⟩)
        (constructor.withBody ⟨block, .group .block
          (superCallStatement statement call callee :: statements)⟩)

/-- Whether a role is another one than that of the function of a constructor. -/
def Role.IsOrdinary (role : Role) : Prop :=
  ∀ owner isAbstract, role ≠ .method owner true isAbstract

theorem Role.isOrdinary_of {role : Role}
    (noMethod : ∀ owner isConstructor isAbstract, role ≠ .method owner isConstructor isAbstract) :
    role.IsOrdinary :=
  fun owner => noMethod owner true

/-- Whether a question may be asked outside of constructors. -/
def Question.IsOrdinary (question : Question) : Prop :=
  question ≠ .superCall ∧ ∀ role, question.PrintsIn role → role.IsOrdinary

theorem Question.isOrdinary_of {question : Question} (superCall : question ≠ .superCall)
    (printed : ∀ role, question ≠ .printed role) : question.IsOrdinary := by
  cases question with
  | superCall => exact absurd rfl superCall
  | printed role => exact absurd rfl (printed role)
  | operand =>
      refine ⟨superCall, fun role isRanked => Role.isOrdinary_of ?_⟩
      cases isRanked
      exact nofun
  | _ => exact ⟨superCall, fun _ => False.elim⟩

theorem Question.isOrdinary_printed {role : Role} (ordinary : role.IsOrdinary) :
    (Question.printed role).IsOrdinary :=
  ⟨nofun, fun _ same => same ▸ ordinary⟩

/-- Outside of constructors nobody asks whether a superclass is called. -/
theorem Shape.every_isOrdinary {Part : Type} (nodeOf : Part → Node) (place : Position) {role : Role}
    (ordinary : role.IsOrdinary) {shape : Shape Part}
    (noConstructor : shape.isConstructor = false) :
    Printer.Every (fun question _ => question.IsOrdinary) (shape.questions nodeOf place role) := by
  have printed {role : Role} (noMethod : ∀ owner isConstructor isAbstract,
      role ≠ .method owner isConstructor isAbstract) : (Question.printed role).IsOrdinary :=
    Question.isOrdinary_printed (Role.isOrdinary_of noMethod)
  have binding : (Question.printed role.binding).IsOrdinary :=
    printed (by cases role <;> simp [Role.binding])
  have underCast : (Question.printed role.underCast).IsOrdinary :=
    printed (by cases role <;> simp [Role.underCast])
  have either {condition : Bool} {first second : Role}
      (isFirst : (Question.printed first).IsOrdinary)
      (isSecond : (Question.printed second).IsOrdinary) :
      (Question.printed (if condition then first else second)).IsOrdinary := by
    split <;> assumption
  have braced (prologue : Option String) (part : Part) :
      Printer.Every (fun question _ => question.IsOrdinary)
        (bracedQuestions nodeOf prologue part) := by
    unfold bracedQuestions
    split <;> simp [Question.isOrdinary_of, printed]
  cases shape with
  | function form marks name params body returnType =>
      cases form <;> cases role with
      | method owner isConstructor isAbstract =>
          cases isConstructor with
          | true => exact absurd rfl (ordinary owner isAbstract)
          | false =>
              simp [questions, functionQuestions, methodBodyQuestions, braced,
                Question.isOrdinary_of, printed]
      | _ => simp [questions, functionQuestions, braced, Question.isOrdinary_of, printed]
  | method form marks key value =>
      have isOther : marks.kind ≠ .constructor := of_decide_eq_false noConstructor
      have ofMethod : (Question.printed (.method place false (form = .abstract))).IsOrdinary :=
        Question.isOrdinary_printed (by simp [Role.IsOrdinary])
      simp [questions, isOther, ofMethod, Question.isOrdinary_of]
  | call form callee arguments optional typeParameters typeArguments =>
      have rawCode (parts : List Part) :
          Printer.Every (fun question _ => question.IsOrdinary)
            (rawCodeQuestions nodeOf parts) := by
        cases parts with
        | nil => exact Printer.every_nil
        | cons code rest =>
            simp only [rawCodeQuestions, Printer.every_cons]
            split <;> simp [Question.isOrdinary_of, printed]
      cases form with
      | call =>
          simp only [questions, Printer.every_cons]
          split <;> simp [rawCode, Question.isOrdinary_of, printed]
      | construction =>
          simp only [questions, List.cons_append, Printer.every_cons]
          split <;> simp [Question.isOrdinary_of, printed]
  | spread form => cases form <;> simp [questions, Question.isOrdinary_of, printed, binding]
  | _ =>
      simp [questions, statementQuestions, keyQuestions, braced, Question.isOrdinary_of, printed,
        binding, underCast, either]

/-- Whether superclasses are called matters to nobody but the constructors. -/
theorem Node.GainsSuperCalls.printAs_eq {first second : Node}
    (gains : first.GainsSuperCalls second) :
    first.Resembles second ∧
      ∀ role : Role, role.IsOrdinary → first.printAs role = second.printAs role := by
  induction gains with
  | same node => exact ⟨.refl node, fun _ _ => rfl⟩
  | added constructor block statement call callee statements noCall =>
      exact ⟨constructor.resembles_withBody _ _, fun role _ =>
        constructor.printAs_withBody_superCall block statement call callee noCall role⟩
  | inside location shape noConstructor parts ih =>
      obtain ⟨lifted, rfl⟩ := Shape.exists_lift ⟨(⟨{}, .leaf .empty⟩, ⟨{}, .leaf .empty⟩),
        .refl _, fun _ _ => rfl⟩ ih
      rw [Shape.map_map, Shape.map_map]
      refine ⟨resembles_of_parts location lifted fun part => part.2.1, fun role ordinary =>
        printAs_eq_of_answers location lifted role fun asked member => ?_⟩
      rw [Shape.isConstructor_map] at noConstructor
      obtain ⟨noCall, roles⟩ := Shape.every_isOrdinary _ _ ordinary noConstructor asked member
      exact asked.2.2.1.sameAnswer (fun role asks => asked.2.2.2 role (roles role asks))
        fun isCall => absurd isCall noCall

open Printer in
/-- Constructors that call no superclass, none of them inside another one, may be given such a call
as their first statement without a change of what is generated.  A constructor with a call below
its body is printed with nothing added to its body. -/
theorem Settings.generate_superCalls (settings : Settings) :
    (∀ first second : Node, first.GainsSuperCalls second →
      settings.generate first = settings.generate second) ∧
    ∀ (constructor : Constructor) (body : Node) (role : Role), body.CallsSuper →
      (constructor.withBody body).printAs role =
        method constructor.form constructor.location.start constructor.marks
          constructor.key.toPart ⟨constructor.function body, fun _ => do
            parameters (constructor.params.map Node.toPart)
            write " "
            withinMemberBody (braced none body.toPart)⟩ := by
  refine ⟨fun first second gains => ?_, fun constructor body role calls => ?_⟩
  · exact settings.generate_eq_of_printAs
      (gains.printAs_eq.2 .plain (Role.isOrdinary_of nofun))
  · have isConstructor : decide (constructor.marks.kind = .constructor) = true :=
      decide_eq_true constructor.isConstructor
    unfold Constructor.withBody
    rw [Node.printAs_eq]
    refine method_exchange constructor.form _ constructor.marks ⟨rfl, rfl, rfl⟩
      (fun known => ?_) fun other => absurd constructor.isConstructor other
    rw [isConstructor]
    change Node.printAs _ _ = _
    rw [constructor.printAs_function _ _ known, if_pos ((Node.callsSuper_iff body).mp calls)]
    rfl

/-- The constructor of a class. -/
def henConstructor : Constructor where
  location := {}
  form := .concrete
  marks := { kind := .constructor }
  key := ⟨{}, .identifier "Hen" none false⟩
  functionLocation := {}
  functionForm := .expression
  functionMarks := {}
  name := none
  params := [⟨{}, .identifier "nest" none false⟩]
  returnType := none
  isConstructor := rfl

/-- A file with a class whose constructor has the given statements. -/
def hen (statements : List Node) : Node :=
  ⟨{}, .group .program
    [⟨{}, .classDefinition .declaration {} (some ⟨{}, .identifier "Hen" none false⟩) none []
      ⟨{}, .group .classBody [henConstructor.withBody ⟨{}, .group .block statements⟩]⟩ []⟩]⟩

theorem Node.GainsSuperCalls.single {first second : Node} (gains : first.GainsSuperCalls second)
    (form : BodyForm) :
    GainsSuperCalls ⟨{}, .group form [first]⟩ ⟨{}, .group form [second]⟩ := by
  refine .inside {} (.group form [(first, second)]) rfl fun pair member => ?_
  rw [List.mem_singleton.mp member]
  exact gains

theorem Node.gainsSuperCalls_hen {statements : List Node}
    (noCall : ¬ CallsSuper ⟨{}, .group .block statements⟩) :
    (hen statements).GainsSuperCalls (hen (superCallStatement {} {} {} :: statements)) := by
  let name : Node := ⟨{}, .identifier "Hen" none false⟩
  let body (statements : List Node) : Node :=
    ⟨{}, .group .classBody [henConstructor.withBody ⟨{}, .group .block statements⟩]⟩
  have inBody :
      (body statements).GainsSuperCalls (body (superCallStatement {} {} {} :: statements)) :=
    (GainsSuperCalls.added henConstructor {} {} {} {} statements noCall).single .classBody
  refine GainsSuperCalls.single (.inside {} (.classDefinition .declaration {} (some (name, name))
    none [] (body statements, body (superCallStatement {} {} {} :: statements)) []) rfl ?_) .program
  intro pair member
  simp only [Shape.parts, Option.toList_some, Option.toList_none, List.append_nil,
    List.singleton_append, List.mem_cons, List.not_mem_nil, or_false] at member
  rcases member with rfl | rfl
  · exact .same name
  · exact inBody

open Printer in
theorem Settings.generate_superCalls_hen :
    let settings : Settings := {}
    let call := Node.superCallStatement {} {} {}
    let body : Node := ⟨{}, .group .block [⟨{}, .exit .returning none⟩, call]⟩
    ((hen []).GainsSuperCalls (hen [call]) ∧
      settings.generate (hen []) = settings.generate (hen [call]) ∧
      settings.generate (hen []) =
        .ok ⟨"class Hen \x7b\n    constructor(nest) \x7b\n        super();\n    \x7d\n\x7d", []⟩) ∧
    body.CallsSuper ∧ (henConstructor.withBody body).printAs .plain =
      method .concrete {} henConstructor.marks henConstructor.key.toPart
        ⟨henConstructor.function body, fun _ => do
          parameters (henConstructor.params.map Node.toPart)
          write " "
          withinMemberBody (braced none body.toPart)⟩ := by
  intro settings call body
  have gains : (hen []).GainsSuperCalls (hen [call]) :=
    Node.gainsSuperCalls_hen ((Node.callsSuper_iff _).not.mpr (by decide +kernel))
  have calls : body.CallsSuper := (Node.callsSuper_iff body).mpr (by decide +kernel)
  exact ⟨⟨gains, (Settings.generate_superCalls settings).1 _ _ gains, by decide +kernel⟩, calls,
    (Settings.generate_superCalls settings).2 henConstructor body .plain calls⟩

/-- A class with a field whose decorator calls the superclass. -/
def egg : Node :=
  let name (text : String) : Node := ⟨{}, .identifier text none false⟩
  let call : Node := ⟨{}, .call .call ⟨{}, .leaf .super⟩ [] false none none⟩
  let shell : Node := ⟨{}, .classProperty {} (name "shell") none none [call]⟩
  ⟨{}, .classDefinition .declaration {} (some (name "Egg")) none []
    ⟨{}, .group .classBody [shell]⟩ []⟩

/-- The code of a class whose constructor holds the other class. -/
def eggText : String :=
  "class Hen \x7b\n    constructor(nest) \x7b\n        super();\n" ++
    "        class Egg \x7b\n            shell;\n        \x7d\n    \x7d\n\x7d"

open Printer in
/-- A call that stands in a decorator counts for nothing. -/
theorem Settings.generate_decorated :
    let settings : Settings := { options := { stopAtError := false } }
    let body : Node := ⟨{}, .group .block [egg]⟩
    (∃ part ∈ body.stored, part.isSuperCall = true) ∧
    (henConstructor.withBody body).printAs .plain ≠
      method .concrete {} henConstructor.marks henConstructor.key.toPart
        ⟨henConstructor.function body, fun _ => do
          parameters (henConstructor.params.map Node.toPart)
          write " "
          withinMemberBody (braced none body.toPart)⟩ ∧
    settings.generate (hen [egg]) = .ok ⟨eggText,
      [Diagnostic.about .unsupportedConstruct settings.file {} ["Decorator"]]⟩ := by
  intro settings body
  have stored : body.stored.any Node.isSuperCall = true := by decide +kernel
  refine ⟨List.any_eq_true.mp stored, fun same => ?_, by decide +kernel⟩
  have sameText := congrArg (fun printer : Printer Unit =>
    (printer.outcome settings {}).toOption.map fun result => result.2.text.toString) same
  revert sameText
  decide +kernel

end ScriptBridge

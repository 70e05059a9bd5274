import ScriptBridge.Proofs.Printing.StopAtError
import ScriptBridge.Proofs.Qualification.Members

/-!
# The class that is left and its entry

Two walks through a class gather its members.  While the class is printed its scope
learns them one after the other, with functions and nested classes opened and closed
in between; the index reads them off the body.  If every field and method in the body
is an entry of the body or stands in a nested class, and nothing had to be reported,
both have gathered the same.
-/

namespace ScriptBridge

/-- The entry of a class lists what its scope knows.  Constructors are not listed. -/
structure ClassEntry.Records (entry : ClassEntry) (known : ClassScope) : Prop where
  name : known.name = entry.name
  superClass : known.superClass = entry.superClass
  properties : known.properties = entry.properties
  methods : ∀ method, method ≠ "constructor" →
    (known.methods.contains method = true ↔ method ∈ entry.methods)

theorem ClassScope.contains_methods_putMethod (known : ClassScope) (function : FunctionScope)
    (name : String) :
    (known.putMethod function).methods.contains name =
      (known.methods.contains name || decide (name = function.name)) := by
  simp only [putMethod, OrderedMap.contains, OrderedMap.find?_insert]
  by_cases same : name = function.name <;> simp [same]

namespace ClassEntry.Records

variable {entry : ClassEntry} {known later : ClassScope}

theorem start (name file : String) (superClass : Option String) :
    Records { name, file, superClass } { name, superClass } :=
  ⟨rfl, rfl, rfl, fun _ _ => by simp [OrderedMap.contains, OrderedMap.find?]⟩

theorem addStatic (records : entry.Records known) (name : String) (isStatic : Bool) :
    entry.Records (known.addStatic name isStatic) := by
  unfold ClassScope.addStatic
  split
  · exact ⟨records.name, records.superClass, records.properties, records.methods⟩
  · exact records

theorem addProperty (records : entry.Records known) (name : String) (isStatic : Bool) :
    (entry.addProperty name).Records (known.addProperty name isStatic) := by
  have listed : (entry.addProperty name).Records
      { known with properties := known.properties ++ [name] } :=
    ⟨records.name, records.superClass, congrArg (· ++ [name]) records.properties,
      records.methods⟩
  exact listed.addStatic name isStatic

/-- A method is listed once, however often it is noted. -/
theorem gainsMethod {name : String} {isStatic : Bool} (records : entry.Records known)
    (gains : known.GainsMethod name isStatic later) : (entry.addMethod name).Records later := by
  obtain ⟨function, rfl, rfl⟩ := gains
  let noted := ((known.putMethod { name := function.name }).addStatic function.name
    isStatic).putMethod function
  have name : noted.name = entry.name := (ClassScope.name_addStatic _ _ _).trans records.name
  have superClass : noted.superClass = entry.superClass :=
    (ClassScope.superClass_addStatic _ _ _).trans records.superClass
  have properties : noted.properties = entry.properties :=
    (ClassScope.properties_addStatic _ _ _).trans records.properties
  have methods : ∀ method, method ≠ "constructor" →
      (noted.methods.contains method = true ↔
        method = function.name ∨ method ∈ entry.methods) := by
    intro method notConstructor
    rw [ClassScope.contains_methods_putMethod, ClassScope.methods_addStatic,
      ClassScope.contains_methods_putMethod, Bool.or_assoc, Bool.or_self, Bool.or_eq_true,
      decide_eq_true_iff, or_comm, records.methods method notConstructor]
  unfold ClassEntry.addMethod
  split
  · next listed =>
      refine ⟨name, superClass, properties, fun method notConstructor => ?_⟩
      rw [methods method notConstructor, or_iff_right_iff_imp]
      rintro rfl
      exact listed.resolve_left notConstructor
  · refine ⟨name, superClass, properties, fun method notConstructor => ?_⟩
    rw [methods method notConstructor, List.mem_append, List.mem_singleton, or_comm]

end ClassEntry.Records

/-- The entry of a class takes up what its scope learns. -/
def ClassEntry.Follows (advance : ClassEntry → ClassEntry) (known later : ClassScope) : Prop :=
  ∀ entry : ClassEntry, entry.Records known → (advance entry).Records later

/-- A constructor is keyed by the word for constructors. -/
def Node.ConstructorIsKeyed (member : Node) : Prop :=
  match member.shape with
  | .method _ marks key _ =>
      marks.kind = .constructor → key.identifier? = some "constructor"
  | _ => True

namespace Printer

variable {settings : Settings} {taught : ClassScope → ClassScope → Prop}

/-- Nothing is learned behind a report that stops the generation. -/
theorem Teaches.unsupported (stops : settings.options.stopAtError = true) (place : Position)
    (what : String) : Teaches settings taught (Printer.unsupported place what) := by
  intro state value next known ends
  rw [Printer.unsupported, outcome_report, stops] at ends
  cases ends

end Printer

/-- A member is taken up by the entry as it is learned by the scope. -/
theorem Node.teaches_member {settings : Settings} (stops : settings.options.stopAtError = true)
    (keeps : settings.options.KeepsNames) {member : Node} (keyed : member.ConstructorIsKeyed)
    (apart : ∀ part ∈ member.shape.outerParts, part.HidesNoMember) (role : Role) :
    Printer.Teaches settings (ClassEntry.Follows fun entry => entry.addMember member)
      (member.printAs role) := by
  have kept : ∀ part ∈ member.shape.outerParts, ∀ role, Printer.KeepsClass settings
      (part.printAs role) := fun part isOuter =>
    part.keepsClass_of_hides settings (apart part isOuter)
  cases isMember : member.shape.isMember with
  | false =>
      have hides : member.HidesNoMember := hidesNoMember_iff.mpr ⟨isMember, apart⟩
      refine .of_keepsClass (member.keepsClass_of_hides settings hides role) ?_
      intro known entry records
      obtain ⟨location, shape⟩ := member
      cases shape
      case classProperty => cases isMember
      case method => cases isMember
      all_goals exact records
  | true =>
      obtain ⟨location, shape⟩ := member
      cases shape
      case classProperty marks key value type decorators =>
        refine (Node.teaches_classProperty settings kept role).mono ?_
        rintro known _ rfl entry records
        cases isKey : key.identifier? with
        | none => simpa [ClassEntry.addMember, isKey] using records
        | some name =>
            simpa [ClassEntry.addMember, isKey, keeps name] using
              records.addProperty name marks.static
      case method form marks key value =>
        by_cases noFunction : Printer.methodMarks? form ⟨value, value.printAs⟩ = none
        · rw [printAs_eq]
          change Printer.Teaches settings _ (Printer.method _ _ _ _ _)
          unfold Printer.method
          dsimp only
          rw [noFunction]
          have closed := Printer.KeepsClass.isCongruence settings
          exact .behind (closed.unsupportedIf _ _ _) fun _ => .unsupported stops _ _
        · have ofValue := kept value (by simp [Shape.outerParts, Shape.parts])
          refine (Node.teaches_method settings noFunction ofValue role).mono ?_
          intro known later learned entry records
          have isName : Printer.methodNameIn settings marks.kind key = key.identifier? := by
            unfold Printer.methodNameIn
            split
            · next isConstructor => exact (keyed isConstructor).symm
            · cases key.identifier? with
              | none => rfl
              | some name => exact congrArg some (keeps name)
          rw [isName] at learned
          cases isKey : key.identifier? with
          | none =>
              rw [isKey] at learned
              simpa [ClassEntry.addMember, isKey, learned] using records
          | some name =>
              rw [isKey] at learned
              simpa [ClassEntry.addMember, isKey] using records.gainsMethod learned
      all_goals cases isMember

/-- The members of a body are taken up one after the other. -/
theorem Printer.teaches_statements {settings : Settings}
    (stops : settings.options.stopAtError = true) (keeps : settings.options.KeepsNames)
    {members : List Node} (keyed : ∀ member ∈ members, member.ConstructorIsKeyed)
    (apart : ∀ member ∈ members, ∀ part ∈ member.shape.outerParts, part.HidesNoMember)
    (wroteAny : Bool) :
    Teaches settings (ClassEntry.Follows fun entry => members.foldl ClassEntry.addMember entry)
      (statements wroteAny (members.map fun member => ⟨member, member.printAs⟩)) := by
  have closed := KeepsClass.isCongruence settings
  induction members generalizing wroteAny with
  | nil => exact .of_keepsClass (closed.pure wroteAny) fun _ _ records => records
  | cons member rest ih =>
      obtain ⟨memberKeyed, restKeyed⟩ := List.forall_mem_cons.mp keyed
      obtain ⟨memberApart, restApart⟩ := List.forall_mem_cons.mp apart
      have others := ih restKeyed restApart
      have first := member.teaches_member stops keeps memberKeyed memberApart .plain
      rw [List.map_cons]
      unfold statements
      split
      · next isEmpty =>
          refine (others wroteAny).mono fun known later follows entry records => ?_
          have sameEntry : entry.addMember member = entry := by
            obtain ⟨location, shape⟩ := member
            cases shape
            case leaf => rfl
            all_goals cases isEmpty
          change (rest.foldl ClassEntry.addMember (entry.addMember member)).Records later
          rw [sameEntry]
          exact follows entry records
      · refine .behind closed.length fun before => ?_
        dsimp only
        split
        case' isTrue => refine .behind closed.newLine fun _ => ?_
        -- A member that is not the first starts a line; the rest is the same.
        all_goals
          refine .behind closed.length fun start => ?_
          refine first.bind (fun _ => (?_ : Teaches settings (ClassEntry.Follows fun entry =>
            rest.foldl ClassEntry.addMember entry) _)) ?_
          · refine .behind closed.length fun reached => ?_
            split
            · exact .behind (closed.truncate before) fun _ => others _
            · exact .behind (closed.writeIf _ _) fun _ => others _
          · intro known middle later before behind entry records
            exact behind _ (before _ records)

/-- The body of a class is taken up whole. -/
theorem Printer.teaches_classBody {settings : Settings}
    (stops : settings.options.stopAtError = true) (keeps : settings.options.KeepsNames)
    {members : List Node} (keyed : ∀ member ∈ members, member.ConstructorIsKeyed)
    (apart : ∀ member ∈ members, ∀ part ∈ member.shape.outerParts, part.HidesNoMember)
    (location : Location) :
    Teaches settings (ClassEntry.Follows fun entry => members.foldl ClassEntry.addMember entry)
      (Node.printAs ⟨location, .group .classBody members⟩ .plain) := by
  have closed := KeepsClass.isCongruence settings
  rw [Node.printAs_eq]
  change Teaches settings _ (block none _)
  simp only [block, indent_newLine]
  refine .behind (closed.write _) fun _ => ?_
  refine .behind closed.length fun opened => ?_
  refine .behind closed.indentedLine fun _ => ?_
  refine .behind (closed.write _) fun _ => ?_
  refine .before (teaches_statements stops keeps keyed apart _) fun wroteAny => ?_
  refine .bind closed.dedent fun _ => ?_
  split
  · exact .bind closed.newLine fun _ => closed.write _
  · exact .bind (closed.truncate _) fun _ => closed.write _

/-! ## The class that is left -/

namespace Printer

/-- Run a printer within a class; gives the class that is left. -/
def leavingClass (name : String) (superClass : Option String) (printer : Printer Unit) :
    Printer (Option ClassScope) := do
  modifyScopes fun scopes => scopes.enterClass name superClass
  printer
  let left := (← get).scopes.exitClass
  modifyScopes fun _ => left.1
  return left.2

/-- A class, printed as ever; gives the class that is left. -/
def classLeft (role : Role) (place : Position) (marks : ClassMarks)
    (nameNode superClass : Option Part) (implementing : List Part) (body : Part)
    (decorators : List Part) : Printer (Option ClassScope) := do
  match nameNode.bind (·.node.identifier?) with
  | none =>
      missing place "Class name"
      return none
  | some source =>
      unsupportedIf (!decorators.isEmpty) place "Decorator"
      unsupportedIf marks.declared place "declare class"
      let className := (← options).renameIdentifier source
      modifyTypes fun types => types.noteImported className
      classText role marks className superClass implementing
        (leavingClass className (superClass.bind (·.node.lastName?)) body.print)

theorem classText_bind {Result Other : Type} (role : Role) (marks : ClassMarks)
    (className : String) (superClass : Option Part) (implementing : List Part)
    (inside : Printer Result) (rest : Result → Printer Other) :
    classText role marks className superClass implementing inside >>= rest =
      classText role marks className superClass implementing (inside >>= rest) := by
  unfold classText
  cases implementing.isEmpty <;> simp [bind_assoc]

theorem leavingClass_forget (name : String) (superClass : Option String)
    (printer : Printer Unit) :
    (do let _ ← leavingClass name superClass printer; pure ()) =
      withinClass name superClass printer := by
  apply ext_outcome
  intro settings state
  simp only [leavingClass, withinClass, outcome_bind, outcome_modifyScopes, outcome_get]
  cases printer.outcome settings
      { state with scopes := state.scopes.enterClass name superClass } with
  | error diagnostic => rfl
  | ok reached => rfl

theorem classLeft_forget (role : Role) (place : Position) (marks : ClassMarks)
    (nameNode superClass : Option Part) (implementing : List Part) (body : Part)
    (decorators : List Part) :
    (do
      let _ ← classLeft role place marks nameNode superClass implementing body decorators
      pure ()) =
      classDefinition role place marks nameNode superClass implementing body decorators := by
  unfold classLeft classDefinition
  cases nameNode.bind (·.node.identifier?) with
  | none => simp only [bind_assoc, pure_bind, bind_pure_unit]
  | some source =>
      simp only [bind_assoc, classText_bind, leavingClass_forget]
      rfl

theorem stoppable_leavingClass (name : String) (superClass : Option String)
    {printer : Printer Unit} (stoppable : Stoppable printer) :
    Stoppable (leavingClass name superClass printer) := by
  refine .bind (.modifyScopes _) fun _ => .bind stoppable fun _ => ?_
  exact .bind (.of_silent (fun _ _ _ => rfl) fun _ state => ⟨_, state, rfl, rfl⟩) fun _ =>
    .bind (.modifyScopes _) fun _ => .pure _

end Printer

/-- Print a class; gives the class that is left. -/
def Node.printLeaving (node : Node) (role : Role) : Printer (Option ClassScope) :=
  let toPart (part : Node) : Part := ⟨part, part.printAs⟩
  match node.shape with
  | .classDefinition _ marks name superClass implementing body decorators =>
      Printer.classLeft role node.location.start marks (name.map toPart) (superClass.map toPart)
        (implementing.map toPart) (toPart body) (decorators.map toPart)
  | _ => do
      node.printAs role
      return none

theorem Node.printLeaving_forget (node : Node) (role : Role) :
    (do let _ ← node.printLeaving role; pure ()) = node.printAs role := by
  obtain ⟨location, shape⟩ := node
  cases shape
  case classDefinition form marks name superClass implementing body decorators =>
    rw [printAs_eq]
    exact Printer.classLeft_forget _ _ _ _ _ _ _ _
  all_goals
    change (do Node.printAs _ role; pure none) >>= (fun _ => pure ()) = _
    simp only [bind_assoc, pure_bind, bind_pure_unit]

theorem Node.outcome_print_of_leaving {node : Node} (settings : Settings) (state : PrinterState)
    {result : Option ClassScope × PrinterState}
    (leaves : (node.printLeaving state.role.ofTree).outcome settings
      { state with role := .plain } = .ok result) :
    node.print.outcome settings state = .ok ((), result.2) := by
  rw [(node.outcome_print settings state).1, ← node.printLeaving_forget, Printer.outcome_bind,
    leaves]
  rfl

theorem Node.stoppable_printLeaving (node : Node) (role : Role) :
    Printer.Stoppable (node.printLeaving role) := by
  have closed := Printer.Stoppable.isCongruence
  obtain ⟨location, shape⟩ := node
  cases shape
  case classDefinition form marks name superClass implementing body decorators =>
    let toPart (part : Node) : Part := ⟨part, part.printAs⟩
    let twin (node : Node) :
        Printer.Twin fun {Result} (printer _ : Printer Result) => Printer.Stoppable printer :=
      ⟨node, node.printAs, node.printAs, closed.printAs node⟩
    change Printer.Stoppable (Printer.classLeft _ _ _ _ (superClass.map toPart)
      (implementing.map toPart) (toPart body) _)
    unfold Printer.classLeft
    cases (name.map toPart).bind (·.node.identifier?) with
    | none => exact .bind (closed.missing _ _) fun _ => .pure _
    | some source =>
        refine .bind (closed.unsupportedIf _ _ _) fun _ => ?_
        refine .bind (closed.unsupportedIf _ _ _) fun _ => ?_
        refine .options (fun _ _ => rfl) fun options => ?_
        refine .bind (.modifyTypes _) fun _ => ?_
        let className := options.renameIdentifier source
        let inside := Printer.leavingClass className
          ((superClass.map toPart).bind (·.node.lastName?)) (body.printAs .plain)
        have leaves : Printer.Stoppable inside :=
          Printer.stoppable_leavingClass _ _ (closed.printAs body .plain)
        have text := @Printer.TextCongruence.classText _ closed.toTextCongruence _ role marks
          className (superClass.map twin) (implementing.map twin) inside inside leaves
        rw [Option.map_map, List.map_map] at text
        exact text
  all_goals exact .bind (closed.printAs _ role) fun _ => .pure _

/-! ## The two collections -/

namespace Printer

variable {settings : Settings} {Result Other : Type} {promised : Result → Prop}

/-- Every result of the printer is as promised. -/
def Promises (settings : Settings) (promised : Result → Prop) (printer : Printer Result) : Prop :=
  ∀ state value next, printer.outcome settings state = .ok (value, next) → promised value

namespace Promises

theorem behind {printer : Printer Other} {rest : Other → Printer Result}
    (promises : ∀ value, Promises settings promised (rest value)) :
    Promises settings promised (printer >>= rest) := by
  intro state value next ends
  rw [outcome_bind] at ends
  cases first : printer.outcome settings state with
  | error diagnostic =>
      rw [first] at ends
      cases ends
  | ok reached =>
      rw [first] at ends
      exact promises _ _ _ _ ends

/-- A question that the settings answer comes first. -/
theorem asking {question : Printer Other} {rest : Other → Printer Result} {answer : Other}
    (asks : ∀ state, question.outcome settings state = .ok (answer, state))
    (promises : Promises settings promised (rest answer)) :
    Promises settings promised (question >>= rest) := by
  intro state value next ends
  rw [outcome_bind, asks] at ends
  exact promises state value next ends

theorem missing (stops : settings.options.stopAtError = true) (place : Position)
    (what : String) (rest : Printer Result) :
    Promises settings promised (do Printer.missing place what; rest) := by
  intro state value next ends
  rw [outcome_bind, Printer.missing, outcome_report, stops] at ends
  cases ends

theorem classText (role : Role) (marks : ClassMarks) (className : String)
    (superClass : Option Part) (implementing : List Part) {inside : Printer Result}
    (promises : Promises settings promised inside) :
    Promises settings promised (classText role marks className superClass implementing inside) := by
  unfold Printer.classText
  iterate 5 refine behind fun _ => ?_
  split
  · exact behind fun _ => behind fun _ => behind fun _ => promises
  · exact behind fun _ => promises

/-- The class that is left has learned what its body teaches. -/
theorem leavingClass {taught : ClassScope → ClassScope → Prop} (name : String)
    (superClass : Option String) {body : Node}
    (teaches : Teaches settings taught (body.printAs .plain)) :
    Promises settings (fun left => ∃ known, left = some known ∧ taught { name, superClass } known)
      (leavingClass name superClass (body.printAs .plain)) := by
  intro state value next ends
  simp only [Printer.leavingClass, outcome_bind, outcome_modifyScopes, outcome_get] at ends
  cases inner : (body.printAs .plain).outcome settings
      { state with scopes := state.scopes.enterClass name superClass } with
  | error diagnostic =>
      rw [inner] at ends
      cases ends
  | ok reached =>
      rw [inner] at ends
      cases ends
      obtain ⟨known, isKnown, learned⟩ := teaches _ _ _ _ inner rfl
      have outer : reached.2.scopes.outer = state.scopes.top :: state.scopes.outer :=
        (Node.scopes_grow inner).outer
      refine ⟨known, ?_, learned⟩
      rw [ScopeStack.exitClass, outer]
      exact isKnown

end Promises

end Printer

/-- A class with the given parts, members among them. -/
structure ClassDeclaration where
  location : Location := {}
  marks : ClassMarks := {}
  name : Option Node
  superClass : Option Node := none
  implementing : List Node := []
  bodyLocation : Location := {}
  members : List Node
  decorators : List Node := []

namespace ClassDeclaration

/-- The tree of a class declaration. -/
def node (declaration : ClassDeclaration) : Node :=
  ⟨declaration.location, .classDefinition .declaration declaration.marks declaration.name
    declaration.superClass declaration.implementing
    ⟨declaration.bodyLocation, .group .classBody declaration.members⟩ declaration.decorators⟩

variable {settings : Settings} {declaration : ClassDeclaration}

/-- With errors that stop the generation, what is left of a class is what its entry lists. -/
theorem promises_printLeaving (stops : settings.options.stopAtError = true)
    (keeps : settings.options.KeepsNames)
    (keyed : ∀ member ∈ declaration.members, member.ConstructorIsKeyed)
    (apart : ∀ member ∈ declaration.members, ∀ part ∈ member.shape.outerParts,
      part.HidesNoMember) (file : String) (role : Role) :
    Printer.Promises settings
      (fun left => ∃ entry known, ClassEntry.ofNode? file declaration.node = some entry ∧
        left = some known ∧ entry.Records known)
      (declaration.node.printLeaving role) := by
  obtain ⟨location, marks, name, superClass, implementing, bodyLocation, members, decorators⟩ :=
    declaration
  let toPart (part : Node) : Part := ⟨part, part.printAs⟩
  have sameName : (name.map toPart).bind (·.node.identifier?) = name.bind Node.identifier? := by
    cases name <;> rfl
  have sameSuper : (superClass.map toPart).bind (·.node.lastName?) =
      superClass.bind Node.lastName? := by
    cases superClass <;> rfl
  change Printer.Promises settings _ (Printer.classLeft _ _ _ (name.map toPart)
    (superClass.map toPart) _ _ _)
  unfold Printer.classLeft
  rw [sameName, sameSuper]
  cases isName : name.bind Node.identifier? with
  | none => exact .missing stops _ _ _
  | some className =>
      refine .behind fun _ => .behind fun _ => ?_
      refine .asking (Printer.outcome_options settings) ?_
      dsimp only
      rw [keeps className]
      refine .behind fun _ => .classText _ _ _ _ _ ?_
      let start : ClassEntry :=
        { name := className, file, superClass := superClass.bind Node.lastName? }
      have taken := Printer.teaches_classBody stops keeps keyed apart bodyLocation
      intro state left next ends
      obtain ⟨known, isLeft, follows⟩ := Printer.Promises.leavingClass _ _ taken _ _ _ ends
      refine ⟨members.foldl ClassEntry.addMember start, known, ?_, isLeft, follows _ (.start _ _ _)⟩
      change (name.bind Node.identifier?).map _ = _
      rw [isName]
      rfl

/-- A class is printed alike whether its rank was asked for or not. -/
theorem printLeaving_ofTree (declaration : ClassDeclaration) (role : Role) :
    declaration.node.printLeaving role.ofTree = declaration.node.printLeaving role := by
  cases role <;> rfl

/-- If a class is printed and nothing had to be reported, the scope that is left and the
entry of the index have the name and the superclass in common, the same properties in the
same order, and apart from constructors the same methods. -/
theorem print_records (settings : Settings) (file : String) (declaration : ClassDeclaration)
    (state next : PrinterState) (plain : settings.options.identifiers = {})
    (keyed : ∀ member ∈ declaration.members, member.ConstructorIsKeyed)
    (apart : ∀ member ∈ declaration.members, ∀ part ∈ member.shape.outerParts,
      part.HidesNoMember)
    (ends : declaration.node.print.outcome settings state = .ok ((), next))
    (quiet : next.diagnostics = state.diagnostics) :
    ∃ entry known, ClassEntry.ofNode? file declaration.node = some entry ∧
      (declaration.node.printLeaving state.role).outcome settings
        { state with role := .plain } = .ok (some known, next) ∧
      entry.Records known := by
  rw [(declaration.node.outcome_print settings state).1,
    ← declaration.node.printLeaving_forget, Printer.outcome_bind,
    declaration.printLeaving_ofTree] at ends
  cases leaves : (declaration.node.printLeaving state.role).outcome settings
      { state with role := .plain } with
  | error diagnostic =>
      rw [leaves] at ends
      cases ends
  | ok result =>
      rw [leaves] at ends
      cases ends
      obtain ⟨left, next⟩ := result
      have stopping := (declaration.node.stoppable_printLeaving state.role).outcome_stopping
        leaves quiet true
      have keeps : (settings.stopping true).options.KeepsNames :=
        Options.keepsNames_of_identifiers plain
      obtain ⟨entry, known, isEntry, rfl, records⟩ :=
        promises_printLeaving rfl keeps keyed apart file state.role _ _ _ stopping
      exact ⟨entry, known, isEntry, rfl, records⟩

/-- A class with two fields, a constructor and a method, in the body of which stands a
class with a field of its own. -/
def hive : ClassDeclaration :=
  let name (text : String) : Node := ⟨{}, .identifier text none false⟩
  let method (kind : MethodKind) (key : String) (body : List Node) : Node :=
    ⟨{}, .method .concrete { kind } (name key)
      ⟨{}, .function .expression {} none [] (some ⟨{}, .group .block body⟩) none⟩⟩
  let field (key : String) (isStatic : Bool) : Node :=
    ⟨{}, .classProperty { static := isStatic } (name key) none none []⟩
  let cell : ClassDeclaration := { name := some (name "Cell"), members := [field "wax" false] }
  { name := some (name "Hive"), superClass := some (name "Home"),
    members := [field "size" false, method .constructor "constructor" [],
      method .method "grow" [cell.node], field "count" true] }

theorem print_records_hive :
    (∀ member ∈ hive.members, member.ConstructorIsKeyed) ∧
    (∀ member ∈ hive.members, ∀ part ∈ member.shape.outerParts, part.HidesNoMember) ∧
    ∃ next entry known, hive.node.print.outcome {} {} = .ok ((), next) ∧
      ClassEntry.ofNode? "Hive.as" hive.node = some entry ∧
      (hive.node.printLeaving .plain).outcome {} {} = .ok (some known, next) ∧
      entry.Records known := by
  have keyed : ∀ member ∈ hive.members, member.ConstructorIsKeyed := by
    simp [hive, Node.ConstructorIsKeyed, Node.identifier?]
  have apart : ∀ member ∈ hive.members, ∀ part ∈ member.shape.outerParts,
      part.HidesNoMember := by
    decide
  have quiet : (hive.node.print.outcome {} {}).toOption.map (fun result =>
      result.2.diagnostics) = some [] := by
    decide +kernel
  refine ⟨keyed, apart, ?_⟩
  cases ends : hive.node.print.outcome {} {} with
  | error diagnostic =>
      rw [ends] at quiet
      cases quiet
  | ok result =>
      rw [ends] at quiet
      obtain ⟨entry, known, isEntry, leaves, records⟩ :=
        print_records {} "Hive.as" hive {} result.2 rfl keyed apart ends (Option.some.inj quiet)
      exact ⟨result.2, entry, known, rfl, isEntry, leaves, records⟩

/-- A field in the body of a method is learned by the scope, but the index does not list
it. -/
theorem print_records_hidden :
    let name (text : String) : Node := ⟨{}, .identifier text none false⟩
    let field : Node := ⟨{}, .classProperty {} (name "size") none none []⟩
    let body : Node := ⟨{}, .group .block [field]⟩
    let grow : Node := ⟨{}, .method .concrete {} (name "grow")
      ⟨{}, .function .expression {} none [] (some body) none⟩⟩
    let declaration : ClassDeclaration := { name := some (name "Hive"), members := [grow] }
    (∀ member ∈ declaration.members, member.ConstructorIsKeyed) ∧
    ∃ next entry known, declaration.node.print.outcome {} {} = .ok ((), next) ∧
      next.diagnostics = [] ∧ ClassEntry.ofNode? "Hive.as" declaration.node = some entry ∧
      (declaration.node.printLeaving .plain).outcome {} {} = .ok (some known, next) ∧
      known.properties = ["size"] ∧ entry.properties = [] ∧ ¬ entry.Records known := by
  intro name field body grow declaration
  have keyed : ∀ member ∈ declaration.members, member.ConstructorIsKeyed := by
    simp [declaration, grow, Node.ConstructorIsKeyed]
  have left : ((declaration.node.printLeaving .plain).outcome {} {}).toOption.map
      (fun result => (result.1.map ClassScope.properties, result.2.diagnostics)) =
        some (some ["size"], []) := by
    decide +kernel
  refine ⟨keyed, ?_⟩
  cases leaves : (declaration.node.printLeaving .plain).outcome {} {} with
  | error diagnostic =>
      rw [leaves] at left
      cases left
  | ok result =>
      rw [leaves] at left
      have printed := Node.outcome_print_of_leaving {} {} leaves
      obtain ⟨isLeft, quiet⟩ := Prod.mk.inj (Option.some.inj left)
      obtain ⟨known, isKnown, learned⟩ := Option.map_eq_some_iff.mp isLeft
      rw [← Prod.mk.eta (p := result), isKnown]
      refine ⟨result.2, _, known, printed, quiet, rfl, rfl, learned, rfl, fun records => ?_⟩
      exact absurd (learned.symm.trans records.properties) (List.cons_ne_nil _ _)

end ClassDeclaration

end ScriptBridge

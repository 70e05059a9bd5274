import ScriptBridge.Proofs.Printing.Inspection
import ScriptBridge.Proofs.Printing.Roles
import ScriptBridge.Proofs.Qualification.Constructs

/-!
# Receivers by the place in the tree

Printing with scopes and printing lexically give the same code.  So the receiver
of every bare name is the one that its place in the tree asks for.
-/

namespace ScriptBridge

/-- Whether a construct stands as the function of a method. -/
def Role.isMethod : Role → Bool
  | .method .. => true
  | _ => false

/-- Whether a question is not about the function of a method. -/
def Question.Ordinary {Item : Type} : Question → Item → Prop
  | .printed (.method ..), _ => False
  | _, _ => True

def Shape.isMethod {Part : Type} : Shape Part → Bool
  | .method .. => true
  | _ => false

namespace Printer

/-- A part that is never printed as the function of a method. -/
def guarded (part : Part) : Part :=
  ⟨part.node, fun role => if role.isMethod then pure () else part.result role⟩

theorem sameAnswer_guarded (part : Part) {question : Question}
    (ordinary : question.Ordinary part) : question.SameAnswer part (guarded part) := by
  cases question with
  | printed role =>
      cases role with
      | method owner isConstructor isAbstract => exact ordinary.elim
      | _ => rfl
  | operand => exact ⟨rfl, rfl⟩
  | arrowBody => exact ⟨rfl, rfl⟩
  | statement => exact ⟨rfl, rfl, rfl, rfl, rfl, rfl⟩
  | methodFunction form => exact ⟨rfl, rfl, rfl⟩
  | specifier => exact ⟨fun _ => rfl, fun _ _ => rfl, rfl, rfl⟩
  | _ => rfl

/-- Only a method prints a part as the function of a method. -/
theorem every_ordinary (place : Position) (role : Role) (shape : Shape Part)
    (noMethod : shape.isMethod = false) :
    Every Question.Ordinary (shape.questions (·.node) place role) := by
  have braced (prologue : Option String) (part : Part) :
      Every Question.Ordinary (Shape.bracedQuestions (·.node) prologue part) := by
    unfold Shape.bracedQuestions
    cases part.node.isBlock <;> simp [Question.Ordinary]
  have key (part : Part) (computed : Bool) :
      Every Question.Ordinary (Shape.keyQuestions part computed) := by
    cases computed <;> simp [Shape.keyQuestions, Question.Ordinary]
  cases shape with
  | method => cases noMethod
  | function form marks name params body returnType =>
      have methodBody (isConstructor : Bool) (part : Part) :
          Every Question.Ordinary (Shape.methodBodyQuestions (·.node) isConstructor part) := by
        unfold Shape.methodBodyQuestions
        cases isConstructor <;> simp [braced, Question.Ordinary]
      cases form <;> cases role <;>
        simp [Shape.questions, Shape.functionQuestions, braced, methodBody, Question.Ordinary]
  | call form callee arguments optional typeParameters typeArguments =>
      cases form with
      | call =>
          simp only [Shape.questions, every_cons]
          refine ⟨trivial, ?_⟩
          split
          · unfold Shape.rawCodeQuestions
            cases arguments with
            | nil => simp
            | cons code rest =>
                simp only [every_cons]
                refine ⟨trivial, ?_⟩
                split <;> simp [Question.Ordinary]
          · simp [Question.Ordinary]
      | construction =>
          cases calls : callee.node.callsInChain <;>
            simp [Shape.questions, calls, Question.Ordinary]
  | member object property computed optional =>
      cases computed <;> simp [Shape.questions, Question.Ordinary]
  | spread form =>
      cases form <;> cases role <;> simp [Shape.questions, Question.Ordinary, Role.binding]
  | assignmentPattern =>
      cases role <;> simp [Shape.questions, Question.Ordinary, Role.binding]
  | cast => cases role <;> simp [Shape.questions, Question.Ordinary, Role.underCast]
  | _ =>
      simp [Shape.questions, Shape.statementQuestions, braced, key, Question.Ordinary]

/-- Parts of anything but a method may as well be guarded. -/
theorem construct_guarded (location : Location) (shape : Shape Part) (role : Role)
    (noMethod : shape.isMethod = false) :
    construct location shape role = construct location (shape.map guarded) role := by
  have agree : Agree id guarded (shape.questions (·.node) location.start role) :=
    fun entry member => sameAnswer_guarded entry.2
      (every_ordinary location.start role shape noMethod entry member)
  have exchanged := construct_exchange location role shape agree
  rw [Shape.map_id] at exchanged
  exact exchanged

/-! ## Trees -/

/-- A node that is printed alike by both printers wherever it stands.  The function
of a method stands in a function. -/
def AgreesEverywhere (settings : Settings) (node : Node) : Prop :=
  ∀ address role, (role.isMethod = true → address.functions ≠ []) →
    Agrees settings address (node.printAs role) (node.printLexically address role)

section Trees

variable {settings : Settings}

/-- The part that keeps scopes. -/
def printed (part : {node // AgreesEverywhere settings node}) : Part :=
  ⟨part.1, part.1.printAs⟩

/-- The part that is told its address. -/
def placed (part : {node // AgreesEverywhere settings node}) : Placed :=
  ⟨part.1, part.1.printLexically⟩

/-- Both printers of a part, guarded. -/
def twinAt (address : Address) (part : {node // AgreesEverywhere settings node}) :
    Twin (Agrees settings address) where
  node := part.1
  left := (guarded (printed part)).result
  right := (guarded ((placed part).within address)).result
  related role := by
    dsimp only [guarded]
    split
    case isTrue => exact (agrees_isCongruence settings address).pure ()
    case isFalse notMethod => exact part.2 address role fun isMethod => (notMethod isMethod).elim

variable {address : Address} (location : Location)

theorem touchesScopes_map {Before After : Type} (change : Before → After)
    (shape : Shape Before) : (shape.map change).touchesScopes = shape.touchesScopes := by
  cases shape <;> rfl

theorem isMethod_of_leaves {Part : Type} {shape : Shape Part}
    (leaves : shape.touchesScopes = false) : shape.isMethod = false := by
  cases shape with
  | method => cases leaves
  | _ => rfl

theorem constructLexically_of_leaves {shape : Shape Placed}
    (leaves : shape.touchesScopes = false) (role : Role) :
    constructLexically location shape address role =
      construct location (shape.map (·.within address)) role := by
  cases shape with
  | identifier | function | classDefinition | classProperty | method | methodSignature
  | catchClause => cases leaves
  | _ => rfl

theorem agrees_scopeless (shape : Shape {node // AgreesEverywhere settings node}) (role : Role)
    (leaves : shape.touchesScopes = false) :
    Agrees settings address (construct location (shape.map printed) role)
      (constructLexically location (shape.map placed) address role) := by
  have still {Part : Type} (change : {node // AgreesEverywhere settings node} → Part) :
      (shape.map change).touchesScopes = false :=
    (touchesScopes_map change shape).trans leaves
  have related := (agrees_isCongruence settings address).construct location
    (shape.map (twinAt address)) role (still _)
  rw [Shape.map_map, Shape.map_map] at related
  rw [constructLexically_of_leaves location (still _), Shape.map_map,
    construct_guarded location _ role (isMethod_of_leaves (still _)),
    construct_guarded location _ role (isMethod_of_leaves (still _)),
    Shape.map_map, Shape.map_map]
  exact related

theorem simulates_guarded {before after : PrinterState → PrinterState → Prop}
    {first second : Shape Part} (noMethod : first.isMethod = false)
    (alsoNoMethod : second.isMethod = false) {role : Role}
    (simulates : Simulates settings before after
      (construct location (first.map guarded) role)
      (construct location (second.map guarded) role)) :
    Simulates settings before after (construct location first role)
      (construct location second role) := by
  rw [construct_guarded location first role noMethod,
    construct_guarded location second role alsoNoMethod]
  exact simulates

theorem agrees_identifier (source : String)
    (type : Option {node // AgreesEverywhere settings node}) (optional : Bool) (role : Role) :
    Agrees settings address
      (construct location (.identifier source (type.map printed) optional) role)
      (constructLexically location (.identifier source (type.map placed) optional) address
        role) := by
  have closed := agrees_isCongruence settings address
  apply closed.andThen (agrees_name role source)
  apply closed.andThen (closed.writeIf optional "?")
  cases type with
  | none => exact closed.declaredType none
  | some type => exact closed.declaredType (some (twinAt address type))

section Functions

variable (marks : FunctionMarks)
variable (functionName : Option {node // AgreesEverywhere settings node})
variable (params : List {node // AgreesEverywhere settings node})
variable (body returnType : Option {node // AgreesEverywhere settings node})

theorem simulates_functionWithin (number : Nat) (form : FunctionForm) {role : Role}
    (entered : form = .arrow ∨ role.isMethod = false ∧ (form = .expression ∨ form = .declaration)) :
    Simulates settings
      (Matching fun stack log => Ready number address
        (declaredIn settings form (functionName.bind (·.1.identifier?)) stack) log)
      (Matching (Sees address))
      (construct location
        (.function form marks (functionName.map printed) (params.map printed)
          (body.map printed) (returnType.map printed)) role)
      (functionWithin location form marks (functionName.map placed) (params.map placed)
        (body.map placed) (returnType.map placed) (.function number :: address)
        (.function number :: address) role) := by
  let twin (part : {node // AgreesEverywhere settings node}) :=
    twinAt (.function number :: address) part
  have function := simulates_function form role location.start marks (functionName.map twin)
    (params.map twin) (body.map twin) (returnType.map twin)
  have arrow := simulates_arrow location.start (params.map twin) (body.map twin)
    (returnType.map twin)
  apply simulates_guarded location rfl rfl
  simp only [Shape.map, List.map_map, Option.map_map, Option.bind_map] at function arrow ⊢
  rcases entered with rfl | ⟨notMethod, rfl | rfl⟩
  · exact arrow
  all_goals
    cases role with
    | method => cases notMethod
    | _ => exact function

theorem agrees_methodFunctionWithin (inFunction : address.functions ≠ []) {form : FunctionForm}
    (isFunction : form = .expression ∨ form = .declaration ∨ form = .emptyBody)
    (owner : Position) (isConstructor isAbstract : Bool) :
    Agrees settings address
      (construct location
        (.function form marks (functionName.map printed) (params.map printed)
          (body.map printed) (returnType.map printed)) (.method owner isConstructor isAbstract))
      (functionWithin location form marks (functionName.map placed) (params.map placed)
        (body.map placed) (returnType.map placed) address (.memberBody :: address)
        (.method owner isConstructor isAbstract)) := by
  have agrees := agrees_methodFunction inFunction owner isConstructor isAbstract
    (params.map (twinAt address)) (body.map (twinAt (.memberBody :: address)))
    (returnType.map (twinAt address))
  apply simulates_guarded location rfl rfl
  simp only [Shape.map, List.map_map, Option.map_map] at agrees ⊢
  rcases isFunction with rfl | rfl | rfl
  all_goals exact agrees

theorem agrees_function (form : FunctionForm) {role : Role}
    (inFunction : role.isMethod = true → address.functions ≠ []) :
    Agrees settings address
      (construct location
        (.function form marks (functionName.map printed) (params.map printed)
          (body.map printed) (returnType.map printed)) role)
      (functionLexically location form marks (functionName.map placed) (params.map placed)
        (body.map placed) (returnType.map placed) address role) := by
  have closed := agrees_isCongruence settings address
  have sameName : (functionName.map placed).bind (·.node.identifier?) =
      functionName.bind (·.1.identifier?) := by
    cases functionName <;> rfl
  -- What has no code is still entered.
  have unsupported (what : String) :
      Agrees settings address (unsupported location.start what)
        (options >>= fun _ => enter >>= fun _ => unsupported location.start what) := by
    apply Simulates.afterAsking fun _ => rfl
    exact Simulates.afterEnter (fun _ => Sees address) (fun _ _ sees => sees.append_entered)
      fun _ => closed.unsupported _ _
  have entering {form : FunctionForm}
      (entered : form = .arrow ∨
        role.isMethod = false ∧ (form = .expression ∨ form = .declaration)) :=
    agrees_afterDeclaring address form (functionName.bind (·.1.identifier?)) fun number =>
      simulates_functionWithin location marks functionName params body returnType number form
        entered
  rw [← sameName] at entering
  cases form with
  | declared => exact unsupported _
  | arrow => exact entering (.inl rfl)
  | emptyBody =>
      cases role with
      | method =>
          exact agrees_methodFunctionWithin location marks functionName params body returnType
            (inFunction rfl) (.inr (.inr rfl)) _ _ _
      | _ => exact unsupported _
  | expression =>
      cases role with
      | method =>
          exact agrees_methodFunctionWithin location marks functionName params body returnType
            (inFunction rfl) (.inl rfl) _ _ _
      | _ => exact entering (.inr ⟨rfl, .inl rfl⟩)
  | declaration =>
      cases role with
      | method =>
          exact agrees_methodFunctionWithin location marks functionName params body returnType
            (inFunction rfl) (.inr (.inl rfl)) _ _ _
      | _ => exact entering (.inr ⟨rfl, .inr rfl⟩)

end Functions

theorem agrees_class (form : ClassForm) (marks : ClassMarks)
    (className superClass : Option {node // AgreesEverywhere settings node})
    (implementing decorators : List {node // AgreesEverywhere settings node})
    (body : {node // AgreesEverywhere settings node}) (role : Role) :
    Agrees settings address
      (construct location
        (.classDefinition form marks (className.map printed) (superClass.map printed)
          (implementing.map printed) (printed body) (decorators.map printed)) role)
      (constructLexically location
        (.classDefinition form marks (className.map placed) (superClass.map placed)
          (implementing.map placed) (placed body) (decorators.map placed)) address role) := by
  apply Simulates.afterAsking fun _ => rfl
  apply simulates_guarded location rfl rfl
  simp only [Shape.map, List.map_map, Option.map_map, Option.bind_map]
  let owner (number : Nat) : Owner :=
    ⟨number, ((className.bind (·.1.identifier?)).map settings.options.renameIdentifier).getD "",
      superClass.bind (·.1.lastName?)⟩
  have agrees := agrees_classDefinition role location.start marks
    (className.map (twinAt address)) (superClass.map (twinAt address))
    (implementing.map (twinAt address)) (decorators.map (twinAt address))
    (guarded (printed body))
    (guarded (entering (placed body) fun number => .owner (owner number) :: address))
  simp only [List.map_map, Option.map_map, Option.bind_map] at agrees
  apply agrees
  intro source found
  have isName : ((className.bind (·.1.identifier?)).map
      settings.options.renameIdentifier).getD "" = settings.options.renameIdentifier source := by
    change className.bind (·.1.identifier?) = some source at found
    rw [found]
    rfl
  dsimp only [Folded.print, printAs_part]
  refine Simulates.afterEnter (fun number => Sees (.owner (owner number) :: address)) ?_ ?_
  · rintro stack log ⟨before, sees, rfl⟩
    have entered := sees.enterClass (settings.options.renameIdentifier source)
      (superClass.bind (·.1.lastName?))
    rw [← isName] at entered ⊢
    exact entered
  · intro number
    exact (body.2 (.owner (owner number) :: address) .plain (by simp [Role.isMethod])).conclude
      fun _ _ sees => sees.exitClass

theorem agrees_property (marks : PropertyMarks) (key : {node // AgreesEverywhere settings node})
    (value type : Option {node // AgreesEverywhere settings node})
    (decorators : List {node // AgreesEverywhere settings node}) (role : Role) :
    Agrees settings address
      (construct location
        (.classProperty marks (printed key) (value.map printed) (type.map printed)
          (decorators.map printed)) role)
      (construct location
        (.classProperty marks (propertyKey marks.static (placed key) address)
          ((value.map placed).map (·.within address)) ((type.map placed).map (·.within address))
          ((decorators.map placed).map (·.within address))) role) := by
  have agrees := agrees_classProperty location.start marks (value.map (twinAt address))
    (type.map (twinAt address)) (decorators.map (twinAt address)) (guarded (printed key))
    (guarded (propertyKey marks.static (placed key) address)) rfl
  apply simulates_guarded location rfl rfl
  simp only [Shape.map, List.map_map, Option.map_map] at agrees ⊢
  apply agrees
  have keyPrinted := key.2 address .key (by simp [Role.isMethod])
  change Simulates settings (Matching (Sees address))
    (Matching fun stack log => Sees address (propertyIn settings marks.static key.1 stack) log)
    (key.1.printAs .key)
    (do key.1.printLexically address .key
        whenPresent (key.1.identifier?.map settings.options.renameIdentifier)
          (noteMember address marks.static))
  unfold propertyIn
  cases key.1.identifier? with
  | none => exact Simulates.beforeNotes id keyPrinted (fun _ => rfl) (fun _ => rfl) fun _ _ => id
  | some source =>
      exact Simulates.beforeNotes _ keyPrinted (outcome_noteMember _ _) (filter_logMember _ _)
        fun _ _ sees => sees.declareProperty _ _

theorem agrees_methodDefinition (form : MethodForm) (marks : MethodMarks)
    (key value : {node // AgreesEverywhere settings node}) (role : Role) :
    Agrees settings address
      (construct location (.method form marks (printed key) (printed value)) role)
      (construct location
        (.method form marks ((placed key).within address)
          (methodValue marks.kind marks.static ((placed key).within address) (placed value)
            address)) role) := by
  refine agrees_method form location.start marks (printed key) ((placed key).within address)
    (printed value) (methodValue marks.kind marks.static ((placed key).within address)
      (placed value) address) rfl rfl ?_
  intro name found
  have asks (state : PrinterState) :
      (methodName? marks.kind ((placed key).within address)).outcome settings state =
        .ok (some name, state) := by
    rw [outcome_methodName?, ← found]
    rfl
  dsimp only [printAs_part]
  apply Simulates.afterAsking asks
  apply Simulates.afterNotes (fun stack log => ∃ before earlier, Sees address before earlier ∧
      stack = before.enterFunction name true marks.static ∧
      log = logMember address marks.static name earlier)
    (outcome_noteMember marks.static name) (filter_logMember marks.static name)
  · rintro _ log ⟨before, sees, rfl⟩
    exact ⟨before, log, sees, rfl, rfl⟩
  dsimp only [printAs_part]
  refine Simulates.afterEnter (fun number => Sees (.function number :: address)) ?_ ?_
  · rintro _ _ ⟨before, log, sees, rfl, rfl⟩
    exact sees.enterMethod name marks.static
  · intro number
    refine (value.2 (.function number :: address) _ ?_).conclude fun _ _ sees => sees.exitFunction
    simp [Address.functions]

theorem agrees_signature (marks : SignatureMarks)
    (key : {node // AgreesEverywhere settings node})
    (params : List {node // AgreesEverywhere settings node})
    (returnType : Option {node // AgreesEverywhere settings node}) (role : Role) :
    Agrees settings address
      (construct location
        (.methodSignature marks (printed key) (params.map printed) (returnType.map printed)) role)
      (constructLexically location
        (.methodSignature marks (placed key) (params.map placed) (returnType.map placed)) address
        role) := by
  have inside : Agrees settings address
      (withinFunction "" false false (parameters (params.map printed)))
      (parametersLexically (params.map placed) address) := by
    apply agrees_entered
    intro number
    let inner : Address := .function number :: address
    have related := (agrees_isCongruence settings inner).parameters (params.map (twinAt inner))
    -- A parameter is no method, so the guards do not matter.
    have sameFirst : parameters (params.map printed) =
        parameters (params.map (Twin.first ∘ twinAt inner)) :=
      parameters_exchange params fun _ _ => rfl
    have sameSecond : parameters (params.map ((·.within inner) ∘ placed)) =
        parameters (params.map (Twin.second ∘ twinAt inner)) :=
      parameters_exchange params fun _ _ => rfl
    rw [List.map_map, List.map_map, ← sameFirst, ← sameSecond] at related
    rw [List.map_map]
    exact related
  have agrees := agrees_methodSignature marks (twinAt address key)
    (returnType.map (twinAt address)) inside
  obtain ⟨accessibility, isStatic, computed, optional⟩ := marks
  cases computed <;> cases returnType <;> exact agrees

theorem agrees_catch (param : Option {node // AgreesEverywhere settings node})
    (body : {node // AgreesEverywhere settings node}) (role : Role) :
    Agrees settings address
      (construct location (.catchClause (param.map printed) (printed body)) role)
      (constructLexically location (.catchClause (param.map placed) (placed body)) address
        role) := by
  have simulates := simulates_catchClause (param.map (twinAt address)) (twinAt address body)
  simp only [Option.map_map, Option.bind_map] at simulates
  have behind : Simulates settings
      (Matching fun stack log =>
        Sees address (caughtIn settings (param.bind (·.1.identifier?)) stack) log)
      (Matching (Sees address))
      (construct location (.catchClause (param.map printed) (printed body)) role)
      (construct location
        (.catchClause ((param.map placed).map (·.within address)) ((placed body).within address))
        role) := by
    apply simulates_guarded location rfl rfl
    simp only [Shape.map, Option.map_map]
    exact simulates
  have sameName : (param.map placed).bind (·.node.identifier?) =
      param.bind (·.1.identifier?) := by
    cases param <;> rfl
  apply Simulates.afterAsking fun _ => rfl
  rw [sameName]
  cases found : param.bind (·.1.identifier?) with
  | none =>
      rw [found] at behind
      exact behind
  | some source =>
      rw [found] at behind
      exact Simulates.afterNotes _ (outcome_noteBound _) (filter_logBound _)
        (fun _ _ sees => sees.declareLocal _) behind

/-- Every construct is printed alike if its parts are. -/
theorem agrees_construct (shape : Shape {node // AgreesEverywhere settings node}) (role : Role)
    (inFunction : role.isMethod = true → address.functions ≠ []) :
    Agrees settings address (construct location (shape.map printed) role)
      (constructLexically location (shape.map placed) address role) := by
  cases shape with
  | identifier source type optional => exact agrees_identifier location source type optional role
  | function form marks functionName params body returnType =>
      exact agrees_function location marks functionName params body returnType form inFunction
  | classDefinition form marks className superClass implementing body decorators =>
      exact agrees_class location form marks className superClass implementing decorators body role
  | classProperty marks key value type decorators =>
      exact agrees_property location marks key value type decorators role
  | method form marks key value => exact agrees_methodDefinition location form marks key value role
  | methodSignature marks key params returnType =>
      exact agrees_signature location marks key params returnType role
  | catchClause param body => exact agrees_catch location param body role
  | _ => exact agrees_scopeless location _ role rfl

end Trees

/-- Every tree is printed alike, wherever it stands. -/
theorem agreesEverywhere (settings : Settings) (node : Node) : AgreesEverywhere settings node := by
  apply Node.induction
  intro location shape address role inFunction
  have agrees := agrees_construct location shape role inFunction
  rw [Node.printAs_eq]
  unfold Node.printLexically
  rw [Node.fold_eq, Shape.map_map, Shape.map_map]
  exact agrees

end Printer

/-- The generation of code by address in terms of the outcome of its printer. -/
theorem Settings.generateLexically_eq (settings : Settings) (tree : Node) :
    settings.generateLexically tree =
      match (tree.printLexically [] .plain).outcome settings {} with
      | .ok (_, state) =>
          .ok ⟨state.types.prepend settings.file state.text.toString,
            state.diagnostics.filter (!·.isNote)⟩
      | .error diagnostic => .error diagnostic := by
  unfold generateLexically Printer.outcome PrinterState.start
  split <;> rename_i found <;> rw [found]

/-- The receiver of every bare name is decided by its place in the tree: scopes
that are kept while printing give the same code, diagnostics and failures as the
regions around each name and what was declared in them earlier. -/
theorem Settings.generate_lexically (settings : Settings) (tree : Node) :
    settings.generate tree = settings.generateLexically tree := by
  have start : Printer.Matching (Sees []) {} {} := ⟨rfl, rfl, rfl, Sees.start⟩
  rw [generate_eq, generateLexically_eq]
  rcases Printer.agreesEverywhere settings tree [] .plain (by simp [Role.isMethod]) {} {} start with
    ⟨diagnostic, stops, alsoStops⟩ | ⟨value, state, other, ends, alsoEnds, related⟩
  · rw [stops, alsoStops]
  · rw [ends, alsoEnds]
    dsimp only
    rw [related.text, related.types, related.problems]

end ScriptBridge

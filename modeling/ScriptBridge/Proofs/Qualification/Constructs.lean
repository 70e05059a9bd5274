import ScriptBridge.Proofs.Printing.Construct
import ScriptBridge.Proofs.Qualification.Simulation

/-!
# Scoped constructs at an address

A printer that keeps scopes agrees with one that is told its address if the stack
of the first shows what the second has noted, before and behind.  Constructs that
open scopes, declare names or refer to them agree if their parts agree in the
regions that the constructs open for them.
-/

namespace ScriptBridge

namespace Printer

/-- A printer that keeps scopes agrees with one at an address. -/
def Agrees (settings : Settings) (address : Address) {Result : Type}
    (first second : Printer Result) : Prop :=
  Simulates settings (Matching (Sees address)) (Matching (Sees address)) first second

theorem stable_sees (address : Address) : Stable (Sees address) :=
  fun _ _ _ isProblem sees => sees.append_problem isProblem

theorem agrees_isCongruence (settings : Settings) (address : Address) :
    Congruence (Agrees settings address) :=
  Simulates.isCongruence (stable_sees address)

section Agrees

variable {settings : Settings} {address : Address} {number : Nat}

theorem outcome_noteBound (name : String) (state : PrinterState) :
    (noteBound address name).outcome settings state =
      .ok ((), { state with diagnostics := logBound address name state.diagnostics }) := by
  unfold noteBound logBound
  cases address.functions.head? <;> rfl

theorem outcome_noteMember (isStatic : Bool) (name : String) (state : PrinterState) :
    (noteMember address isStatic name).outcome settings state =
      .ok ((),
        { state with diagnostics := logMember address isStatic name state.diagnostics }) := by
  unfold noteMember logMember
  cases address.owner? <;> rfl

theorem filter_logBound (name : String) (log : List Diagnostic) :
    (logBound address name log).filter (!·.isNote) = log.filter (!·.isNote) := by
  unfold logBound
  cases address.functions.head? <;> simp [Note.isNote_toDiagnostic]

theorem filter_logMember (isStatic : Bool) (name : String) (log : List Diagnostic) :
    (logMember address isStatic name log).filter (!·.isNote) = log.filter (!·.isNote) := by
  unfold logMember
  cases address.owner? <;> simp [Note.isNote_toDiagnostic]

theorem outcome_bindLexically {role : Role} (binds : role = .parameter ∨ role = .declaredName)
    (source : String) (state : PrinterState) :
    (nameLexically address role source).outcome settings state =
      .ok ((), { state with
        text := state.text.write (settings.options.renameIdentifier source)
        diagnostics := logBound address (settings.options.renameIdentifier source)
          state.diagnostics }) := by
  rcases binds with rfl | rfl
  all_goals
    change (noteBound address (settings.options.renameIdentifier source) >>= fun _ =>
      write (settings.options.renameIdentifier source)).outcome settings state = _
    rw [outcome_bind, outcome_noteBound]
    rfl

/-- Names are written alike: a bare name gets the same receiver. -/
theorem agrees_name (role : Role) (source : String) :
    Agrees settings address (name role source) (nameLexically address role source) := by
  intro state other related
  have reference (renamed : String) : Matching (Sees address)
      { state with text := (state.text.write
        ((state.scopes.qualifier settings.index renamed).getD "")).write renamed }
      { other with
        text := (other.text.write
          ((address.receiver? other.diagnostics settings.index renamed).getD "")).write
            renamed } := by
    have receiver := related.holds.qualifier settings.index renamed
    exact ⟨by rw [receiver, related.text], related.types, related.problems, related.holds⟩
  cases role with
  | typeName =>
      refine .inr ⟨(), _, _, rfl, rfl, ?_, ?_, related.problems, related.holds⟩
      · exact congrArg (IndentedText.write · _) related.text
      · exact congrArg (TypeImports.record · _) related.types
  | memberName =>
      refine .inr ⟨(), _, _, rfl, rfl, ?_, related.types, related.problems, related.holds⟩
      exact congrArg (IndentedText.write · _) related.text
  | key =>
      refine .inr ⟨(), _, _, rfl, rfl, ?_, related.types, related.problems, related.holds⟩
      exact congrArg (IndentedText.write · _) related.text
  | parameter =>
      refine .inr ⟨(), _, _, rfl, outcome_bindLexically (.inl rfl) source other, ?_,
        related.types, related.problems.trans (filter_logBound _ _).symm,
        related.holds.declareParam _⟩
      exact congrArg (IndentedText.write · _) related.text
  | declaredName =>
      refine .inr ⟨(), _, _, rfl, outcome_bindLexically (.inr rfl) source other, ?_,
        related.types, related.problems.trans (filter_logBound _ _).symm,
        related.holds.declareLocal _⟩
      exact congrArg (IndentedText.write · _) related.text
  | _ => exact .inr ⟨(), _, _, rfl, rfl, reference _⟩

/-- Inside a function that has been entered, printers may bind names.  It is left
with its own names forgotten. -/
theorem simulates_withinFunction {first second : Printer Unit}
    (inside : Agrees settings (.function number :: address) first second)
    (name : String) (isMethod isStatic : Bool) :
    Simulates settings
      (Matching fun stack log =>
        Sees (.function number :: address) (stack.enterFunction name isMethod isStatic) log)
      (Matching (Sees address)) (withinFunction name isMethod isStatic first)
      (withinFunction name isMethod isStatic second) := by
  apply Simulates.andThen (Simulates.modifyScopes _ _ (Sees (.function number :: address)))
  apply Simulates.andThen inside
  exact Simulates.weaken (fun _ _ sees => sees.exitFunction)
    (Simulates.modifyScopes _ _ (Sees address))

theorem agrees_withinMemberBody {first second : Printer Unit}
    (inside : Agrees settings (.memberBody :: address) first second)
    (inFunction : address.functions ≠ []) :
    Agrees settings address (withinMemberBody first) (withinMemberBody second) := by
  intro state other related
  have before : state.scopes.top.inMemberBody = address.inMemberBody :=
    related.holds.fits.inMemberBody
  have body : Agrees settings address
      (do modifyScopes fun scopes => scopes.markMemberBody true
          first
          modifyScopes fun scopes => scopes.markMemberBody address.inMemberBody)
      (do modifyScopes fun scopes => scopes.markMemberBody true
          second
          modifyScopes fun scopes => scopes.markMemberBody other.scopes.top.inMemberBody) := by
    apply Simulates.weaken (fun _ _ sees => sees.enterMemberBody inFunction)
    apply Simulates.andThen (Simulates.modifyScopes _ _ (Sees (.memberBody :: address)))
    apply Simulates.andThen inside
    exact Simulates.weaken (fun _ _ sees => sees.exitMemberBody)
      (Simulates.modifyScopes _ _ (Sees address))
  have runs := body state other related
  rw [← before] at runs
  exact runs

/-- A function with the given number can be entered. -/
def Ready (number : Nat) (address : Address) (stack : ScopeStack) (log : List Diagnostic) :
    Prop :=
  ∀ name, Sees (.function number :: address) (stack.enterFunction name false false) log

theorem stable_ready (change : ScopeStack → ScopeStack) :
    Stable fun stack log => Ready number address (change stack) log :=
  fun _ _ _ isProblem ready name => (ready name).append_problem isProblem

theorem simulates_arrow (place : Position)
    (params : List (Twin (Agrees settings (.function number :: address))))
    (body returnType : Option (Twin (Agrees settings (.function number :: address)))) :
    Simulates settings (Matching (Ready number address)) (Matching (Sees address))
      (arrow place (params.map Twin.first) (body.map Twin.first) (returnType.map Twin.first))
      (arrow place (params.map Twin.second) (body.map Twin.second)
        (returnType.map Twin.second)) := by
  have closed := agrees_isCongruence settings (.function number :: address)
  apply Simulates.weaken (fun _ _ ready => ready "")
  apply simulates_withinFunction
  apply closed.andThen (closed.parameters params)
  apply closed.andThen (closed.declaredType returnType)
  apply closed.andThen (closed.write " => ")
  cases body with
  | some body => exact closed.arrowBody closed.samePart body
  | none => exact closed.unsupported place _

/-- The scopes behind the declaration of a function. -/
def declaredIn (settings : Settings) (form : FunctionForm) (source : Option String)
    (stack : ScopeStack) : ScopeStack :=
  match form, source with
  | .declaration, some source =>
      stack.declareLocal (settings.options.renameIdentifier source)
  | _, _ => stack

theorem simulates_function (form : FunctionForm) (role : Role) (place : Position)
    (marks : FunctionMarks)
    (functionName : Option (Twin (Agrees settings (.function number :: address))))
    (params : List (Twin (Agrees settings (.function number :: address))))
    (body returnType : Option (Twin (Agrees settings (.function number :: address)))) :
    Simulates settings
      (Matching fun stack log => Ready number address
        (declaredIn settings form (functionName.bind (·.node.identifier?)) stack) log)
      (Matching (Sees address))
      (function form role place marks (functionName.map Twin.first) (params.map Twin.first)
        (body.map Twin.first) (returnType.map Twin.first))
      (function form role place marks (functionName.map Twin.second) (params.map Twin.second)
        (body.map Twin.second) (returnType.map Twin.second)) := by
  have pending : Congruence fun {Result} (first second : Printer Result) =>
      Simulates settings
        (Matching fun stack log => Ready number address
          (declaredIn settings form (functionName.bind (·.node.identifier?)) stack) log)
        (Matching fun stack log => Ready number address
          (declaredIn settings form (functionName.bind (·.node.identifier?)) stack) log)
        first second :=
    Simulates.isCongruence (stable_ready _)
  have ready : Congruence fun {Result} (first second : Printer Result) =>
      Simulates settings (Matching (Ready number address)) (Matching (Ready number address))
        first second :=
    Simulates.isCongruence (stable_ready id)
  have closed := agrees_isCongruence settings (.function number :: address)
  have firstName : (functionName.map Twin.first).bind (·.node.identifier?) =
      functionName.bind (·.node.identifier?) := by
    cases functionName <;> rfl
  have secondName : (functionName.map Twin.second).bind (·.node.identifier?) =
      functionName.bind (·.node.identifier?) := by
    cases functionName <;> rfl
  -- From the word `function` on, declarations and expressions are alike.
  have behind (written : Option String) {firstBody secondBody : Printer Unit}
      (bodies : Agrees settings (.function number :: address) firstBody secondBody) :
      Simulates settings (Matching (Ready number address)) (Matching (Sees address))
        (do write "function"
            whenPresent written fun name => (do write " "; write name)
            withinFunction (written.getD "") false false do
              parameters (params.map Twin.first)
              declaredType (returnType.map Twin.first)
              firstBody)
        (do write "function"
            whenPresent written fun name => (do write " "; write name)
            withinFunction (written.getD "") false false do
              parameters (params.map Twin.second)
              declaredType (returnType.map Twin.second)
              secondBody) := by
    apply Simulates.andThen (ready.write "function")
    apply Simulates.andThen
      (ready.whenPresent_same (fun _ => ready.andThen (ready.write " ") (ready.write _)) written)
    apply Simulates.weaken (fun _ _ ready => ready (written.getD ""))
    apply simulates_withinFunction
    apply closed.andThen (closed.parameters params)
    exact closed.andThen (closed.declaredType returnType) bodies
  apply Simulates.andThen (pending.unsupportedIf _ place _)
  apply Simulates.andThen (pending.unsupportedIf _ place _)
  apply Simulates.andThen (pending.unsupportedIf _ place _)
  apply Simulates.bothOptions
  rw [firstName, secondName]
  generalize functionName.bind (·.node.identifier?) = source at pending ⊢
  cases body
  case' some body => have bodies := closed.andThen (closed.write " ") (closed.braced none body)
  case' none => have bodies := closed.missing place "Function body"
  all_goals
    cases form with
    | declaration =>
        apply Simulates.andThen (pending.writeIf _ "export ")
        cases source with
        | none => exact behind none bodies
        | some source =>
            let declare (scopes : ScopeStack) : ScopeStack :=
              scopes.declareLocal (settings.options.renameIdentifier source)
            exact Simulates.andThen (Simulates.modifyScopes declare declare (Ready number address))
              (behind (some _) bodies)
    | _ => exact behind _ bodies

/-- The second printer notes the name of a declared function and enters it. -/
theorem agrees_afterDeclaring (address : Address) (form : FunctionForm) (source : Option String)
    {first : Printer Unit} {rest : Nat → Printer Unit}
    (entered : ∀ number, Simulates settings
      (Matching fun stack log => Ready number address (declaredIn settings form source stack) log)
      (Matching (Sees address)) first (rest number)) :
    Agrees settings address first (do
      let options ← options
      if form = .declaration then
        whenPresent source fun source => noteBound address (options.renameIdentifier source)
      let number ← enter
      rest number) := by
  apply Simulates.afterAsking fun _ => rfl
  have ready (change : ScopeStack → ScopeStack)
      (runs : ∀ number, Simulates settings
        (Matching fun stack log => Ready number address (change stack) log)
        (Matching (Sees address)) first (rest number)) :
      Simulates settings (Matching fun stack log => Sees address (change stack) log)
        (Matching (Sees address)) first (enter >>= rest) :=
    Simulates.afterEnter (fun number stack log => Ready number address (change stack) log)
      (fun _ _ sees name => sees.enterFunction name) runs
  cases form with
  | declaration =>
      cases source with
      | none => exact ready id entered
      | some source =>
          refine Simulates.afterNotes _ (outcome_noteBound _) (filter_logBound _) ?_
            (ready (fun stack => stack.declareLocal _) entered)
          exact fun _ _ sees => sees.declareLocal _
  | _ => exact ready id entered

theorem agrees_methodFunction (inFunction : address.functions ≠ []) (owner : Position)
    (isConstructor isAbstract : Bool) (params : List (Twin (Agrees settings address)))
    (body : Option (Twin (Agrees settings (.memberBody :: address))))
    (returnType : Option (Twin (Agrees settings address))) :
    Agrees settings address
      (methodFunction owner isConstructor isAbstract (params.map Twin.first)
        (body.map Twin.first) (returnType.map Twin.first))
      (methodFunction owner isConstructor isAbstract (params.map Twin.second)
        (body.map Twin.second) (returnType.map Twin.second)) := by
  have closed := agrees_isCongruence settings address
  have inner := agrees_isCongruence settings (.memberBody :: address)
  apply closed.andThen (closed.parameters params)
  dsimp only
  split
  case' isTrue => apply closed.andThen (closed.declaredType returnType)
  all_goals
    cases body with
    | some body =>
        apply closed.andThen (closed.write " ")
        exact agrees_withinMemberBody (inner.braced _ body) inFunction
    | none =>
        dsimp only [Option.map_none]
        split
        · exact closed.write ";"
        · exact closed.missing owner _

/-- A function that both printers enter at the same moment. -/
theorem agrees_entered {first : Printer Unit} {second : Nat → Printer Unit}
    (inside : ∀ number, Agrees settings (.function number :: address) first (second number))
    (name : String) :
    Agrees settings address (withinFunction name false false first) (enter >>= second) := by
  refine Simulates.afterEnter (fun number stack log =>
    Sees (.function number :: address) (stack.enterFunction name false false) log)
    (fun stack log sees => sees.enterFunction name) fun number => ?_
  apply Simulates.afterScopes _ (Sees (.function number :: address))
  apply Simulates.beforeScopes (inside number)
  exact fun _ _ sees => sees.exitFunction

theorem agrees_methodSignature (marks : SignatureMarks) (key : Twin (Agrees settings address))
    (returnType : Option (Twin (Agrees settings address))) {params : List Part}
    {otherParams : Printer Unit}
    (inside : Agrees settings address (withinFunction "" false false (parameters params))
      otherParams) :
    Agrees settings address
      (methodSignature marks key.first params (returnType.map Twin.first))
      (do accessibility marks.accessibility
          writeIf marks.static "static "
          entryKey key.second marks.computed
          writeIf marks.optional "?"
          otherParams
          declaredType (returnType.map Twin.second)
          write ";") := by
  have closed := agrees_isCongruence settings address
  apply closed.andThen (closed.accessibility _)
  apply closed.andThen (closed.writeIf _ "static ")
  apply closed.andThen (closed.entryKey key _)
  apply closed.andThen (closed.writeIf _ "?")
  apply closed.andThen inside
  apply closed.andThen (closed.declaredType returnType)
  exact closed.write ";"

/-- The scopes behind the binding of a caught name. -/
def caughtIn (settings : Settings) (source : Option String) (stack : ScopeStack) : ScopeStack :=
  match source with
  | some source => stack.declareLocal (settings.options.renameIdentifier source)
  | none => stack

theorem simulates_catchClause (param : Option (Twin (Agrees settings address)))
    (body : Twin (Agrees settings address)) :
    Simulates settings
      (Matching fun stack log =>
        Sees address (caughtIn settings (param.bind (·.node.identifier?)) stack) log)
      (Matching (Sees address))
      (catchClause (param.map Twin.first) body.first)
      (catchClause (param.map Twin.second) body.second) := by
  have closed := agrees_isCongruence settings address
  have behind := closed.andThen (closed.write " ") (closed.braced none body)
  have pending : Congruence fun {Result} (first second : Printer Result) =>
      Simulates settings
        (Matching fun stack log =>
          Sees address (caughtIn settings (param.bind (·.node.identifier?)) stack) log)
        (Matching fun stack log =>
          Sees address (caughtIn settings (param.bind (·.node.identifier?)) stack) log)
        first second :=
    Simulates.isCongruence fun _ _ _ isProblem sees => sees.append_problem isProblem
  apply Simulates.andThen (pending.write "catch")
  refine Simulates.andThen ?_ behind
  cases param with
  | none => exact closed.pure ()
  | some param =>
      apply Simulates.andThen (pending.write " (")
      refine Simulates.andThen ?_ (closed.write ")")
      change Simulates settings
        (Matching fun stack log =>
          Sees address (caughtIn settings param.node.identifier? stack) log)
        (Matching (Sees address))
        (match param.node.identifier? with | some _ => _ | none => _)
        (match param.node.identifier? with | some _ => _ | none => _)
      cases param.node.identifier? with
      | none => exact param.related .declaredName
      | some source =>
          intro state other related
          refine .inr ⟨(), _, _, rfl, rfl, ?_, related.types, related.problems, related.holds⟩
          exact congrArg (IndentedText.write · _) related.text

theorem agrees_classDefinition (role : Role) (place : Position) (marks : ClassMarks)
    (className superClass : Option (Twin (Agrees settings address)))
    (implementing decorators : List (Twin (Agrees settings address)))
    (firstBody secondBody : Part)
    (entered : ∀ source, className.bind (·.node.identifier?) = some source →
      Simulates settings
        (Matching fun stack log => ∃ before, Sees address before log ∧
          stack = before.enterClass (settings.options.renameIdentifier source)
            (superClass.bind (·.node.lastName?)))
        (Matching fun stack log => Sees address stack.exitClass.1 log)
        firstBody.print secondBody.print) :
    Agrees settings address
      (classDefinition role place marks (className.map Twin.first) (superClass.map Twin.first)
        (implementing.map Twin.first) firstBody (decorators.map Twin.first))
      (classDefinition role place marks (className.map Twin.second)
        (superClass.map Twin.second) (implementing.map Twin.second) secondBody
        (decorators.map Twin.second)) := by
  have closed := agrees_isCongruence settings address
  have firstName : (className.map Twin.first).bind (·.node.identifier?) =
      className.bind (·.node.identifier?) := by
    cases className <;> rfl
  have secondName : (className.map Twin.second).bind (·.node.identifier?) =
      className.bind (·.node.identifier?) := by
    cases className <;> rfl
  have firstSuper : (superClass.map Twin.first).bind (·.node.lastName?) =
      superClass.bind (·.node.lastName?) := by
    cases superClass <;> rfl
  have secondSuper : (superClass.map Twin.second).bind (·.node.lastName?) =
      superClass.bind (·.node.lastName?) := by
    cases superClass <;> rfl
  unfold classDefinition
  rw [firstName, secondName, firstSuper, secondSuper]
  simp only [List.isEmpty_map]
  cases found : className.bind (·.node.identifier?) with
  | none => exact closed.missing place _
  | some source =>
      apply closed.andThen (closed.unsupportedIf _ place _)
      apply closed.andThen (closed.unsupportedIf _ place _)
      apply Simulates.bothOptions
      apply closed.andThen (closed.modifyTypes _)
      apply closed.andThen (closed.writeIf _ "export ")
      apply closed.andThen (closed.writeIf _ "abstract ")
      apply closed.andThen (closed.write "class ")
      apply closed.andThen (closed.write _)
      apply closed.andThen
      · apply closed.whenPresent
        intro superClass
        exact closed.andThen (closed.write " extends ") (superClass.related .typeName)
      have inside : Agrees settings address
          (do write " "
              modifyScopes fun scopes => scopes.enterClass
                (settings.options.renameIdentifier source) (superClass.bind (·.node.lastName?))
              firstBody.print
              modifyScopes fun scopes => scopes.exitClass.1)
          (do write " "
              modifyScopes fun scopes => scopes.enterClass
                (settings.options.renameIdentifier source) (superClass.bind (·.node.lastName?))
              secondBody.print
              modifyScopes fun scopes => scopes.exitClass.1) := by
        apply closed.andThen (closed.write " ")
        refine Simulates.andThen ?_
          (Simulates.andThen (entered source found) (Simulates.modifyScopes _ _ (Sees address)))
        exact Simulates.weaken (fun stack _ sees => ⟨stack, sees, rfl⟩)
          (Simulates.modifyScopes _ _ _)
      split
      · exact closed.andThen (closed.write " implements ")
          (closed.andThen (closed.separated (fun part => part.related .plain) implementing)
            inside)
      · exact inside

/-- The scopes behind the key of a property. -/
def propertyIn (settings : Settings) (isStatic : Bool) (key : Node) (stack : ScopeStack) :
    ScopeStack :=
  match key.identifier? with
  | some source => stack.declareProperty (settings.options.renameIdentifier source) isStatic
  | none => stack

theorem agrees_classProperty (place : Position) (marks : PropertyMarks)
    (value type : Option (Twin (Agrees settings address)))
    (decorators : List (Twin (Agrees settings address))) (firstKey secondKey : Part)
    (sameNode : firstKey.node = secondKey.node)
    (declared : Simulates settings (Matching (Sees address))
      (Matching fun stack log =>
        Sees address (propertyIn settings marks.static firstKey.node stack) log)
      (firstKey.printAs .key) (secondKey.printAs .key)) :
    Agrees settings address
      (classProperty place marks firstKey (value.map Twin.first) (type.map Twin.first)
        (decorators.map Twin.first))
      (classProperty place marks secondKey (value.map Twin.second) (type.map Twin.second)
        (decorators.map Twin.second)) := by
  have closed := agrees_isCongruence settings address
  have behind : Agrees settings address
      (do declaredType (type.map Twin.first)
          whenPresent (value.map Twin.first) fun part => (do write " = "; part.print)
          write ";")
      (do declaredType (type.map Twin.second)
          whenPresent (value.map Twin.second) fun part => (do write " = "; part.print)
          write ";") := by
    apply closed.andThen (closed.declaredType type)
    refine closed.andThen ?_ (closed.write ";")
    apply closed.whenPresent
    intro value
    exact closed.andThen (closed.write " = ") (value.related .plain)
  unfold classProperty
  simp only [List.isEmpty_map]
  apply closed.andThen (closed.unsupportedIf _ place _)
  apply closed.andThen (closed.unsupportedIf _ place _)
  apply closed.andThen (closed.unsupportedIf _ place _)
  apply closed.andThen (closed.unsupportedIf _ place _)
  apply closed.andThen (closed.unsupportedIf _ place _)
  apply closed.andThen (closed.accessibility _)
  apply closed.andThen (closed.writeIf _ "static ")
  apply closed.andThen (closed.writeIf _ "readonly ")
  apply Simulates.andThen declared
  apply Simulates.asking (outcome_partName? firstKey) (sameNode ▸ outcome_partName? secondKey)
  refine Simulates.andThen ?_ behind
  unfold propertyIn
  cases firstKey.node.identifier? with
  | none => exact closed.pure ()
  | some source =>
      exact Simulates.modifyScopes (fun scopes => scopes.declareProperty _ marks.static)
        (fun scopes => scopes.declareProperty _ marks.static) (Sees address)

theorem agrees_method (form : MethodForm) (place : Position) (marks : MethodMarks)
    (firstKey secondKey firstValue secondValue : Part)
    (sameKey : firstKey.node = secondKey.node) (sameValue : firstValue.node = secondValue.node)
    (entered : ∀ name, methodNameIn settings marks.kind firstKey.node = some name →
      Simulates settings
        (Matching fun stack log => ∃ before, Sees address before log ∧
          stack = before.enterFunction name true marks.static)
        (Matching fun stack log => Sees address stack.exitFunction.1 log)
        (firstValue.printAs (.method place (marks.kind = .constructor) (form = .abstract)))
        (secondValue.printAs (.method place (marks.kind = .constructor) (form = .abstract)))) :
    Agrees settings address (method form place marks firstKey firstValue)
      (method form place marks secondKey secondValue) := by
  have closed := agrees_isCongruence settings address
  have sameMarks : methodMarks? form secondValue = methodMarks? form firstValue := by
    unfold methodMarks?
    rw [sameValue]
  unfold method
  rw [sameMarks, ← sameValue]
  apply closed.andThen (closed.unsupportedIf _ place _)
  cases methodMarks? form firstValue with
  | none => exact closed.unsupported _ _
  | some function =>
      apply closed.andThen (closed.unsupportedIf _ place _)
      apply closed.andThen (closed.unsupportedIf _ place _)
      apply Simulates.asking (outcome_methodName? marks.kind firstKey)
        (sameKey ▸ outcome_methodName? marks.kind secondKey)
      cases found : methodNameIn settings marks.kind firstKey.node with
      | none => exact closed.missing place _
      | some name =>
          apply closed.andThen (closed.accessibility _)
          apply closed.andThen (closed.writeIf _ "abstract ")
          apply closed.andThen (closed.writeIf _ "static ")
          apply closed.andThen (closed.write _)
          apply closed.andThen (closed.write _)
          refine Simulates.andThen ?_
            (Simulates.andThen (entered name found) (Simulates.modifyScopes _ _ (Sees address)))
          exact Simulates.weaken (fun stack _ sees => ⟨stack, sees, rfl⟩)
            (Simulates.modifyScopes _ _ _)

end Agrees

end Printer

end ScriptBridge

import ScriptBridge.Emit.Tree
import ScriptBridge.Proofs.Tree.Induction

/-!
# Outcomes of printers

A printer is run under settings from a state.  Its outcome is a result with the
state behind it, or the diagnostic at which it stopped.  The laws below say what
the primitive printers come to, so that no other argument has to open the monad
in which printers are written.
-/

namespace ScriptBridge

/-- Whether a name in the given role is neither that of a type, nor declared there, nor a
mere label. -/
def Role.isBare : Role → Bool
  | .typeName | .parameter | .declaredName | .memberName | .key => false
  | _ => true

/-- Options under which names stay as they are. -/
def Options.KeepsNames (options : Options) : Prop :=
  ∀ name, options.renameIdentifier name = name

theorem Options.keepsNames_of_identifiers {options : Options}
    (empty : options.identifiers = {}) : options.KeepsNames := by
  intro name
  unfold renameIdentifier
  rw [empty]
  split <;> rfl

namespace Printer

variable {Result Other : Type}

/-- What a printer comes to under the given settings from the given state. -/
def outcome (printer : Printer Result) (settings : Settings) (state : PrinterState) :
    Except Diagnostic (Result × PrinterState) :=
  (printer.run settings).run state

/-- Two printers with the same outcomes are equal. -/
theorem ext_outcome {first second : Printer Result}
    (same : ∀ settings state,
      first.outcome settings state = second.outcome settings state) :
    first = second := by
  funext settings state
  exact same settings state

@[simp]
theorem outcome_pure (value : Result) (settings : Settings) (state : PrinterState) :
    (pure value : Printer Result).outcome settings state = .ok (value, state) :=
  rfl

@[simp]
theorem outcome_bind (printer : Printer Result) (rest : Result → Printer Other)
    (settings : Settings) (state : PrinterState) :
    (printer >>= rest).outcome settings state =
      match printer.outcome settings state with
      | .ok (value, next) => (rest value).outcome settings next
      | .error diagnostic => .error diagnostic := by
  change Except.bind (printer settings state)
    (fun result => rest result.1 settings result.2) = _
  unfold outcome Except.bind
  cases found : printer settings state <;> simp [ReaderT.run, StateT.run, found]

@[simp]
theorem outcome_read (settings : Settings) (state : PrinterState) :
    (read : Printer Settings).outcome settings state = .ok (settings, state) :=
  rfl

@[simp]
theorem outcome_get (settings : Settings) (state : PrinterState) :
    (get : Printer PrinterState).outcome settings state = .ok (state, state) :=
  rfl

@[simp]
theorem outcome_modify (change : PrinterState → PrinterState) (settings : Settings)
    (state : PrinterState) :
    (modify change : Printer PUnit).outcome settings state = .ok (⟨⟩, change state) :=
  rfl

@[simp]
theorem outcome_throw (diagnostic : Diagnostic) (settings : Settings)
    (state : PrinterState) :
    (throw diagnostic : Printer Result).outcome settings state = .error diagnostic :=
  rfl

@[simp]
theorem outcome_takeRole (settings : Settings) (state : PrinterState) :
    takeRole.outcome settings state = .ok (state.role, { state with role := .plain }) :=
  rfl

@[simp]
theorem outcome_withRole (role : Role) (printer : Printer Unit) (settings : Settings)
    (state : PrinterState) :
    (withRole role printer).outcome settings state =
      printer.outcome settings { state with role } :=
  rfl

@[simp]
theorem outcome_options (settings : Settings) (state : PrinterState) :
    options.outcome settings state = .ok (settings.options, state) :=
  rfl

@[simp]
theorem outcome_modifyText (change : IndentedText → IndentedText) (settings : Settings)
    (state : PrinterState) :
    (modifyText change).outcome settings state =
      .ok (⟨⟩, { state with text := change state.text }) :=
  rfl

@[simp]
theorem outcome_modifyScopes (change : ScopeStack → ScopeStack) (settings : Settings)
    (state : PrinterState) :
    (modifyScopes change).outcome settings state =
      .ok (⟨⟩, { state with scopes := change state.scopes }) :=
  rfl

@[simp]
theorem outcome_modifyTypes (change : TypeImports → TypeImports) (settings : Settings)
    (state : PrinterState) :
    (modifyTypes change).outcome settings state =
      .ok (⟨⟩, { state with types := change state.types }) :=
  rfl

@[simp]
theorem outcome_write (added : String) (settings : Settings) (state : PrinterState) :
    (write added).outcome settings state =
      .ok (⟨⟩, { state with text := state.text.write added }) :=
  rfl

@[simp]
theorem outcome_length (settings : Settings) (state : PrinterState) :
    length.outcome settings state = .ok (state.text.size, state) :=
  rfl

/-- Taking back what a printer writes runs it behind a mark and cuts there. -/
theorem outcome_textOf (printer : Printer Unit) (settings : Settings)
    (state : PrinterState) :
    (textOf printer).outcome settings state =
      match printer.outcome settings { state with text := state.text.mark.1 } with
      | .ok (_, next) =>
          .ok ((next.text.splitOff state.text.mark.2).2,
            { next with text := (next.text.splitOff state.text.mark.2).1 })
      | .error diagnostic => .error diagnostic := by
  simp only [textOf, outcome_bind, outcome_get, outcome_modifyText]
  cases printer.outcome settings { state with text := state.text.mark.1 } <;> rfl

/-- A report adds its diagnostic, and an error stops the printer if the options
say so. -/
theorem outcome_report (problem : Problem) (place : Position) (arguments : List String)
    (settings : Settings) (state : PrinterState) :
    (report problem place arguments).outcome settings state =
      let diagnostic := Diagnostic.about problem settings.file place arguments
      if diagnostic.isError && settings.options.stopAtError then .error diagnostic
      else .ok (⟨⟩, { state with diagnostics := state.diagnostics ++ [diagnostic] }) := by
  simp only [report, outcome_bind, outcome_read, outcome_modify]
  split <;> rfl

/-- A name gets a receiver unless it stands in a place that has a use of its own for it. -/
theorem outcome_name {role : Role} (bare : role.isBare) (source : String) (settings : Settings)
    (state : PrinterState) :
    (name role source).outcome settings state =
      (do write ((state.scopes.qualifier settings.index
            (settings.options.renameIdentifier source)).getD "")
          write (settings.options.renameIdentifier source) : Printer Unit).outcome settings
        state := by
  cases role
  case typeName | parameter | declaredName | memberName | key => cases bare
  all_goals rfl

theorem outcome_name_typeName (source : String) (settings : Settings) (state : PrinterState) :
    (name .typeName source).outcome settings state =
      (do modifyTypes fun types => types.record
            (settings.options.renameType (settings.options.renameIdentifier source))
          write (settings.options.renameType (settings.options.renameIdentifier source)) :
        Printer Unit).outcome settings state :=
  rfl

theorem outcome_name_parameter (source : String) (settings : Settings) (state : PrinterState) :
    (name .parameter source).outcome settings state =
      (do modifyScopes fun scopes =>
            scopes.declareParam (settings.options.renameIdentifier source)
          write (settings.options.renameIdentifier source) : Printer Unit).outcome settings
        state :=
  rfl

theorem outcome_name_declaredName (source : String) (settings : Settings)
    (state : PrinterState) :
    (name .declaredName source).outcome settings state =
      (do modifyScopes fun scopes =>
            scopes.declareLocal (settings.options.renameIdentifier source)
          write (settings.options.renameIdentifier source) : Printer Unit).outcome settings
        state :=
  rfl

/-- Labels and keys are only renamed. -/
theorem outcome_name_label {role : Role} (label : role = .memberName ∨ role = .key)
    (source : String) (settings : Settings) (state : PrinterState) :
    (name role source).outcome settings state =
      (write (settings.options.renameIdentifier source)).outcome settings state := by
  rcases label with rfl | rfl <;> rfl

theorem outcome_partName? {settings : Settings} (part : Part) (state : PrinterState) :
    (partName? part).outcome settings state =
      .ok (part.node.identifier?.map settings.options.renameIdentifier, state) :=
  rfl

/-- The name under which a method is a member. -/
def methodNameIn (settings : Settings) (kind : MethodKind) (key : Node) : Option String :=
  if kind = .constructor then some "constructor"
  else key.identifier?.map settings.options.renameIdentifier

theorem outcome_methodName? {settings : Settings} (kind : MethodKind) (key : Part)
    (state : PrinterState) :
    (methodName? kind key).outcome settings state =
      .ok (methodNameIn settings kind key.node, state) := by
  unfold methodName? methodNameIn
  split <;> rfl

end Printer

/-! ## Ranks told by roles

A construct that has asked for the rank of a part tells the part so by its role.  Then nothing
needs to be remembered, and a tree can be printed part by part from any state. -/

namespace Printer

/-- A part without a place is handed its role. -/
theorem printAs_part (part : Part) (role : Role) : part.printAs role = part.result role :=
  rfl

/-- The rank of a part without a place is looked up behind its casts. -/
theorem rankOf_part (part : Part) :
    rankOf part = lookUpRank part.node.underCasts.location.start
      part.node.underCasts.shape.operatorPattern? :=
  rfl

/-- The rank of a construct itself, which is looked up again only if the construct around it has
not done so. -/
def ownRank {Part : Type} (role : Role) (place : Position) (shape : Shape Part) : Printer Rank :=
  if role = .ranked then pure shape.rank
  else lookUpRank place shape.operatorPattern?

/-- Print a construct in a role that tells whether its rank was asked for. -/
def construct (location : Location) (shape : Shape Part) (role : Role) : Printer Unit :=
  match withOperands (ownRank role location.start shape) location.start shape with
  | some printer => printer
  | none => withoutOperands location shape role

end Printer

/-- Print a node in a role that is handed to it. -/
def Node.printAs (node : Node) (role : Role) : Printer Unit :=
  node.fold Printer.construct role

/-- The part that a node makes of itself. -/
def Node.toPart (node : Node) : Part :=
  ⟨node, node.printAs⟩

/-- A node is printed from the printers of its parts. -/
theorem Node.printAs_eq (location : Location) (shape : Shape Node) (role : Role) :
    Node.printAs ⟨location, shape⟩ role =
      Printer.construct location (shape.map fun part => ⟨part, part.printAs⟩) role := by
  unfold Node.printAs
  rw [Node.fold_eq]

end ScriptBridge

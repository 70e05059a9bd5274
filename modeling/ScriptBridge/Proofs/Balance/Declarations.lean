import ScriptBridge.Proofs.Balance.Statements
import ScriptBridge.Emit.Tree

/-!
# Balanced declarations and imports

Functions, classes, interfaces and imports are balanced if their parts are.  The
scope that a function or a class opens is closed behind its parts, and the names
that an import gathers are written between braces of its own.
-/

namespace ScriptBridge

namespace Printer

variable {settings : Settings} {followed : Prop} {origin : PrinterState}
variable {depth before middle after : Depth} {Result Other : Type}

/-- A printer can come to an end with the given result. -/
def Gives (settings : Settings) (printer : Printer Result) (value : Result) : Prop :=
  ∃ state next, printer.outcome settings state = .ok (value, next)

theorem Gives.of_bind {printer : Printer Result} {rest : Result → Printer Other} {last : Other}
    (gives : Gives settings (printer >>= rest) last) :
    ∃ value, Gives settings printer value ∧ Gives settings (rest value) last := by
  obtain ⟨state, next, ends⟩ := gives
  rw [outcome_bind] at ends
  cases first : printer.outcome settings state with
  | error diagnostic =>
      rw [first] at ends
      cases ends
  | ok reached =>
      rw [first] at ends
      exact ⟨reached.1, ⟨state, reached.2, first⟩, reached.2, next, ends⟩

theorem gives_pure {value result : Result}
    (gives : Gives settings (pure value : Printer Result) result) : result = value := by
  obtain ⟨state, next, ends⟩ := gives
  cases ends
  rfl

namespace Leads

/-- What follows a printer is only needed for the results that the printer gives. -/
theorem bindGiven {printer : Printer Result} {rest : Result → Printer Other}
    (start : Leads settings followed origin before middle printer)
    (behind : ∀ value, Gives settings printer value →
      Leads settings followed origin middle after (rest value)) :
    Leads settings followed origin before after (printer >>= rest) := by
  intro state result next later stands ends
  rw [outcome_bind] at ends
  cases first : printer.outcome settings state with
  | error diagnostic =>
      rw [first] at ends
      cases ends
  | ok reached =>
      rw [first] at ends
      obtain ⟨laterMiddle, standsMiddle⟩ := start state reached.1 reached.2 later stands first
      exact behind reached.1 ⟨state, reached.2, first⟩ reached.2 result next laterMiddle
        standsMiddle ends

/-! ## Names of declarations -/

theorem partName? {part : Part} {rest : Option String → Printer Result}
    (behind : Leads settings followed origin before after
      (rest (part.node.identifier?.map settings.options.renameIdentifier))) :
    Leads settings followed origin before after (partName? part >>= rest) :=
  behind

/-- The new name of a part holds no bracket. -/
theorem absent_partName (without : followed → settings.WithoutBrackets) {part : Part}
    (balanced : part.Balanced settings followed) {name : String}
    (isName : part.node.identifier?.map settings.options.renameIdentifier = some name) :
    followed → Bracket.Absent name.toList := by
  intro asked
  obtain ⟨source, isSource, rfl⟩ := Option.map_eq_some_iff.mp isName
  exact (without asked).renameIdentifier ((balanced.words asked).identifier? isSource)

theorem accessibility {mark : Option String}
    (plain : followed → ∀ text ∈ mark, Bracket.Absent text.toList) :
    Leads settings followed origin depth depth (accessibility mark) := by
  apply whenPresent
  intro text isWord
  exact (plainWord fun asked => plain asked text isWord).andThen (word fun _ _ => rfl)

/-! ## Functions -/

theorem function (without : followed → settings.WithoutBrackets) {form : FunctionForm}
    {role : Role} {position : Position} {marks : FunctionMarks} {nameNode : Option Part}
    {params : List Part} {body returnType : Option Part}
    (balancedName : ∀ part ∈ nameNode, part.Balanced settings followed)
    (balancedParams : ∀ part ∈ params, part.Balanced settings followed)
    (balancedBody : ∀ part ∈ body, part.Balanced settings followed)
    (balancedType : ∀ part ∈ returnType, part.Balanced settings followed) :
    Leads settings followed origin depth depth
      (function form role position marks nameNode params body returnType) := by
  apply (unsupportedIf _ position _).andThen
  apply (unsupportedIf _ position _).andThen
  apply (unsupportedIf _ position _).andThen
  apply askingOptions
  have plain : followed → ∀ name ∈ (nameNode.bind (·.node.identifier?)).map
      settings.options.renameIdentifier, Bracket.Absent name.toList := by
    intro asked name isName
    cases nameNode with
    | none => cases isName
    | some part => exact absent_partName without (balancedName part rfl) isName asked
  dsimp only
  generalize (nameNode.bind (·.node.identifier?)).map
    settings.options.renameIdentifier = functionName at plain ⊢
  split
  case' isTrue =>
    apply (wordIf fun _ _ => rfl).andThen
    apply (whenPresent fun name _ => modifyScopes fun stack => .declareLocal stack name).andThen
  -- From the word `function` on, declarations and expressions are alike.
  all_goals
    apply (word fun _ _ => rfl).andThen
    refine andThen (whenPresent fun name isName => ?_) (withinFunction _ _ _ fun origin => ?_)
    · exact (word fun _ _ => rfl).andThen (plainWord fun asked => plain asked name isName)
    · apply (parameters balancedParams).andThen
      apply (declaredType balancedType).andThen
      cases body with
      | some body => exact (word fun _ _ => rfl).andThen (inBraces (balancedBody body rfl))
      | none => exact missing position _

theorem methodFunction {owner : Position} {isConstructor isAbstract : Bool}
    {params : List Part} {body returnType : Option Part}
    (balancedParams : ∀ part ∈ params, part.Balanced settings followed)
    (balancedBody : ∀ part ∈ body, part.Balanced settings followed)
    (balancedType : ∀ part ∈ returnType, part.Balanced settings followed) :
    Leads settings followed origin depth depth
      (methodFunction owner isConstructor isAbstract params body returnType) := by
  apply (parameters balancedParams).andThen
  dsimp only
  split
  case' isTrue => apply (declaredType balancedType).andThen
  all_goals
    cases body with
    | some body =>
        apply (word fun _ _ => rfl).andThen
        refine withinMemberBody fun origin => braced ?_ (balancedBody body rfl)
        split
        · exact fun _ => rfl
        · trivial
    | none =>
        dsimp only
        split
        · exact word fun _ _ => rfl
        · exact missing owner _

/-! ## Classes -/

theorem classDefinition (without : followed → settings.WithoutBrackets) {role : Role}
    {position : Position} {marks : ClassMarks} {nameNode superClass : Option Part}
    {implementing : List Part} {body : Part} {decorators : List Part}
    (balancedName : ∀ part ∈ nameNode, part.Balanced settings followed)
    (balancedSuper : ∀ part ∈ superClass, part.Balanced settings followed)
    (balancedImplementing : ∀ part ∈ implementing, part.Balanced settings followed)
    (balancedBody : body.Balanced settings followed) :
    Leads settings followed origin depth depth
      (classDefinition role position marks nameNode superClass implementing body decorators) := by
  unfold Printer.classDefinition
  split
  · exact missing position _
  · next source isName =>
      have plain : followed → Bracket.Absent (settings.options.renameIdentifier source).toList := by
        cases nameNode with
        | none => cases isName
        | some part =>
            exact absent_partName without (balancedName part rfl) (congrArg (Option.map _) isName)
      apply (unsupportedIf _ position _).andThen
      apply (unsupportedIf _ position _).andThen
      apply askingOptions
      apply (noteImported _).andThen
      apply (wordIf fun _ _ => rfl).andThen
      apply (wordIf fun _ _ => rfl).andThen
      apply (word fun _ _ => rfl).andThen
      apply (plainWord plain).andThen
      refine andThen (whenPresent fun part isSuper => ?_) ?_
      · exact (word fun _ _ => rfl).andThen ((balancedSuper part isSuper).role .typeName trivial)
      split
      case' isTrue =>
        apply (word fun _ _ => rfl).andThen
        apply (separated fun part member => (balancedImplementing part member).plain).andThen
      all_goals
        apply (word fun _ _ => rfl).andThen
        exact withinClass _ plain fun origin => balancedBody.plain

theorem classProperty {position : Position} {marks : PropertyMarks} {key : Part}
    {value type : Option Part} {decorators : List Part}
    (plain : followed → ∀ text ∈ marks.accessibility, Bracket.Absent text.toList)
    (balancedKey : key.Balanced settings followed)
    (balancedValue : ∀ part ∈ value, part.Balanced settings followed)
    (balancedType : ∀ part ∈ type, part.Balanced settings followed) :
    Leads settings followed origin depth depth
      (classProperty position marks key value type decorators) := by
  apply (unsupportedIf _ position _).andThen
  apply (unsupportedIf _ position _).andThen
  apply (unsupportedIf _ position _).andThen
  apply (unsupportedIf _ position _).andThen
  apply (unsupportedIf _ position _).andThen
  apply (accessibility plain).andThen
  apply (wordIf fun _ _ => rfl).andThen
  apply (wordIf fun _ _ => rfl).andThen
  apply (balancedKey.role .key trivial).andThen
  apply partName?
  apply (whenPresent fun name _ =>
    modifyScopes fun stack => .declareProperty stack name marks.static).andThen
  apply (declaredType balancedType).andThen
  refine andThen (whenPresent fun part isValue => ?_) (word fun _ _ => rfl)
  exact (word fun _ _ => rfl).andThen (balancedValue part isValue).plain

theorem method (without : followed → settings.WithoutBrackets) {form : MethodForm}
    {position : Position} {marks : MethodMarks} {key value : Part}
    (plain : followed → ∀ text ∈ marks.accessibility, Bracket.Absent text.toList)
    (balancedKey : key.Balanced settings followed)
    (balancedValue : value.Balanced settings followed) :
    Leads settings followed origin depth depth (method form position marks key value) := by
  have behind (name : String) (plainName : followed → Bracket.Absent name.toList) :
      Leads settings followed origin depth depth (do
        Printer.accessibility marks.accessibility
        Printer.writeIf (form = .abstract) "abstract "
        Printer.writeIf marks.static "static "
        Printer.write (methodWord marks.kind)
        Printer.write name
        Printer.withinFunction name true marks.static (value.printAs
          (.method position (marks.kind = .constructor) (form = .abstract)))) := by
    apply (accessibility plain).andThen
    apply (wordIf fun _ _ => rfl).andThen
    apply (wordIf fun _ _ => rfl).andThen
    refine andThen (word fun _ _ => by cases marks.kind <;> rfl) ?_
    apply (plainWord plainName).andThen
    exact withinFunction _ _ _ fun origin => balancedValue.role _ trivial
  apply (unsupportedIf _ position _).andThen
  split
  · exact unsupported _ _
  · apply (unsupportedIf _ position _).andThen
    apply (unsupportedIf _ position _).andThen
    unfold methodName?
    split
    · exact behind "constructor" fun _ => Bracket.absent_of_all rfl
    · apply partName?
      split
      · exact missing position _
      · next name isName => exact behind name (absent_partName without balancedKey isName)

/-! ## Interfaces -/

theorem interface (without : followed → settings.WithoutBrackets) {position : Position}
    {nameNode body : Part} {extending implementing : List Part}
    (balancedName : nameNode.Balanced settings followed)
    (balancedBody : body.Balanced settings followed)
    (balanced : ∀ part ∈ extending, part.Balanced settings followed) :
    Leads settings followed origin depth depth
      (interface position nameNode body extending implementing) := by
  apply (unsupportedIf _ position _).andThen
  apply partName?
  split
  · exact missing position _
  · next name isName =>
      apply (noteImported _).andThen
      apply (word fun _ _ => rfl).andThen
      apply (plainWord (absent_partName without balancedName isName)).andThen
      split
      case' isTrue =>
        apply (word fun _ _ => rfl).andThen
        apply (separated fun part member => (balanced part member).plain).andThen
      all_goals exact (word fun _ _ => rfl).andThen balancedBody.plain

theorem methodSignature {marks : SignatureMarks} {key : Part} {params : List Part}
    {returnType : Option Part}
    (plain : followed → ∀ text ∈ marks.accessibility, Bracket.Absent text.toList)
    (balancedKey : key.Balanced settings followed)
    (balancedParams : ∀ part ∈ params, part.Balanced settings followed)
    (balancedType : ∀ part ∈ returnType, part.Balanced settings followed) :
    Leads settings followed origin depth depth
      (methodSignature marks key params returnType) := by
  apply (accessibility plain).andThen
  apply (wordIf fun _ _ => rfl).andThen
  apply (entryKey balancedKey).andThen
  apply (wordIf fun _ _ => rfl).andThen
  apply (withinFunction _ _ _ fun _ => parameters balancedParams).andThen
  exact (declaredType balancedType).andThen (word fun _ _ => rfl)

theorem propertySignature {key : Part} {type : Option Part} {readonly optional computed : Bool}
    (balancedKey : key.Balanced settings followed)
    (balancedType : ∀ part ∈ type, part.Balanced settings followed) :
    Leads settings followed origin depth depth
      (propertySignature key type readonly optional computed) := by
  apply (wordIf fun _ _ => rfl).andThen
  apply (entryKey balancedKey).andThen
  apply (wordIf fun _ _ => rfl).andThen
  exact (declaredType balancedType).andThen (word fun _ _ => rfl)

end Leads

end Printer

end ScriptBridge

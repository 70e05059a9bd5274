import ScriptBridge.Proofs.Balance.Depth
import ScriptBridge.Proofs.Tree.Stored

/-!
# Effects on names, types and diagnostics

Outside of the text a printer declares names, notes types and raises diagnostics.
All of these lead from a depth to the same depth: what opens a function, a class or
the body of a member closes it again.
-/

namespace ScriptBridge

/-! ## Words -/

/-- The words of a construct: names, operators and marks, the text that is printed
for a literal, and the value of a string. -/
def Shape.words {Part : Type} (options : Options) : Shape Part → List String
  | .identifier name _ _ => [name]
  | .literal raw value =>
      options.renameLiteral (if raw.isEmpty then value.compact else raw) :: value.text?.toList
  | .unary _ operator _ _ => [operator]
  | .binary _ operator _ _ => [operator]
  | .classProperty marks _ _ _ _ => marks.accessibility.toList
  | .method _ marks _ _ => marks.accessibility.toList
  | .methodSignature marks _ _ _ => marks.accessibility.toList
  | _ => []

theorem Shape.words_map {Part Other : Type} (options : Options) (change : Part → Other)
    (shape : Shape Part) : (shape.map change).words options = shape.words options := by
  cases shape <;> rfl

/-- The words of all constructs of a tree. -/
def Node.words (options : Options) (node : Node) : List String :=
  node.stored.flatMap fun part => part.shape.words options

theorem Node.words_eq (options : Options) (node : Node) :
    node.words options =
      node.shape.words options ++ node.shape.parts.flatMap (words options) := by
  rw [words, stored_eq, List.flatMap_cons, List.flatMap_assoc]
  rfl

/-- No bracket stands in the words of a tree. -/
def Node.WithoutBrackets (options : Options) (node : Node) : Prop :=
  ∀ word ∈ node.words options, Bracket.Absent word.toList

instance (options : Options) (node : Node) : Decidable (node.WithoutBrackets options) :=
  List.decidableBAll (fun word : String => Bracket.Absent word.toList) (node.words options)

theorem Node.withoutBrackets_iff {options : Options} {node : Node} :
    node.WithoutBrackets options ↔
      (∀ word ∈ node.shape.words options, Bracket.Absent word.toList) ∧
        ∀ part ∈ node.shape.parts, part.WithoutBrackets options := by
  unfold WithoutBrackets
  rw [words_eq]
  simp only [List.forall_mem_append, List.forall_mem_flatMap]

/-- No bracket stands in the new names of a renaming. -/
def Renaming.WithoutBrackets (names : Renaming) : Prop :=
  ∀ entry ∈ names.entries, Bracket.Absent entry.2.toList

instance (names : Renaming) : Decidable names.WithoutBrackets :=
  List.decidableBAll (fun entry : String × String => Bracket.Absent entry.2.toList) names.entries

/-- No bracket stands in what settings add to a text: the new names of identifiers and
types, the modules of the import rules and the path of the file. -/
structure Settings.WithoutBrackets (settings : Settings) : Prop where
  identifiers : settings.options.identifiers.WithoutBrackets
  types : settings.options.types.WithoutBrackets
  modules : ∀ rule ∈ settings.options.importRules, Bracket.Absent rule.moduleName.toList
  file : Bracket.Absent settings.file.toList

namespace Bracket

theorem absent_of_all {characters : List Char}
    (none : characters.all (fun character => !isBracket character) = true) :
    Absent characters := by
  simpa [Absent] using none

theorem Absent.append {first second : List Char} (before : Absent first)
    (behind : Absent second) : Absent (first ++ second) := by
  intro character place
  rcases List.mem_append.mp place with place | place
  · exact before character place
  · exact behind character place

theorem Absent.read {added : String} (absent : Absent added.toList) (awaited : List Bracket) :
    Bracket.read awaited added.toList = some awaited :=
  read_absent absent

end Bracket

theorem Renaming.WithoutBrackets.apply {names : Renaming} (without : names.WithoutBrackets)
    {name : String} (absent : Bracket.Absent name.toList) :
    Bracket.Absent (names.apply name).toList := by
  unfold Renaming.apply OrderedMap.find?
  cases found : names.entries.lookup name with
  | none => exact absent
  | some renamed => exact without (name, renamed) (OrderedMap.mem_of_lookup found)

theorem Settings.WithoutBrackets.renameIdentifier {settings : Settings}
    (without : settings.WithoutBrackets) {name : String} (absent : Bracket.Absent name.toList) :
    Bracket.Absent (settings.options.renameIdentifier name).toList := by
  unfold Options.renameIdentifier
  split
  · exact absent
  · exact without.identifiers.apply absent

/-- A receiver is a word and a dot. -/
theorem ScopeStack.absent_qualifier {stack : ScopeStack}
    (absent : ∀ owner ∈ stack.top.owner, Bracket.Absent owner.name.toList)
    (index : Option MemberIndex) (name : String) :
    Bracket.Absent ((stack.qualifier index name).getD "").toList := by
  have noReceiver : Bracket.Absent "".toList := Bracket.absent_of_all rfl
  have this : Bracket.Absent "this.".toList := Bracket.absent_of_all rfl
  unfold qualifier Scope.qualifier
  split
  · exact noReceiver
  · next owner isOwner =>
      split
      · exact noReceiver
      · split
        · rw [Option.getD_some, String.toList_append]
          exact (absent owner isOwner).append (Bracket.absent_of_all rfl)
        · split
          · exact this
          · split
            · split
              · exact this
              · exact noReceiver
            · exact noReceiver

namespace Printer

variable {settings : Settings} {followed : Prop} {origin : PrinterState}
variable {depth after : Depth} {Result : Type}

namespace Leads

theorem plainWord {added : String} (absent : followed → Bracket.Absent added.toList) :
    Leads settings followed origin depth depth (Printer.write added) :=
  word fun asked => (absent asked).read

/-! ## Types and scopes -/

theorem modifyTypes {change : TypeImports → TypeImports}
    (grows : ∀ types : TypeImports, types.referenced <+: (change types).referenced)
    (absent : followed → ∀ types : TypeImports,
      (∀ name ∈ types.referenced, Bracket.Absent name.toList) →
        ∀ name ∈ (change types).referenced, Bracket.Absent name.toList) :
    Leads settings followed origin depth depth (modifyTypes change) := by
  intro state result next later stands ends
  cases ends
  exact ⟨later.trans ⟨List.prefix_rfl, .refl _, grows _, List.prefix_rfl⟩,
    stands.level, stands.awaited, stands.owner,
    fun asked => absent asked _ (stands.referenced asked)⟩

theorem noteImported (name : String) :
    Leads settings followed origin depth depth
      (Printer.modifyTypes fun types => types.noteImported name) :=
  modifyTypes (fun _ => List.prefix_rfl) fun _ _ => id

theorem record {name : String} (plain : followed → Bracket.Absent name.toList) :
    Leads settings followed origin depth depth
      (Printer.modifyTypes fun types => types.record name) := by
  apply modifyTypes
  · intro types
    unfold TypeImports.record
    split
    · exact List.prefix_rfl
    · exact List.prefix_append _ _
  · intro asked types absent
    unfold TypeImports.record
    split
    · exact absent
    · intro other member
      rcases List.mem_append.mp member with member | member
      · exact absent other member
      · rw [List.mem_singleton.mp member]
        exact plain asked

theorem modifyScopes {change : ScopeStack → ScopeStack}
    (grows : ∀ stack : ScopeStack, stack.Grows (change stack)) :
    Leads settings followed origin depth depth (modifyScopes change) := by
  intro state result next later stands ends
  cases ends
  exact ⟨later.trans ⟨List.prefix_rfl, grows _, List.prefix_rfl, List.prefix_rfl⟩,
    stands.level, stands.awaited,
    fun asked => ClassScope.Grows.absent_option (grows _).top.owner (stands.owner asked),
    stands.referenced⟩

/-! ## Diagnostics -/

theorem report (problem : Problem) (position : Position) (arguments : List String) :
    Leads settings followed origin depth depth (report problem position arguments) := by
  intro state result next later stands ends
  rw [outcome_report] at ends
  dsimp only at ends
  split at ends
  · cases ends
  · cases ends
    exact ⟨later.trans ⟨List.prefix_rfl, .refl _, List.prefix_rfl, List.prefix_append _ _⟩,
      stands.level, stands.awaited, stands.owner, stands.referenced⟩

theorem unsupported (position : Position) (what : String) :
    Leads settings followed origin depth depth (unsupported position what) :=
  report _ _ _

theorem unsupportedIf (present : Bool) (position : Position) (what : String) :
    Leads settings followed origin depth depth (unsupportedIf present position what) := by
  unfold Printer.unsupportedIf
  split
  · exact unsupported position what
  · exact pure ()

theorem missing (position : Position) (what : String) :
    Leads settings followed origin depth depth (missing position what) :=
  report _ _ _

theorem lookUpRank (position : Position) (pattern : Option String) :
    Leads settings followed origin depth depth (lookUpRank position pattern) := by
  unfold Printer.lookUpRank
  split
  · exact pure _
  · split
    · exact pure _
    · exact (report _ _ _).andThen (pure _)

theorem ownRank (role : Role) (position : Position) (shape : Shape Part) :
    Leads settings followed origin depth depth (ownRank role position shape) := by
  unfold Printer.ownRank
  split
  · exact pure _
  · exact lookUpRank position _

/-! ## Functions, members and classes -/

/-- A printer between two changes of the scopes that cancel out. -/
theorem cancelling {opened closed : ScopeStack → ScopeStack} {printer : Printer Unit}
    {state next : PrinterState} {value : Unit}
    (inside : ∀ origin, Leads settings followed origin depth depth printer)
    (grows : ∀ reached, (opened state.scopes).Grows reached →
      state.scopes.Grows (closed reached))
    (absent : followed →
      ∀ owner ∈ (opened state.scopes).top.owner, Bracket.Absent owner.name.toList)
    (later : origin.Later state) (stands : state.Stands followed depth)
    (ends : (do Printer.modifyScopes opened; printer; Printer.modifyScopes closed).outcome
      settings state = .ok (value, next)) :
    origin.Later next ∧ next.Stands followed depth := by
  simp only [outcome_bind, outcome_modifyScopes] at ends
  cases inner : printer.outcome settings { state with scopes := opened state.scopes } with
  | error diagnostic =>
      rw [inner] at ends
      cases ends
  | ok reached =>
      rw [inner] at ends
      cases ends
      have standsInside : { state with scopes := opened state.scopes }.Stands followed depth :=
        ⟨stands.level, stands.awaited, absent, stands.referenced⟩
      obtain ⟨laterInner, standsInner⟩ :=
        inside _ _ reached.1 reached.2 (.refl _) standsInside inner
      have learned := grows _ laterInner.scopes
      refine ⟨later.trans ⟨laterInner.text, learned, laterInner.referenced,
        laterInner.diagnostics⟩, standsInner.level, standsInner.awaited, ?_,
        standsInner.referenced⟩
      exact fun asked => ClassScope.Grows.absent_option learned.top.owner (stands.owner asked)

theorem withinFunction (name : String) (isMethod isStatic : Bool) {printer : Printer Unit}
    (inside : ∀ origin, Leads settings followed origin depth depth printer) :
    Leads settings followed origin depth depth
      (withinFunction name isMethod isStatic printer) := by
  intro state value next later stands ends
  refine cancelling inside (fun _ => .exitFunction) ?_ later stands ends
  intro asked
  obtain ⟨owner, _, grows, isOpened⟩ :=
    Scope.Grows.openFunction_eq state.scopes.top name isMethod isStatic
  have absent := ClassScope.Grows.absent_option grows (stands.owner asked)
  rw [ScopeStack.enterFunction, ScopeStack.modifyTop, isOpened]
  exact absent

theorem withinMemberBody {printer : Printer Unit}
    (inside : ∀ origin, Leads settings followed origin depth depth printer) :
    Leads settings followed origin depth depth (withinMemberBody printer) := by
  intro state value next later stands ends
  have marked : (do
      Printer.modifyScopes fun scopes => scopes.markMemberBody true
      printer
      Printer.modifyScopes fun scopes =>
        scopes.markMemberBody state.scopes.top.inMemberBody).outcome settings state =
          .ok (value, next) := ends
  exact cancelling inside (fun _ => .markMemberBody) stands.owner later stands marked

theorem withinClass {name : String} (superClass : Option String)
    (plain : followed → Bracket.Absent name.toList) {printer : Printer Unit}
    (inside : ∀ origin, Leads settings followed origin depth depth printer) :
    Leads settings followed origin depth depth
      (do Printer.modifyScopes fun scopes => scopes.enterClass name superClass
          printer
          Printer.modifyScopes fun scopes => scopes.exitClass.1) := by
  intro state value next later stands ends
  refine cancelling inside ?_ ?_ later stands ends
  · intro reached grows
    rw [grows.exitClass_eq]
    exact .refl _
  · intro asked owner isOwner
    cases isOwner
    exact plain asked

/-! ## Names -/

/-- What a name adds to the text, and what it makes known. -/
theorem name (without : followed → settings.WithoutBrackets) (role : Role) {source : String}
    (plain : followed → Bracket.Absent source.toList) :
    Leads settings followed origin depth depth (name role source) := by
  have renamed : followed →
      Bracket.Absent (settings.options.renameIdentifier source).toList :=
    fun asked => (without asked).renameIdentifier (plain asked)
  have typed : followed → Bracket.Absent
      (settings.options.renameType (settings.options.renameIdentifier source)).toList :=
    fun asked => (without asked).types.apply (renamed asked)
  unfold Printer.name
  apply askingSettings
  dsimp only
  cases role
  case typeName => exact andThen (record typed) (plainWord typed)
  case parameter =>
    exact andThen (modifyScopes fun stack => .declareParam stack _) (plainWord renamed)
  case declaredName =>
    exact andThen (modifyScopes fun stack => .declareLocal stack _) (plainWord renamed)
  case memberName => exact plainWord renamed
  case key => exact plainWord renamed
  all_goals
    apply askingState
    intro state stands
    refine andThen (plainWord fun asked => ?_) (plainWord renamed)
    exact ScopeStack.absent_qualifier (stands.owner asked) _ _

end Leads

end Printer

end ScriptBridge

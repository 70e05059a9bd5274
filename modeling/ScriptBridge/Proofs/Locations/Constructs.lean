import ScriptBridge.Proofs.Locations.Displaced
import ScriptBridge.Proofs.Locations.Erased
import ScriptBridge.Proofs.Printing.Roles

/-!
# Printing without locations

With and without the locations in it, every construct is printed by displaced printers.  Most
constructs ask nothing about the places of their parts, and their own place at most goes into a
report.  The others print operands, whose rank may be reported where they stand, or hand a
place on: a method to its function, and an import to its specifiers.
-/

namespace ScriptBridge

namespace Shape

variable {Part : Type}

/-- Whether a construct may report something at the place of one of its parts. -/
def reportsAtParts : Shape Part → Bool
  | .method .. | .importDeclaration .. | .function .arrow .. => true
  | shape => shape.printsOperands

/-- A construct that reports nothing at its parts asks nothing about their places. -/
theorem every_isPlaceless (nodeOf : Part → Node) (place : Position) (role : Role)
    {shape : Shape Part} (elsewhere : shape.reportsAtParts = false) :
    Printer.Every (fun question _ => question.isPlaceless) (shape.questions nodeOf place role) := by
  have braced (prologue : Option String) (part : Part) :
      Printer.Every (fun question _ => question.isPlaceless)
        (bracedQuestions nodeOf prologue part) := by
    simp [bracedQuestions, Question.isPlaceless_of]
  cases shape with
  | arrayLiteral | method | unary | binary | conditional | call | member | sequence | declarator
  | importDeclaration => cases elsewhere
  | spread form =>
      cases form with
      | spread => cases elsewhere
      | rest => simp [questions, Question.isPlaceless_of]
  | function form marks name params body returnType =>
      have methodBody (isConstructor : Bool) (part : Part) :
          Printer.Every (fun question _ => question.isPlaceless)
            (methodBodyQuestions nodeOf isConstructor part) := by
        cases isConstructor <;> simp [methodBodyQuestions, braced, Question.isPlaceless_of]
      cases form with
      | arrow => cases elsewhere
      | _ =>
          cases role <;>
            simp [questions, functionQuestions, braced, methodBody, Question.isPlaceless_of]
  | _ =>
      simp [questions, statementQuestions, keyQuestions, braced, Question.isPlaceless_of]

end Shape

namespace Printer

/-- The second printer of a twin, with a node without locations. -/
def Twin.erased (twin : Twin Displaced) : Part :=
  ⟨twin.node.withoutLocations, twin.right⟩

namespace Displaced

/-- Without its locations a part looks the same; at most its rank is reported elsewhere. -/
theorem samePart (twin : Twin Displaced) : SamePart Displaced twin.first twin.erased where
  printed := twin.related
  ranked := by
    rw [rankOf_part, rankOf_part]
    dsimp only [Twin.erased, Twin.first]
    rw [Node.underCasts_withoutLocations, Node.operatorPattern?_withoutLocations]
    exact isCongruence.lookUpRank (samePlace _ _) _
  name := twin.node.identifier?_withoutLocations.symm
  text := twin.node.sameAnswer_withoutLocations twin.right (rfl : Question.text.isPlaceless)
  callsInChain := twin.node.callsInChain_withoutLocations.symm
  block := (twin.node.sameAnswer_withoutLocations twin.right
    (rfl : Question.arrowBody.isPlaceless)).1
  objectLiteral := (twin.node.sameAnswer_withoutLocations twin.right
    (rfl : Question.arrowBody.isPlaceless)).2

/-! ## Methods -/

/-- The place of the method that a function belongs to does not matter. -/
theorem printAs_method (node : Node) (owner other : Position) (isConstructor isAbstract : Bool) :
    Displaced (node.printAs (.method owner isConstructor isAbstract))
      (node.printAs (.method other isConstructor isAbstract)) := by
  obtain ⟨location, shape⟩ := node
  let twins : Shape (Twin Displaced) :=
    shape.map fun part =>
      ⟨part, part.printAs, part.printAs, fun role => isCongruence.printAs part role⟩
  have same : Displaced
      (construct location (twins.map Twin.first) (.method owner isConstructor isAbstract))
      (construct location (twins.map Twin.second) (.method other isConstructor isAbstract)) := by
    generalize twins = shape
    have related := isCongruence.construct location shape (.method owner isConstructor isAbstract)
    cases shape with
    | function form marks name params body returnType =>
        cases form with
        | arrow | declared => exact related
        | _ => exact isCongruence.methodFunction (samePlace owner other) _ _ params body returnType
    | leaf form => cases form <;> exact related
    | group form => cases form <;> exact related
    | call form => cases form <;> exact related
    | spread form => cases form <;> exact related
    | _ => exact related
  rw [Shape.map_map, Shape.map_map] at same
  rw [Node.printAs_eq, Node.printAs_eq]
  exact same

/-- A method hands its place on to its function, where it does not matter. -/
theorem method (form : MethodForm) (place other : Position) (marks : MethodMarks)
    (key value : Twin Displaced)
    (owners : ∀ owner other isConstructor isAbstract,
      Displaced (value.right (.method owner isConstructor isAbstract))
        (value.right (.method other isConstructor isAbstract))) :
    Displaced (method form place marks key.first value.first)
      (method form other marks key.erased value.erased) := by
  have same := samePlace place other
  have sameMarks : methodMarks? form value.erased = methodMarks? form value.first :=
    value.node.methodMarks?_withoutLocations form value.right
  have sameTag : value.erased.node.tag = value.first.node.tag := value.node.tag_withoutLocations
  have sameName : key.erased.node.identifier? = key.first.node.identifier? :=
    key.node.identifier?_withoutLocations
  apply isCongruence.andThen (isCongruence.unsupportedIf_of_samePlace same _ _)
  rw [sameMarks, sameTag]
  split
  · exact report _ _ _ _
  · apply isCongruence.andThen (isCongruence.unsupportedIf_of_samePlace same _ _)
    apply isCongruence.andThen (isCongruence.unsupportedIf_of_samePlace same _ _)
    apply bind
    · unfold methodName? partName?
      rw [sameName]
      split
      · exact pure _
      · exact options fun _ => pure _
    intro name
    cases name with
    | none => exact same _ _
    | some name =>
        apply isCongruence.andThen (isCongruence.accessibility _)
        apply isCongruence.andThen (isCongruence.writeIf _ "abstract ")
        apply isCongruence.andThen (isCongruence.writeIf _ "static ")
        apply isCongruence.andThen (isCongruence.write _)
        apply isCongruence.andThen (isCongruence.write name)
        exact isCongruence.withinMethod name _ ((value.related _).trans (owners place other _ _))

/-! ## Imports -/

/-- What an import reads of a specifier does not depend on its place. -/
theorem importedText {specifier other : Node}
    (sameName : ∀ options : Options,
      options.importedName? other = options.importedName? specifier)
    (sameTag : other.tag = specifier.tag) :
    Displaced (importedText specifier) (importedText other) := by
  apply options
  intro options
  rw [sameName, sameTag]
  split
  · exact (isCongruence.modifyTypes _).bind fun _ => pure _
  · exact (report _ _ _ _).bind fun _ => pure _

theorem importClause (clause : ImportClause) (specifiers : List (Twin Displaced)) :
    Displaced (importClause clause (specifiers.map Twin.first))
      (importClause clause (specifiers.map Twin.erased)) := by
  induction specifiers generalizing clause with
  | nil => exact pure clause
  | cons specifier rest ih =>
      apply bind (importedText (Node.importedName?_withoutLocations · specifier.node)
        specifier.node.tag_withoutLocations)
      intro text
      cases text with
      | none => exact ih clause
      | some text =>
          dsimp only [Twin.erased]
          rw [Node.add_withoutLocations]
          exact ih (clause.add specifier.node text)

theorem importDeclaration (specifiers : List (Twin Displaced)) (source : Twin Displaced) :
    Displaced (importDeclaration (specifiers.map Twin.first) source.first)
      (importDeclaration (specifiers.map Twin.erased) source.erased) := by
  refine (importClause {} specifiers).bind fun clause => ?_
  have sameText : source.node.withoutLocations.stringLiteral? = source.node.stringLiteral? :=
    (samePart source).text.symm
  have read := isCongruence.importFrom clause source
  unfold importFrom at read
  dsimp only [Twin.erased]
  rw [sameText]
  exact read

theorem specifier {specifier other : Node}
    (sameName : ∀ options : Options,
      options.importedName? other = options.importedName? specifier)
    (sameTag : other.tag = specifier.tag) :
    Displaced (Printer.specifier specifier) (Printer.specifier other) := by
  refine (importedText sameName sameTag).bind fun text => ?_
  cases text with
  | none => exact pure ()
  | some text => exact isCongruence.write text

/-! ## All constructs -/

/-- What asks nothing about the places of its parts is printed the same of parts without
locations. -/
theorem exchanged {location : Location} {shape : Shape (Twin Displaced)} {role : Role}
    (elsewhere : shape.reportsAtParts = false)
    (displaced : Displaced (construct location (shape.map Twin.first) role)
      (construct {} (shape.map Twin.second) role)) :
    Displaced (construct location (shape.map Twin.first) role)
      (construct {} (shape.map Twin.erased) role) := by
  have same : construct {} (shape.map Twin.second) role =
      construct {} (shape.map Twin.erased) role := by
    apply construct_exchange
    intro entry asked
    exact entry.2.node.sameAnswer_withoutLocations entry.2.right
      (Shape.every_isPlaceless _ _ _ elsewhere entry asked)
  exact same ▸ displaced

/-- With and without the locations in it, a construct is printed by displaced printers. -/
theorem construct (location : Location) (shape : Shape (Twin Displaced)) (role : Role)
    (owners : ∀ twin ∈ shape.parts, ∀ owner other isConstructor isAbstract,
      Displaced (twin.right (.method owner isConstructor isAbstract))
        (twin.right (.method other isConstructor isAbstract))) :
    Displaced (construct location (shape.map Twin.first) role)
      (construct {} (shape.map Twin.erased).withoutKeptLocations role) := by
  have same : SamePlace Displaced location.start ({} : Location).start := samePlace _ _
  have unplaced := isCongruence.construct location shape role
  cases shape with
  | arrayLiteral | unary | binary | conditional | call | member | sequence | declarator =>
      exact isCongruence.construct_of_printsOperands samePart same role rfl
  | spread form argument declaredType =>
      cases form with
      | spread => exact isCongruence.construct_of_printsOperands samePart same role rfl
      | rest => exact exchanged rfl unplaced
  -- constructs that hand a place on
  | method form marks key value =>
      exact method form _ _ marks key value (owners value (by simp [Shape.parts]))
  | importDeclaration specifiers source => exact importDeclaration specifiers source
  | importSpecifier imported binding =>
      refine exchanged rfl (specifier (fun _ => ?_) rfl)
      cases binding <;> rfl
  | importBinding form binding => exact exchanged rfl (specifier (fun _ => rfl) rfl)
  -- constructs that report at their own place
  | unsupported form => exact same _ _
  | unknown name fields => exact same _ _
  | function form marks name params body returnType =>
      cases form with
      | arrow => exact isCongruence.arrow samePart same params body returnType
      | declared => exact same _ _
      | expression | declaration =>
          cases role with
          | method => exact exchanged rfl unplaced
          | _ =>
              exact exchanged rfl
                (isCongruence.function _ _ same marks name params body returnType)
      | emptyBody =>
          cases role with
          | method => exact exchanged rfl unplaced
          | _ => exact same _ _
  | classDefinition form marks name superClass implementing body decorators =>
      refine exchanged rfl (isCongruence.classDefinition_of_samePlace role same marks superClass
        implementing ?_ ?_ ?_)
      · cases name <;> rfl
      · cases decorators <;> rfl
      · exact fun className => isCongruence.withinClass className _ (body.related .plain)
  | classProperty marks key value declaredType decorators =>
      exact exchanged rfl
        (isCongruence.classProperty same marks key value declaredType decorators)
  | exit form argument => exact exchanged rfl (isCongruence.exit form same argument)
  | exportNamed declaration specifiers source =>
      exact exchanged rfl (isCongruence.exportNamed same declaration specifiers)
  | interface name body extending implementing =>
      exact exchanged rfl (isCongruence.interface same name body extending implementing)
  -- constructs that report nothing
  | leaf form => cases form <;> exact exchanged rfl unplaced
  | group form statements => cases form <;> exact exchanged rfl unplaced
  | _ => exact exchanged rfl unplaced

end Displaced

end Printer

/-- With and without its locations, a tree is printed by displaced printers. -/
theorem Node.displaced_withoutLocations (node : Node) (role : Role) :
    Printer.Displaced (node.printAs role) (node.withoutLocations.printAs role) := by
  revert role
  refine Node.induction (motive := fun node =>
    ∀ role, Printer.Displaced (node.printAs role) (node.withoutLocations.printAs role)) ?_ node
  intro location shape role
  let twins : Shape (Printer.Twin Printer.Displaced) :=
    shape.map fun part => ⟨part.1, part.1.printAs, part.1.withoutLocations.printAs, part.2⟩
  have owners : ∀ twin ∈ twins.parts, ∀ owner other isConstructor isAbstract,
      Printer.Displaced (twin.right (.method owner isConstructor isAbstract))
        (twin.right (.method other isConstructor isAbstract)) := by
    intro twin inside
    rw [Shape.parts_map] at inside
    obtain ⟨part, -, rfl⟩ := List.mem_map.mp inside
    exact Printer.Displaced.printAs_method part.1.withoutLocations
  have displaced := Printer.Displaced.construct location twins role owners
  rw [Shape.map_map, Shape.map_map] at displaced
  rw [withoutLocations_eq, printAs_eq, printAs_eq, Shape.map_withoutKeptLocations,
    Shape.map_map, Shape.map_map, Shape.map_map]
  exact displaced

/-! ## Runs over trees that differ in their locations

Neither the locations in a tree nor the name of the file have a say in what is generated.  Two
runs over trees that are the same without their locations print the same body, import the
same types and raise the same diagnostics, up to the places of these; and either both come to
an end or both stop. -/

namespace Settings

/-- The state in which a tree is printed to its end. -/
def finalState (settings : Settings) (tree : Node) : Except Diagnostic PrinterState :=
  match tree.print.run settings |>.run .start with
  | .error diagnostic => .error diagnostic
  | .ok (_, state) => .ok state

theorem finalState_eq (settings : Settings) (tree : Node) :
    settings.finalState tree =
      match (tree.printAs .plain).outcome settings {} with
      | .ok (_, state) => .ok state
      | .error diagnostic => .error diagnostic := by
  have printed : tree.print.outcome settings {} = (tree.printAs .plain).outcome settings {} :=
    (tree.outcome_print settings {}).1
  rw [← printed]
  unfold finalState Printer.outcome PrinterState.start
  split <;> rename_i found <;> rw [found]

end Settings

/-- Two runs that come to the same body, the same imported types and displaced diagnostics, or
that both stop, at displaced problems. -/
inductive RunsDisplaced (here there : Settings) (first second : Node) : Prop
  | ends {state other : PrinterState}
      (printed : here.finalState first = .ok state)
      (printedOther : there.finalState second = .ok other)
      (generated : here.generate first =
        .ok ⟨state.types.prepend here.file state.text.toString, state.diagnostics⟩)
      (generatedOther : there.generate second =
        .ok ⟨other.types.prepend there.file other.text.toString, other.diagnostics⟩)
      (body : state.text.toString = other.text.toString)
      (imports : state.types.pending = other.types.pending)
      (diagnostics : List.Forall₂ Diagnostic.Displaced state.diagnostics other.diagnostics)
  | stops {problem other : Diagnostic}
      (generated : here.generate first = .error problem)
      (generatedOther : there.generate second = .error other)
      (displaced : problem.Displaced other)

/-- Under the same options and index, whatever the names of the files, the runs over trees that
differ in nothing but locations come to the same. -/
theorem Settings.generate_ignores_locations (options : Options) (index : Option MemberIndex)
    (file otherFile : String) {first second : Node}
    (same : first.withoutLocations = second.withoutLocations) :
    RunsDisplaced { options, index, file } { options, index, file := otherFile } first
      second := by
  have displaced : Printer.Displaced (first.printAs .plain) (second.printAs .plain) :=
    (same ▸ first.displaced_withoutLocations .plain).trans
      (second.displaced_withoutLocations .plain).symm
  have outcomes := displaced { options, index, file } otherFile {} {} (.refl {})
  have printed := finalState_eq { options, index, file } first
  have printedOther := finalState_eq { options, index, file := otherFile } second
  have generated := generate_eq { options, index, file } first
  have generatedOther := generate_eq { options, index, file := otherFile } second
  dsimp only at outcomes
  generalize (first.printAs .plain).outcome { options, index, file } {} = ends
    at outcomes printed generated
  generalize (second.printAs .plain).outcome { options, index, file := otherFile } {} = otherEnds
    at outcomes printedOther generatedOther
  cases outcomes with
  | ok states =>
      exact .ends printed printedOther generated generatedOther (congrArg (·.toString) states.text)
        (congrArg (·.pending) states.types) states.diagnostics
  | error problems => exact .stops generated generatedOther problems

/-- A file that refers to a type and has an operator without a rank, all at one location. -/
def meadow (location : Location) : Node :=
  let identifier (text : String) (type : Option Node) : Node :=
    ⟨location, .identifier text type false⟩
  let reference : Node := ⟨location, .typeReference (identifier "Rose" none) none none⟩
  ⟨location, .group .program [
    ⟨location, .variableDeclaration
      [⟨location, .declarator (identifier "sun" (some ⟨location, .typeClause reference⟩)) none⟩]
      "var"⟩,
    ⟨location, .expressionStatement ⟨location, .binary .binary "<>" (identifier "sun" none)
      (identifier "moon" none)⟩⟩]⟩

theorem Settings.generate_ignores_locations_meadow :
    let first := meadow ⟨⟨1, 0⟩, ⟨2, 8⟩⟩
    let second := meadow ⟨⟨7, 3⟩, ⟨9, 4⟩⟩
    let here : Settings := { file := "land/Meadow.as" }
    let there : Settings := { file := "sea/Reef.as" }
    first.withoutLocations = second.withoutLocations ∧ first ≠ second ∧
      (here.generate first).toOption.map Generated.text =
        some "import \x7bRose\x7d from \"land/Rose\";\nlet sun: Rose;\nsun <> moon;" ∧
      (there.generate second).toOption.map Generated.text =
        some "import \x7bRose\x7d from \"sea/Rose\";\nlet sun: Rose;\nsun <> moon;" ∧
      RunsDisplaced here there first second := by
  intro first second here there
  have same : first.withoutLocations = second.withoutLocations := by rfl
  refine ⟨same, ?_, by decide +kernel, by decide +kernel,
    Settings.generate_ignores_locations {} none _ _ same⟩
  intro equal
  cases congrArg Node.location equal

end ScriptBridge

import ScriptBridge.MemberIndex
import ScriptBridge.Proofs.Printing.Outermost
import ScriptBridge.Proofs.Printing.Roles
import ScriptBridge.Proofs.Tree.Search

/-!
# Package wrappers

A package comes as a declaration around the statements of a file.  The declaration may be empty,
it may hold a block of statements, or another declaration for the next part of its name, and the
statements may be packages again.  All of this vanishes: what is generated for a program, and
which classes are collected from it, is the same if the statements stand in the program itself.
-/

namespace ScriptBridge

namespace Node

/-- Whether a node is a plain name or a dotted one. -/
def isModuleName : Node → Bool :=
  fold fun _ shape =>
    match shape with
    | .identifier _ none _ => true
    | .qualifiedName left right => left.result && right.result
    | _ => false

/-- What stands in place of a statement, given what is wrapped in it. -/
def unwrapped (statement : Folded (Option (List Node))) : List Node :=
  match statement.node.shape with
  | .moduleDeclaration .. => statement.result.getD [statement.node]
  | _ => [statement.node]

/-- The statements that are wrapped in a module or in its block. -/
def wrapped? : Node → Option (List Node) :=
  fold fun _ shape =>
    match shape with
    | .group .moduleBlock statements => some (statements.flatMap unwrapped)
    | .moduleDeclaration name none => if name.node.isModuleName then some [] else none
    | .moduleDeclaration name (some body) => if name.node.isModuleName then body.result else none
    | _ => none

/-- The statements that stand in place of a statement without wrappers: the statement itself,
or what is wrapped in it. -/
def inPlace (statement : Node) : List Node :=
  unwrapped ⟨statement, statement.wrapped?⟩

variable {location : Location}

theorem isModuleName_qualifiedName (left right : Node) :
    isModuleName ⟨location, .qualifiedName left right⟩ =
      (left.isModuleName && right.isModuleName) := by
  unfold isModuleName
  rw [fold_eq]
  rfl

theorem wrapped?_moduleBlock (statements : List Node) :
    wrapped? ⟨location, .group .moduleBlock statements⟩ = some (statements.flatMap inPlace) := by
  unfold wrapped?
  rw [fold_eq]
  exact congrArg some (List.flatMap_map ..)

theorem wrapped?_moduleDeclaration (name : Node) (body : Option Node) :
    wrapped? ⟨location, .moduleDeclaration name body⟩ =
      if name.isModuleName then body.elim (some []) wrapped? else none := by
  conv => lhs; unfold wrapped?
  rw [fold_eq]
  cases body <;> rfl

/-- Induction over wrappers: a block, a package without one, and a package around another
wrapper. -/
theorem wrapped_induction {motive : Node → List Node → Prop}
    (block : ∀ location body,
      (∀ statement ∈ body, ∀ contents, statement.wrapped? = some contents →
        motive statement contents) →
      motive ⟨location, .group .moduleBlock body⟩ (body.flatMap inPlace))
    (empty : ∀ location name, name.isModuleName = true →
      motive ⟨location, .moduleDeclaration name none⟩ [])
    (nested : ∀ location name body contents, name.isModuleName = true → motive body contents →
      motive ⟨location, .moduleDeclaration name (some body)⟩ contents)
    (node : Node) : ∀ contents, node.wrapped? = some contents → motive node contents := by
  induction node using parts_induction with
  | step node ih =>
      obtain ⟨location, shape⟩ := node
      intro contents wraps
      cases shape with
      | group form body =>
          cases form with
          | moduleBlock =>
              rw [wrapped?_moduleBlock] at wraps
              cases wraps
              exact block location body ih
          | _ => cases wraps
      | moduleDeclaration name body =>
          rw [wrapped?_moduleDeclaration] at wraps
          cases named : name.isModuleName with
          | false =>
              rw [named] at wraps
              cases wraps
          | true =>
              rw [if_pos named] at wraps
              cases body with
              | none =>
                  cases wraps
                  exact empty location name named
              | some body =>
                  have isPart : body ∈ (Shape.moduleDeclaration name (some body)).parts :=
                    List.mem_cons_of_mem _ List.mem_cons_self
                  exact nested location name body contents named (ih body isPart contents wraps)
      | _ => cases wraps

/-- A statement stays, or it is a package that gives way to what is wrapped in it. -/
theorem inPlace_cases (statement : Node) :
    statement.inPlace = [statement] ∨
      ∃ location name body, statement = ⟨location, .moduleDeclaration name body⟩ ∧
        statement.wrapped? = some statement.inPlace := by
  obtain ⟨location, shape⟩ := statement
  cases shape with
  | moduleDeclaration name body =>
      unfold inPlace
      cases wraps : wrapped? ⟨location, .moduleDeclaration name body⟩ with
      | none => exact .inl rfl
      | some statements => exact .inr ⟨location, name, body, rfl, rfl⟩
  | _ => exact .inl rfl

/-- The package `hen.house` around a debugger statement and an empty package. -/
example (location : Location) :
    let name (source : String) : Node := ⟨location, .identifier source none false⟩
    let package (body : List Node) : Node :=
      ⟨location, .moduleDeclaration (name "hen") (some ⟨location, .moduleDeclaration
        (name "house") (some ⟨location, .group .moduleBlock body⟩)⟩)⟩
    let debugger : Node := ⟨location, .leaf .debugger⟩
    (package [debugger, package []]).inPlace = [debugger] := rfl

end Node

/-! ## What is generated -/

namespace Printer

variable {settings : Settings}

/-- If wrappers print the same as what is wrapped in them, a list of statements comes to the same
without its wrappers. -/
theorem sameOutermost_flatMap_inPlace {body : List Node}
    (prints : ∀ statement ∈ body, ∀ contents, statement.wrapped? = some contents →
      SameOutermost settings (statement.printAs .plain) (topLevel (contents.map Node.toPart)))
    (wroteAny : Bool) :
    SameOutermost settings (statements wroteAny (body.map Node.toPart))
      (statements wroteAny ((body.flatMap Node.inPlace).map Node.toPart)) := by
  induction body generalizing wroteAny with
  | nil => exact Simulates.pure wroteAny
  | cons statement rest ih =>
      have first : SameOutermost settings (statements wroteAny [statement.toPart])
          (statements wroteAny (statement.inPlace.map Node.toPart)) := by
        rcases statement.inPlace_cases with stays | ⟨location, name, body, rfl, wraps⟩
        · rw [stays]
          exact sameOutermost_statements wroteAny [statement]
        · exact sameOutermost_inPlace rfl rfl (prints _ List.mem_cons_self _ wraps) wroteAny
      rw [List.map_cons, List.flatMap_cons, List.map_append, statements_append,
        ← List.singleton_append, statements_append]
      exact first.bind fun wrote =>
        ih (fun other member => prints other (List.mem_cons_of_mem _ member)) wrote

theorem sameOutermost_topLevel {body : List Node}
    (prints : ∀ statement ∈ body, ∀ contents, statement.wrapped? = some contents →
      SameOutermost settings (statement.printAs .plain) (topLevel (contents.map Node.toPart))) :
    SameOutermost settings (topLevel (body.map Node.toPart))
      (topLevel ((body.flatMap Node.inPlace).map Node.toPart)) :=
  (sameOutermost_flatMap_inPlace prints false).bind fun _ => Simulates.pure ()

/-- A wrapper prints the same as what is wrapped in it. -/
theorem sameOutermost_wrapped (node : Node) : ∀ contents, node.wrapped? = some contents →
    SameOutermost settings (node.printAs .plain) (topLevel (contents.map Node.toPart)) := by
  refine Node.wrapped_induction (motive := fun node contents => SameOutermost settings
    (node.printAs .plain) (topLevel (contents.map Node.toPart))) ?block ?empty ?nested node
  case block =>
    intro location body prints
    rw [Node.printAs_eq]
    exact sameOutermost_topLevel prints
  case empty =>
    intro location name named
    rw [Node.printAs_eq]
    exact Simulates.pure ()
  case nested =>
    intro location name body contents named prints
    rw [Node.printAs_eq]
    exact prints

end Printer

/-! ## What is collected -/

namespace MemberIndex

variable (file : String)

theorem declaredIn_eq (location : Location) (shape : Shape Node) :
    declaredIn file ⟨location, shape⟩ =
      (ClassEntry.ofNode? file ⟨location, shape⟩).toList ++
        shape.children.flatMap (declaredIn file) := by
  have below (child : Node) : declaredIn file child =
      (child :: child.reachable fun _ => true).filterMap (ClassEntry.ofNode? file) := by
    rw [declaredIn, Node.descendants_eq]
  rw [below, Node.reachable_eq, List.filterMap_cons, List.filterMap_flatMap]
  simp only [if_true, ← below]
  cases ClassEntry.ofNode? file ⟨location, shape⟩ <;> rfl

/-- No class is declared in the name of a package. -/
theorem declaredIn_moduleName (name : Node) (named : name.isModuleName = true) :
    declaredIn file name = [] := by
  induction name using Node.parts_induction with
  | step node ih =>
      obtain ⟨location, shape⟩ := node
      cases shape with
      | identifier name declaredType optional =>
          cases declaredType with
          | none => rfl
          | some declaredType => cases named
      | qualifiedName left right =>
          rw [Node.isModuleName_qualifiedName, Bool.and_eq_true] at named
          have ofLeft := ih left List.mem_cons_self named.1
          have ofRight := ih right (List.mem_cons_of_mem _ List.mem_cons_self) named.2
          rw [declaredIn_eq]
          change [] ++ (declaredIn file left ++ (declaredIn file right ++ [])) = []
          rw [ofLeft, ofRight]
          rfl
      | _ => cases named

/-- If wrappers declare the same classes as what is wrapped in them, so does a list of statements
without its wrappers. -/
theorem declaredIn_flatMap_inPlace {body : List Node}
    (declares : ∀ statement ∈ body, ∀ contents, statement.wrapped? = some contents →
      declaredIn file statement = contents.flatMap (declaredIn file)) :
    body.flatMap (declaredIn file) = (body.flatMap Node.inPlace).flatMap (declaredIn file) := by
  rw [List.flatMap_assoc]
  refine List.flatMap_congr fun statement member => ?_
  rcases statement.inPlace_cases with stays | ⟨location, name, body, rfl, wraps⟩
  · rw [stays, List.flatMap_singleton]
  · exact declares _ member _ wraps

/-- A wrapper declares the classes that are declared in what is wrapped in it. -/
theorem declaredIn_wrapped (node : Node) : ∀ contents, node.wrapped? = some contents →
    declaredIn file node = contents.flatMap (declaredIn file) := by
  refine Node.wrapped_induction (motive := fun node contents =>
    declaredIn file node = contents.flatMap (declaredIn file)) ?block ?empty ?nested node
  case block =>
    intro location body declares
    rw [declaredIn_eq, ← declaredIn_flatMap_inPlace file declares]
    rfl
  case empty =>
    intro location name named
    rw [declaredIn_eq]
    change [] ++ (declaredIn file name ++ []) = []
    rw [declaredIn_moduleName file name named]
    rfl
  case nested =>
    intro location name body contents named declares
    rw [declaredIn_eq]
    change [] ++ (declaredIn file name ++ (declaredIn file body ++ [])) = _
    rw [declaredIn_moduleName file name named, declares]
    simp

end MemberIndex

/-- Packages vanish: the same is generated, and the same classes are collected, if what is wrapped
in the packages of a program stands in their place. -/
theorem Settings.generate_unwrapped (settings : Settings) (location : Location)
    (body : List Node) :
    settings.generate ⟨location, .group .program body⟩ =
        settings.generate ⟨location, .group .program (body.flatMap Node.inPlace)⟩ ∧
      ∀ (index : MemberIndex) (file : String),
        index.collectCounting ⟨location, .group .program body⟩ file =
          index.collectCounting ⟨location, .group .program (body.flatMap Node.inPlace)⟩ file := by
  constructor
  · have vanish : Printer.SameOutermost settings
        (Node.printAs ⟨location, .group .program body⟩ .plain)
        (Node.printAs ⟨location, .group .program (body.flatMap Node.inPlace)⟩ .plain) := by
      rw [Node.printAs_eq, Node.printAs_eq]
      exact Printer.sameOutermost_topLevel fun statement _ =>
        Printer.sameOutermost_wrapped statement
    rw [generate_eq, generate_eq]
    rcases vanish {} {} (.refl rfl) with
      ⟨diagnostic, stops, alsoStops⟩ | ⟨⟨⟩, next, _, ends, alsoEnds, ⟨text, same, rfl⟩, -⟩
    · rw [stops, alsoStops]
    · have sameText : text.toString = next.text.toString := by
        rw [IndentedText.toString, IndentedText.characters, ← same.reversed]
        rfl
      rw [ends, alsoEnds]
      dsimp only
      rw [sameText]
  · intro index file
    have declared : MemberIndex.declaredIn file ⟨location, .group .program body⟩ =
        MemberIndex.declaredIn file ⟨location, .group .program (body.flatMap Node.inPlace)⟩ := by
      rw [MemberIndex.declaredIn_eq, MemberIndex.declaredIn_eq]
      exact MemberIndex.declaredIn_flatMap_inPlace file fun statement _ =>
        MemberIndex.declaredIn_wrapped file statement
    rw [MemberIndex.collectCounting, MemberIndex.collectCounting, declared]

end ScriptBridge

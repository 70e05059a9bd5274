import ScriptBridge.Proofs.Printing.Inspection
import ScriptBridge.Proofs.Tree.Search

/-!
# Trees without locations

A tree without its source locations still says everything that constructs look at in their
parts: names, literals, what stands under casts, and whether a superclass is called.
-/

namespace ScriptBridge

namespace Json

mutual

/-- A value without the locations in it. -/
def withoutLocations : Json → Json
  | .array items => .array (itemsWithoutLocations items)
  | .object fields => .object (fieldsWithoutLocations fields)
  | other => other

def itemsWithoutLocations : List Json → List Json
  | [] => []
  | item :: rest => item.withoutLocations :: itemsWithoutLocations rest

def fieldsWithoutLocations : List (String × Json) → List (String × Json)
  | [] => []
  | (name, value) :: rest =>
      if name = "loc" then fieldsWithoutLocations rest
      else (name, value.withoutLocations) :: fieldsWithoutLocations rest

end

end Json

/-- A shape without the locations in what is kept of an object of no category. -/
def Shape.withoutKeptLocations {Part : Type} : Shape Part → Shape Part
  | .unknown name fields => .unknown name (Json.fieldsWithoutLocations fields)
  | other => other

namespace Shape

variable {Part Other : Type}

theorem map_withoutKeptLocations (change : Part → Other) (shape : Shape Part) :
    shape.withoutKeptLocations.map change = (shape.map change).withoutKeptLocations := by
  cases shape <;> rfl

theorem children_withoutKeptLocations (shape : Shape Part) :
    shape.withoutKeptLocations.children = shape.children := by
  cases shape <;> rfl

end Shape

namespace Node

/-- A tree without its locations. -/
def withoutLocations : Node → Node :=
  fold fun _ shape => ⟨{}, (shape.map (·.result)).withoutKeptLocations⟩

theorem withoutLocations_eq (location : Location) (shape : Shape Node) :
    withoutLocations ⟨location, shape⟩ =
      ⟨{}, (shape.map withoutLocations).withoutKeptLocations⟩ := by
  unfold withoutLocations
  rw [fold_eq, Shape.map_map]
  rfl

/-! ## What is seen of a part -/

theorem callsInChain_withoutLocations (node : Node) :
    node.withoutLocations.callsInChain = node.callsInChain := by
  induction node using parts_induction with
  | step node ih =>
      obtain ⟨location, shape⟩ := node
      rw [withoutLocations_eq]
      cases shape with
      | call form => cases form <;> rfl
      | member object => exact ih object (by simp [Shape.parts])
      | _ => rfl

theorem lastName?_withoutLocations (node : Node) :
    node.withoutLocations.lastName? = node.lastName? := by
  induction node using parts_induction with
  | step node ih =>
      obtain ⟨location, shape⟩ := node
      rw [withoutLocations_eq]
      cases shape with
      | member object property computed =>
          cases computed with
          | false => exact ih property (by simp [Shape.parts])
          | true => rfl
      | _ => rfl

theorem dottedName?_withoutLocations (node : Node) :
    node.withoutLocations.dottedName? = node.dottedName? := by
  induction node using parts_induction with
  | step node ih =>
      obtain ⟨location, shape⟩ := node
      rw [withoutLocations_eq]
      cases shape with
      | qualifiedName left right =>
          have sameLeft := ih left (by simp [Shape.parts])
          have sameRight := ih right (by simp [Shape.parts])
          simp [Shape.map, Shape.withoutKeptLocations, dottedName?, sameLeft, sameRight]
      | _ => rfl

theorem endsWithSemicolon_withoutLocations (node : Node) :
    node.withoutLocations.endsWithSemicolon = node.endsWithSemicolon := by
  induction node using parts_induction with
  | step node ih =>
      obtain ⟨location, shape⟩ := node
      rw [withoutLocations_eq]
      cases shape with
      | leaf form => cases form <;> rfl
      | loop form => cases form <;> rfl
      | exportNamed declaration =>
          cases declaration with
          | none => rfl
          | some declaration => exact ih declaration (by simp [Shape.parts])
      | exportDefault declaration =>
          obtain ⟨declarationLocation, declaration⟩ := declaration
          cases declaration with
          | function form => cases form <;> rfl
          | classDefinition form => cases form <;> rfl
          | _ => rfl
      | _ => rfl

theorem underCasts_withoutLocations (node : Node) :
    node.withoutLocations.underCasts = node.underCasts.withoutLocations := by
  induction node using parts_induction with
  | step node ih =>
      obtain ⟨location, shape⟩ := node
      rw [withoutLocations_eq]
      cases shape with
      | cast expression => exact ih expression (by simp [Shape.parts])
      | _ => exact (withoutLocations_eq location _).symm

theorem operatorPattern?_withoutLocations (node : Node) :
    node.withoutLocations.shape.operatorPattern? = node.shape.operatorPattern? := by
  have unkept (shape : Shape Node) :
      shape.withoutKeptLocations.operatorPattern? = shape.operatorPattern? := by
    cases shape <;> rfl
  obtain ⟨location, shape⟩ := node
  rw [withoutLocations_eq]
  exact (unkept _).trans (Printer.operatorPattern?_map _ _)

theorem isSuperCall_withoutLocations (node : Node) :
    node.withoutLocations.isSuperCall = node.isSuperCall := by
  obtain ⟨location, shape⟩ := node
  rw [withoutLocations_eq]
  cases shape with
  | call form callee =>
      cases form with
      | construction => rfl
      | call =>
          obtain ⟨calleeLocation, callee⟩ := callee
          cases callee with
          | leaf form => cases form <;> rfl
          | _ => rfl
  | _ => rfl

theorem reachable_withoutLocations (node : Node) :
    node.withoutLocations.reachable (fun _ => true) =
      (node.reachable fun _ => true).map withoutLocations := by
  refine induction (motive := fun node => node.withoutLocations.reachable (fun _ => true) =
    (node.reachable fun _ => true).map withoutLocations) (fun location shape => ?_) node
  simp only [if_true, withoutLocations_eq, reachable_eq, Shape.children_withoutKeptLocations,
    Shape.children_map, List.flatMap_map, List.map_flatMap]
  refine List.flatMap_congr fun child _ => ?_
  rw [child.2, List.map_cons]

theorem hasDescendant_withoutLocations (node : Node) :
    node.withoutLocations.hasDescendant isSuperCall = node.hasDescendant isSuperCall := by
  rw [hasDescendant_eq_any, hasDescendant_eq_any, reachable_withoutLocations, List.any_map]
  exact congrArg (List.any _) (funext isSuperCall_withoutLocations)

theorem methodMarks?_withoutLocations (form : MethodForm) (node : Node)
    (print : Role → Printer Unit) :
    Printer.methodMarks? form ⟨node.withoutLocations, print⟩ =
      Printer.methodMarks? form ⟨node, print⟩ := by
  obtain ⟨location, shape⟩ := node
  rw [withoutLocations_eq]
  cases shape with
  | function functionForm => cases functionForm <;> cases form <;> rfl
  | _ => rfl

theorem tag_withoutLocations (node : Node) : node.withoutLocations.tag = node.tag := by
  obtain ⟨location, shape⟩ := node
  rw [withoutLocations_eq]
  cases shape <;> rfl

theorem identifier?_withoutLocations (node : Node) :
    node.withoutLocations.identifier? = node.identifier? := by
  obtain ⟨location, shape⟩ := node
  rw [withoutLocations_eq]
  cases shape <;> rfl

theorem importedName?_withoutLocations (options : Options) (node : Node) :
    options.importedName? node.withoutLocations = options.importedName? node := by
  obtain ⟨location, shape⟩ := node
  rw [withoutLocations_eq]
  cases shape with
  | importSpecifier imported binding =>
      have bound : (binding.map withoutLocations).bind identifier? = binding.bind identifier? := by
        cases binding with
        | none => rfl
        | some binding => exact identifier?_withoutLocations binding
      simp only [Shape.map, Shape.withoutKeptLocations, Options.importedName?,
        identifier?_withoutLocations, bound]
  | importBinding form binding =>
      simp only [Shape.map, Shape.withoutKeptLocations, Options.importedName?,
        identifier?_withoutLocations]
  | _ => rfl

theorem add_withoutLocations (clause : ImportClause) (node : Node) (text : String) :
    clause.add node.withoutLocations text = clause.add node text := by
  obtain ⟨location, shape⟩ := node
  rw [withoutLocations_eq]
  cases shape with
  | importBinding form binding => cases form <;> rfl
  | _ => rfl

end Node

/-- Whether the place of a part cannot show in an answer. -/
def Question.isPlaceless : Question → Bool
  | .operand | .methodFunction _ | .specifier => false
  | _ => true

theorem Question.isPlaceless_of {question : Question} (operand : question ≠ .operand)
    (methodFunction : ∀ form, question ≠ .methodFunction form)
    (specifier : question ≠ .specifier) : question.isPlaceless := by
  cases question with
  | operand => exact (operand rfl).elim
  | methodFunction form => exact (methodFunction form rfl).elim
  | specifier => exact (specifier rfl).elim
  | _ => rfl

/-- Without its locations, a part gives the same answers. -/
theorem Node.sameAnswer_withoutLocations (node : Node) (print : Role → Printer Unit)
    {question : Question} (placeless : question.isPlaceless) :
    question.SameAnswer ⟨node, print⟩ ⟨node.withoutLocations, print⟩ := by
  cases question with
  | printed role => rfl
  | operand | methodFunction | specifier => cases placeless
  | rawCodeName =>
      simp only [Question.SameAnswer, isRawCodeName, identifier?_withoutLocations]
  | name => exact (identifier?_withoutLocations node).symm
  | callsInChain => exact (callsInChain_withoutLocations node).symm
  | lastName => exact (lastName?_withoutLocations node).symm
  | dottedName => exact (dottedName?_withoutLocations node).symm
  | superCall => exact (hasDescendant_withoutLocations node).symm
  | text =>
      obtain ⟨location, shape⟩ := node
      rw [withoutLocations_eq]
      cases shape <;> rfl
  | arrowBody =>
      obtain ⟨location, shape⟩ := node
      rw [withoutLocations_eq]
      cases shape with
      | group form => cases form <;> exact ⟨rfl, rfl⟩
      | _ => exact ⟨rfl, rfl⟩
  | statement =>
      have ends := (endsWithSemicolon_withoutLocations node).symm
      refine ⟨?_, ends, ?_⟩
      all_goals
        obtain ⟨location, shape⟩ := node
        rw [withoutLocations_eq]
      · cases shape <;> rfl
      · cases shape with
        | group form statements => cases form <;> cases statements <;> exact ⟨rfl, rfl, rfl, rfl⟩
        | jump form => cases form <;> exact ⟨rfl, rfl, rfl, rfl⟩
        | _ => exact ⟨rfl, rfl, rfl, rfl⟩

end ScriptBridge

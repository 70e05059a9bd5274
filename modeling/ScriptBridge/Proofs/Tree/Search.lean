import ScriptBridge.Proofs.Tree.Stored
import ScriptBridge.Tree.Children

/-!
# Searching a tree

A search goes on visiting children after it has found something.  Still it comes to the same
as asking about the nodes of a plain list one after the other until one is wanted: the list of
the proper descendants, each before its children, without what is below a node that may not be
entered.  This holds whatever the asking does besides, so the search asks about the nodes of
the list in order, up to the one that it finds, and about no others.
-/

namespace ScriptBridge

namespace Shape

variable {Part Other : Type}

theorem children_map (change : Part → Other) (shape : Shape Part) :
    (shape.map change).children = shape.children.map change := by
  have toList_map : ∀ part : Option Part, (part.map change).toList = part.toList.map change := by
    rintro (_ | _) <;> rfl
  have chosen (typeParameters typeArguments : Option Part) :
      chosenTypeArguments (typeParameters.map change) (typeArguments.map change) =
        (chosenTypeArguments typeParameters typeArguments).map change := by
    cases typeArguments <;> rfl
  have ofParts := parts_map change shape
  cases shape with
  | function | classDefinition | classProperty | call | interface | heritage | typeReference =>
      simp only [map, children, chosen, toList_map, List.map_append, List.map_cons, List.map_nil]
  | loop form => cases form <;> rfl
  | _ => exact ofParts

/-- Every child is a part; some parts are no children. -/
theorem mem_parts_of_mem_children {part : Part} {shape : Shape Part}
    (member : part ∈ shape.children) : part ∈ shape.parts := by
  have chosen (typeParameters typeArguments : Option Part) :
      part ∈ (chosenTypeArguments typeParameters typeArguments).toList →
        part ∈ typeParameters.toList ∨ part ∈ typeArguments.toList := by
    cases typeArguments with
    | none => exact .inl
    | some other => exact .inr
  cases shape with
  | function | classDefinition | classProperty | interface =>
      simp only [children, parts, List.mem_append, List.mem_cons, List.not_mem_nil] at member ⊢
      tauto
  | call form callee arguments optional typeParameters typeArguments
  | heritage form callee typeParameters typeArguments
  | typeReference callee typeParameters typeArguments =>
      have isPart := chosen typeParameters typeArguments
      simp only [children, parts, List.mem_append, List.mem_cons, List.not_mem_nil] at member ⊢
      tauto
  | loop form =>
      cases form with
      | whileLoop => exact member
      | doWhile => simpa [children, parts, or_comm] using member
  | _ => exact member

end Shape

/-! ## Asking about the nodes of a list -/

section Lists

variable {Effect : Type → Type} [Monad Effect] {Item : Type}

theorem findM?_cons (wanted : Item → Effect Bool) (item : Item) (items : List Item) :
    (item :: items).findM? wanted =
      wanted item >>= fun answer => if answer then pure (some item) else items.findM? wanted := by
  rw [List.findM?]
  congr
  funext answer
  cases answer <;> rfl

/-- The second of two lists is only gone through if nothing is found in the first. -/
theorem findM?_append [LawfulMonad Effect] (wanted : Item → Effect Bool)
    (first second : List Item) :
    (first ++ second).findM? wanted =
      first.findM? wanted >>= fun
        | some item => pure (some item)
        | none => second.findM? wanted := by
  induction first with
  | nil => simp
  | cons item rest ih =>
      rw [List.cons_append, findM?_cons, findM?_cons, bind_assoc]
      congr
      funext answer
      cases answer with
      | true => simp
      | false => exact ih

/-- Asking about the items of a list in turn asks about each one up to the one found. -/
theorem run_findM?_askAbout (wanted : Node → Bool) (nodes asked : List Node) :
    (nodes.findM? (Node.askAbout wanted)).run asked =
      (nodes.find? wanted, (nodes.take (nodes.findIdx wanted + 1)).reverse ++ asked) := by
  induction nodes generalizing asked with
  | nil => rfl
  | cons node rest ih =>
      have first : ((node :: rest).findM? (Node.askAbout wanted)).run asked =
          (if wanted node then pure (some node) else rest.findM? (Node.askAbout wanted) :
            StateM (List Node) (Option Node)).run (node :: asked) := by
        rw [findM?_cons]
        rfl
      rw [first, List.find?_cons, List.findIdx_cons]
      cases wanted node with
      | true => rfl
      | false => simpa using ih (node :: asked)

end Lists

namespace Node

/-- The proper descendants of a node, each before its children.  Below a node that `enters`
refuses nothing is listed. -/
def reachable (enters : Node → Bool) : Node → List Node :=
  fold fun _ shape =>
    shape.children.flatMap fun child =>
      child.node :: (if enters child.node then child.result else [])

theorem reachable_eq (enters : Node → Bool) (location : Location) (shape : Shape Node) :
    reachable enters ⟨location, shape⟩ =
      shape.children.flatMap fun child =>
        child :: (if enters child then child.reachable enters else []) := by
  unfold reachable
  rw [fold_eq, Shape.children_map, List.flatMap_map]

theorem descendants_eq (node : Node) :
    node.descendants = node :: node.reachable fun _ => true := by
  simp only [descendants, reachable, if_true]

section Seeking

variable {Effect : Type → Type} [Monad Effect]
variable (wanted : Node → Effect Bool) (enters : Node → Bool)

theorem seek_eq_foldlM (others : Node → Effect Bool) (location : Location) (shape : Shape Node) :
    seek wanted others ⟨location, shape⟩ =
      (shape.children.map fun child =>
        (⟨child, child.seek wanted others⟩ : Folded (Effect (Option Node)))).foldlM
          (seekChild wanted others) none := by
  unfold seek
  rw [fold_eq, Shape.children_map]

variable [LawfulMonad Effect]

/-- Behind a find the other children are visited to no effect. -/
theorem foldlM_seekChild_some (others : Node → Effect Bool) (found : Node)
    (children : List (Folded (Effect (Option Node)))) :
    children.foldlM (seekChild wanted others) (some found) = pure (some found) := by
  induction children with
  | nil => rfl
  | cons child rest ih => simp [seekChild, ih]

/-- Looking through children one after the other, if each is searched as its list says. -/
theorem foldlM_seekChild_none {children : List Node}
    (each : ∀ child ∈ children, child.seek wanted (fun other => pure (enters other)) =
      (child.reachable enters).findM? wanted) :
    (children.map fun child => (⟨child, child.seek wanted fun other => pure (enters other)⟩ :
        Folded (Effect (Option Node)))).foldlM
          (seekChild wanted fun other => pure (enters other)) none =
      (children.flatMap fun child =>
        child :: (if enters child then child.reachable enters else [])).findM? wanted := by
  induction children with
  | nil => rfl
  | cons child rest ih =>
      have ofRest := ih fun other member => each other (List.mem_cons_of_mem child member)
      have ofChild := each child List.mem_cons_self
      rw [List.map_cons, List.foldlM_cons, List.flatMap_cons, List.cons_append, findM?_cons]
      simp only [seekChild, Option.isSome_none, Bool.false_eq_true, if_false, bind_assoc]
      congr
      funext answer
      cases answer with
      | true => simp [foldlM_seekChild_some]
      | false =>
          simp only [Bool.false_eq_true, if_false, pure_bind]
          cases enters child with
          | false => simpa using ofRest
          | true =>
              simp only [if_true, ofChild, findM?_append]
              congr
              funext found
              cases found with
              | none => exact ofRest
              | some found => exact foldlM_seekChild_some wanted _ found _

/-- A search is the search of a list, with the same effects in the same order. -/
theorem seek_eq_findM? (node : Node) :
    node.seek wanted (fun other => pure (enters other)) =
      (node.reachable enters).findM? wanted := by
  induction node using parts_induction with
  | step node ih =>
      obtain ⟨location, shape⟩ := node
      rw [seek_eq_foldlM, reachable_eq]
      exact foldlM_seekChild_none wanted enters fun child member =>
        ih child (Shape.mem_parts_of_mem_children member)

end Seeking

theorem search_eq (wanted enters : Node → Bool) (node : Node) :
    node.search wanted enters =
      ⟨(node.reachable enters).find? wanted,
        (node.reachable enters).take ((node.reachable enters).findIdx wanted + 1)⟩ := by
  have run : (node.seek (askAbout wanted) fun other => pure (enters other)).run [] = _ :=
    (congrArg (StateT.run · []) (seek_eq_findM? (askAbout wanted) enters node)).trans
      (run_findM?_askAbout wanted (node.reachable enters) [])
  unfold search
  rw [run]
  simp

theorem found_search (wanted enters : Node → Bool) (node : Node) :
    (node.search wanted enters).found = (node.reachable enters).find? wanted := by
  rw [search_eq]

theorem hasDescendant_eq_any (wanted : Node → Bool) (node : Node) :
    node.hasDescendant wanted = (node.reachable fun _ => true).any wanted := by
  rw [hasDescendant, found_search, Bool.eq_iff_iff, List.find?_isSome, List.any_eq_true]

theorem hasDescendant_eq (wanted : Node → Bool) (location : Location) (shape : Shape Node) :
    hasDescendant wanted ⟨location, shape⟩ =
      shape.children.any fun child => wanted child || child.hasDescendant wanted := by
  simp only [hasDescendant_eq_any, reachable_eq, if_true, List.any_flatMap, List.any_cons]

/-- A search finds the first wanted node of the list of what it may reach, and it asks about
each node of that list up to the one found, in order, and about nothing else.  If it may enter
every node, the list is that of all proper descendants. -/
theorem search_reachable (wanted enters : Node → Bool) (node : Node) :
    (node.search wanted enters).found = (node.reachable enters).find? wanted ∧
      (node.search wanted enters).asked =
        (node.reachable enters).take ((node.reachable enters).findIdx wanted + 1) ∧
      node.descendants = node :: node.reachable fun _ => true := by
  rw [search_eq]
  exact ⟨rfl, rfl, descendants_eq node⟩

end Node

end ScriptBridge

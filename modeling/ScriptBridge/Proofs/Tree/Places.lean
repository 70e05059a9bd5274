import Mathlib.Algebra.BigOperators.Group.List.Basic
import ScriptBridge.Proofs.OrderedMap
import ScriptBridge.Proofs.Tree.Stored
import ScriptBridge.Precedence
import ScriptBridge.Tree.Place

/-!
# Places of parts

The steps of a shape number its parts: they leave the shape as it is, and no two
parts share a step.  So every part of a node stands at a place of its own.
-/

namespace ScriptBridge

namespace Shape

variable {Part Other : Type}

theorem placedList_map (change : Part → Other) (field index : Nat) (parts : List Part) :
    placedList field index (parts.map change) =
      (placedList field index parts).map fun item => (item.1, change item.2) := by
  induction parts generalizing index with
  | nil => rfl
  | cons part rest ih => rw [List.map_cons, placedList, ih]; rfl

theorem placedOption_map (change : Part → Other) (field : Nat) (part : Option Part) :
    placedOption field (part.map change) =
      (placedOption field part).map fun item => (item.1, change item.2) := by
  cases part <;> rfl

theorem placedElements_map (change : Part → Other) (field index : Nat)
    (elements : List (Option Part)) :
    placedElements field index (elements.map (·.map change)) =
      (placedElements field index elements).map (·.map fun item => (item.1, change item.2)) := by
  induction elements generalizing index with
  | nil => rfl
  | cons element rest ih =>
      rw [List.map_cons, placedElements, ih]
      cases element <;> rfl

/-- The steps do not depend on the parts. -/
theorem placed_map (change : Part → Other) (shape : Shape Part) :
    (shape.map change).placed = shape.placed.map fun item => (item.1, change item.2) := by
  cases shape <;>
    simp only [map, placed, placedList_map, placedOption_map, placedElements_map]

theorem map_snd_placedList (field index : Nat) (parts : List Part) :
    (placedList field index parts).map Prod.snd = parts := by
  induction parts generalizing index with
  | nil => rfl
  | cons part rest ih => rw [placedList, List.map_cons, ih]

theorem map_snd_placedOption (field : Nat) (part : Option Part) :
    (placedOption field part).map Prod.snd = part := by
  cases part <;> rfl

theorem map_snd_placedElements (field index : Nat) (elements : List (Option Part)) :
    (placedElements field index elements).map (·.map Prod.snd) = elements := by
  induction elements generalizing index with
  | nil => rfl
  | cons element rest ih =>
      rw [placedElements, List.map_cons, ih]
      cases element <;> rfl

/-- The parts of a shape with steps are the parts of the shape. -/
theorem map_snd_placed (shape : Shape Part) : shape.placed.map Prod.snd = shape := by
  cases shape <;>
    simp only [map, placed, map_snd_placedList, map_snd_placedOption, map_snd_placedElements]

/-- Parts with different steps, in the fields from one up to another. -/
structure InFields (first last : Nat) (items : List (Step × Part)) : Prop where
  distinct : (items.map Prod.fst).Nodup
  inside : ∀ step ∈ items.map Prod.fst, first ≤ step.field ∧ step.field < last

namespace InFields

variable {first middle last : Nat}

theorem nil : InFields first first ([] : List (Step × Part)) :=
  ⟨List.nodup_nil, by simp⟩

/-- Later fields behind earlier ones. -/
theorem append {items others : List (Step × Part)} (left : InFields first middle items)
    (right : InFields middle last others) (ordered : first ≤ middle)
    (further : middle ≤ last) : InFields first last (items ++ others) := by
  constructor
  · rw [List.map_append, List.nodup_append]
    refine ⟨left.distinct, right.distinct, ?_⟩
    rintro step isLeft _ isRight rfl
    exact absurd (left.inside step isLeft).2 (Nat.not_lt.mpr (right.inside step isRight).1)
  · intro step member
    rw [List.map_append, List.mem_append] at member
    rcases member with isLeft | isRight
    · exact ⟨(left.inside step isLeft).1, Nat.lt_of_lt_of_le (left.inside step isLeft).2 further⟩
    · exact ⟨Nat.le_trans ordered (right.inside step isRight).1, (right.inside step isRight).2⟩

theorem single (field index : Nat) (part : Part) :
    InFields field (field + 1) [((⟨field, index⟩ : Step), part)] :=
  ⟨List.nodup_singleton _, by simp⟩

theorem cons {index : Nat} {part : Part} {others : List (Step × Part)}
    (rest : InFields (first + 1) last others) (further : first + 1 ≤ last) :
    InFields first last ((⟨first, index⟩, part) :: others) :=
  (single first index part).append rest (Nat.le_succ first) further

/-- Parts in one field that are numbered from an index on. -/
theorem of_numbered {field index : Nat} {part : Part} {others : List (Step × Part)}
    (rest : InFields field (field + 1) others)
    (later : ∀ step ∈ others.map Prod.fst, index < step.index) :
    InFields field (field + 1) ((⟨field, index⟩, part) :: others) := by
  constructor
  · refine List.nodup_cons.mpr ⟨fun again => ?_, rest.distinct⟩
    exact Nat.lt_irrefl index (later _ again)
  · rintro step (_ | ⟨_, member⟩)
    · exact ⟨Nat.le_refl field, Nat.lt_succ_self field⟩
    · exact rest.inside step member

end InFields

theorem le_index_placedList (field index : Nat) (parts : List Part) :
    ∀ step ∈ (placedList field index parts).map Prod.fst, index ≤ step.index := by
  induction parts generalizing index with
  | nil => simp [placedList]
  | cons part rest ih =>
      rintro step (_ | ⟨_, member⟩)
      · exact Nat.le_refl index
      · exact Nat.le_of_succ_le (ih _ step member)

theorem inFields_placedList (field index : Nat) (parts : List Part) :
    InFields field (field + 1) (placedList field index parts) := by
  induction parts generalizing index with
  | nil => exact ⟨List.nodup_nil, by simp [placedList]⟩
  | cons part rest ih => exact .of_numbered (ih _) (le_index_placedList field (index + 1) rest)

theorem inFields_placedOption (field : Nat) (part : Option Part) :
    InFields field (field + 1) (placedOption field part).toList := by
  cases part with
  | none => exact ⟨List.nodup_nil, by simp [placedOption]⟩
  | some part => exact .single field 0 part

theorem le_index_placedElements (field index : Nat) (elements : List (Option Part)) :
    ∀ step ∈ ((placedElements field index elements).filterMap id).map Prod.fst,
      index ≤ step.index := by
  induction elements generalizing index with
  | nil => simp [placedElements]
  | cons element rest ih =>
      cases element with
      | none => exact fun step member => Nat.le_of_succ_le (ih _ step member)
      | some part =>
          rintro step (_ | ⟨_, member⟩)
          · exact Nat.le_refl index
          · exact Nat.le_of_succ_le (ih _ step member)

theorem inFields_placedElements (field index : Nat) (elements : List (Option Part)) :
    InFields field (field + 1) ((placedElements field index elements).filterMap id) := by
  induction elements generalizing index with
  | nil => exact ⟨List.nodup_nil, by simp [placedElements]⟩
  | cons element rest ih =>
      cases element with
      | none => exact ih _
      | some part => exact .of_numbered (ih _) (le_index_placedElements field (index + 1) rest)

/-- No two parts share a step. -/
theorem nodup_steps (shape : Shape Part) : (shape.placed.parts.map Prod.fst).Nodup := by
  suffices ∃ last, InFields 0 last shape.placed.parts from this.choose_spec.distinct
  cases shape <;> apply Exists.intro
  all_goals
    repeat' first
      | exact .nil
      | exact .single _ _ _
      | exact inFields_placedList _ _ _
      | exact inFields_placedOption _ _
      | exact inFields_placedElements _ _ _
      | apply InFields.append
      | apply InFields.cons
      | decide

/-- A part with its step is found at the step. -/
theorem lookup_placed {shape : Shape Part} {item : Step × Part}
    (member : item ∈ shape.placed.parts) :
    shape.placed.parts.lookup item.1 = some item.2 :=
  OrderedMap.lookup_of_mem shape.nodup_steps member

end Shape

/-- The parts of a node at a place stand one step below it. -/
theorem Node.at?_part {tree node : Node} {place : NodePlace} (stands : tree.at? place = some node)
    {item : Step × Node} (member : item ∈ node.shape.placed.parts) :
    tree.at? (item.1 :: place) = some item.2 := by
  rw [at?, stands]
  exact Shape.lookup_placed member

/-! ## Under casts -/

namespace Node

/-- Whether a node is a cast. -/
def isCast (node : Node) : Bool :=
  match node.shape with
  | .cast .. => true
  | _ => false

theorem isCast_underCasts (node : Node) : node.underCasts.isCast = false := by
  fun_induction underCasts node with
  | case1 location expression declaredType ih => exact ih
  | case2 node noCast =>
      rcases node with ⟨location, shape⟩
      cases shape with
      | cast expression declaredType => exact (noCast location expression declaredType rfl).elim
      | _ => rfl

theorem underCasts_of_not_cast {node : Node} (noCast : node.isCast = false) :
    node.underCasts = node := by
  rcases node with ⟨location, shape⟩
  cases shape with
  | cast expression declaredType => cases noCast
  | _ => rfl

/-- The place of the expression under any number of casts. -/
def placeUnderCasts : Node → NodePlace → NodePlace
  | ⟨_, .cast expression _⟩, place => expression.placeUnderCasts (Shape.castStep :: place)
  | _, place => place

theorem placeUnderCasts_of_not_cast {node : Node} (noCast : node.isCast = false)
    (place : NodePlace) : node.placeUnderCasts place = place := by
  rcases node with ⟨location, shape⟩
  cases shape with
  | cast expression declaredType => cases noCast
  | _ => rfl

theorem at?_underCasts {tree node : Node} {place : NodePlace}
    (stands : tree.at? place = some node) :
    tree.at? (node.placeUnderCasts place) = some node.underCasts := by
  fun_induction placeUnderCasts node place with
  | case1 location expression declaredType place ih =>
      have below : (Shape.castStep, expression) ∈
          (Shape.cast expression declaredType).placed.parts := List.mem_cons_self ..
      exact ih (at?_part stands below)
  | case2 node place noCast =>
      rcases node with ⟨location, shape⟩
      cases shape with
      | cast expression declaredType => exact (noCast location expression declaredType rfl).elim
      | _ => exact stands

end Node

/-! ## Below a place -/

/-- How often a place stands at or below another one: once or not at all. -/
def NodePlace.below (place other : NodePlace) : Nat :=
  if place <:+ other then 1 else 0

namespace NodePlace

theorem below_le (place other : NodePlace) : place.below other ≤ 1 := by
  unfold below
  split <;> omega

theorem below_self (place : NodePlace) : place.below place = 1 :=
  if_pos List.suffix_rfl

theorem below_step_self (step : Step) (place : NodePlace) : below (step :: place) place = 0 :=
  if_neg fun shorter => by simpa using shorter.length_le

theorem below_step_le (step : Step) (place other : NodePlace) :
    below (step :: place) other ≤ place.below other := by
  unfold below
  split
  · next lower => rw [if_pos ((List.suffix_cons step place).trans lower)]
  · exact Nat.zero_le _

/-- A place stands below one step only. -/
theorem step_eq_of_below {step next : Step} {place other : NodePlace}
    (lower : step :: place <:+ other) (again : next :: place <:+ other) : step = next := by
  have same := List.IsSuffix.eq_of_length
    (List.suffix_of_suffix_length_le lower again (Nat.le_refl _)) rfl
  exact (List.cons.inj same).1

/-- The places below different steps are different places below the common one. -/
theorem sum_below_le {steps : List Step} (distinct : steps.Nodup) (place other : NodePlace) :
    (steps.map fun step => below (step :: place) other).sum ≤ place.below other := by
  induction steps with
  | nil => exact Nat.zero_le _
  | cons step rest ih =>
      obtain ⟨fresh, others⟩ := List.nodup_cons.mp distinct
      rw [List.map_cons, List.sum_cons]
      by_cases lower : step :: place <:+ other
      · have none : (rest.map fun next => below (next :: place) other).sum = 0 := by
          refine List.sum_eq_zero fun count isCount => ?_
          obtain ⟨next, member, rfl⟩ := List.mem_map.mp isCount
          refine if_neg fun again => fresh ?_
          rwa [step_eq_of_below lower again]
        rw [none]
        exact below_step_le step place other
      · rw [below, if_neg lower, Nat.zero_add]
        exact ih others

end NodePlace

end ScriptBridge

import ScriptBridge.Proofs.Ranks.Constructs

/-!
# Roles

While a tree is printed, the role of each construct is set in the state and taken
by the construct, and ranks are remembered under the places of their nodes.  It
comes to the same if the role is handed to the construct, and if an operand is told
by its role that its rank was asked for.  Behind every construct the role is the
plain one again.
-/

namespace ScriptBridge

namespace Node

/-- A part that stands one step below a place. -/
def placedPart (noting : Bool) (place : NodePlace) (item : Step × Node) : Folded PlacedPrinter :=
  ⟨item.2, item.1 :: place, item.2.printNoting noting (item.1 :: place)⟩

/-- A node takes its role and prints its parts, which stand one step below it. -/
theorem printNoting_eq (noting : Bool) (location : Location) (shape : Shape Node)
    (place : NodePlace) :
    printNoting noting ⟨location, shape⟩ place = (do
      Printer.notePrinted noting place ⟨location, shape⟩
      let role ← Printer.takeRole
      Printer.constructWith (Printer.rankAt place ⟨location, shape⟩) location
        (shape.placed.map (placedPart noting place)) role) := by
  have whole : shape.map ((·.node) ∘ fun part =>
      (⟨part, part.printNoting noting⟩ : Folded (NodePlace → Printer Unit))) = shape :=
    Shape.map_id shape
  conv => lhs; unfold printNoting
  rw [fold_eq, Printer.constructAt, Shape.map_map, Shape.placed_map, Shape.map_map]
  unfold printNoting at whole
  rw [whole]
  rfl

/-- Nothing is noted unless this is wanted. -/
theorem printNoting_false (node : Node) : node.printNoting false = node.printAt := by
  unfold printNoting printAt
  rfl

end Node

namespace Printer

variable {ledger : Ledger}

/-- A printer of parts that may use no place at all. -/
instance : Nonempty (Tallied ledger) := by
  have never (frame : NodePlace → Nat) {state other : PrinterState} :
      ¬ledger.Matching none ((fun _ => 2) + frame) state other := fun matching => by
    have := matching.once []
    simp only [Pi.add_apply] at this
    omega
  exact ⟨⟨ledger.tree, ⟨[], pure ()⟩, fun _ => pure (), fun _ => 2,
    fun _ _ frame _ _ matching => absurd matching (never frame),
    fun _ frame _ _ matching => absurd matching (never frame)⟩⟩

/-- A node at a place uses places below it only.  If the construct around it has asked for
its rank, that place is used already. -/
structure IsTracked (ledger : Ledger) (place : NodePlace) (node : Node) : Prop where
  tracked : ∀ role, role ≠ .ranked → Tracks ledger none place.below
    (withRole role (node.printNoting ledger.noting place)) (node.printAs role)
  ranked : ∃ used, Pi.single (node.placeUnderCasts place) 1 + used ≤ place.below ∧
    Tracks ledger (some (node.placeUnderCasts place)) used
      (withRole .ranked (node.printNoting ledger.noting place)) (node.printAs .ranked)

namespace IsTracked

variable {place : NodePlace} {node : Node}

/-- A node with its two printers. -/
noncomputable def tallied (tracked : IsTracked ledger place node)
    (stands : ledger.tree.at? place = some node) : Tallied ledger where
  node := node
  printer := ⟨place, node.printNoting ledger.noting place⟩
  printAs := node.printAs
  used := place.below
  tracked := tracked.tracked
  operand needsParens := by
    obtain ⟨used, within, ranked⟩ := tracked.ranked
    rw [rankAt_underCasts]
    intro frame state other matching
    refine (asks (Node.at?_underCasts stands) node.isCast_underCasts (used + frame)).bind
      (fun rank => Remembering.enclosedIf _ "(" ")" ranked frame) state other ?_
    rw [← add_assoc]
    exact matching.less fun place => Nat.add_le_add_right (within place) _

end IsTracked

/-- A node that is tracked wherever it stands in the tree. -/
abbrev TrackedNode (ledger : Ledger) : Type :=
  {node // ∀ place, ledger.tree.at? place = some node → IsTracked ledger place node}

open Classical in
/-- The two printers of a part at a place.  Nothing is known of parts that stand elsewhere. -/
noncomputable def talliedAt (ledger : Ledger) (place : NodePlace)
    (item : Step × TrackedNode ledger) : Tallied ledger :=
  if stands : ledger.tree.at? (item.1 :: place) = some item.2.1 then
    (item.2.2 _ stands).tallied stands
  else Classical.choice inferInstance

section Step

variable {place : NodePlace} {location : Location} {shape : Shape (TrackedNode ledger)}
variable (stands : ledger.tree.at? place = some ⟨location, shape.map Subtype.val⟩)

include stands

theorem talliedAt_of_mem {item : Step × TrackedNode ledger} (member : item ∈ shape.placed.parts) :
    ∃ below, talliedAt ledger place item = (item.2.2 (item.1 :: place) below).tallied below := by
  have inside : (item.1, item.2.1) ∈ (shape.map Subtype.val).placed.parts := by
    rw [Shape.placed_map, Shape.parts_map]
    exact List.mem_map_of_mem member
  exact ⟨Node.at?_part stands inside, dif_pos _⟩

/-- The parts that know their places. -/
theorem map_placed_talliedAt :
    (shape.map Subtype.val).placed.map (Node.placedPart ledger.noting place) =
      (shape.placed.map (talliedAt ledger place)).map Tallied.placed := by
  rw [Shape.placed_map, Shape.map_map, Shape.map_map]
  refine Shape.map_congr fun item member => ?_
  obtain ⟨below, same⟩ := talliedAt_of_mem stands member
  rw [Function.comp_apply, Function.comp_apply, same]
  rfl

/-- The parts that go by roles. -/
theorem map_part_talliedAt :
    ((shape.map Subtype.val).map fun part => (⟨part, part.printAs⟩ : Part)) =
      (shape.placed.map (talliedAt ledger place)).map Tallied.part := by
  conv => lhs; rw [← shape.map_snd_placed]
  rw [Shape.map_map, Shape.map_map, Shape.map_map]
  refine Shape.map_congr fun item member => ?_
  obtain ⟨below, same⟩ := talliedAt_of_mem stands member
  rw [Function.comp_apply, Function.comp_apply, Function.comp_apply, same]
  rfl

/-- The places below the parts of a node are below the node, which stands at another place. -/
theorem total_talliedAt_le :
    Pi.single place 1 + Tallied.total (shape.placed.map (talliedAt ledger place)).parts ≤
      place.below := by
  have total : Tallied.total (shape.placed.map (talliedAt ledger place)).parts =
      ((shape.placed.parts.map Prod.fst).map fun step => NodePlace.below (step :: place)).sum := by
    rw [Tallied.total, Shape.parts_map, List.map_map, List.map_map]
    refine congrArg List.sum (List.map_congr_left fun item member => ?_)
    obtain ⟨below, same⟩ := talliedAt_of_mem stands member
    rw [Function.comp_apply, same]
    rfl
  intro other
  have pointwise (items : List (NodePlace → Nat)) : items.sum other = (items.map (· other)).sum :=
    map_list_sum (Pi.evalAddMonoidHom (fun _ => Nat) other) items
  rw [total, Pi.add_apply, pointwise, List.map_map]
  have within := NodePlace.sum_below_le shape.nodup_steps place other
  by_cases same : other = place
  · subst same
    have unused : ((shape.placed.parts.map Prod.fst).map
        ((· other) ∘ fun step => NodePlace.below (step :: other))).sum = 0 :=
      List.sum_eq_zero fun count member => by
        obtain ⟨step, -, rfl⟩ := List.mem_map.mp member
        exact NodePlace.below_step_self step other
    rw [unused, Pi.single_eq_same, NodePlace.below_self]
  · rw [Pi.single_eq_of_ne same, Nat.zero_add]
    exact within

end Step

/-! ### One step -/

/-- What a role is set for is printed in this role, and the role is the plain one again. -/
theorem outcome_withRole_printNoting {settings : Settings} {state : PrinterState} (role : Role)
    (noting : Bool) (location : Location) (shape : Shape Node) (place : NodePlace)
    (unset : state.role = .plain) :
    (withRole role (Node.printNoting noting ⟨location, shape⟩ place)).outcome settings state =
      (do
        notePrinted noting place ⟨location, shape⟩
        constructWith (rankAt place ⟨location, shape⟩) location
          (shape.placed.map (Node.placedPart noting place)) role).outcome settings state := by
  have cleared (log : List Diagnostic) : { state with role := .plain, diagnostics := log } =
      { state with diagnostics := log } := by
    rw [← unset]
  rw [outcome_withRole, Node.printNoting_eq, outcome_bind, outcome_bind, outcome_notePrinted,
    outcome_notePrinted]
  dsimp only
  rw [outcome_bind, outcome_takeRole]
  dsimp only
  rw [cleared]

/-- Only operators are noted. -/
theorem notePrinted_of_no_operator {noting : Bool} {place : NodePlace} {node : Node}
    (noOperator : node.shape.isOperator = false) : notePrinted noting place node = pure () := by
  simp [notePrinted, Node.unranked?, noOperator]

/-- An operator is noted when it asks for its rank. -/
theorem notePrinted_constructWith (noting : Bool) (place : NodePlace) (ownRank : Printer Rank)
    (location : Location) (shape : Shape (Folded PlacedPrinter)) (role : Role) :
    (do
      notePrinted noting place ⟨location, shape.map (·.node)⟩
      constructWith ownRank location shape role) =
    constructWith (do
      notePrinted noting place ⟨location, shape.map (·.node)⟩
      ownRank) location shape role := by
  cases isOperator : (shape.map (·.node)).isOperator with
  | true =>
      cases shape with
      | unary form operator leading argument =>
          simp only [constructWith, withOperands, bind_assoc]
      | binary form operator left right =>
          simp only [constructWith, withOperands, bind_assoc]
      | _ => cases isOperator
  | false => rw [notePrinted_of_no_operator isOperator, pure_bind, pure_bind]

theorem isOperator_map {Before After : Type} (change : Before → After) (shape : Shape Before) :
    (shape.map change).isOperator = shape.isOperator := by
  cases shape <;> rfl

section Step

variable {place : NodePlace} {location : Location} {shape : Shape (TrackedNode ledger)}
variable (stands : ledger.tree.at? place = some ⟨location, shape.map Subtype.val⟩)
variable (noCast : (⟨location, shape.map Subtype.val⟩ : Node).isCast = false)

include stands noCast

/-- The node at a place asks for its rank, or the construct around it has done so, and its parts
are printed. -/
theorem tracks_construct {due : Option NodePlace} {own : NodePlace → Nat} (role : Role)
    (asks : Tracks ledger due own
      (do
        notePrinted ledger.noting place ⟨location, shape.map Subtype.val⟩
        rankAt place ⟨location, shape.map Subtype.val⟩)
      (ownRank role location.start (shape.map Subtype.val)))
    (drops : shape.isOperator = false →
      ∀ {used : NodePlace → Nat} {first second : Printer Unit},
        Tracks ledger none used first second → Tracks ledger due used first second) :
    Tracks ledger due
      (own + Tallied.total (shape.placed.map (talliedAt ledger place)).parts)
      (withRole role
        (Node.printNoting ledger.noting ⟨location, shape.map Subtype.val⟩ place))
      (Node.printAs ⟨location, shape.map Subtype.val⟩ role) := by
  have nodes : ((shape.placed.map (talliedAt ledger place)).map Tallied.placed).map (·.node) =
      shape.map Subtype.val := by
    rw [← map_placed_talliedAt stands, Shape.map_map]
    exact Shape.map_snd_placed _
  have isNoCast : ∀ expression type,
      shape.placed.map (talliedAt ledger place) ≠ .cast expression type := by
    intro expression type isCast
    cases shape with
    | cast => cases noCast
    | _ => cases isCast
  have sameOperator : (shape.placed.map (talliedAt ledger place)).isOperator =
      shape.isOperator := by
    rw [isOperator_map, ← isOperator_map Prod.snd, Shape.map_snd_placed]
  have rank : ownRank role location.start (shape.map Subtype.val) =
      ownRank role location.start
        ((shape.placed.map (talliedAt ledger place)).map Tallied.part) := by
    rw [← map_part_talliedAt stands]
    simp only [ownRank, Shape.rank, operatorPattern?_map]
  have construct := Remembering.constructWith location
    (shape.placed.map (talliedAt ledger place)) role isNoCast asks
    fun other => drops (sameOperator ▸ other)
  intro frame state other matching
  rw [outcome_withRole_printNoting role _ _ _ _ matching.unset, Node.printAs_eq,
    map_part_talliedAt stands, map_placed_talliedAt stands, ← nodes, notePrinted_constructWith,
    nodes, Printer.construct, ← rank]
  exact construct frame state other matching

theorem IsTracked.of_not_cast :
    IsTracked ledger place ⟨location, shape.map Subtype.val⟩ where
  tracked role unasked := by
    refine (tracks_construct stands noCast role ?_ fun _ _ _ _ tracks => tracks).atMost
      (total_talliedAt_le stands)
    rw [ownRank, if_neg unasked]
    exact asksItself stands noCast
  ranked := by
    rw [Node.placeUnderCasts_of_not_cast noCast]
    refine ⟨_, ?_, tracks_construct stands noCast .ranked (wasAsked stands noCast) ?_⟩
    · rw [zero_add]
      exact total_talliedAt_le stands
    · intro other used first second tracks frame state otherState matching
      have ranked : ledger.tree.unrankedAt? place = none := by
        rw [unrankedAt?_eq stands, Node.unranked?, isOperator_map, other]
        rfl
      exact tracks frame state otherState (matching.dropped ranked)

end Step

/-- A cast is its expression, which stands one step below it. -/
theorem IsTracked.of_cast {place : NodePlace} {location : Location} {expression type : Node}
    (tracked : IsTracked ledger (Shape.castStep :: place) expression) :
    IsTracked ledger place ⟨location, .cast expression type⟩ := by
  have lower : NodePlace.below (Shape.castStep :: place) ≤ place.below :=
    fun other => NodePlace.below_step_le Shape.castStep place other
  have passes (role : Role) {due : Option NodePlace} {used : NodePlace → Nat}
      (tracks : Tracks ledger due used
        (withRole role.underCast (expression.printNoting ledger.noting (Shape.castStep :: place)))
        (expression.printAs role.underCast)) :
      Tracks ledger due used
        (withRole role (Node.printNoting ledger.noting ⟨location, .cast expression type⟩ place))
        (Node.printAs ⟨location, .cast expression type⟩ role) := by
    intro frame state other matching
    rw [outcome_withRole_printNoting role _ _ _ _ matching.unset, Node.printAs_eq,
      notePrinted_of_no_operator rfl, pure_bind]
    exact tracks frame state other matching
  constructor
  · intro role unasked
    refine passes role ((tracked.tracked role.underCast ?_).atMost lower)
    cases role <;> simp_all [Role.underCast]
  · obtain ⟨used, within, ranked⟩ := tracked.ranked
    exact ⟨used, within.trans lower, passes .ranked ranked⟩

/-- A node is tracked wherever it stands in the tree. -/
theorem isTracked (node : Node) :
    ∀ place, ledger.tree.at? place = some node → IsTracked ledger place node := by
  refine Node.induction (motive := fun node =>
    ∀ place, ledger.tree.at? place = some node → IsTracked ledger place node) ?_ node
  intro location shape place stands
  cases isCast : (⟨location, shape.map Subtype.val⟩ : Node).isCast with
  | false => exact .of_not_cast stands isCast
  | true =>
      cases shape with
      | cast expression type =>
          exact .of_cast (expression.2 _ (Node.at?_part stands (List.mem_cons_self ..)))
      | _ => cases isCast

/-- Before a tree is printed, no rank is remembered and nothing is reported. -/
theorem startsMatching {state : PrinterState} (unset : state.role = .plain)
    (before : state.diagnostics = ledger.before) (untouched : state.ranks = ledger.untouched) :
    ledger.Matching none (NodePlace.below [] + 0) { state with ranks := {} } state where
  unset := unset
  alike := by rw [← untouched]
  remembers := ⟨List.nodup_nil, nofun⟩
  known := nofun
  once place := NodePlace.below_le [] place
  fresh _ _ := by simp [OrderedMap.keys]
  accounted := ⟨[], by simp [before], by simp [before], rfl,
    by simp [Ledger.notes, Ledger.unranked, OrderedMap.keys]⟩

/-- A whole tree is printed. -/
theorem tracks_tree {role : Role} (unasked : role ≠ .ranked) :
    Tracks ledger none (NodePlace.below [])
      (withRole role (ledger.tree.printNoting ledger.noting [])) (ledger.tree.printAs role) :=
  (isTracked ledger.tree [] rfl).tracked role unasked

end Printer

theorem Role.ofTree_ne_ranked (role : Role) : role.ofTree ≠ .ranked := by
  cases role <;> simp [ofTree]

namespace Node

/-- A tree is printed in the role that is set, and what was remembered before it is remembered
behind it. -/
theorem outcome_print_eq (node : Node) (settings : Settings) (state : PrinterState) :
    node.print.outcome settings state =
      match (Printer.withRole state.role.ofTree (node.printNoting false [])).outcome settings
        { state with role := .plain, ranks := {} } with
      | .ok (_, next) => .ok ((), { next with ranks := state.ranks })
      | .error diagnostic => .error diagnostic := by
  rw [Printer.outcome_withRole, printNoting_false, print, Printer.outcome_bind,
    Printer.outcome_get]
  dsimp only
  rw [Printer.outcome_bind, Printer.outcome_modify]
  dsimp only
  rw [Printer.outcome_bind]
  split <;> rename_i printed <;> rw [printed]
  rfl

/-- A node takes the role that is set, and leaves none behind. -/
theorem outcome_print (node : Node) (settings : Settings) (state : PrinterState) :
    node.print.outcome settings state =
        (node.printAs state.role.ofTree).outcome settings { state with role := .plain } ∧
      ∀ value next, node.print.outcome settings state = .ok (value, next) →
        next.role = .plain := by
  let ledger : Ledger := ⟨settings, node, false, state.diagnostics, state.ranks⟩
  have starts := @Printer.startsMatching ledger { state with role := .plain } rfl rfl rfl
  rcases @Printer.tracks_tree ledger _ state.role.ofTree_ne_ranked 0 _ _ starts with
    ⟨diagnostic, stops, alsoStops⟩ | ⟨value, next, otherNext, ends, alsoEnds, matching⟩
  · have stopsToo : node.print.outcome settings state = .error diagnostic := by
      rw [outcome_print_eq, stops]
    rw [stopsToo]
    exact ⟨alsoStops.symm, fun _ _ ends => by cases ends⟩
  · have endsToo : node.print.outcome settings state =
        .ok ((), { next with ranks := state.ranks }) := by
      rw [outcome_print_eq, ends]
    obtain ⟨log, isLog, isOther, accounts⟩ := matching.accounted
    have noNotes : log.filter Diagnostic.isNote = [] := by
      have noted := accounts.noted
      rwa [Ledger.notes, Ledger.notes, if_neg Bool.false_ne_true, if_neg Bool.false_ne_true,
        List.append_nil] at noted
    have problems : log.filter (!·.isNote) = log :=
      List.filter_eq_self.mpr fun diagnostic member => by
        simpa using List.filter_eq_nil_iff.mp noNotes diagnostic member
    have same : { next with ranks := state.ranks } = otherNext := by
      rw [matching.alike, isOther, problems, ← isLog]
    rw [endsToo, same]
    refine ⟨alsoEnds.symm, ?_⟩
    rintro value next ⟨⟩
    rw [← same]
    exact matching.unset

end Node

namespace Settings

/-- The generation of code in terms of the outcome of its printer. -/
theorem generate_eq (settings : Settings) (tree : Node) :
    settings.generate tree =
      match (tree.printAs .plain).outcome settings {} with
      | .ok (_, state) =>
          .ok ⟨state.types.prepend settings.file state.text.toString, state.diagnostics⟩
      | .error diagnostic => .error diagnostic := by
  have printed : tree.print.outcome settings {} = (tree.printAs .plain).outcome settings {} :=
    (tree.outcome_print settings {}).1
  rw [← printed]
  unfold generate Printer.outcome PrinterState.start
  split <;> rename_i found <;> rw [found]

/-- What is generated if the printer of the tree comes to its end. -/
theorem generate_of_ends {settings : Settings} {tree : Node} {value : Unit} {next : PrinterState}
    (ends : (tree.printAs .plain).outcome settings {} = .ok (value, next)) :
    settings.generate tree =
      .ok ⟨next.types.prepend settings.file next.text.toString, next.diagnostics⟩ := by
  rw [generate_eq, ends]

end Settings

end ScriptBridge

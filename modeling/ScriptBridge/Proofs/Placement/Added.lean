import ScriptBridge.Proofs.Balance.Trees
import ScriptBridge.Proofs.Printing.Casts

/-!
# Text that a construct adds

Every construct only adds to the text.  So the text of a construct can be cut at the
places where its parts were printed: in front of a part stands what was printed before,
and behind it what was printed later.
-/

namespace ScriptBridge

/-- Characters that are blanks, as indentation is. -/
def AreBlank (characters : List Char) : Prop :=
  ∀ character ∈ characters, character = ' '

namespace IndentedText

/-- A line that has begun goes on with the characters themselves. -/
theorem characters_foldl_put {added : List Char} (noLineEnd : ∀ character ∈ added, character ≠ '\n')
    {text : IndentedText} (within : text.atLineStart = false) :
    (added.foldl put text).characters = text.characters ++ added := by
  induction added generalizing text with
  | nil => simp
  | cons character rest ih =>
      obtain ⟨isVisible, others⟩ := List.forall_mem_cons.mp noLineEnd
      have isPut : (text.put character).characters = text.characters ++ [character] := by
        simp [put, isVisible, startLine, within, append, characters]
      have goesOn : (text.put character).atLineStart = false := by
        simp [put, isVisible, append]
      rw [List.foldl_cons, ih others goesOn, isPut, List.append_assoc]
      rfl

/-- Only indentation comes in front of a text, whose first line is written as it is. -/
theorem characters_write_cons (text : IndentedText) {added : String} {first : Char}
    {rest : List Char} (isAdded : added.toList = first :: rest) :
    ∃ lead later, AreBlank lead ∧
      (text.write added).characters = text.characters ++ lead ++ first :: later := by
  obtain ⟨lead, blank, isPut⟩ := characters_put text first
  have grows (rest : List Char) (text : IndentedText) :
      text.characters <+: (rest.foldl put text).characters := by
    simpa [write] using text.prefix_write (String.ofList rest)
  obtain ⟨later, isLater⟩ := grows rest (text.put first)
  refine ⟨lead, later, blank, ?_⟩
  rw [write, isAdded, List.foldl_cons, ← isLater, isPut]
  simp

/-- Within a line only indentation comes in front of what is written. -/
theorem characters_write_line (text : IndentedText) {added : String}
    (noLineEnd : '\n' ∉ added.toList) :
    ∃ lead, AreBlank lead ∧
      (text.write added).characters = text.characters ++ lead ++ added.toList := by
  unfold write
  generalize added.toList = characters at noLineEnd
  cases characters with
  | nil => exact ⟨[], fun _ place => absurd place List.not_mem_nil, by simp⟩
  | cons first rest =>
      obtain ⟨isFirst, others⟩ := List.forall_mem_cons.mp fun character place =>
        ne_of_mem_of_not_mem place noLineEnd
      obtain ⟨lead, blank, isPut⟩ := characters_put text first
      have goesOn : (text.put first).atLineStart = false := by
        simp [put, isFirst, append]
      refine ⟨lead, blank, ?_⟩
      rw [List.foldl_cons, characters_foldl_put others goesOn, isPut, List.append_assoc]
      rfl

theorem characters_mark_blank (text : IndentedText) :
    ∃ lead, AreBlank lead ∧ text.mark.1.characters = text.characters ++ lead := by
  unfold mark startLine
  split
  · exact ⟨text.indentation, fun _ place => List.eq_of_mem_replicate place,
      by simp [append, characters, indentation]⟩
  · exact ⟨[], fun _ place => absurd place List.not_mem_nil, by simp⟩

end IndentedText

namespace Printer

variable {settings : Settings} {Result Other : Type}

/-- A printer that takes nothing away from the text. -/
def Adds (settings : Settings) (printer : Printer Result) : Prop :=
  ∀ state value next, printer.outcome settings state = .ok (value, next) →
    state.text.characters <+: next.text.characters

/-- A printer that leads from every depth to the same depth adds to the text. -/
theorem Adds.of_leads {printer : Printer Result}
    (leads : ∀ origin depth, Leads settings False origin depth depth printer) :
    Adds settings printer := by
  intro state value next ends
  have stands : state.Stands False ⟨state.text.level, []⟩ :=
    ⟨rfl, False.elim, False.elim, False.elim⟩
  exact (leads state _ state value next (.refl state) stands ends).1.text

theorem Adds.pure (value : Result) : Adds settings (Pure.pure value) := by
  intro state result next ends
  cases ends
  exact List.prefix_rfl

theorem Adds.bind {printer : Printer Result} {rest : Result → Printer Other}
    (start : Adds settings printer) (behind : ∀ value, Adds settings (rest value)) :
    Adds settings (printer >>= rest) := by
  intro state value next ends
  rw [outcome_bind] at ends
  cases first : printer.outcome settings state with
  | error diagnostic =>
      rw [first] at ends
      cases ends
  | ok reached =>
      rw [first] at ends
      exact (start _ _ _ first).trans (behind reached.1 _ _ _ ends)

theorem Adds.write (added : String) : Adds settings (Printer.write added) := by
  intro state value next ends
  cases ends
  exact state.text.prefix_write added

theorem outcome_bind_eq_ok {printer : Printer Result} {rest : Result → Printer Other}
    {state next : PrinterState} {last : Other}
    (ends : (printer >>= rest).outcome settings state = .ok (last, next)) :
    ∃ value reached, printer.outcome settings state = .ok (value, reached) ∧
      (rest value).outcome settings reached = .ok (last, next) := by
  rw [outcome_bind] at ends
  cases first : printer.outcome settings state with
  | error diagnostic =>
      rw [first] at ends
      cases ends
  | ok reached =>
      rw [first] at ends
      exact ⟨reached.1, reached.2, rfl, ends⟩

/-- What is taken back is what the printer wrote behind the mark; the indentation stays. -/
theorem textOf_eq_ok {printer : Printer Unit} (adds : Adds settings printer) {text : String}
    {state next : PrinterState}
    (ends : (textOf printer).outcome settings state = .ok (text, next)) :
    ∃ reached : PrinterState,
      printer.outcome settings { state with text := state.text.mark.1 } = .ok ((), reached) ∧
      reached.text.characters = state.text.mark.1.characters ++ text.toList ∧
      next.scopes = reached.scopes ∧
      ∃ lead, AreBlank lead ∧ next.text.characters = state.text.characters ++ lead := by
  rw [outcome_textOf] at ends
  cases inner : printer.outcome settings { state with text := state.text.mark.1 } with
  | error diagnostic =>
      rw [inner] at ends
      cases ends
  | ok reached =>
      rw [inner] at ends
      cases ends
      obtain ⟨added, goesOn⟩ := adds _ _ _ inner
      obtain ⟨cut, -, taken⟩ := IndentedText.splitAt_append goesOn.symm
      obtain ⟨lead, blank, isMarked⟩ := state.text.characters_mark_blank
      refine ⟨reached.2, rfl, ?_, rfl, lead, blank, cut.trans isMarked⟩
      have isTaken : (reached.2.text.splitOff state.text.mark.2).2.toList = added := by
        rw [← taken]
        exact String.toList_ofList
      rw [isTaken]
      exact goesOn.symm

/-- Texts that are written one behind the other. -/
theorem write_bind_write (first second : String) (rest : Unit → Printer Result) :
    (do write first; write second >>= rest) = write (first ++ second) >>= rest := by
  apply ext_outcome
  intro settings state
  simp [IndentedText.write, List.foldl_append]

/-- Whenever the printer comes to its end, it has printed the part at hand between the two
texts, with nothing but indentation in between. -/
def Shows (settings : Settings) (part : Printer Unit) (opening closing : String)
    (printer : Printer Result) : Prop :=
  ∀ state value next, printer.outcome settings state = .ok (value, next) →
    ∃ reached left : PrinterState, part.outcome settings reached = .ok ((), left) ∧
      ∃ before lead behind, AreBlank lead ∧
        reached.text.characters = state.text.characters ++ before ++ opening.toList ∧
        next.text.characters = left.text.characters ++ lead ++ closing.toList ++ behind

namespace Shows

variable {part : Printer Unit} {opening closing : String}

theorem within (opensLine : '\n' ∉ opening.toList) (closesLine : '\n' ∉ closing.toList)
    {rest : Unit → Printer Result} (adds : ∀ value, Adds settings (rest value)) :
    Shows settings part opening closing (do
      Printer.write opening
      part
      Printer.write closing >>= rest) := by
  intro state value next ends
  obtain ⟨_, opened, isOpened, goesOn⟩ := outcome_bind_eq_ok ends
  obtain ⟨_, left, printed, goesOn⟩ := outcome_bind_eq_ok goesOn
  obtain ⟨_, closed, isClosed, last⟩ := outcome_bind_eq_ok goesOn
  obtain ⟨later, isLater⟩ := adds _ _ _ _ last
  cases isOpened
  cases isClosed
  obtain ⟨lead, -, isOpening⟩ := state.text.characters_write_line opensLine
  obtain ⟨shift, blank, isClosing⟩ := left.text.characters_write_line closesLine
  exact ⟨_, left, printed, lead, shift, later, blank, isOpening, by rw [← isLater, isClosing]⟩

theorem between (opensLine : '\n' ∉ opening.toList) (closesLine : '\n' ∉ closing.toList) :
    Shows settings part opening closing (do
      Printer.write opening
      part
      Printer.write closing) := by
  have all : Shows settings part opening closing (do
      Printer.write opening
      part
      Printer.write closing >>= fun value => Pure.pure value) :=
    within opensLine closesLine fun value => .pure value
  simpa only [bind_pure] using all

/-- The part may stand at the very end. -/
theorem behind (opensLine : '\n' ∉ opening.toList) :
    Shows settings part opening "" (do
      Printer.write opening
      part) := by
  intro state value next ends
  obtain ⟨_, opened, isOpened, printed⟩ := outcome_bind_eq_ok ends
  cases isOpened
  obtain ⟨lead, -, isOpening⟩ := state.text.characters_write_line opensLine
  exact ⟨_, next, printed, lead, [], [], fun _ place => absurd place List.not_mem_nil, isOpening,
    by simp⟩

/-- Something is printed in front. -/
theorem after {first : Printer Other} {rest : Other → Printer Result}
    (adds : Adds settings first)
    (shows : ∀ state value next, first.outcome settings state = .ok (value, next) →
      Shows settings part opening closing (rest value)) :
    Shows settings part opening closing (first >>= rest) := by
  intro state value next ends
  obtain ⟨early, middle, isFirst, ends⟩ := outcome_bind_eq_ok ends
  obtain ⟨added, isAdded⟩ := adds _ _ _ isFirst
  obtain ⟨reached, left, printed, before, lead, later, blank, isReached, isNext⟩ :=
    shows _ _ _ isFirst _ _ _ ends
  refine ⟨reached, left, printed, added ++ before, lead, later, blank, ?_, isNext⟩
  rw [isReached, ← isAdded, List.append_assoc state.text.characters]

/-- Something is printed behind. -/
theorem andThen {first : Printer Result} {rest : Result → Printer Other}
    (shows : Shows settings part opening closing first)
    (adds : ∀ value, Adds settings (rest value)) :
    Shows settings part opening closing (first >>= rest) := by
  intro state value next ends
  obtain ⟨early, middle, isFirst, ends⟩ := outcome_bind_eq_ok ends
  obtain ⟨added, isAdded⟩ := adds early _ _ _ ends
  obtain ⟨reached, left, printed, before, lead, later, blank, isReached, isMiddle⟩ :=
    shows _ _ _ isFirst
  refine ⟨reached, left, printed, before, lead, later ++ added, blank, isReached, ?_⟩
  rw [← isAdded, isMiddle, List.append_assoc _ later]

/-- One of several items with commas between them. -/
theorem separated {Item : Type} {print : Item → Printer Unit} {item : Item}
    (earlier : List Item) {later : List Item}
    (shows : Shows settings part opening closing (print item))
    (addsEarlier : ∀ other ∈ earlier, Adds settings (print other))
    (addsLater : Adds settings (Printer.separated print later)) :
    Shows settings part opening closing
      (Printer.separated print (earlier ++ item :: later)) := by
  induction earlier with
  | nil =>
      cases later with
      | nil => exact shows
      | cons next rest =>
          exact shows.andThen fun _ => (Adds.write ", ").bind fun _ => addsLater
  | cons first rest ih =>
      obtain ⟨ofFirst, others⟩ := List.forall_mem_cons.mp addsEarlier
      have inside := ih others
      cases rest with
      | nil => exact after ofFirst fun _ _ _ _ => after (.write ", ") fun _ _ _ _ => inside
      | cons next rest =>
          exact after ofFirst fun _ _ _ _ => after (.write ", ") fun _ _ _ _ => inside

end Shows

end Printer

/-- Without following brackets, every node is balanced. -/
theorem Node.balanced_toPart (settings : Settings) (node : Node) :
    node.toPart.Balanced settings False :=
  node.balanced False.elim False.elim

theorem Node.balanced_of_mem_map {settings : Settings} {nodes : List Node} :
    ∀ part ∈ nodes.map toPart, part.Balanced settings False := by
  intro part member
  obtain ⟨node, -, rfl⟩ := List.mem_map.mp member
  exact node.balanced_toPart settings

theorem Node.balanced_of_map {settings : Settings} {node : Option Node} :
    ∀ part ∈ node.map toPart, part.Balanced settings False := by
  intro part isPart
  obtain ⟨present, -, rfl⟩ := Option.map_eq_some_iff.mp isPart
  exact present.balanced_toPart settings

/-- A node as the callee of a construction is not written as one of the two names for which
something else is written. -/
def Node.IsKeptCallee (settings : Settings) (callee : Node) : Prop :=
  ∀ rank state text next,
    (Printer.textOf (Printer.constructed rank callee.toPart)).outcome settings state =
      .ok (text, next) → text ≠ "Array" ∧ text ≠ "RegExp"

namespace Printer

variable {settings : Settings} {Result : Type}

theorem adds_modifyScopes (change : ScopeStack → ScopeStack) :
    Adds settings (modifyScopes change) := by
  intro state value next ends
  cases ends
  exact List.prefix_rfl

/-- Looking up a rank at most raises a diagnostic. -/
theorem lookUpRank_eq_ok {place : Position} {pattern : Option String} {rank : Rank}
    {state next : PrinterState}
    (ends : (lookUpRank place pattern).outcome settings state = .ok (rank, next)) :
    rank = (pattern.map Precedence.rankOf).getD Precedence.primary ∧
      ∃ diagnostics, next = { state with diagnostics } := by
  cases pattern with
  | none =>
      cases ends
      exact ⟨rfl, state.diagnostics, rfl⟩
  | some pattern =>
      dsimp only [lookUpRank] at ends
      rw [Option.map_some, Option.getD_some]
      unfold Precedence.rankOf
      cases known : Precedence.rank? pattern with
      | some listed =>
          rw [known] at ends
          cases ends
          exact ⟨rfl, state.diagnostics, rfl⟩
      | none =>
          rw [known] at ends
          obtain ⟨_, reached, reported, last⟩ := outcome_bind_eq_ok ends
          cases last
          rw [outcome_report] at reported
          dsimp only at reported
          split at reported
          · cases reported
          · cases reported
            exact ⟨rfl, _, rfl⟩

theorem rank_eq_getD {Part : Type} (shape : Shape Part) :
    shape.rank = (shape.operatorPattern?.map Precedence.rankOf).getD Precedence.primary := by
  unfold Shape.rank
  cases shape.operatorPattern? <;> rfl

/-- The rank of a construct is the one of its shape, whether it is known or not. -/
theorem ownRank_eq_ok {role : Role} {place : Position} {shape : Shape Part} {rank : Rank}
    {state next : PrinterState}
    (ends : (ownRank role place shape).outcome settings state = .ok (rank, next)) :
    rank = shape.rank ∧ ∃ diagnostics, next = { state with diagnostics } := by
  unfold ownRank at ends
  split at ends
  · cases ends
    exact ⟨rfl, state.diagnostics, rfl⟩
  · rw [rank_eq_getD]
    exact lookUpRank_eq_ok ends

/-- The rank of an operand is the one of the expression under its casts. -/
theorem rankOf_eq_ok {node : Node} {rank : Rank} {state next : PrinterState}
    (ends : (rankOf node.toPart).outcome settings state = .ok (rank, next)) :
    rank = node.underCasts.shape.rank ∧ ∃ diagnostics, next = { state with diagnostics } := by
  rw [rank_eq_getD]
  exact lookUpRank_eq_ok ends

theorem adds_ownRank (role : Role) (place : Position) (shape : Shape Part) :
    Adds settings (ownRank role place shape) :=
  .of_leads fun _ _ => .ownRank role place shape

theorem adds_declaredType (type : Option Node) :
    Adds settings (declaredType (type.map Node.toPart)) :=
  .of_leads fun _ _ => .declaredType Node.balanced_of_map

theorem adds_parameters (params : List Node) :
    Adds settings (parameters (params.map Node.toPart)) :=
  .of_leads fun _ _ => .parameters Node.balanced_of_mem_map

theorem adds_operand (kind : Operand) (parent : Rank) (node : Node) :
    Adds settings (operand kind parent node.toPart) :=
  .of_leads fun _ _ => .operand kind parent (node.balanced_toPart settings)

theorem Shows.withinFunction {part printer : Printer Unit} {opening closing : String}
    (name : String) (isMethod isStatic : Bool)
    (shows : Shows settings part opening closing printer) :
    Shows settings part opening closing (withinFunction name isMethod isStatic printer) :=
  .after (adds_modifyScopes _) fun _ _ _ _ => shows.andThen fun _ => adds_modifyScopes _

end Printer

end ScriptBridge

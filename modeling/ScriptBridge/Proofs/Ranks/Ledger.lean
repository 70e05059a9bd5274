import Mathlib.Algebra.Order.Pi
import Mathlib.Logic.Equiv.List
import ScriptBridge.Proofs.Qualification.Simulation
import ScriptBridge.Proofs.Tree.Places

/-!
# Remembered ranks

A printer that remembers ranks is run side by side with one that goes by roles, which
tell an operand that its rank was asked for.  A ledger relates the two: the first
remembers the rank of every place where one was asked for, every operator without a rank
among these places is reported once, and those that were printed are noted.

Each printer uses some places and leaves the others alone.  Printers that follow one
another use different places, so no rank was asked for before it is asked for by the
construct around a place, or by the construct at the place itself.
-/

namespace ScriptBridge

/-! ## Operators without a rank -/

/-- An operator without a rank, at its place. -/
structure UnrankedOperator where
  place : Position
  pattern : String
  deriving DecidableEq, Repr

/-- What is reported of an operator without a rank. -/
def UnrankedOperator.report (operator : UnrankedOperator) (file : String) : Diagnostic :=
  .about .unrankedOperator file operator.place [operator.pattern]

/-- The operator with the given pattern, if there is one, that has no rank. -/
def UnrankedOperator.of? (place : Position) (pattern : Option String) :
    Option UnrankedOperator :=
  (pattern.filter fun pattern => (Precedence.rank? pattern).isNone).map (⟨place, ·⟩)

/-- Whether a shape is a unary, update, binary, logical or assignment expression. -/
def Shape.isOperator {Part : Type} : Shape Part → Bool
  | .unary _ _ _ _ => true
  | .binary _ _ _ _ => true
  | _ => false

/-- The operator of a unary, update, binary, logical or assignment expression, if it has no
rank. -/
def Node.unranked? (node : Node) : Option UnrankedOperator :=
  if node.shape.isOperator then
    UnrankedOperator.of? node.location.start node.shape.operatorPattern?
  else none

/-- The operator without a rank at a place. -/
def Node.unrankedAt? (tree : Node) (place : NodePlace) : Option UnrankedOperator :=
  (tree.at? place).bind unranked?

/-- Each rank is remembered once, and it is the rank of the node at its place. -/
structure Node.Remembers (tree : Node) (ranks : OrderedMap NodePlace Rank) : Prop where
  distinct : ranks.keys.Nodup
  right : ∀ entry ∈ ranks.entries,
    ∃ node, tree.at? entry.1 = some node ∧ entry.2 = node.shape.rank

/-- Whether a diagnostic is no note and reports an operator without a rank. -/
def Diagnostic.isRankReport (diagnostic : Diagnostic) : Bool :=
  !diagnostic.isNote && diagnostic.code == Problem.unrankedOperator.code

/-- The reports of operators without a rank in a log. -/
def rankReportsIn (log : List Diagnostic) : List Diagnostic :=
  log.filter Diagnostic.isRankReport

/-! ## Printed operators

Trees are printed once more, and the place of every operator without a rank is noted when
the operator is printed.  As elsewhere, the notes are kept among the diagnostics, as
messages, and are told apart from the problems at the end. -/

namespace NodePlace

/-- The form in which the place of a printed operator is kept. -/
def toNote (place : NodePlace) : Diagnostic :=
  ⟨"", 0, Encodable.encode (place.map fun step => (step.field, step.index)), "", .message, 0⟩

/-- The place that is kept in this form. -/
def ofNote? (diagnostic : Diagnostic) : Option NodePlace :=
  if diagnostic.isNote then
    (Encodable.decode diagnostic.column : Option (List (Nat × Nat))).map
      (·.map fun step => ⟨step.1, step.2⟩)
  else none

theorem ofNote?_toNote (place : NodePlace) : ofNote? place.toNote = some place := by
  have isNote : place.toNote.isNote = true := rfl
  rw [ofNote?, if_pos isNote, toNote, Encodable.encodek, Option.map_some, List.map_map]
  exact congrArg some (List.map_id place)

end NodePlace

/-- Note the place of a node if it is an operator without a rank, and if this is wanted. -/
def Printer.notePrinted (noting : Bool) (place : NodePlace) (node : Node) : Printer Unit :=
  if noting && node.unranked?.isSome then
    modify fun state => { state with diagnostics := state.diagnostics ++ [place.toNote] }
  else pure ()

/-- Print the node at a place, and note the operators without a rank if this is wanted. -/
def Node.printNoting (noting : Bool) (node : Node) : NodePlace → Printer Unit :=
  node.fold fun location shape place => do
    Printer.notePrinted noting place ⟨location, shape.map (·.node)⟩
    Printer.constructAt location shape place

/-- Generated code, the places of the operators without a rank in the order in which they were
printed, and the remembered ranks in the order in which they were first looked up. -/
structure Noted where
  generated : Generated
  printed : List NodePlace
  ranks : OrderedMap NodePlace Rank

/-- Generate the code of a tree, and note what is printed. -/
def Settings.generateNoting (settings : Settings) (tree : Node) : Except Diagnostic Noted :=
  match (tree.printNoting true []).run settings |>.run .start with
  | .error diagnostic => .error diagnostic
  | .ok (_, state) => .ok {
      generated := ⟨state.types.prepend settings.file state.text.toString,
        state.diagnostics.filter (!·.isNote)⟩
      printed := state.diagnostics.filterMap NodePlace.ofNote?
      ranks := state.ranks }

/-! ## Ledgers -/

/-- What does not change while a tree is printed: the settings, the tree, whether printed
operators are noted, and what was reported before.  The printer that goes by roles does not
look at the ranks in its state. -/
structure Ledger where
  settings : Settings
  tree : Node
  noting : Bool
  before : List Diagnostic
  untouched : OrderedMap NodePlace Rank

namespace Ledger

variable (ledger : Ledger)

/-- The operators without a rank at some places. -/
def unranked (places : List NodePlace) : List NodePlace :=
  places.filter fun place => (ledger.tree.unrankedAt? place).isSome

/-- The reports of the operators without a rank at some places. -/
def reports (places : List NodePlace) : List Diagnostic :=
  (places.filterMap ledger.tree.unrankedAt?).map (·.report ledger.settings.file)

/-- The notes of the operators without a rank at some places. -/
def notes (places : List NodePlace) : List Diagnostic :=
  if ledger.noting then (ledger.unranked places).map NodePlace.toNote else []

/-- A log reports the operators at the places where a rank was asked for.  It notes them,
but for one that is about to be printed. -/
structure Accounts (due : Option NodePlace) (asked : List NodePlace) (log : List Diagnostic) :
    Prop where
  reported : rankReportsIn log = ledger.reports asked
  noted : log.filter Diagnostic.isNote ++ ledger.notes due.toList = ledger.notes asked

/-- The states of a printer that remembers ranks and of one that goes by roles.  They are
alike, the rank of a due place is remembered, and that of a free place is not. -/
structure Matching (due : Option NodePlace) (free : NodePlace → Nat)
    (state other : PrinterState) : Prop where
  unset : state.role = .plain
  alike : other =
    { state with ranks := ledger.untouched, diagnostics := other.diagnostics }
  remembers : ledger.tree.Remembers state.ranks
  known : ∀ place ∈ due, place ∈ state.ranks.keys
  once : ∀ place, free place ≤ 1
  fresh : ∀ place, free place ≠ 0 → place ∉ state.ranks.keys
  accounted : ∃ log, state.diagnostics = ledger.before ++ log ∧
    other.diagnostics = ledger.before ++ log.filter (!·.isNote) ∧
    ledger.Accounts due state.ranks.keys log

variable {ledger}

theorem unranked_append (places others : List NodePlace) :
    ledger.unranked (places ++ others) = ledger.unranked places ++ ledger.unranked others :=
  List.filter_append ..

theorem reports_append (places others : List NodePlace) :
    ledger.reports (places ++ others) = ledger.reports places ++ ledger.reports others := by
  simp [reports]

theorem notes_append (places others : List NodePlace) :
    ledger.notes (places ++ others) = ledger.notes places ++ ledger.notes others := by
  unfold notes
  split
  · rw [unranked_append, List.map_append]
  · rfl

/-- Nothing is noted of a place without such an operator. -/
theorem notes_of_none {place : NodePlace} (ranked : ledger.tree.unrankedAt? place = none) :
    ledger.notes [place] = [] := by
  simp [notes, unranked, ranked]

/-- A report of an operator without a rank is such a report, and no note. -/
theorem mem_reports {places : List NodePlace} {diagnostic : Diagnostic}
    (member : diagnostic ∈ ledger.reports places) :
    diagnostic.isRankReport = true ∧ diagnostic.isNote = false := by
  obtain ⟨operator, -, rfl⟩ := List.mem_map.mp member
  exact ⟨beq_self_eq_true Problem.unrankedOperator.code, rfl⟩

theorem rankReportsIn_reports (places : List NodePlace) :
    rankReportsIn (ledger.reports places) = ledger.reports places :=
  List.filter_eq_self.mpr fun _ member => (mem_reports member).1

theorem notesIn_reports (places : List NodePlace) :
    (ledger.reports places).filter Diagnostic.isNote = [] :=
  List.filter_eq_nil_iff.mpr fun _ member => by simp [(mem_reports member).2]

theorem problemsIn_reports (places : List NodePlace) :
    (ledger.reports places).filter (!·.isNote) = ledger.reports places :=
  List.filter_eq_self.mpr fun _ member => by simp [(mem_reports member).2]

/-- A note is neither a problem nor a report. -/
theorem mem_notes {places : List NodePlace} {diagnostic : Diagnostic}
    (member : diagnostic ∈ ledger.notes places) :
    diagnostic.isRankReport = false ∧ diagnostic.isNote = true := by
  unfold notes at member
  split at member
  · obtain ⟨place, -, rfl⟩ := List.mem_map.mp member
    exact ⟨rfl, rfl⟩
  · cases member

theorem rankReportsIn_notes (places : List NodePlace) :
    rankReportsIn (ledger.notes places) = [] :=
  List.filter_eq_nil_iff.mpr fun _ member => by simp [(mem_notes member).1]

theorem notesIn_notes (places : List NodePlace) :
    (ledger.notes places).filter Diagnostic.isNote = ledger.notes places :=
  List.filter_eq_self.mpr fun _ member => (mem_notes member).2

theorem problemsIn_notes (places : List NodePlace) :
    (ledger.notes places).filter (!·.isNote) = [] :=
  List.filter_eq_nil_iff.mpr fun _ member => by simp [(mem_notes member).2]

namespace Matching

variable {due : Option NodePlace} {free fewer : NodePlace → Nat} {state other : PrinterState}

theorem alike_withLog (matching : ledger.Matching due free state other) (log : List Diagnostic) :
    { other with diagnostics := log } =
      { state with ranks := ledger.untouched, diagnostics := log } :=
  congrArg (fun state : PrinterState => { state with diagnostics := log }) matching.alike

theorem less (matching : ledger.Matching due free state other)
    (less : ∀ place, fewer place ≤ free place) : ledger.Matching due fewer state other :=
  { matching with
    once := fun place => Nat.le_trans (less place) (matching.once place)
    fresh := fun place isFree =>
      matching.fresh place fun none => isFree (Nat.le_zero.mp (none ▸ less place)) }

/-- What does not touch the role, the ranks and the diagnostics. -/
theorem changed (change : PrinterState → PrinterState)
    (blind : ∀ state ranks diagnostics,
      change { state with ranks, diagnostics } = { change state with ranks, diagnostics })
    (keepsRole : ∀ state, (change state).role = state.role)
    (matching : ledger.Matching due free state other) :
    ledger.Matching due free (change state) (change other) := by
  have untouched : change state =
      { change state with ranks := state.ranks, diagnostics := state.diagnostics } :=
    blind state state.ranks state.diagnostics
  have same : change other =
      { change state with ranks := ledger.untouched, diagnostics := other.diagnostics } :=
    (congrArg change matching.alike).trans (blind state _ _)
  have ranks : (change state).ranks = state.ranks := by rw [untouched]
  have log : (change state).diagnostics = state.diagnostics := by rw [untouched]
  have otherLog : (change other).diagnostics = other.diagnostics := by rw [same]
  exact {
    unset := (keepsRole state).trans matching.unset
    alike := by rw [otherLog]; exact same
    remembers := ranks ▸ matching.remembers
    known := ranks ▸ matching.known
    once := matching.once
    fresh := ranks ▸ matching.fresh
    accounted := by rw [log, otherLog, ranks]; exact matching.accounted }

theorem withText (text : IndentedText) (matching : ledger.Matching due free state other) :
    ledger.Matching due free { state with text } { other with text } :=
  matching.changed (fun state => { state with text }) (fun _ _ _ => rfl) fun _ => rfl

/-- A problem of another kind. -/
theorem reported {diagnostic : Diagnostic} (isProblem : diagnostic.isNote = false)
    (otherKind : diagnostic.isRankReport = false)
    (matching : ledger.Matching due free state other) :
    ledger.Matching due free
      { state with diagnostics := state.diagnostics ++ [diagnostic] }
      { other with diagnostics := other.diagnostics ++ [diagnostic] } := by
  obtain ⟨log, isLog, isOther, accounts⟩ := matching.accounted
  refine { matching with
    alike := matching.alike_withLog _
    accounted := ⟨log ++ [diagnostic], ?_, ?_, ?_, ?_⟩ }
  · rw [isLog, List.append_assoc]
  · rw [isOther, List.filter_append, List.append_assoc]
    simp [isProblem]
  · rw [rankReportsIn, List.filter_append, ← rankReportsIn, accounts.reported]
    simp [otherKind]
  · rw [List.filter_append, ← accounts.noted]
    simp [isProblem]

/-- What is due is printed, and noted if this is wanted. -/
theorem printed {place : NodePlace} (matching : ledger.Matching (some place) free state other) :
    ledger.Matching none free
      { state with diagnostics := state.diagnostics ++ ledger.notes [place] } other := by
  obtain ⟨log, isLog, isOther, accounts⟩ := matching.accounted
  refine { matching with
    known := nofun
    accounted := ⟨log ++ ledger.notes [place], ?_, ?_, ?_, ?_⟩ }
  · rw [isLog, List.append_assoc]
  · rw [isOther, List.filter_append, problemsIn_notes, List.append_nil]
  · rw [rankReportsIn, List.filter_append, ← rankReportsIn, ← rankReportsIn, rankReportsIn_notes,
      List.append_nil, accounts.reported]
  · rw [List.filter_append, notesIn_notes, ← accounts.noted]
    simp [notes, unranked]

/-- What is due is left out if it is no operator without a rank. -/
theorem dropped {place : NodePlace} (ranked : ledger.tree.unrankedAt? place = none)
    (matching : ledger.Matching (some place) free state other) :
    ledger.Matching none free state other := by
  have printed := matching.printed
  rwa [notes_of_none ranked, List.append_nil] at printed

/-- A rank is looked up at a free place and remembered. -/
theorem asked {place : NodePlace} {node : Node} {next : Option NodePlace}
    {added problems : List Diagnostic} (stands : ledger.tree.at? place = some node)
    (isFree : free place = fewer place + 1) (less : ∀ place, fewer place ≤ free place)
    (reported : rankReportsIn added = ledger.reports [place])
    (noted : added.filter Diagnostic.isNote ++ ledger.notes next.toList = ledger.notes [place])
    (reports : added.filter (!·.isNote) = problems) (due : ∀ later ∈ next, later = place)
    (matching : ledger.Matching none free state other) :
    ledger.Matching next fewer
      { state with
        diagnostics := state.diagnostics ++ added
        ranks := state.ranks.insert place node.shape.rank }
      { other with diagnostics := other.diagnostics ++ problems } := by
  have fresh : place ∉ state.ranks.keys := matching.fresh place (by omega)
  have entries : (state.ranks.insert place node.shape.rank).entries =
      state.ranks.entries ++ [(place, node.shape.rank)] :=
    OrderedMap.putEntry_of_notMem _ fresh
  have keys : (state.ranks.insert place node.shape.rank).keys = state.ranks.keys ++ [place] := by
    rw [OrderedMap.keys, entries, List.map_append]
    rfl
  have only : fewer place = 0 := by
    have := matching.once place
    omega
  obtain ⟨log, isLog, isOther, accounts⟩ := matching.accounted
  refine {
    unset := matching.unset
    alike := matching.alike_withLog _
    remembers := ⟨OrderedMap.nodup_putEntry _ _ matching.remembers.distinct, ?_⟩
    known := ?_
    once := fun place => Nat.le_trans (less place) (matching.once place)
    fresh := ?_
    accounted := ⟨log ++ added, ?_, ?_, ?_, ?_⟩ }
  · rintro entry member
    rw [entries, List.mem_append, List.mem_singleton] at member
    rcases member with before | rfl
    · exact matching.remembers.right entry before
    · exact ⟨node, stands, rfl⟩
  · intro later isDue
    rw [keys, due later isDue]
    simp
  · intro later stillFree member
    rw [keys, List.mem_append, List.mem_singleton] at member
    rcases member with before | rfl
    · exact matching.fresh later (by have := less later; omega) before
    · exact stillFree only
  · rw [isLog, List.append_assoc]
  · rw [isOther, List.filter_append, List.append_assoc, reports]
  · rw [rankReportsIn, List.filter_append, ← rankReportsIn, ← rankReportsIn, accounts.reported,
      reported, keys, reports_append]
  · have before := accounts.noted
    rw [Option.toList_none] at before
    rw [List.filter_append, List.append_assoc, noted, keys, notes_append, ← before]
    simp [notes, unranked]

end Matching

end Ledger

namespace Printer

variable {ledger : Ledger} {Result Other : Type}

/-- Printers that lead from matching states to matching states, whatever is due and free. -/
def Keeps (ledger : Ledger) (first second : Printer Result) : Prop :=
  ∀ due free,
    Simulates ledger.settings (ledger.Matching due free) (ledger.Matching due free) first second

/-- Printers that ask for the ranks of some free places, and leave the other ones free.  What
is due is printed. -/
def Tracks (ledger : Ledger) (due : Option NodePlace) (used : NodePlace → Nat)
    (first second : Printer Result) : Prop :=
  ∀ frame,
    Simulates ledger.settings (ledger.Matching due (used + frame)) (ledger.Matching none frame)
      first second

namespace Keeps

/-- A printer that neither looks at the role, the ranks and the diagnostics nor touches them. -/
theorem modify {change : PrinterState → PrinterState}
    (blind : ∀ state ranks diagnostics,
      change { state with ranks, diagnostics } = { change state with ranks, diagnostics })
    (keepsRole : ∀ state, (change state).role = state.role) :
    Keeps ledger (modify change : Printer PUnit) (modify change) :=
  fun _ _ => Simulates.ofChanges _ _ fun _ _ => .changed _ blind keepsRole

theorem bind {first second : Printer Result} {firstRest secondRest : Result → Printer Other}
    (start : Keeps ledger first second)
    (rest : ∀ value, Keeps ledger (firstRest value) (secondRest value)) :
    Keeps ledger (first >>= firstRest) (second >>= secondRest) :=
  fun due free => (start due free).bind fun value => rest value due free

/-- What keeps matching states uses no place. -/
theorem tracks {first second : Printer Result} (keeps : Keeps ledger first second) :
    Tracks ledger none 0 first second := by
  intro frame
  rw [zero_add]
  exact keeps none frame

variable {due : Option NodePlace} {used : NodePlace → Nat}

/-- What keeps matching states comes first. -/
theorem beforeRest {first second : Printer Result} {firstRest secondRest : Result → Printer Other}
    (keeps : Keeps ledger first second)
    (behind : ∀ value, Tracks ledger due used (firstRest value) (secondRest value)) :
    Tracks ledger due used (first >>= firstRest) (second >>= secondRest) :=
  fun frame => (keeps due _).bind fun value => behind value frame

theorem before {first second : Printer Unit} {firstRest secondRest : Printer Result}
    (keeps : Keeps ledger first second)
    (behind : Tracks ledger due used firstRest secondRest) :
    Tracks ledger due used (do first; firstRest) (do second; secondRest) :=
  keeps.beforeRest fun _ => behind

end Keeps

namespace Tracks

variable {due : Option NodePlace} {used further : NodePlace → Nat}

theorem atMost {first second : Printer Result} (tracks : Tracks ledger due used first second)
    (enough : used ≤ further) : Tracks ledger due further first second :=
  fun frame state other matching =>
    tracks frame state other (matching.less fun place => Nat.add_le_add_right (enough place) _)

theorem bind {first second : Printer Result} {firstRest secondRest : Result → Printer Other}
    (start : Tracks ledger due used first second)
    (behind : ∀ value, Tracks ledger none further (firstRest value) (secondRest value)) :
    Tracks ledger due (used + further) (first >>= firstRest) (second >>= secondRest) := by
  intro frame
  rw [add_assoc]
  exact (start (further + frame)).bind fun value => behind value frame

/-- Printers follow one another. -/
theorem andThen {first second : Printer Unit} {firstRest secondRest : Printer Result}
    (start : Tracks ledger due used first second)
    (behind : Tracks ledger none further firstRest secondRest) :
    Tracks ledger due (used + further) (do first; firstRest) (do second; secondRest) :=
  start.bind fun _ => behind

/-- What keeps matching states comes last. -/
theorem closingWith {first second : Printer Result}
    {firstRest secondRest : Result → Printer Other} (start : Tracks ledger due used first second)
    (keeps : ∀ value, Keeps ledger (firstRest value) (secondRest value)) :
    Tracks ledger due used (first >>= firstRest) (second >>= secondRest) :=
  fun frame => (start frame).bind fun value => keeps value none frame

theorem closing {first second : Printer Unit} {firstRest secondRest : Printer Result}
    (start : Tracks ledger due used first second) (keeps : Keeps ledger firstRest secondRest) :
    Tracks ledger due used (do first; firstRest) (do second; secondRest) :=
  start.closingWith fun _ => keeps

/-- One of two printers. -/
theorem choice {condition : Prop} [Decidable condition] {first second other next : Printer Result}
    (yes : Tracks ledger due used first second) (no : Tracks ledger due used other next) :
    Tracks ledger due used (if condition then first else other)
      (if condition then second else next) := by
  split
  · exact yes
  · exact no

end Tracks

/-! ## Primitive printers -/

namespace Remembering

theorem pure (value : Result) : Keeps ledger (Pure.pure value) (Pure.pure value) :=
  fun _ _ => Simulates.pure value

theorem modifyText (change : IndentedText → IndentedText) :
    Keeps ledger (modifyText change) (modifyText change) :=
  .modify (fun _ _ _ => rfl) fun _ => rfl

theorem modifyScopes (change : ScopeStack → ScopeStack) :
    Keeps ledger (modifyScopes change) (modifyScopes change) :=
  .modify (fun _ _ _ => rfl) fun _ => rfl

theorem modifyTypes (change : TypeImports → TypeImports) :
    Keeps ledger (modifyTypes change) (modifyTypes change) :=
  .modify (fun _ _ _ => rfl) fun _ => rfl

theorem write (added : String) : Keeps ledger (write added) (write added) :=
  modifyText _

theorem writeVerbatim (added : String) : Keeps ledger (writeVerbatim added) (writeVerbatim added) :=
  modifyText _

theorem writeIf (condition : Bool) (added : String) :
    Keeps ledger (writeIf condition added) (writeIf condition added) := by
  unfold Printer.writeIf
  split
  · exact write added
  · exact pure ()

theorem newLine : Keeps ledger newLine newLine :=
  modifyText _

theorem indent : Keeps ledger indent indent :=
  modifyText _

theorem dedent : Keeps ledger dedent dedent :=
  modifyText _

theorem truncate (length : Nat) : Keeps ledger (truncate length) (truncate length) :=
  modifyText _

theorem length : Keeps ledger length length := by
  intro due free state other matching
  refine .inr ⟨_, _, _, rfl, ?_, matching⟩
  rw [outcome_length, matching.alike]

theorem options : Keeps ledger options options :=
  fun _ _ _ _ matching => .inr ⟨_, _, _, rfl, rfl, matching⟩

theorem partName? {first second : Part} (same : first.node = second.node) :
    Keeps ledger (partName? first) (partName? second) := by
  unfold Printer.partName?
  rw [same]
  exact options.bind fun _ => pure _

theorem methodName? (kind : MethodKind) {first second : Part} (same : first.node = second.node) :
    Keeps ledger (methodName? kind first) (methodName? kind second) := by
  unfold Printer.methodName?
  split
  · exact pure _
  · exact partName? same

theorem name (role : Role) (source : String) :
    Keeps ledger (name role source) (name role source) := by
  intro due free state other matching
  have scopes : other.scopes = state.scopes := by rw [matching.alike]
  have receives := (write
    ((state.scopes.qualifier ledger.settings.index
      (ledger.settings.options.renameIdentifier source)).getD "")).bind
    (fun _ => write (ledger.settings.options.renameIdentifier source)) due free state other matching
  cases role with
  | typeName =>
      rw [outcome_name_typeName, outcome_name_typeName]
      exact ((modifyTypes _).bind fun _ => write _) due free state other matching
  | parameter =>
      rw [outcome_name_parameter, outcome_name_parameter]
      exact ((modifyScopes _).bind fun _ => write _) due free state other matching
  | declaredName =>
      rw [outcome_name_declaredName, outcome_name_declaredName]
      exact ((modifyScopes _).bind fun _ => write _) due free state other matching
  | memberName =>
      rw [outcome_name_label (.inl rfl), outcome_name_label (.inl rfl)]
      exact write _ due free state other matching
  | key =>
      rw [outcome_name_label (.inr rfl), outcome_name_label (.inr rfl)]
      exact write _ due free state other matching
  | plain | ranked | exported | block prologue | method owner isConstructor isAbstract =>
      rw [outcome_name rfl, outcome_name rfl, scopes]
      exact receives

/-- Other problems than operators without a rank are not accounted for. -/
theorem report {problem : Problem} (other : problem ≠ .unrankedOperator) (place : Position)
    (arguments : List String) :
    Keeps ledger (report problem place arguments) (report problem place arguments) := by
  intro due free state otherState matching
  have isProblem : (Diagnostic.about problem ledger.settings.file place arguments).isNote =
      false := by
    cases problem <;> rfl
  have otherKind : (Diagnostic.about problem ledger.settings.file place arguments).isRankReport =
      false := by
    cases problem
    case unrankedOperator => exact absurd rfl other
    all_goals rfl
  rw [outcome_report, outcome_report]
  dsimp only
  split
  · exact .inl ⟨_, rfl, rfl⟩
  · exact .inr ⟨_, _, _, rfl, rfl, matching.reported isProblem otherKind⟩

theorem unsupported (place : Position) (what : String) :
    Keeps ledger (unsupported place what) (unsupported place what) :=
  report (by decide) place _

theorem unsupportedIf (present : Bool) (place : Position) (what : String) :
    Keeps ledger (unsupportedIf present place what) (unsupportedIf present place what) := by
  cases present
  · exact pure ()
  · exact unsupported place what

theorem missing (place : Position) (what : String) :
    Keeps ledger (missing place what) (missing place what) :=
  report (by decide) place _

/-- Something that is written if it is present. -/
theorem whenPresent_keeps {Item : Type} {print : Item → Printer Unit}
    (each : ∀ item, Keeps ledger (print item) (print item)) (item : Option Item) :
    Keeps ledger (whenPresent item print) (whenPresent item print) := by
  cases item with
  | none => exact pure ()
  | some item => exact each item

variable {due : Option NodePlace} {used : NodePlace → Nat}

theorem textOf {first second : Printer Unit} (inside : Tracks ledger due used first second) :
    Tracks ledger due used (textOf first) (textOf second) := by
  intro frame state other matching
  have sameText : other.text = state.text := by rw [matching.alike]
  rw [outcome_textOf, outcome_textOf, sameText]
  rcases inside frame _ _ (matching.withText state.text.mark.1) with
    ⟨diagnostic, stops, alsoStops⟩ | ⟨value, next, otherNext, ends, alsoEnds, still⟩
  · rw [stops, alsoStops]
    exact .inl ⟨diagnostic, rfl, rfl⟩
  · have stillSame : otherNext.text = next.text := by rw [still.alike]
    rw [ends, alsoEnds]
    dsimp only
    rw [stillSame]
    exact .inr ⟨_, _, _, rfl, rfl, still.withText _⟩

/-- Parts that are printed with commas between them. -/
theorem separated {Item First Second : Type} {toFirst : Item → First} {toSecond : Item → Second}
    {printFirst : First → Printer Unit} {printSecond : Second → Printer Unit}
    {used : Item → NodePlace → Nat}
    (each : ∀ item, Tracks ledger none (used item) (printFirst (toFirst item))
      (printSecond (toSecond item))) (items : List Item) :
    Tracks ledger none (items.map used).sum (separated printFirst (items.map toFirst))
      (separated printSecond (items.map toSecond)) := by
  induction items with
  | nil => exact (pure ()).tracks
  | cons item rest ih =>
      cases rest with
      | nil => exact (each item).atMost (by simp)
      | cons next rest => exact (each item).andThen ((write ", ").before ih)

theorem whenPresent {Item First Second : Type} {toFirst : Item → First}
    {toSecond : Item → Second} {printFirst : First → Printer Unit}
    {printSecond : Second → Printer Unit} {used : Item → NodePlace → Nat}
    (each : ∀ item, Tracks ledger none (used item) (printFirst (toFirst item))
      (printSecond (toSecond item))) (item : Option Item) :
    Tracks ledger none (item.toList.map used).sum
      (whenPresent (item.map toFirst) printFirst)
      (whenPresent (item.map toSecond) printSecond) := by
  cases item with
  | none => exact (pure ()).tracks
  | some item => exact (each item).atMost (by simp)

theorem enclosedIf (condition : Bool) (opening closing : String) {first second : Printer Unit}
    (inside : Tracks ledger due used first second) :
    Tracks ledger due used (enclosedIf condition opening closing first)
      (enclosedIf condition opening closing second) :=
  (writeIf condition opening).before (inside.closing (writeIf condition closing))

theorem withinFunction (name : String) (isMethod isStatic : Bool) {first second : Printer Unit}
    (inside : Tracks ledger due used first second) :
    Tracks ledger due used (withinFunction name isMethod isStatic first)
      (withinFunction name isMethod isStatic second) :=
  (modifyScopes _).before (inside.closing (modifyScopes _))

theorem withinMemberBody {first second : Printer Unit}
    (inside : Tracks ledger due used first second) :
    Tracks ledger due used (withinMemberBody first) (withinMemberBody second) := by
  intro frame state other matching
  have scopes : other.scopes = state.scopes := by rw [matching.alike]
  have marked := (modifyScopes fun scopes => scopes.markMemberBody true).before
    (inside.closing (modifyScopes fun scopes =>
      scopes.markMemberBody state.scopes.top.inMemberBody)) frame state other matching
  unfold Printer.withinMemberBody
  rw [outcome_bind, outcome_bind, outcome_get, outcome_get]
  dsimp only
  rw [scopes]
  exact marked

end Remembering

/-! ## Ranks -/

/-- What the lookup of a rank comes to. -/
theorem outcome_lookUpRank (place : Position) (pattern : Option String) (settings : Settings)
    (state : PrinterState) :
    (lookUpRank place pattern).outcome settings state =
      .ok ((pattern.map Precedence.rankOf).getD Precedence.primary, { state with
        diagnostics := state.diagnostics ++
          (UnrankedOperator.of? place pattern).toList.map (·.report settings.file) }) := by
  cases pattern with
  | none => simp [lookUpRank, UnrankedOperator.of?]
  | some pattern =>
      rw [UnrankedOperator.of?, Option.filter_some, lookUpRank]
      cases known : Precedence.rank? pattern with
      | some rank => simp [Precedence.rankOf, known]
      | none =>
          have goesOn : (Diagnostic.about .unrankedOperator settings.file place
              [pattern]).isError = false := rfl
          rw [outcome_bind, outcome_report]
          simp [Precedence.rankOf, known, goesOn, UnrankedOperator.report]

/-- All other operators have a rank. -/
theorem of?_operatorPattern {Part : Type} {shape : Shape Part} (place : Position)
    (other : shape.isOperator = false) :
    UnrankedOperator.of? place shape.operatorPattern? = none := by
  cases shape with
  | unary => cases other
  | binary => cases other
  | member object property computed optional => cases computed <;> rfl
  | call form callee arguments optional typeParameters typeArguments =>
      cases form with
      | call => rfl
      | construction => cases arguments <;> rfl
  | spread form => cases form <;> rfl
  | unsupported form => cases form <;> rfl
  | function form => cases form <;> rfl
  | _ => rfl

theorem unranked?_eq (node : Node) :
    UnrankedOperator.of? node.location.start node.shape.operatorPattern? = node.unranked? := by
  unfold Node.unranked?
  split
  · rfl
  · next other => exact of?_operatorPattern _ (by simpa using other)

theorem outcome_remembered_known {place : NodePlace} {rank : Rank} {lookUp : Printer Rank}
    {settings : Settings} {state : PrinterState} (known : state.ranks.find? place = some rank) :
    (remembered place lookUp).outcome settings state = .ok (rank, state) := by
  rw [remembered, outcome_bind, outcome_get]
  dsimp only
  rw [known]
  rfl

theorem outcome_remembered_fresh {place : NodePlace} {rank : Rank} {lookUp : Printer Rank}
    {settings : Settings} {state next : PrinterState} (fresh : state.ranks.find? place = none)
    (looksUp : lookUp.outcome settings state = .ok (rank, next)) :
    (remembered place lookUp).outcome settings state =
      .ok (rank, { next with ranks := next.ranks.insert place rank }) := by
  rw [remembered, outcome_bind, outcome_get]
  dsimp only
  rw [fresh]
  dsimp only
  rw [outcome_bind, looksUp]
  rfl

theorem rankAt_of_not_cast {node : Node} (noCast : node.isCast = false) (place : NodePlace) :
    rankAt place node =
      remembered place (lookUpRank node.location.start node.shape.operatorPattern?) := by
  rcases node with ⟨location, shape⟩
  cases shape with
  | cast expression declaredType => cases noCast
  | _ => rfl

/-- Through casts, the rank of the expression under them is asked for. -/
theorem rankAt_underCasts (place : NodePlace) (node : Node) :
    rankAt place node = rankAt (node.placeUnderCasts place) node.underCasts := by
  fun_induction Node.placeUnderCasts node place with
  | case1 location expression declaredType place ih => rw [rankAt, ih]; rfl
  | case2 node place noCast => rw [Node.underCasts.eq_def]; split <;> simp_all

theorem outcome_lookUpRank_node (node : Node) (settings : Settings) (state : PrinterState) :
    (lookUpRank node.location.start node.shape.operatorPattern?).outcome settings state =
      .ok (node.shape.rank, { state with
        diagnostics := state.diagnostics ++
          node.unranked?.toList.map (·.report settings.file) }) := by
  rw [outcome_lookUpRank, unranked?_eq, Shape.rank]
  cases node.shape.operatorPattern? <;> rfl

theorem outcome_notePrinted (noting : Bool) (place : NodePlace) (node : Node) (settings : Settings)
    (state : PrinterState) :
    (notePrinted noting place node).outcome settings state =
      .ok ((), { state with diagnostics := state.diagnostics ++
        if noting && node.unranked?.isSome then [place.toNote] else [] }) := by
  unfold notePrinted
  split <;> simp

/-- A free place is one where no rank was asked for. -/
theorem find?_fresh {place : NodePlace} {due : Option NodePlace} {free : NodePlace → Nat}
    {state other : PrinterState}
    (matching : ledger.Matching due free state other) (isFree : free place ≠ 0) :
    state.ranks.find? place = none :=
  OrderedMap.find?_eq_none (matching.fresh place isFree)

section Ranks

variable {place : NodePlace} {node : Node} (stands : ledger.tree.at? place = some node)

include stands

theorem unrankedAt?_eq : ledger.tree.unrankedAt? place = node.unranked? := by
  rw [Node.unrankedAt?, stands, Option.bind_some]

theorem reports_singleton :
    ledger.reports [place] = node.unranked?.toList.map (·.report ledger.settings.file) := by
  have found := unrankedAt?_eq stands
  cases isUnranked : node.unranked? <;> simp [Ledger.reports, found, isUnranked]

theorem notes_singleton :
    ledger.notes [place] =
      if ledger.noting && node.unranked?.isSome then [place.toNote] else [] := by
  have found := unrankedAt?_eq stands
  cases isUnranked : node.unranked? <;> cases noting : ledger.noting <;>
    simp [Ledger.notes, Ledger.unranked, found, isUnranked, noting]

/-- What is remembered of a due place is the rank of its node. -/
theorem find?_known {free : NodePlace → Nat} {state other : PrinterState}
    (matching : ledger.Matching (some place) free state other) :
    state.ranks.find? place = some node.shape.rank := by
  obtain ⟨entry, member, rfl⟩ := List.mem_map.mp (matching.known place rfl)
  obtain ⟨found, stands', isRank⟩ := matching.remembers.right entry member
  rw [stands] at stands'
  obtain rfl := Option.some.inj stands'
  rw [← isRank]
  exact OrderedMap.lookup_of_mem matching.remembers.distinct member

variable (noCast : node.isCast = false)

include noCast

/-- The construct around a place asks for the rank there. -/
theorem asks (frame : NodePlace → Nat) :
    Simulates ledger.settings (ledger.Matching none (Pi.single place 1 + frame))
      (ledger.Matching (some place) frame) (rankAt place node)
      (lookUpRank node.location.start node.shape.operatorPattern?) := by
  intro state other matching
  have fresh : state.ranks.find? place = none := find?_fresh matching (by simp)
  rw [rankAt_of_not_cast noCast,
    outcome_remembered_fresh fresh (outcome_lookUpRank_node node ledger.settings state),
    outcome_lookUpRank_node, ← reports_singleton stands]
  refine .inr ⟨_, _, _, rfl, rfl, ?_⟩
  exact matching.asked stands (by simp [add_comm]) (fun _ => Nat.le_add_left _ _)
    (Ledger.rankReportsIn_reports _) (by rw [Ledger.notesIn_reports]; rfl)
    (Ledger.problemsIn_reports _) (by simp)

/-- The construct at a place asks for its rank by itself. -/
theorem asksItself :
    Tracks ledger none (Pi.single place 1)
      (do
        notePrinted ledger.noting place node
        rankAt place node)
      (lookUpRank node.location.start node.shape.operatorPattern?) := by
  intro frame state other matching
  have fresh : state.ranks.find? place = none := find?_fresh matching (by simp)
  rw [outcome_bind, outcome_notePrinted, ← notes_singleton stands]
  dsimp only
  rw [rankAt_of_not_cast noCast,
    outcome_remembered_fresh (by exact fresh) (outcome_lookUpRank_node node ledger.settings _),
    outcome_lookUpRank_node, ← reports_singleton stands]
  dsimp only
  rw [List.append_assoc]
  refine .inr ⟨_, _, _, rfl, rfl, ?_⟩
  refine matching.asked stands (by simp [add_comm]) (fun _ => Nat.le_add_left _ _) ?_ ?_ ?_ nofun
  · rw [rankReportsIn, List.filter_append, ← rankReportsIn, ← rankReportsIn,
      Ledger.rankReportsIn_notes, Ledger.rankReportsIn_reports, List.nil_append]
  · rw [List.filter_append, Ledger.notesIn_notes, Ledger.notesIn_reports]
    simp [Ledger.notes, Ledger.unranked]
  · rw [List.filter_append, Ledger.problemsIn_notes, Ledger.problemsIn_reports, List.nil_append]

/-- The rank of the construct at a place was asked for by the construct around it. -/
theorem wasAsked :
    Tracks ledger (some place) 0
      (do
        notePrinted ledger.noting place node
        rankAt place node)
      (pure node.shape.rank) := by
  intro frame state other matching
  rw [zero_add] at matching
  have known := find?_known stands matching
  rw [outcome_bind, outcome_notePrinted, ← notes_singleton stands]
  dsimp only
  rw [rankAt_of_not_cast noCast, outcome_remembered_known (by exact known)]
  exact .inr ⟨_, _, _, rfl, rfl, matching.printed⟩

end Ranks

end Printer

end ScriptBridge

import ScriptBridge.Proofs.Printing.Logs
import ScriptBridge.Proofs.Printing.Roles

/-!
# Every operator is reported once

If a tree is printed, every operator without a rank that is printed is reported once, in the
order in which the ranks are first looked up.  If nothing was remembered, an operator would be
reported twice where the construct around it asks for its rank as well, but the generated text
would be the same.
-/

namespace ScriptBridge

/-! ## Without a memory -/

namespace Printer

/-- Print a construct that looks its rank up anew, as all its parts do. -/
def constructAnew (location : Location) (shape : Shape Part) (role : Role) : Printer Unit :=
  constructWith (lookUpRank location.start shape.operatorPattern?) location shape role

end Printer

/-- Print a node that looks up every rank anew. -/
def Node.printAnew (node : Node) (role : Role) : Printer Unit :=
  node.fold Printer.constructAnew role

/-- Generate the code of a tree, with every rank looked up anew. -/
def Settings.generateAnew (settings : Settings) (tree : Node) : Except Diagnostic Generated :=
  match (tree.printAnew .plain).run settings |>.run .start with
  | .error diagnostic => .error diagnostic
  | .ok (_, state) =>
      .ok ⟨state.types.prepend settings.file state.text.toString, state.diagnostics⟩

/-- Logs that differ in the reports of operators without a rank alone. -/
def SameOtherwise (first second : List Diagnostic) : Prop :=
  first.filter (!·.isRankReport) = second.filter (!·.isRankReport)

namespace SameOtherwise

theorem append {first second : List Diagnostic} (same : SameOtherwise first second)
    (added : List Diagnostic) : SameOtherwise (first ++ added) (second ++ added) := by
  rw [SameOtherwise, List.filter_append, List.filter_append, same]

theorem append_report {first second : List Diagnostic} (same : SameOtherwise first second)
    (operator : Option UnrankedOperator) (file : String) :
    SameOtherwise first (second ++ operator.toList.map (·.report file)) := by
  have nothing : (operator.toList.map (·.report file)).filter (!·.isRankReport) = [] := by
    cases operator <;> rfl
  rw [SameOtherwise, List.filter_append, nothing, List.append_nil]
  exact same

end SameOtherwise

theorem keptByProblems_sameOtherwise : KeptByProblems SameOtherwise :=
  fun _ _ _ _ same => same.append _

theorem Node.printAnew_eq (location : Location) (shape : Shape Node) (role : Role) :
    Node.printAnew ⟨location, shape⟩ role =
      Printer.constructAnew location (shape.map fun part => ⟨part, part.printAnew⟩) role := by
  unfold Node.printAnew
  rw [Node.fold_eq]

namespace Printer

variable {settings : Settings}

/-- The parts of a construct that goes by its role are left as they are. -/
theorem constructWith_ownRank (location : Location) (shape : Shape Part) (role : Role) :
    constructWith (ownRank role location.start shape) location shape role =
      construct location shape role := by
  have whole : shape.map Folded.toPart = shape := Shape.map_id shape
  rw [constructWith, whole]
  rfl

/-- Other constructs than operators are printed alike whether their rank is looked up or not. -/
theorem constructAnew_of_no_operator (location : Location) {shape : Shape Part}
    (noOperator : shape.isOperator = false) :
    constructAnew location shape .ranked = construct location shape .ranked := by
  have sameRank : lookUpRank location.start shape.operatorPattern? =
      ownRank .ranked location.start shape := by
    refine ext_outcome fun settings state => ?_
    rw [outcome_lookUpRank, of?_operatorPattern _ noOperator, ownRank, if_pos rfl, outcome_pure,
      Shape.rank]
    cases shape.operatorPattern? <;> simp
  rw [constructAnew, sameRank, constructWith_ownRank]

/-- An operator that looks its rank up is printed behind the report of it. -/
theorem outcome_constructAnew (location : Location) {shape : Shape Part}
    (isOperator : shape.isOperator = true) (state : PrinterState) :
    (constructAnew location shape .ranked).outcome settings state =
      (construct location shape .ranked).outcome settings { state with
        diagnostics := state.diagnostics ++ (UnrankedOperator.of? location.start
          shape.operatorPattern?).toList.map (·.report settings.file) } := by
  have rank : (shape.operatorPattern?.map Precedence.rankOf).getD Precedence.primary =
      shape.rank := by
    rw [Shape.rank]
    cases shape.operatorPattern? <;> rfl
  cases shape with
  | unary form operator leading argument =>
      simp only [constructAnew, constructWith, construct, withOperands, outcome_bind,
        outcome_lookUpRank, rank, ownRank, if_pos, outcome_pure]
  | binary form operator left right =>
      simp only [constructAnew, constructWith, construct, withOperands, outcome_bind,
        outcome_lookUpRank, rank, ownRank, if_pos, outcome_pure]
  | _ => cases isOperator

/-- A construct that looks its rank up anew differs in its reports alone. -/
theorem relatesLogs_constructAnew {first : Printer Unit} {location : Location}
    {shape : Shape Part} {role : Role}
    (inside : RelatesLogs settings SameOtherwise first (construct location shape role)) :
    RelatesLogs settings SameOtherwise first (constructAnew location shape role) := by
  by_cases asked : role = .ranked
  · subst asked
    cases isOperator : shape.isOperator with
    | false => rwa [constructAnew_of_no_operator location isOperator]
    | true =>
        rintro state _ ⟨log, rfl, same⟩
        rw [outcome_constructAnew location isOperator]
        exact inside state _ ⟨_, rfl, same.append_report _ _⟩
  · have sameRank : ownRank role location.start shape =
        lookUpRank location.start shape.operatorPattern? := if_neg asked
    rwa [constructAnew, ← sameRank, constructWith_ownRank]

/-- It makes no difference to the text whether every rank is looked up anew. -/
theorem relatesLogs_anew (node : Node) (role : Role) :
    RelatesLogs settings SameOtherwise (node.printAs role) (node.printAnew role) := by
  revert role
  refine Node.induction (motive := fun node => ∀ role,
    RelatesLogs settings SameOtherwise (node.printAs role) (node.printAnew role)) ?_ node
  intro location shape role
  have closed := RelatesLogs.isCongruence settings keptByProblems_sameOtherwise
  have inside := closed.construct_parts location shape role
  rw [Node.printAs_eq, Node.printAnew_eq, Shape.map_map, Shape.map_map]
  exact relatesLogs_constructAnew inside

end Printer

/-! ## Trees -/

namespace Settings

/-- What is generated and noted if the printer of the tree comes to its end. -/
theorem generateNoting_of_ends {settings : Settings} {tree : Node} {next : PrinterState}
    (ends : (tree.printNoting true []).outcome settings {} = .ok ((), next)) :
    settings.generateNoting tree = .ok {
      generated := ⟨next.types.prepend settings.file next.text.toString,
        next.diagnostics.filter (!·.isNote)⟩
      printed := next.diagnostics.filterMap NodePlace.ofNote?
      ranks := next.ranks } := by
  unfold Printer.outcome at ends
  unfold generateNoting PrinterState.start
  rw [ends]

theorem generateAnew_of_ends {settings : Settings} {tree : Node} {next : PrinterState}
    (ends : (tree.printAnew .plain).outcome settings {} = .ok ((), next)) :
    settings.generateAnew tree =
      .ok ⟨next.types.prepend settings.file next.text.toString, next.diagnostics⟩ := by
  unfold Printer.outcome at ends
  unfold generateAnew PrinterState.start
  rw [ends]

/-- The problems of a log report the operators that the log reports. -/
theorem rankReports_problems (log : List Diagnostic) :
    (log.filter (!·.isNote)).filter Diagnostic.isRankReport = rankReportsIn log := by
  rw [List.filter_filter, rankReportsIn]
  congr 1
  funext diagnostic
  cases isNote : diagnostic.isNote <;> simp [Diagnostic.isRankReport, isNote]

theorem filterMap_ofNote? {log : List Diagnostic} {places : List NodePlace}
    (noted : log.filter Diagnostic.isNote = places.map NodePlace.toNote) :
    log.filterMap NodePlace.ofNote? = places := by
  have onlyNotes : (log.filter Diagnostic.isNote).filterMap NodePlace.ofNote? =
      log.filterMap NodePlace.ofNote? := by
    rw [List.filterMap_filter]
    congr 1
    funext diagnostic
    cases isNote : diagnostic.isNote <;> simp [NodePlace.ofNote?, isNote]
  rw [← onlyNotes, noted, List.filterMap_map]
  exact (List.filterMap_congr fun place _ => place.ofNote?_toNote).trans List.filterMap_some

/-- One report for each place. -/
theorem map_some_reports (ledger : Ledger) (places : List NodePlace) :
    (ledger.reports places).map some = (ledger.unranked places).map fun place =>
      (ledger.tree.unrankedAt? place).map (·.report ledger.settings.file) := by
  induction places with
  | nil => rfl
  | cons place rest ih =>
      rw [← List.singleton_append, Ledger.reports_append, Ledger.unranked_append, List.map_append,
        List.map_append, ih]
      cases found : ledger.tree.unrankedAt? place <;>
        simp [Ledger.reports, Ledger.unranked, found]

/-- A tree is printed alike with a memory of ranks. -/
theorem outcome_printNoting {settings : Settings} {tree : Node} {state : PrinterState}
    (ends : (tree.printAs .plain).outcome settings {} = .ok ((), state)) (noting : Bool) :
    ∃ next, (tree.printNoting noting []).outcome settings {} = .ok ((), next) ∧
      Ledger.Matching ⟨settings, tree, noting, [], {}⟩ none 0 next state := by
  let ledger : Ledger := ⟨settings, tree, noting, [], {}⟩
  have starts := @Printer.startsMatching ledger {} rfl rfl rfl
  rcases @Printer.tracks_tree ledger .plain (by decide) 0 _ _ starts with
    ⟨diagnostic, -, stops⟩ | ⟨value, next, otherNext, nextEnds, otherEnds, matching⟩
  · rw [ends] at stops
    cases stops
  · rw [ends] at otherEnds
    cases otherEnds
    exact ⟨next, nextEnds, matching⟩

/-- All problems are found, and the reports of ranks are those of the remembered places. -/
theorem reports_of_matching {ledger : Ledger} {next state : PrinterState}
    (matching : ledger.Matching none 0 next state) (first : ledger.before = []) :
    next.diagnostics.filter (!·.isNote) = state.diagnostics ∧
      state.diagnostics.filter Diagnostic.isRankReport = ledger.reports next.ranks.keys ∧
      next.diagnostics.filter Diagnostic.isNote = ledger.notes next.ranks.keys := by
  obtain ⟨log, isLog, isOther, accounts⟩ := matching.accounted
  rw [first, List.nil_append] at isLog isOther
  refine ⟨?_, ?_, ?_⟩
  · rw [isLog, isOther]
  · rw [isOther, rankReports_problems, accounts.reported]
  · rw [isLog, ← accounts.noted]
    simp [Ledger.notes, Ledger.unranked]

/-- Operators without a rank are reported exactly once each, in the order in which their ranks
are first looked up, which is the order in which they are printed: the construct around an
operator and the operator itself ask for the same rank, and the second finds it remembered.  If
every rank was looked up anew, the text and all other diagnostics would be the same. -/
theorem generate_unrankedOperators {settings : Settings} {tree : Node} {generated : Generated}
    (ends : settings.generate tree = .ok generated) :
    ∃ state printed ranks again,
      (tree.printAt []).outcome settings .start = .ok ((), state) ∧
      tree.Remembers state.ranks ∧
      generated.diagnostics.filter Diagnostic.isRankReport =
        (state.ranks.keys.filterMap tree.unrankedAt?).map (·.report settings.file) ∧
      settings.generateNoting tree = .ok ⟨generated, printed, ranks⟩ ∧
      tree.Remembers ranks ∧
      ranks.keys.filter (fun place => (tree.unrankedAt? place).isSome) = printed ∧
      printed.Nodup ∧
      (generated.diagnostics.filter Diagnostic.isRankReport).map some =
        printed.map (fun place => (tree.unrankedAt? place).map (·.report settings.file)) ∧
      settings.generateAnew tree = .ok again ∧
      again.text = generated.text ∧
      again.diagnostics.filter (!·.isRankReport) =
        generated.diagnostics.filter (!·.isRankReport) := by
  rw [generate_eq] at ends
  cases isPrinted : (tree.printAs .plain).outcome settings {} with
  | error diagnostic =>
      rw [isPrinted] at ends
      cases ends
  | ok reached =>
      obtain ⟨⟨⟩, final⟩ := reached
      rw [isPrinted] at ends
      obtain rfl := Except.ok.inj ends
      obtain ⟨state, printed, memory⟩ := outcome_printNoting isPrinted false
      obtain ⟨next, nextPrinted, matching⟩ := outcome_printNoting isPrinted true
      obtain ⟨log, anewPrinted, same⟩ :=
        (Printer.relatesLogs_anew tree .plain).ends isPrinted [] rfl
      obtain ⟨-, looked, -⟩ := reports_of_matching memory rfl
      obtain ⟨problems, reports, noted⟩ := reports_of_matching matching rfl
      have sameText : next.text = final.text := by rw [matching.alike]
      have sameTypes : next.types = final.types := by rw [matching.alike]
      refine ⟨state, _, next.ranks, _, ?_, memory.remembers, looked, ?_, matching.remembers, rfl,
        matching.remembers.distinct.filter _, ?_, generateAnew_of_ends anewPrinted, rfl,
        same.symm⟩
      · rw [← Node.printNoting_false]
        exact printed
      · rw [generateNoting_of_ends nextPrinted, sameText, sameTypes, problems,
          filterMap_ofNote? noted]
        rfl
      · rw [reports]
        exact map_some_reports _ _

/-- A sum with an operand of which the operator has no rank. -/
def spaceshipSum : Node :=
  ⟨{}, .binary .binary "+" ⟨{}, .identifier "x" none false⟩
    ⟨{}, .binary .binary "<=>" ⟨{}, .identifier "a" none false⟩
      ⟨{}, .identifier "b" none false⟩⟩⟩

/-- What is reported of the operand. -/
def spaceshipReport : Diagnostic :=
  UnrankedOperator.report ⟨{}, "… <=> …"⟩ ""

/-- The sum asks for the rank before the operand does.  The operand is reported once, and it
would be reported twice if its rank was looked up anew. -/
theorem generate_unrankedOperators_spaceshipSum :
    Settings.generate {} spaceshipSum = .ok ⟨"x + (a <=> b)", [spaceshipReport]⟩ ∧
    ∃ printed ranks again,
      Settings.generateNoting {} spaceshipSum =
        .ok ⟨⟨"x + (a <=> b)", [spaceshipReport]⟩, printed, ranks⟩ ∧
      printed.length = 1 ∧
      Settings.generateAnew {} spaceshipSum = .ok again ∧
      again.text = "x + (a <=> b)" ∧
      again.diagnostics = [spaceshipReport, spaceshipReport] := by
  have ends : Settings.generate {} spaceshipSum =
      .ok ⟨"x + (a <=> b)", [spaceshipReport]⟩ := by rfl
  have twice : Settings.generateAnew {} spaceshipSum =
      .ok ⟨"x + (a <=> b)", [spaceshipReport, spaceshipReport]⟩ := by rfl
  obtain ⟨-, printed, ranks, again, -, -, -, isNoted, -, -, -, reports, isAnew, sameText, -⟩ :=
    generate_unrankedOperators ends
  have lengths := congrArg List.length reports
  rw [List.length_map, List.length_map] at lengths
  rw [twice] at isAnew
  obtain rfl := Except.ok.inj isAnew
  exact ⟨ends, printed, ranks, _, isNoted, lengths.symm, twice, sameText, rfl⟩

end Settings

end ScriptBridge

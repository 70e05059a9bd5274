import ScriptBridge.Proofs.Normalize.FinalWords
import ScriptBridge.Proofs.Normalize.Header
import ScriptBridge.Proofs.Normalize.Literals
import ScriptBridge.Proofs.Normalize.TypeTests
import ScriptBridge.Proofs.Normalize.VectorPrefixes

/-!
# Literals under normalisation

The rules search the whole text, literals included.  Each literal is followed through the
searches of all rules: it is spared if none of them changes anything in it, even if the match
of a type test reaches across it.  The rule for imports drops what follows on the line and
adds one literal, the path.
-/

namespace ScriptBridge

namespace Normalize

open Pattern

open Retouch (before after keepAll)

/-! ## Steps -/

/-- One search, which changes all matches or the first one. -/
structure Step where
  retoucher : Retoucher
  onlyFirst : Bool

namespace Step

/-- The retouches of a step. -/
def retouches (step : Step) (text : List Char) : List Retouch :=
  if step.onlyFirst then step.retoucher.goToFirst text else step.retoucher.goOver 0 0 none text

/-- The text after a step. -/
def run (step : Step) (text : List Char) : List Char :=
  after (step.retouches text)

/-- What becomes of the literals of a text in a step. -/
def fates (step : Step) (text : List Char) : List Fate :=
  fatesFrom none (step.retouches text)

/-- All matches of an edit are changed. -/
def all (edit : Edit) : Step :=
  ⟨.whole edit, false⟩

/-- The first match of an edit is changed. -/
def first (edit : Edit) : Step :=
  ⟨.whole edit, true⟩

theorem goes (step : Step) (text : List Char) :
    step.retoucher.GoesOver none text (step.retouches text) := by
  unfold retouches
  split
  · exact (step.retoucher.goToFirst_spec text).1
  · exact (step.retoucher.goOver_spec 0 none text).1

theorem run_ofAll (retoucher : Retoucher) (text : List Char) :
    (Step.mk retoucher false).run text = retoucher.edit.run text :=
  (retoucher.run_eq text).symm

theorem run_all (edit : Edit) (text : List Char) : (all edit).run text = edit.run text :=
  run_ofAll _ text

theorem run_first (edit : Edit) (text : List Char) :
    (first edit).run text = (edit.pattern.replaceFirst edit.replacement text).getD text :=
  ((Retoucher.whole edit).goToFirst_spec text).2.symm

end Step

/-- The edit that names a constructor. -/
def constructorEdit (name : List Char) : Edit :=
  ⟨functionHead name, fun _ => "function constructor(".toList⟩

/-- The constructor of the first class is named first. -/
def constructorSteps (source : List Char) : List Step :=
  match classHead.find? source with
  | some head =>
      if (functionHeadExpression (head.group 1)).fitsLimit then
        [.first (constructorEdit (head.group 1))]
      else []
  | none => []

/-- The edit that exports public types. -/
def exportEdit : Edit :=
  ⟨inOrder [boundary, text "public", blanks, .group 1 (anyOf [text "class", text "interface"]),
    boundary], fun found => "export ".toList ++ found.group 1⟩

/-- Of an import the whole line is changed. -/
def importRetoucher : Retoucher where
  edit := importEdit
  retouches found := [.change found.covered (importedFrom found)]
  before_eq _ := List.append_nil _
  after_eq _ := List.append_nil _

/-- The parts of a type test in a condition. -/
def conditionParts : List Pattern :=
  [boundary, text "if", optional (.one .blank), text "(", .group 1 (.oneOrMore .notLineFeed),
    blanks, text "is", blanks, .group 2 (.oneOrMore (.complement .blank)), text ")"]

/-- The parts of a type test in an assignment. -/
def assignmentParts : List Pattern :=
  [.group 1 (inOrder [.one (.complement (.ofList ['=', '!', '<', '>'])), text "="]), maybeBlanks,
    .group 2 (.run (.complement (.ofList ['=', ';', '\r', '\n'])) 1 false), blanks, text "is",
    blanks, .group 3 (.oneOrMore (.union .word (.only '.')))]

theorem inRow_condition {place : Cursor} {found : Match}
    (isMatch : conditionEdit.pattern.plainSearch.matchAt place = some found) :
    InRow found.start found.groups '"' found.start.position [1, 2] found.stop.position :=
  @inRow_of_matchAt '"' conditionParts (by decide) (by decide) _ _ isMatch

theorem inRow_assignment {place : Cursor} {found : Match}
    (isMatch : assignmentEdit.pattern.plainSearch.matchAt place = some found) :
    InRow found.start found.groups '"' found.start.position [1, 2, 3] found.stop.position :=
  @inRow_of_matchAt '"' assignmentParts (by decide) (by decide) _ _ isMatch

/-- Of a type test in a condition, what is tested and the type are kept. -/
def conditionRetoucher : Retoucher where
  edit := conditionEdit
  retouches found :=
    found.fill [')'] found.start.position [("if(".toList, 1), (" instanceof ".toList, 2)]
  before_eq isMatch := Match.before_fill (inRow_condition isMatch) (Nat.le_refl _)
  after_eq _ := by
    rw [Match.after_fill]
    simp [conditionEdit]

/-- Of a type test in an assignment, the sign, what is tested and the type are kept. -/
def assignmentRetoucher : Retoucher where
  edit := assignmentEdit
  retouches found :=
    found.fill [] found.start.position [([], 1), ([' '], 2), (" instanceof ".toList, 3)]
  before_eq isMatch := Match.before_fill (inRow_assignment isMatch) (Nat.le_refl _)
  after_eq _ := by
    rw [Match.after_fill]
    simp [assignmentEdit]

/-- The edits of the rules for members. -/
def memberEdits : List Edit :=
  [⟨modified modifierWord "var", firstGroup⟩,
    ⟨modified modifierWord "const", fun found => found.group 1 ++ " readonly".toList⟩,
    ⟨modified accessWord "override", firstGroup⟩,
    ⟨inOrder [boundary, text "override", blanks, .group 1 accessWord, boundary], firstGroup⟩,
    ⟨modified modifierWord "function", firstGroup⟩,
    ⟨namedFunction, fun found => found.group 1 ++ found.group 2⟩]

/-- The edits of the rules for vectors, loops and short forms of `new`. -/
def expressionEdits : List Edit :=
  [edgeEdit "Vector.<" "Array<", edgeEdit "Vector." "Array.",
    ⟨forEachDeclared, fun found => "for (let ".toList ++ found.group 1 ++ " of ".toList⟩,
    ⟨forEachBare, fun found => "for (".toList ++ found.group 1 ++ " of ".toList⟩,
    ⟨inOrder [boundary, text "new", blanks, text "Array<",
        .group 1 (.oneOrMore (.union .word (.ofList ['.', '<', '>']))), text ">",
        maybeBlanks, text ";"],
      fun found => "new Array<".toList ++ found.group 1 ++ ">();".toList⟩,
    ⟨inOrder [boundary, text "new", maybeBlanks, text "<",
        .oneOrMore (.union .word (.only '.')), text ">", maybeBlanks, text "["],
      fun _ => ['[']⟩]

/-- The steps in front of the rule for imports. -/
def earlySteps (source : List Char) : List Step :=
  constructorSteps source ++
    [.all finalEdit, .all exportEdit, .first ⟨packageHead, moduleHead⟩]

/-- The steps behind the rule for imports. -/
def lateSteps : List Step :=
  memberEdits.map .all ++ [⟨conditionRetoucher, false⟩, ⟨assignmentRetoucher, false⟩] ++
    expressionEdits.map .all

/-- All steps of normalising a source text. -/
def stepsOf (source : List Char) : List Step :=
  earlySteps source ++ ⟨importRetoucher, false⟩ :: lateSteps

/-- The text after steps. -/
def runAll (steps : List Step) (text : List Char) : List Char :=
  steps.foldl (fun text step => step.run text) text

/-- The text that the rule for imports meets. -/
def beforeImports (source : List Char) : List Char :=
  (rules.take 4).foldl (fun text rule => rule.run text) source

theorem runAll_constructorSteps (source : List Char) :
    runAll (constructorSteps source) source = renameConstructor.run source := by
  simp only [Rule.run, renameConstructor, constructorSteps]
  cases classHead.find? source with
  | none => rfl
  | some head =>
      dsimp only
      split
      · exact Step.run_first (constructorEdit (head.group 1)) source
      · rfl

theorem runAll_earlySteps (source : List Char) :
    runAll (earlySteps source) source = beforeImports source := by
  rw [runAll, earlySteps, List.foldl_append]
  have constructorEq := runAll_constructorSteps source
  have exportEq (text : List Char) : exportPublicTypes.run text = exportEdit.run text :=
    Rule.run_ofEdits _ _ _
  rw [runAll] at constructorEq
  simp only [constructorEq, beforeImports, rules, List.take_succ_cons, List.take_zero,
    List.foldl_cons, List.foldl_nil, Step.run_all, Step.run_first, run_stripFinal_eq, exportEq]
  rfl

theorem runAll_lateSteps (text : List Char) :
    runAll lateSteps text = (rules.drop 5).foldl (fun text rule => rule.run text) text := by
  simp only [runAll, lateSteps, memberEdits, expressionEdits, rules, List.map_cons, List.map_nil,
    List.cons_append, List.nil_append, List.drop_succ_cons, List.drop_zero, List.foldl_cons,
    List.foldl_nil, Step.run_all, Step.run_ofAll, stripFieldVar, stripOverride,
    stripFunctionKeyword, run_isToInstanceof_eq, run_vectorToArray_eq, forEachToForOf,
    newShorthands, Rule.run_ofEdits]
  rfl

/-- The steps make of a source text what the rules make of it. -/
theorem runAll_stepsOf (source : List Char) :
    runAll (stepsOf source) source = normalizeText source := by
  have imported (text : List Char) :
      (Step.mk importRetoucher false).run text = destructureImports.run text :=
    (Step.run_ofAll _ text).trans (run_destructureImports_eq text).symm
  have splitEq : normalizeText source =
      (rules.drop 5).foldl (fun text rule => rule.run text)
        (destructureImports.run (beforeImports source)) := by
    simp only [normalizeText, beforeImports, rules, List.take_succ_cons, List.take_zero,
      List.drop_succ_cons, List.drop_zero, List.foldl_cons, List.foldl_nil]
  rw [splitEq, ← runAll_lateSteps, ← imported, ← runAll_earlySteps, stepsOf, runAll,
    List.foldl_append, List.foldl_cons]
  rfl

/-! ## Following literals -/

/-- A literal of a text that steps have led to: one that no step has touched, what a step left
of one, or one that was added. -/
inductive Traced where
  | spared (quoted : List Char)
  | edited (quoted : List Char)
  | added (quoted : List Char)
  deriving DecidableEq, Repr

namespace Traced

/-- The literal as it stands. -/
def literal : Traced → List Char
  | spared quoted | edited quoted | added quoted => quoted

/-- The literal, if no step has touched it. -/
def spared? : Traced → Option (List Char)
  | spared quoted => some quoted
  | _ => none

/-- The literal, if a step has left it. -/
def edited? : Traced → Option (List Char)
  | edited quoted => some quoted
  | _ => none

end Traced

/-- Literals go on to their fates. -/
def follow : List Fate → List Traced → List Traced
  | [], _ => []
  | .added path :: fates, traced => .added path :: follow fates traced
  | _ :: _, [] => []
  | .stays _ :: fates, first :: traced => first :: follow fates traced
  | .edited _ new :: fates, _ :: traced => .edited new :: follow fates traced
  | .dropped _ :: fates, _ :: traced => follow fates traced

/-- Literals go on through steps. -/
def traceThrough : List Step → List Char → List Traced → List Traced
  | [], _, traced => traced
  | step :: steps, text, traced =>
      traceThrough steps (step.run text) (follow (step.fates text) traced)

/-- The literals of a source text, followed through all steps. -/
def traceOf (source : List Char) : List Traced :=
  traceThrough (stepsOf source) source ((literals source).map .spared)

/-- The literals of a source text in which no step changes anything. -/
def sparedLiterals (source : List Char) : List (List Char) :=
  (traceOf source).filterMap Traced.spared?

/-- What steps leave of the literals in which they change something. -/
def editedLiterals (source : List Char) : List (List Char) :=
  (traceOf source).filterMap Traced.edited?

theorem traceThrough_append (first second : List Step) (text : List Char) (traced : List Traced) :
    traceThrough (first ++ second) text traced =
      traceThrough second (runAll first text) (traceThrough first text traced) := by
  induction first generalizing text traced with
  | nil => rfl
  | cons step first ih => exact ih _ _

theorem map_literal_follow {fates : List Fate} {traced : List Traced}
    (olds : traced.map Traced.literal = fates.filterMap Fate.old?) :
    (follow fates traced).map Traced.literal = fates.filterMap Fate.new? := by
  induction fates generalizing traced with
  | nil => rfl
  | cons fate fates ih =>
      cases fate with
      | added path => exact congrArg (path :: ·) (ih olds)
      | stays quoted =>
          obtain ⟨first, traced, rfl, rfl, later⟩ := List.map_eq_cons_iff.mp olds
          exact congrArg (first.literal :: ·) (ih later)
      | edited old new =>
          obtain ⟨first, traced, rfl, rfl, later⟩ := List.map_eq_cons_iff.mp olds
          exact congrArg (new :: ·) (ih later)
      | dropped quoted =>
          obtain ⟨first, traced, rfl, rfl, later⟩ := List.map_eq_cons_iff.mp olds
          exact ih later

theorem spared_follow (fates : List Fate) (traced : List Traced) :
    ((follow fates traced).filterMap Traced.spared?).Sublist (traced.filterMap Traced.spared?) := by
  induction fates generalizing traced with
  | nil => exact List.nil_sublist _
  | cons fate fates ih =>
      have later (first : Traced) (traced : List Traced) :
          ((follow fates traced).filterMap Traced.spared?).Sublist
            ((first :: traced).filterMap Traced.spared?) :=
        (ih traced).trans ((List.sublist_cons_self first traced).filterMap _)
      cases fate with
      | added path => exact ih traced
      | stays quoted =>
          cases traced with
          | nil => exact .refl _
          | cons first traced =>
              cases first with
              | spared quoted => exact (ih traced).cons_cons quoted
              | edited quoted => exact ih traced
              | added path => exact ih traced
      | edited old new =>
          cases traced with
          | nil => exact .refl _
          | cons first traced => exact later first traced
      | dropped quoted =>
          cases traced with
          | nil => exact .refl _
          | cons first traced => exact later first traced

theorem spared_sublist (traced : List Traced) :
    (traced.filterMap Traced.spared?).Sublist (traced.map Traced.literal) := by
  induction traced with
  | nil => exact .refl _
  | cons first traced ih =>
      cases first with
      | spared quoted => exact ih.cons_cons quoted
      | edited quoted => exact ih.cons quoted
      | added path => exact ih.cons path

theorem added_of_mem_follow {fates : List Fate} {traced : List Traced} {path : List Char}
    (isMember : .added path ∈ follow fates traced) :
    .added path ∈ traced ∨ .added path ∈ fates := by
  induction fates generalizing traced with
  | nil => nomatch isMember
  | cons fate fates ih =>
      cases fate with
      | added path =>
          rcases List.mem_cons.mp isMember with same | isLater
          · cases same
            exact .inr List.mem_cons_self
          · exact (ih isLater).imp_right (List.mem_cons_of_mem _)
      | stays quoted =>
          cases traced with
          | nil => nomatch isMember
          | cons first traced =>
              rcases List.mem_cons.mp isMember with same | isLater
              · exact .inl (same ▸ List.mem_cons_self)
              · exact (ih isLater).imp (List.mem_cons_of_mem _) (List.mem_cons_of_mem _)
      | edited old new =>
          cases traced with
          | nil => nomatch isMember
          | cons first traced =>
              rcases List.mem_cons.mp isMember with same | isLater
              · nomatch same
              · exact (ih isLater).imp (List.mem_cons_of_mem _) (List.mem_cons_of_mem _)
      | dropped quoted =>
          cases traced with
          | nil => nomatch isMember
          | cons first traced =>
              exact (ih isMember).imp (List.mem_cons_of_mem _) (List.mem_cons_of_mem _)

/-- Followed literals are those of a text that closes them, the spared ones come from the
source, and the added ones are of some kind. -/
structure Follows (source : List Char) (adds : List Char → Prop) (text : List Char)
    (traced : List Traced) : Prop where
  closed : ClosesLiterals text
  literals : traced.map Traced.literal = literals text
  spared : (traced.filterMap Traced.spared?).Sublist (Normalize.literals source)
  added : ∀ path, .added path ∈ traced → adds path

namespace Follows

variable {source text : List Char} {adds : List Char → Prop} {traced : List Traced}

/-- A step that respects literals is followed. -/
theorem step (follows : Follows source adds text traced) {step : Step}
    (respects : Respects none (step.retouches text))
    (added : ∀ path, .added path ∈ step.fates text → adds path) :
    Follows source adds (step.run text) (follow (step.fates text) traced) := by
  have beforeEq : before (step.retouches text) = text := (step.goes text).before_eq
  obtain ⟨oldsEq, newsEq, closes, onLines⟩ := @fates_spec (step.retouches text) none respects
    (by rw [beforeEq]; exact follows.closed.1) (by rw [beforeEq]; exact follows.closed.2) .none
  rw [beforeEq] at oldsEq
  exact {
    closed := ⟨closes, onLines⟩
    literals := (map_literal_follow (follows.literals.trans oldsEq.symm)).trans newsEq
    spared := (spared_follow _ traced).trans follows.spared
    added := fun path isMember =>
      (added_of_mem_follow isMember).elim (follows.added path) (added path) }

/-- Steps that change text without quotes are followed. -/
theorem steps {steps : List Step} (follows : Follows source adds text traced)
    (inline : ∀ step ∈ steps, ∀ text, ∀ retouch ∈ step.retouches text, IsInline retouch) :
    Follows source adds (runAll steps text) (traceThrough steps text traced) := by
  induction steps generalizing text traced with
  | nil => exact follows
  | cons step steps ih =>
      obtain ⟨here, later⟩ := List.forall_mem_cons.mp inline
      exact ih (follows.step (respects_of_inline (here text) none) fun path isAdded =>
        absurd isAdded (not_added_of_inline (here text) none path)) later

end Follows

/-! ## Steps without quotes -/

/-- An edit whose matches hold no quote, and that writes no quote and no line feed of its
own. -/
structure IsQuoteless (edit : Edit) : Prop where
  avoids : edit.pattern.avoids '"' = true
  writes : ∀ (found : Match) (character : Char), character = '"' ∨ character = '\n' →
    (∀ index, character ∉ found.group index) → character ∉ edit.replacement found

theorem inline_of_isQuoteless {edit : Edit} (plain : IsQuoteless edit) (onlyFirst : Bool)
    (text : List Char) :
    ∀ retouch ∈ (Step.mk (.whole edit) onlyFirst).retouches text, IsInline retouch := by
  refine ((Step.mk (.whole edit) onlyFirst).goes text).forall_mem (fun _ => trivial) ?_
  rintro place found covered rest notes - rfl covers groupEq
  refine Retouch.forall_replace (fun _ => trivial) ⟨(covers.not_mem plain.avoids).1, ?_, ?_⟩
  · refine plain.writes found '"' (.inl rfl) fun index => ?_
    rw [groupEq]
    exact covers.not_mem_noted plain.avoids index
  · refine not_imp_not.mp fun notThere => plain.writes found '\n' (.inr rfl) fun index => ?_
    rw [groupEq]
    exact fun isNoted => notThere (covers.mem_of_mem_noted isNoted)

theorem inline_fill {found : Match} {last : List Char} {kept : List (List Char × Nat)}
    (row : InRow found.start found.groups '"' found.start.position (kept.map Prod.snd)
      found.stop.position)
    (plain : ∀ text ∈ last :: kept.map Prod.fst, '"' ∉ text ∧ '\n' ∉ text) :
    ∀ retouch ∈ found.fill last found.start.position kept, IsInline retouch :=
  Match.forall_fill row (fun _ => trivial) fun _ text outside isText =>
    ⟨outside, (plain text isText).1, fun isThere => absurd isThere (plain text isText).2⟩

theorem inline_condition (text : List Char) :
    ∀ retouch ∈ (Step.mk conditionRetoucher false).retouches text, IsInline retouch := by
  refine ((Step.mk conditionRetoucher false).goes text).forall_mem (fun _ => trivial) ?_
  rintro place found covered rest notes isMatch - - -
  exact inline_fill (inRow_condition isMatch) (by decide)

theorem inline_assignment (text : List Char) :
    ∀ retouch ∈ (Step.mk assignmentRetoucher false).retouches text, IsInline retouch := by
  refine ((Step.mk assignmentRetoucher false).goes text).forall_mem (fun _ => trivial) ?_
  rintro place found covered rest notes isMatch - - -
  exact inline_fill (inRow_assignment isMatch) (by decide)

theorem isQuoteless_constructorEdit {source : List Char} {head : Match}
    (isFound : classHead.find? source = some head) :
    IsQuoteless (constructorEdit (head.group 1)) := by
  obtain ⟨isWord, -⟩ := isWord_of_classHead isFound
  have plain : '"' ∉ head.group 1 := fun isMember =>
    absurd (List.all_eq_true.mp isWord '"' isMember) (by decide)
  constructor
  · simp [constructorEdit, functionHead, inOrder, Pattern.avoids, plain]
    decide
  · rintro found character (rfl | rfl) - <;> simp [constructorEdit]

theorem inline_earlySteps (source : List Char) : ∀ step ∈ earlySteps source, ∀ text,
    ∀ retouch ∈ step.retouches text, IsInline retouch := by
  refine List.forall_mem_append.mpr ⟨?_, ?_⟩
  · intro step isStep
    unfold constructorSteps at isStep
    split at isStep
    · rename_i head isFound
      split at isStep
      · rw [List.mem_singleton] at isStep
        subst isStep
        exact inline_of_isQuoteless (isQuoteless_constructorEdit isFound) true
      · nomatch isStep
    · nomatch isStep
  · simp only [List.forall_mem_cons]
    refine ⟨inline_of_isQuoteless ⟨by decide, ?_⟩ false,
      inline_of_isQuoteless ⟨by decide, ?_⟩ false,
      inline_of_isQuoteless ⟨by decide, ?_⟩ true, nofun⟩
    · rintro found character - -
      exact List.not_mem_nil
    · rintro found character (rfl | rfl) none <;> simp [exportEdit, none]
    · rintro found character (rfl | rfl) none <;> dsimp only [moduleHead] <;> split <;>
        simp [none, anonymousPackageName]

theorem inline_lateSteps : ∀ step ∈ lateSteps, ∀ text,
    ∀ retouch ∈ step.retouches text, IsInline retouch := by
  have ofEdits {edits : List Edit} (plain : ∀ edit ∈ edits, IsQuoteless edit) :
      ∀ step ∈ edits.map Step.all, ∀ text, ∀ retouch ∈ step.retouches text, IsInline retouch := by
    intro step isStep
    obtain ⟨edit, isEdit, rfl⟩ := List.mem_map.mp isStep
    exact inline_of_isQuoteless (plain edit isEdit) false
  refine List.forall_mem_append.mpr ⟨List.forall_mem_append.mpr ⟨ofEdits ?_, ?_⟩, ofEdits ?_⟩
  · simp only [memberEdits, List.forall_mem_cons]
    refine ⟨⟨by decide, ?_⟩, ⟨by decide, ?_⟩, ⟨by decide, ?_⟩, ⟨by decide, ?_⟩, ⟨by decide, ?_⟩,
      ⟨by decide, ?_⟩, nofun⟩ <;>
    · rintro found character (rfl | rfl) none <;> simp [firstGroup, none]
  · simp only [List.forall_mem_cons]
    exact ⟨inline_condition, inline_assignment, nofun⟩
  · simp only [expressionEdits, List.forall_mem_cons]
    refine ⟨⟨by decide, ?_⟩, ⟨by decide, ?_⟩, ⟨by decide, ?_⟩, ⟨by decide, ?_⟩, ⟨by decide, ?_⟩,
      ⟨by decide, ?_⟩, nofun⟩ <;>
    · rintro found character (rfl | rfl) none <;> simp [edgeEdit, none]

/-! ## Imports -/

/-- A line that the rule for imports rewrites in a text, with its notes: the indentation
and the name. -/
def ImportsIn (text line : List Char) (notes : List NotedText) : Prop :=
  ∃ before rest, text = before ++ (line ++ rest) ∧ importLine.Covers before.getLast? line rest notes

/-- A path that the rule for imports takes from a line of a text. -/
def IsPathIn (text path : List Char) : Prop :=
  ∃ line notes, ImportsIn text line notes ∧ path = dottedPath (notedUnder 2 notes)

/-- The line that takes the place of an import has one literal, the path. -/
theorem literals_importedLine {indent segment path : List Char} (indentPlain : '"' ∉ indent)
    (segmentPlain : '"' ∉ segment) (pathPlain : '"' ∉ path) :
    openedBy none (indent ++ "import \x7b".toList ++ segment ++ "\x7d from \"".toList ++ path ++
        "\";".toList) = none ∧
      literals (indent ++ "import \x7b".toList ++ segment ++ "\x7d from \"".toList ++ path ++
        "\";".toList) = [path] := by
  have lineEq : indent ++ "import \x7b".toList ++ segment ++ "\x7d from \"".toList ++ path ++
      "\";".toList = (indent ++ ("import \x7b".toList ++ (segment ++ "\x7d from ".toList))) ++
        ('"' :: (path ++ ['"', ';'])) := by
    simp
  have plain : '"' ∉ indent ++ ("import \x7b".toList ++ (segment ++ "\x7d from ".toList)) := by
    simp [indentPlain, segmentPlain]
  rw [lineEq, literals, literalsFrom_outside plain, openedBy_outside plain]
  simp [literalsFrom, openedBy, literalsFrom_inside pathPlain, openedBy_inside pathPlain]

/-- The line of an import stands between line feeds, and the path is the only literal of what
takes its place. -/
theorem of_importsLine {previous : Option Char} {line rest : List Char} {notes : List NotedText}
    {found : Match} (covers : importLine.Covers previous line rest notes)
    (groupEq : ∀ index, found.group index = notedUnder index notes) :
    previous.all (· == '\n') = true ∧ rest.head?.all (· == '\n') = true ∧
      openedBy none (importedFrom found) = none ∧
      literals (importedFrom found) = [dottedPath (notedUnder 2 notes)] ∧
      '\n' ∉ dottedPath (notedUnder 2 notes) := by
  obtain ⟨gap, tail, indentIsBlank, -, -, isDotted, -, -, -, -, atEnd⟩ :=
    of_covers_importLine covers
  have avoids {character : Char} (notWord : Text.isWord character = false)
      (notSlash : character ≠ '/') : character ∉ dottedPath (notedUnder 2 notes) := by
    intro isMember
    obtain ⟨other, inName, same⟩ := List.mem_map.mp isMember
    have allowed := List.all_eq_true.mp isDotted other inName
    split at same
    · exact notSlash same.symm
    · rename_i notDot
      simp_all
  have indentPlain : '"' ∉ notedUnder 1 notes := fun isMember =>
    absurd (List.all_eq_true.mp indentIsBlank '"' isMember) (by decide)
  have segmentPlain : '"' ∉ lastSegment (notedUnder 2 notes) := fun isMember =>
    absurd (List.all_eq_true.mp (isWord_lastSegment isDotted) '"' isMember) (by decide)
  obtain ⟨closes, literalsEq⟩ := literals_importedLine indentPlain segmentPlain
    (avoids (by decide) (by decide))
  rw [importedFrom, groupEq, groupEq]
  exact ⟨(covers_condition_sequence.mp covers).1, atEnd, closes, literalsEq,
    avoids (by decide) (by decide)⟩

/-- Imports start and end with their lines, so they stand outside of literals that are closed
on their lines, and add their paths. -/
theorem respects_imports {whole front text : List Char} {previous : Option Char}
    {retouches : List Retouch} {opened : Option OpenLiteral}
    (goes : importRetoucher.GoesOver previous text retouches) (wholeEq : whole = front ++ text)
    (previousEq : previous = front.getLast?)
    (behind : StandsBehind previous (opened.map OpenLiteral.old))
    (closes : openedBy (opened.map OpenLiteral.old) text = none)
    (onLines : ∀ literal ∈ literalsFrom (opened.map OpenLiteral.old) text, '\n' ∉ literal) :
    Respects (opened.map OpenLiteral.old) retouches ∧
      ∀ path, .added path ∈ fatesFrom opened retouches → IsPathIn whole path := by
  induction goes generalizing front opened with
  | done previous => exact ⟨by cases opened <;> trivial, by cases opened <;> simp [fatesFrom]⟩
  | @keep previous rest retouches character later ih =>
      rw [openedBy_cons, ← map_old_openBehind] at closes
      rw [literalsFrom_cons, List.forall_mem_append, ← map_old_openBehind] at onLines
      have next := standsBehind_next (opened.map OpenLiteral.old) character
      rw [← map_old_openBehind] at next
      obtain ⟨respects, paths⟩ := @ih (front ++ [character]) _ (by simp [wholeEq]) (by simp) next
        closes onLines.2
      rw [map_old_openBehind] at respects
      refine ⟨respects, fun path isAdded => ?_⟩
      rw [fatesFrom, List.mem_append] at isAdded
      refine paths path (isAdded.resolve_left ?_)
      rcases opened with _ | _ | _ <;> simp [closedBy, OpenLiteral.fate]
  | @found position previous covered rest found notes retouches isMatch isCovered covers groupEq
      later ih =>
      obtain ⟨atStart, atEnd, newCloses, newLiterals, pathOnLine⟩ := of_importsLine covers groupEq
      have outside := opened_eq_none_of_lineStart atStart behind closes onLines
      obtain rfl : opened = none := Option.map_eq_none_iff.mp outside
      have oldClosed := closesLiterals_of_lineEnd atEnd closes onLines
      have newClosed : ClosesLiterals (importedFrom found) :=
        ⟨newCloses, by rw [newLiterals]; exact List.forall_mem_singleton.mpr pathOnLine⟩
      simp only [Option.map_none, openedBy_append, oldClosed.1] at closes
      simp only [Option.map_none, literalsFrom_append, oldClosed.1, List.forall_mem_append]
        at onLines
      subst previousEq
      obtain ⟨respects, paths⟩ := @ih (front ++ covered) none (by simp [wholeEq])
        (by rw [List.getLast?_append]) (standsBehind_none _) closes onLines.2
      subst isCovered
      refine ⟨⟨oldClosed, newClosed, respects⟩, fun path isAdded => ?_⟩
      simp only [importRetoucher, List.singleton_append, fatesFrom, newLiterals, List.mem_append,
        List.mem_map] at isAdded
      rcases isAdded with (⟨_, -, no⟩ | isPath) | isLater
      · cases no
      · refine ⟨found.covered, notes, ⟨front, rest, wholeEq, covers⟩, ?_⟩
        simpa [eq_comm] using isPath
      · exact paths path isLater

/-! ## All rules -/

/-- Literals that are closed on their lines and in which no step changes anything stay, in
their order.  The others are what steps left of literals, or the paths of imports. -/
theorem literals_sublist_normalize (source : String) (closed : ClosesLiterals source.toList) :
    (sparedLiterals source.toList).Sublist (literals source.toList) ∧
      (sparedLiterals source.toList).Sublist (literals (normalize source).toList) ∧
      ∀ literal ∈ literals (normalize source).toList,
        literal ∈ sparedLiterals source.toList ∨ literal ∈ editedLiterals source.toList ∨
          IsPathIn (beforeImports source.toList) literal := by
  rw [normalize, String.toList_ofList]
  generalize source.toList = text at *
  have start : Follows text (IsPathIn (beforeImports text)) text
      ((literals text).map .spared) := by
    refine ⟨closed, ?_, ?_, ?_⟩
    · simp [Function.comp_def, Traced.literal]
    · simp [List.filterMap_map, Function.comp_def, Traced.spared?]
    · simp
  have early := start.steps (inline_earlySteps text)
  rw [runAll_earlySteps] at early
  obtain ⟨respects, paths⟩ := @respects_imports (beforeImports text) [] (beforeImports text) none _
    none ((Step.mk importRetoucher false).goes _) rfl rfl (standsBehind_none _) early.closed.1
    early.closed.2
  have late := (early.step respects paths).steps inline_lateSteps
  have traceEq : traceThrough lateSteps ((Step.mk importRetoucher false).run (beforeImports text))
      (follow ((Step.mk importRetoucher false).fates (beforeImports text))
        (traceThrough (earlySteps text) text ((literals text).map .spared))) = traceOf text := by
    rw [traceOf, stepsOf, traceThrough_append, runAll_earlySteps]
    rfl
  have textEq : runAll lateSteps ((Step.mk importRetoucher false).run (beforeImports text)) =
      normalizeText text := by
    rw [← runAll_stepsOf, stepsOf, runAll, runAll, List.foldl_append, List.foldl_cons,
      ← runAll_earlySteps]
    rfl
  rw [traceEq, textEq] at late
  refine ⟨late.spared, ?_, fun literal isLiteral => ?_⟩
  · rw [← late.literals]
    exact spared_sublist _
  · rw [← late.literals] at isLiteral
    obtain ⟨traced, isTraced, rfl⟩ := List.mem_map.mp isLiteral
    cases traced with
    | spared quoted => exact .inl (List.mem_filterMap.mpr ⟨_, isTraced, rfl⟩)
    | edited quoted => exact .inr (.inl (List.mem_filterMap.mpr ⟨_, isTraced, rfl⟩))
    | added path => exact .inr (.inr (late.added path isTraced))

/-- Literals that look like source text, behind an import; a field is declared in the last. -/
def quotation : String :=
  "import a.B;\nf(\"http://h/p?a=b\");\nif (\"this is fun\" is C) s = \"public var x\";"

theorem literals_sublist_normalize_quotation :
    ClosesLiterals quotation.toList ∧
      literals quotation.toList =
        ["http://h/p?a=b".toList, "this is fun".toList, "public var x".toList] ∧
      sparedLiterals quotation.toList = ["http://h/p?a=b".toList, "this is fun".toList] ∧
      (sparedLiterals quotation.toList).Sublist (literals (normalize quotation).toList) := by
  have closed : ClosesLiterals quotation.toList := by decide +kernel
  exact ⟨closed, by decide +kernel, by decide +kernel,
    (literals_sublist_normalize quotation closed).2.1⟩

/-- Everything that the rules look for is found in literals too. -/
theorem normalize_edits_literals :
    List.Forall (fun source : String =>
      ClosesLiterals source.toList ∧ (∀ literal ∈ literals source.toList, '\\' ∉ literal) ∧
        ¬ (literals source.toList).Sublist (literals (normalize source).toList))
      ["\"final x\"", "\"public class\"", "\"package x\"", "\"public var x\"",
      "\"static const x\"", "\"public override\"", "\"override public\"",
      "\"public function\"", "\" function f(\"", "\"if (\"a is B)",
      "s = \"x is y\"", "\"a=\"c is D;", "\"Vector.<x\"", "\"Vector.x\"",
      "\"for each (var a in \"", "\"for each (a in \"", "\"new Array<x>;\"",
      "\"new <x>[\"", "import a;\"x\""] := by
  decide +kernel

end Normalize

end ScriptBridge

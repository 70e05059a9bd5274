import Mathlib.Data.List.Basic
import ScriptBridge.Proofs.Printing.Logs
import ScriptBridge.Proofs.Printing.Roles

/-!
# Functions marked as generators or as asynchronous

Neither kind of function can be converted.  While a tree is printed, every function that bears
such a mark is listed when the printer comes to it.  All of them are reported, at their own place
or at that of the method they belong to, except for arrow functions, of which no printer reads the
marks.
-/

namespace ScriptBridge

namespace FunctionMarks

/-- Whether a function is a generator or asynchronous. -/
def isSpecial (marks : FunctionMarks) : Bool :=
  marks.generator || marks.async

/-- The marks without those two. -/
def ordinary (marks : FunctionMarks) : FunctionMarks :=
  { marks with generator := false, async := false }

end FunctionMarks

/-- A generator or an asynchronous function that a printer comes to, with the place where it is to
be reported. -/
structure MarkedFunction where
  place : Position
  isArrow : Bool
  deriving DecidableEq, Repr

namespace MarkedFunction

/-- The form in which a function is kept in a log: as a message. -/
def toDiagnostic (function : MarkedFunction) : Diagnostic :=
  ⟨"", function.place.line, function.place.column, "", .message,
    if function.isArrow then 1 else 0⟩

def ofDiagnostic? (diagnostic : Diagnostic) : Option MarkedFunction :=
  if diagnostic.isNote then
    some ⟨⟨diagnostic.line, diagnostic.column⟩, diagnostic.code = 1⟩
  else none

theorem isNote_toDiagnostic (function : MarkedFunction) :
    function.toDiagnostic.isNote = true :=
  rfl

theorem ofDiagnostic?_toDiagnostic (function : MarkedFunction) :
    ofDiagnostic? function.toDiagnostic = some function := by
  obtain ⟨place, _ | _⟩ := function <;> rfl

/-- Whether it is reported at its place that something is not converted. -/
def IsReported (function : MarkedFunction) (file : String) (diagnostics : List Diagnostic) :
    Prop :=
  ∃ diagnostic ∈ diagnostics, diagnostic.code = 9001 ∧ diagnostic.file = file ∧
    diagnostic.line = function.place.line ∧ diagnostic.column = function.place.column

end MarkedFunction

/-- The functions of a list, if their marks say so. -/
def FunctionMarks.listed (marks : FunctionMarks) (place : Position) (isArrow : Bool) :
    List MarkedFunction :=
  if marks.isSpecial then [⟨place, isArrow⟩] else []

theorem FunctionMarks.mem_listed {marks : FunctionMarks} {place : Position} {isArrow : Bool}
    {function : MarkedFunction} (listed : function ∈ marks.listed place isArrow) :
    marks.isSpecial = true ∧ function = ⟨place, isArrow⟩ := by
  unfold FunctionMarks.listed at listed
  split at listed
  · next special => exact ⟨special, List.mem_singleton.mp listed⟩
  · cases listed

namespace Printer

/-- The marked functions that a construct is: the function itself, or the function of a method.
The latter is to be reported at the method, unless the method may not have such a function, and
is not listed again when it is printed as a part of the method. -/
def markedFunctions (location : Location) (shape : Shape Part) (role : Role) :
    List MarkedFunction :=
  match shape, role with
  | .function .., .method .. => []
  | .function form marks .., _ => marks.listed location.start (form = .arrow)
  | .method form _ _ value, _ =>
      match value.node.shape with
      | .function _ marks .. =>
          marks.listed
            (if (methodMarks? form value).isSome then location.start
              else value.node.location.start) false
      | _ => []
  | _, _ => []

def noteMarked (functions : List MarkedFunction) : Printer Unit :=
  modify fun state =>
    { state with diagnostics := state.diagnostics ++ functions.map MarkedFunction.toDiagnostic }

/-- Print one construct behind the marked functions that it is. -/
def constructMarking (location : Location) (shape : Shape Part) (role : Role) : Printer Unit := do
  noteMarked (markedFunctions location shape role)
  construct location shape role

end Printer

/-- Print a node in the given role, with all marked functions that are met. -/
def Node.printMarking (node : Node) (role : Role) : Printer Unit :=
  node.fold Printer.constructMarking role

/-- Generate the code of a tree, and list the generators and asynchronous functions in the order
in which the printer comes to them. -/
def Settings.generateMarking (settings : Settings) (tree : Node) :
    Except Diagnostic (Generated × List MarkedFunction) :=
  match (tree.printMarking .plain).run settings |>.run .start with
  | .error diagnostic => .error diagnostic
  | .ok (_, state) =>
      .ok (⟨state.types.prepend settings.file state.text.toString,
          state.diagnostics.filter (!·.isNote)⟩,
        state.diagnostics.filterMap MarkedFunction.ofDiagnostic?)

theorem Node.printMarking_eq (location : Location) (shape : Shape Node) (role : Role) :
    printMarking ⟨location, shape⟩ role =
      Printer.constructMarking location (shape.map fun part => ⟨part, part.printMarking⟩) role := by
  unfold printMarking
  rw [fold_eq]

/-- The problems of a log with marked functions.  Every function is an arrow function or is
reported, or it is yet to be reported at one of the places that are due. -/
structure Told (file : String) (due : List Position) (problems log : List Diagnostic) : Prop where
  isProblems : problems = log.filter (!·.isNote)
  reported : ∀ function ∈ log.filterMap MarkedFunction.ofDiagnostic?,
    function.isArrow = false → function.place ∈ due ∨ function.IsReported file problems

namespace Told

variable {file : String} {due : List Position} {problems log : List Diagnostic}

theorem kept (file : String) (due : List Position) : KeptByProblems (Told file due) := by
  intro problems log diagnostic isProblem told
  constructor
  · rw [List.filter_append, ← told.isProblems]
    simp [isProblem]
  · intro function listed plain
    have before : function ∈ log.filterMap MarkedFunction.ofDiagnostic? := by
      simpa [MarkedFunction.ofDiagnostic?, isProblem] using listed
    refine (told.reported function before plain).imp_right ?_
    rintro ⟨diagnostic, reported, same⟩
    exact ⟨diagnostic, List.mem_append_left _ reported, same⟩

/-- Listed functions are due unless they are arrow functions. -/
theorem note (told : Told file [] problems log) {functions : List MarkedFunction}
    (isDue : ∀ function ∈ functions, function.isArrow = false → function.place ∈ due) :
    Told file due problems (log ++ functions.map MarkedFunction.toDiagnostic) := by
  have listed : (functions.map MarkedFunction.toDiagnostic).filterMap
      MarkedFunction.ofDiagnostic? = functions := by
    rw [List.filterMap_map, funext (f := MarkedFunction.ofDiagnostic? ∘ _)
      MarkedFunction.ofDiagnostic?_toDiagnostic]
    exact List.filterMap_some
  constructor
  · rw [List.filter_append, ← told.isProblems]
    simp [MarkedFunction.isNote_toDiagnostic]
  · intro function
    rw [List.filterMap_append, listed, List.mem_append]
    rintro (before | new) plain
    · exact .inr ((told.reported function before plain).resolve_left List.not_mem_nil)
    · exact .inl (isDue function new plain)

/-- The functions of a list are due at their place. -/
theorem note_listed (told : Told file [] problems log) (marks : FunctionMarks) (place : Position)
    (isArrow : Bool) :
    Told file [place] problems
      (log ++ (marks.listed place isArrow).map MarkedFunction.toDiagnostic) := by
  refine told.note fun function listed _ => ?_
  rw [(FunctionMarks.mem_listed listed).2]
  exact List.mem_singleton_self place

/-- A report at a place settles what is due there. -/
theorem report {place : Position} (told : Told file [place] problems log) (what : String) :
    Told file [] (problems ++ [Diagnostic.about .unsupportedConstruct file place [what]])
      (log ++ [Diagnostic.about .unsupportedConstruct file place [what]]) := by
  have added := kept file [place] _ _ (Diagnostic.about .unsupportedConstruct file place [what])
    rfl told
  refine ⟨added.isProblems, fun function listed plain => .inr ?_⟩
  rcases added.reported function listed plain with here | reported
  · have same : function.place = place := List.mem_singleton.mp here
    subst same
    exact ⟨_, List.mem_append_right _ (List.mem_singleton_self _), rfl, rfl, rfl, rfl⟩
  · exact reported

end Told

/-- A function without marks; other nodes stay as they are. -/
def Node.ordinary (node : Node) : Node :=
  match node.shape with
  | .function form marks name params body returnType =>
      ⟨node.location, .function form marks.ordinary name params body returnType⟩
  | _ => node

namespace Printer

variable {settings : Settings}

/-- What is noted in front of the second printer. -/
theorem relates_noteMarked {Result : Type}
    {before middle : List Diagnostic → List Diagnostic → Prop}
    {after : PrinterState → PrinterState → Prop} {first second : Printer Result}
    {functions : List MarkedFunction}
    (noted : ∀ problems log, before problems log →
      middle problems (log ++ functions.map MarkedFunction.toDiagnostic))
    (behind : Simulates settings (PrinterState.SameBut middle) after first second) :
    Simulates settings (PrinterState.SameBut before) after first
      (do noteMarked functions; second) := by
  rintro state _ ⟨log, rfl, related⟩
  exact behind state _ ⟨_, rfl, noted _ _ related⟩

theorem relates_unsupported (place : Position) (what : String) :
    Simulates settings (PrinterState.SameBut (Told settings.file [place]))
      (PrinterState.SameBut (Told settings.file [])) (unsupported place what)
      (unsupported place what) := by
  rintro state _ ⟨log, rfl, told⟩
  unfold unsupported
  rw [outcome_report, outcome_report]
  dsimp only
  split
  · exact .inl ⟨_, rfl, rfl⟩
  · exact .inr ⟨_, _, _, rfl, rfl, _, rfl, told.report what⟩

/-- The reports of a marked function settle what is due at their place. -/
theorem relates_reports {place : Position} {marks : FunctionMarks}
    (special : marks.isSpecial = true) {first second : Printer Unit}
    (behind : RelatesLogs settings (Told settings.file []) first second) :
    Simulates settings (PrinterState.SameBut (Told settings.file [place]))
      (PrinterState.SameBut (Told settings.file []))
      (do
        unsupportedIf marks.generator place "generator function"
        unsupportedIf marks.async place "async function"
        first)
      (do
        unsupportedIf marks.generator place "generator function"
        unsupportedIf marks.async place "async function"
        second) := by
  have closed := RelatesLogs.isCongruence settings (Told.kept settings.file [])
  obtain ⟨generator, async, _, _⟩ := marks
  cases generator with
  | true =>
      exact (relates_unsupported place _).andThen
        (closed.andThen (closed.unsupportedIf async place _) behind)
  | false =>
      obtain rfl : async = true := special
      exact (relates_unsupported place _).andThen behind

theorem methodMarks?_ordinary (form : MethodForm) (value : Part) :
    methodMarks? form ⟨value.node.ordinary, value.result⟩ =
      (methodMarks? form value).map FunctionMarks.ordinary := by
  obtain ⟨⟨location, shape⟩, result⟩ := value
  cases shape with
  | function valueForm => cases valueForm <;> cases form <;> rfl
  | _ => rfl

theorem marks_of_methodMarks? {form : MethodForm} {location : Location}
    {valueForm : FunctionForm} {marks found : FunctionMarks} {name : Option Node}
    {params : List Node} {body returnType : Option Node} {result : Role → Printer Unit}
    (accepted : methodMarks?
      form ⟨⟨location, .function valueForm marks name params body returnType⟩, result⟩ =
        some found) : found = marks := by
  cases valueForm <;> cases form <;> cases accepted <;> rfl

/-- Behind its reports, a marked function is printed as if it had no marks. -/
theorem function_eq (form : FunctionForm) (role : Role) (place : Position) (marks : FunctionMarks)
    (name : Option Part) (params : List Part) (body returnType : Option Part) :
    function form role place marks name params body returnType = (do
      unsupportedIf marks.generator place "generator function"
      unsupportedIf marks.async place "async function"
      function form role place marks.ordinary name params body returnType) :=
  rfl

theorem method_eq {form : MethodForm} {value : Part} {found : FunctionMarks}
    (accepted : methodMarks? form value = some found) (place : Position) (marks : MethodMarks)
    (key : Part) :
    method form place marks key value = (do
      unsupportedIf marks.computed place "computed method name"
      unsupportedIf found.generator place "generator function"
      unsupportedIf found.async place "async function"
      method form place { marks with computed := false } key
        ⟨value.node.ordinary, value.result⟩) := by
  have ordinary := methodMarks?_ordinary form value
  unfold method
  rw [ordinary, accepted]
  rfl

theorem method_of_rejected {form : MethodForm} {value : Part}
    (rejected : methodMarks? form value = none) (place : Position) (marks : MethodMarks)
    (key : Part) :
    method form place marks key value = (do
      unsupportedIf marks.computed place "computed method name"
      unsupported value.node.location.start value.node.tag) := by
  unfold method
  rw [rejected]

/-- A function that is not printed for a method. -/
theorem construct_function (location : Location) {form : FunctionForm}
    (printed : form = .declaration ∨ form = .expression) {role : Role}
    (alone : ∀ owner isConstructor isAbstract, role ≠ .method owner isConstructor isAbstract)
    (marks : FunctionMarks) (name : Option Part) (params : List Part)
    (body returnType : Option Part) :
    construct location (.function form marks name params body returnType) role =
      function form role location.start marks name params body returnType := by
  cases role with
  | method owner isConstructor isAbstract => exact absurd rfl (alone _ _ _)
  | _ => rcases printed with rfl | rfl <;> rfl

theorem construct_rejected (location : Location) {form : FunctionForm}
    (rejected : form = .declared ∨ form = .emptyBody) {role : Role}
    (alone : ∀ owner isConstructor isAbstract, role ≠ .method owner isConstructor isAbstract)
    (marks : FunctionMarks) (name : Option Part) (params : List Part)
    (body returnType : Option Part) :
    construct location (.function form marks name params body returnType) role =
      unsupported location.start form.tag := by
  cases role with
  | method owner isConstructor isAbstract => exact absurd rfl (alone _ _ _)
  | _ => rcases rejected with rfl | rfl <;> rfl

theorem markedFunctions_function (location : Location) (form : FunctionForm) {role : Role}
    (alone : ∀ owner isConstructor isAbstract, role ≠ .method owner isConstructor isAbstract)
    (marks : FunctionMarks) (name : Option Part) (params : List Part)
    (body returnType : Option Part) :
    markedFunctions location (.function form marks name params body returnType) role =
      marks.listed location.start (form = .arrow) := by
  cases role with
  | method owner isConstructor isAbstract => exact absurd rfl (alone _ _ _)
  | _ => rfl

/-- Printers with the same effect, of which the second lists marked functions and reports them. -/
abbrev Reports (settings : Settings) {Result : Type} (first second : Printer Result) : Prop :=
  RelatesLogs settings (Told settings.file []) first second

theorem reportsCongruence (settings : Settings) :
    ScopedCongruence fun {Result} (first second : Printer Result) =>
      Reports settings first second :=
  RelatesLogs.isCongruence settings (Told.kept settings.file [])

section Constructs

variable (location : Location) (role : Role)

/-- A construct of which no function has to be reported. -/
theorem reports_unlisted (shape : Shape (Twin (Reports settings)))
    (unlisted : ∀ function ∈ markedFunctions location (shape.map Twin.second) role,
      function.isArrow = true) :
    Reports settings (construct location (shape.map Twin.first) role)
      (constructMarking location (shape.map Twin.second) role) := by
  refine relates_noteMarked (fun problems log told => told.note fun function listed plain => ?_)
    ((reportsCongruence settings).construct location shape role)
  rw [unlisted function listed] at plain
  cases plain

theorem reports_function {role : Role}
    (alone : ∀ owner isConstructor isAbstract, role ≠ .method owner isConstructor isAbstract)
    (form : FunctionForm) (marks : FunctionMarks) (name : Option (Twin (Reports settings)))
    (params : List (Twin (Reports settings))) (body returnType : Option (Twin (Reports settings))) :
    Reports settings
      (construct location ((Shape.function form marks name params body returnType).map Twin.first)
        role)
      (constructMarking location
        ((Shape.function form marks name params body returnType).map Twin.second) role) := by
  by_cases unlisted : marks.isSpecial = true → form = .arrow
  · refine reports_unlisted location role _ fun function listed => ?_
    rw [Shape.map, markedFunctions_function location form alone] at listed
    obtain ⟨special, rfl⟩ := FunctionMarks.mem_listed listed
    exact decide_eq_true (unlisted special)
  · obtain ⟨special, noArrow⟩ := Classical.not_imp.mp unlisted
    have rest := (reportsCongruence settings).construct location
      (.function form marks.ordinary name params body returnType) role
    simp only [constructMarking, Shape.map] at rest ⊢
    rw [markedFunctions_function location form alone]
    refine relates_noteMarked (fun _ _ told => told.note_listed _ _ _) ?_
    cases form with
    | arrow => exact absurd rfl noArrow
    | declared =>
        rw [construct_rejected location (.inl rfl) alone,
          construct_rejected location (.inl rfl) alone]
        exact relates_unsupported _ _
    | emptyBody =>
        rw [construct_rejected location (.inr rfl) alone,
          construct_rejected location (.inr rfl) alone]
        exact relates_unsupported _ _
    | declaration =>
        rw [construct_function location (.inl rfl) alone,
          construct_function location (.inl rfl) alone] at rest ⊢
        rw [function_eq _ _ _ marks, function_eq _ _ _ marks]
        exact relates_reports special rest
    | expression =>
        rw [construct_function location (.inr rfl) alone,
          construct_function location (.inr rfl) alone] at rest ⊢
        rw [function_eq _ _ _ marks, function_eq _ _ _ marks]
        exact relates_reports special rest

theorem reports_method (form : MethodForm) (marks : MethodMarks)
    (key value : Twin (Reports settings)) :
    Reports settings
      (construct location ((Shape.method form marks key value).map Twin.first) role)
      (constructMarking location ((Shape.method form marks key value).map Twin.second) role) := by
  have closed := reportsCongruence settings
  obtain ⟨⟨place, shape⟩, left, right, related⟩ := value
  cases shape with
  | function valueForm valueMarks name params body returnType =>
      let node : Node := ⟨place, .function valueForm valueMarks name params body returnType⟩
      by_cases plain : valueMarks.isSpecial = false
      · refine reports_unlisted location role _ fun function listed => ?_
        have special := (FunctionMarks.mem_listed listed).1
        rw [plain] at special
        cases special
      · have special : valueMarks.isSpecial = true := eq_true_of_ne_false plain
        have computed (due : Position) :=
          (RelatesLogs.isCongruence settings (Told.kept settings.file [due])).unsupportedIf
            marks.computed location.start "computed method name"
        have listed : markedFunctions location (.method form marks key.second ⟨node, right⟩) role =
            valueMarks.listed (if (methodMarks? form ⟨node, right⟩).isSome then location.start
              else place.start) false := rfl
        have sameMarks : methodMarks? form ⟨node, left⟩ = methodMarks? form ⟨node, right⟩ := rfl
        change Reports settings (method form location.start marks key.first ⟨node, left⟩) (do
          noteMarked (markedFunctions location (.method form marks key.second ⟨node, right⟩) role)
          method form location.start marks key.second ⟨node, right⟩)
        rw [listed]
        cases found : methodMarks? form ⟨node, right⟩ with
        | none =>
            rw [method_of_rejected found, method_of_rejected (sameMarks.trans found)]
            exact relates_noteMarked (fun _ _ told => told.note_listed _ place.start _)
              ((computed _).andThen (relates_unsupported _ _))
        | some accepted =>
            obtain rfl : accepted = valueMarks := marks_of_methodMarks? found
            rw [method_eq found, method_eq (sameMarks.trans found)]
            have rest := closed.method form location.start { marks with computed := false } key
              ⟨node.ordinary, left, right, related⟩
            exact relates_noteMarked (fun _ _ told => told.note_listed _ location.start _)
              ((computed _).andThen (relates_reports special rest))
  | _ => exact reports_unlisted location role _ fun function listed => by cases listed

/-- Every construct reports the marked functions that it is, if its parts do so. -/
theorem reports_construct (shape : Shape (Twin (Reports settings))) :
    Reports settings (construct location (shape.map Twin.first) role)
      (constructMarking location (shape.map Twin.second) role) := by
  cases shape with
  | function form marks name params body returnType =>
      by_cases alone :
          ∀ owner isConstructor isAbstract, role ≠ .method owner isConstructor isAbstract
      · exact reports_function location alone form marks name params body returnType
      · refine reports_unlisted location role _ fun function listed => ?_
        cases role with
        | method => cases listed
        | _ => simp at alone
  | method form marks key value => exact reports_method location role form marks key value
  | _ => exact reports_unlisted location role _ fun function listed => by cases listed

end Constructs

theorem reports_printMarking (settings : Settings) (node : Node) (role : Role) :
    Reports settings (node.printAs role) (node.printMarking role) := by
  revert role
  refine Node.induction (motive := fun node => ∀ role,
    Reports settings (node.printAs role) (node.printMarking role)) ?_ node
  intro location shape role
  let twins : Shape (Twin (Reports settings)) :=
    shape.map fun part => ⟨part.1, part.1.printAs, part.1.printMarking, part.2⟩
  have related := reports_construct location role twins
  rw [Shape.map_map, Shape.map_map] at related
  rwa [Node.printAs_eq, Node.printMarking_eq, Shape.map_map, Shape.map_map]

end Printer

/-- The marks of an arrow function make no difference. -/
theorem Node.printAs_arrow (location : Location) (marks other : FunctionMarks)
    (name : Option Node) (params : List Node) (body returnType : Option Node) (role : Role) :
    printAs ⟨location, .function .arrow marks name params body returnType⟩ role =
      printAs ⟨location, .function .arrow other name params body returnType⟩ role := by
  rw [printAs_eq, printAs_eq]
  rfl

namespace Settings

theorem generateMarking_eq (settings : Settings) (tree : Node) :
    settings.generateMarking tree =
      match (tree.printMarking .plain).outcome settings {} with
      | .error diagnostic => .error diagnostic
      | .ok (_, state) =>
          .ok (⟨state.types.prepend settings.file state.text.toString,
              state.diagnostics.filter (!·.isNote)⟩,
            state.diagnostics.filterMap MarkedFunction.ofDiagnostic?) :=
  rfl

/-- With the marked functions listed, a tree is printed as without.  If that succeeds, all of them
but the arrow functions are reported, and the marks of arrow functions make no difference. -/
theorem generate_marked (settings : Settings) (tree : Node) :
    (match settings.generateMarking tree with
    | .error diagnostic => settings.generate tree = .error diagnostic
    | .ok (generated, functions) =>
        settings.generate tree = .ok generated ∧
          ∀ function ∈ functions, function.isArrow = false →
            function.IsReported settings.file generated.diagnostics) ∧
    ∀ (location : Location) (marks other : FunctionMarks) (name : Option Node)
      (params : List Node) (body returnType : Option Node) (role : Role),
      Node.printAs ⟨location, .function .arrow marks name params body returnType⟩ role =
        Node.printAs ⟨location, .function .arrow other name params body returnType⟩ role := by
  refine ⟨?_, Node.printAs_arrow⟩
  have nothing : Told settings.file [] [] [] := ⟨rfl, fun _ listed => by cases listed⟩
  rw [generate_eq, generateMarking_eq]
  obtain ⟨diagnostic, stops, alsoStops⟩ | ⟨_, next, _, ends, alsoEnds, log, rfl, told⟩ :=
    Printer.reports_printMarking settings tree .plain {} _ ⟨[], rfl, nothing⟩
  · rw [stops, alsoStops]
  · rw [ends, alsoEnds]
    dsimp only
    rw [← told.isProblems]
    refine ⟨rfl, fun function listed plain => ?_⟩
    exact (told.reported function listed plain).resolve_left List.not_mem_nil

/-- A class with a method of the given marks. -/
def layingHen (marks : FunctionMarks) : Node :=
  ⟨{}, .classDefinition .declaration {} (some ⟨{}, .identifier "Hen" none false⟩) none []
    ⟨{}, .group .classBody
      [⟨⟨⟨2, 4⟩, ⟨2, 20⟩⟩, .method .concrete {} ⟨{}, .identifier "lay" none false⟩
        ⟨⟨⟨2, 10⟩, ⟨2, 20⟩⟩, .function .expression marks none []
          (some ⟨{}, .group .block []⟩) none⟩⟩]⟩ []⟩

/-- The function of a method is reported at the method. -/
theorem generate_marked_layingHen :
    let settings : Settings := { options := { stopAtError := false }, file := "Hen.as" }
    ∃ generated, settings.generateMarking (layingHen { async := true }) =
        .ok (generated, [⟨⟨2, 4⟩, false⟩]) ∧
      settings.generate (layingHen { async := true }) = .ok generated ∧
      MarkedFunction.IsReported ⟨⟨2, 4⟩, false⟩ "Hen.as" generated.diagnostics := by
  intro settings
  have ends : settings.generateMarking (layingHen { async := true }) =
      .ok (⟨"class Hen \x7b\n    lay() \x7b\x7d\n\x7d",
        [.about .unsupportedConstruct "Hen.as" ⟨2, 4⟩ ["async function"]]⟩,
        [⟨⟨2, 4⟩, false⟩]) := by
    decide
  have told := generate_marked settings (layingHen { async := true })
  rw [ends] at told
  obtain ⟨⟨same, reported⟩, -⟩ := told
  exact ⟨_, ends, same, reported _ (List.mem_singleton_self _) rfl⟩

/-- An asynchronous arrow function is printed without a report. -/
theorem generate_asyncArrow :
    let tree : Node := ⟨{}, .expressionStatement ⟨{}, .function .arrow { async := true } none []
      (some ⟨{}, .group .block []⟩) none⟩⟩
    ∃ functions, Settings.generateMarking {} tree = .ok (⟨"() => \x7b\x7d", []⟩, functions) ∧
      Settings.generate {} tree = .ok ⟨"() => \x7b\x7d", []⟩ ∧
      ∃ function ∈ functions, ¬ function.IsReported "" [] := by
  refine ⟨[⟨{}, true⟩], by decide, by decide, _, List.mem_singleton_self _, ?_⟩
  rintro ⟨_, reported, -⟩
  cases reported

end Settings

end ScriptBridge

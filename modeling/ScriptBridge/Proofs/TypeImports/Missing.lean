import Mathlib.Data.List.Basic
import ScriptBridge.Proofs.Printing.Construct
import ScriptBridge.Proofs.Printing.Outcome
import ScriptBridge.Proofs.Printing.Roles
import ScriptBridge.Proofs.Qualification.Lexical
import ScriptBridge.Proofs.Qualification.Simulation

/-!
# Imports of missing types

The imports in front of a file are exactly those of the types that the file refers to,
apart from the built-in ones and from those whose names the file brings in anywhere.
The printer that keeps the types and the one that notes what is said of them are run
side by side.  A construct notes all it says before it is printed, so for a while the
notes are ahead of what is known of the types.
-/

namespace ScriptBridge

/-! ## Mentions of types

Trees are printed once more, and every construct first notes what it says by itself
about the names of types: an identifier in the place of a type refers to that type, and
a class, an interface and the names of an import bring in names.  What the printer knows
of types plays no part in this.  As elsewhere, the notes are kept among the diagnostics,
as messages, and are told apart from the problems at the end. -/

/-- What a construct says about the name of a type. -/
inductive Mention where
  /-- The name is printed in the place of a type. -/
  | refersTo (type : String)
  /-- The name is that of a class, of an interface or of an import. -/
  | bringsIn (name : String)
  deriving DecidableEq, Repr

namespace Mention

/-- The form in which a mention is kept. -/
def toDiagnostic : Mention → Diagnostic
  | .refersTo type => ⟨"", 0, 0, type, .message, 0⟩
  | .bringsIn name => ⟨"", 0, 0, name, .message, 1⟩

def ofDiagnostic? (diagnostic : Diagnostic) : Option Mention :=
  if diagnostic.isNote then
    some (if diagnostic.code = 0 then .refersTo diagnostic.text else .bringsIn diagnostic.text)
  else none

def type? : Mention → Option String
  | .refersTo type => some type
  | .bringsIn _ => none

end Mention

/-- What a construct in the given role says by itself, apart from its parts. -/
def Node.mentions (options : Options) (role : Role) (node : Node) : List Mention :=
  match node.shape with
  | .identifier source _ _ =>
      if role = .typeName then
        [.refersTo (options.renameType (options.renameIdentifier source))]
      else []
  | .classDefinition _ _ name _ _ _ _ =>
      (name.bind Node.identifier?).toList.map fun source =>
        .bringsIn (options.renameIdentifier source)
  | .interface name _ _ _ =>
      name.identifier?.toList.map fun source => .bringsIn (options.renameIdentifier source)
  | .importDeclaration specifiers _ =>
      (specifiers.filterMap options.importedName?).map fun imported => .bringsIn imported.bound
  | .importSpecifier _ _ | .importBinding _ _ =>
      (options.importedName? node).toList.map fun imported => .bringsIn imported.bound
  | _ => []

namespace Printer

def mention (mentions : List Mention) : Printer Unit :=
  modify fun state =>
    { state with diagnostics := state.diagnostics ++ mentions.map Mention.toDiagnostic }

/-- Print one construct behind what it says by itself. -/
def constructMentioning (location : Location) (shape : Shape Part) (role : Role) :
    Printer Unit := do
  let settings ← read
  mention (Node.mentions settings.options role ⟨location, shape.map (·.node)⟩)
  construct location shape role

end Printer

/-- Print a node in the given role, with all that its constructs say about types. -/
def Node.printMentioning (node : Node) (role : Role) : Printer Unit :=
  node.fold Printer.constructMentioning role

/-- The printed body of a file, and what was said about types in the order of printing. -/
structure Printed where
  body : String
  diagnostics : List Diagnostic
  mentions : List Mention
  deriving DecidableEq, Repr

namespace Printed

/-- The types referred to, in the order of printing and with all repetitions. -/
def types (printed : Printed) : List String :=
  printed.mentions.filterMap Mention.type?

end Printed

/-- Print the body of a file. -/
def Settings.printMentioning (settings : Settings) (tree : Node) : Except Diagnostic Printed :=
  match (tree.printMentioning .plain).run settings |>.run .start with
  | .error diagnostic => .error diagnostic
  | .ok (_, state) =>
      .ok ⟨state.text.toString, state.diagnostics.filter (!·.isNote),
        state.diagnostics.filterMap Mention.ofDiagnostic?⟩

/-! ## What is known after some mentions -/

namespace TypeImports

/-- Take note of what is said. -/
def hear (types : TypeImports) : Mention → TypeImports
  | .refersTo type => types.record type
  | .bringsIn name => types.noteImported name

/-- What is known of types after some mentions, the earliest first. -/
structure Recalls (types : TypeImports) (said : List Mention) : Prop where
  referenced : ∀ type, type ∈ types.referenced ↔ .refersTo type ∈ said ∧ ¬isBuiltin type
  ordered : types.referenced.Pairwise fun earlier later =>
    said.idxOf (.refersTo earlier) < said.idxOf (.refersTo later)
  imported : ∀ name, name ∈ types.imported ↔ .bringsIn name ∈ said

namespace Recalls

variable {types : TypeImports} {said : List Mention}

theorem nothing : Recalls {} [] :=
  ⟨by simp, .nil, by simp⟩

/-- Further mentions do not change the order of the earlier ones. -/
theorem ordered_append (recalls : types.Recalls said) (further : List Mention) :
    types.referenced.Pairwise fun earlier later =>
      (said ++ further).idxOf (.refersTo earlier) < (said ++ further).idxOf (.refersTo later) := by
  apply recalls.ordered.imp_of_mem
  intro earlier later isEarlier isLater before
  have earlierSaid := ((recalls.referenced earlier).mp isEarlier).1
  have laterSaid := ((recalls.referenced later).mp isLater).1
  rwa [List.idxOf_append_of_mem earlierSaid, List.idxOf_append_of_mem laterSaid]

theorem record (recalls : types.Recalls said) (type : String) :
    (types.record type).Recalls (said ++ [Mention.refersTo type]) := by
  have imported (name : String) :
      name ∈ types.imported ↔ Mention.bringsIn name ∈ said ++ [Mention.refersTo type] := by
    rw [recalls.imported]
    simp
  unfold TypeImports.record
  by_cases known : isBuiltin type || types.referenced.contains type
  · rw [if_pos known]
    refine ⟨fun other => ?_, recalls.ordered_append _, imported⟩
    rw [recalls.referenced]
    have ofKnown : other = type → ¬isBuiltin type → .refersTo type ∈ said := by
      intro _ foreign
      have isReferenced : type ∈ types.referenced := by simpa [foreign] using known
      exact ((recalls.referenced type).mp isReferenced).1
    constructor
    · rintro ⟨isSaid, foreign⟩
      exact ⟨List.mem_append_left _ isSaid, foreign⟩
    · rintro ⟨isSaid, foreign⟩
      refine ⟨?_, foreign⟩
      rcases List.mem_append.mp isSaid with before | now
      · exact before
      · obtain rfl : other = type := by simpa using now
        exact ofKnown rfl foreign
  · rw [if_neg known]
    have foreign : ¬isBuiltin type := fun builtin => known (by simp [builtin])
    have fresh : type ∉ types.referenced := fun isReferenced => known (by simp [isReferenced])
    have unsaid : .refersTo type ∉ said :=
      fun isSaid => fresh ((recalls.referenced type).mpr ⟨isSaid, foreign⟩)
    refine ⟨fun other => ?_, ?_, imported⟩
    · simp only [List.mem_append, List.mem_singleton, Mention.refersTo.injEq, recalls.referenced]
      constructor
      · rintro (⟨isSaid, isForeign⟩ | rfl)
        · exact ⟨.inl isSaid, isForeign⟩
        · exact ⟨.inr rfl, foreign⟩
      · rintro ⟨isSaid | rfl, isForeign⟩
        · exact .inl ⟨isSaid, isForeign⟩
        · exact .inr rfl
    · -- A type that was never referred to comes behind all others.
      rw [List.pairwise_append]
      refine ⟨recalls.ordered_append _, List.pairwise_singleton _ _, ?_⟩
      intro earlier isEarlier later isLater
      obtain rfl := List.mem_singleton.mp isLater
      have earlierSaid := ((recalls.referenced earlier).mp isEarlier).1
      rw [List.idxOf_append_of_mem earlierSaid, List.idxOf_append_of_notMem unsaid]
      exact Nat.lt_add_right _ (List.idxOf_lt_length_of_mem earlierSaid)

theorem noteImported (recalls : types.Recalls said) (name : String) :
    (types.noteImported name).Recalls (said ++ [Mention.bringsIn name]) where
  referenced type := by
    unfold TypeImports.noteImported
    rw [recalls.referenced]
    simp
  ordered := recalls.ordered_append _
  imported other := by
    unfold TypeImports.noteImported
    rw [List.mem_cons, List.mem_append, List.mem_singleton, Mention.bringsIn.injEq,
      recalls.imported]
    exact or_comm

theorem hear (recalls : types.Recalls said) (mention : Mention) :
    (types.hear mention).Recalls (said ++ [mention]) := by
  cases mention with
  | refersTo type => exact recalls.record type
  | bringsIn name => exact recalls.noteImported name

end Recalls

end TypeImports

/-! ## Printers side by side -/

/-- The mentions among the diagnostics. -/
def mentionsIn (log : List Diagnostic) : List Mention :=
  log.filterMap Mention.ofDiagnostic?

theorem Mention.isNote_toDiagnostic (mention : Mention) : mention.toDiagnostic.isNote = true := by
  cases mention <;> rfl

theorem Mention.ofDiagnostic?_toDiagnostic (mention : Mention) :
    ofDiagnostic? mention.toDiagnostic = some mention := by
  cases mention <;> rfl

theorem mentionsIn_append_mentions (log : List Diagnostic) (said : List Mention) :
    mentionsIn (log ++ said.map Mention.toDiagnostic) = mentionsIn log ++ said := by
  unfold mentionsIn
  rw [List.filterMap_append, List.filterMap_map]
  have each : Mention.ofDiagnostic? ∘ Mention.toDiagnostic = some :=
    funext Mention.ofDiagnostic?_toDiagnostic
  rw [each, List.filterMap_some]

theorem mentionsIn_append_problem (log : List Diagnostic) {diagnostic : Diagnostic}
    (isProblem : diagnostic.isNote = false) :
    mentionsIn (log ++ [diagnostic]) = mentionsIn log := by
  have silent : Mention.ofDiagnostic? diagnostic = none := by
    simp [Mention.ofDiagnostic?, isProblem]
  simp [mentionsIn, silent]

/-- Two states with the same text, scopes and problems.  The types of the first are what
is known from the notes of the second, apart from the last ones, which are ahead. -/
structure Recounted (ahead : List Mention) (state other : PrinterState) : Prop where
  text : state.text = other.text
  scopes : state.scopes = other.scopes
  problems : state.diagnostics = other.diagnostics.filter (!·.isNote)
  types : ∃ said, mentionsIn other.diagnostics = said ++ ahead ∧ state.types.Recalls said

namespace Printer

variable {settings : Settings} {Result : Type}

/-- Printers that come to the same, of which the second notes what is said of types. -/
abbrev Recounts (settings : Settings) (first second : Printer Result) : Prop :=
  Simulates settings (Recounted []) (Recounted []) first second

namespace Recounts

variable {ahead : List Mention} {after : PrinterState → PrinterState → Prop}

theorem tolerant (ahead : List Mention) : Tolerant (Recounted ahead) where
  sameText related := related.text
  withText _ related := ⟨rfl, related.scopes, related.problems, related.types⟩
  withProblem := by
    intro state other diagnostic isProblem related
    refine ⟨related.text, related.scopes, ?_, ?_⟩
    · rw [List.filter_append, related.problems]
      simp [isProblem]
    · rw [mentionsIn_append_problem _ isProblem]
      exact related.types

theorem textCongruence (settings : Settings) (ahead : List Mention) :
    TextCongruence fun {Result} (first second : Printer Result) =>
      Simulates settings (Recounted ahead) (Recounted ahead) first second :=
  Simulates.textCongruence (tolerant ahead)

/-- Something is noted ahead of the construct that says it. -/
theorem afterMention {first rest : Printer Result}
    (simulates : Simulates settings (Recounted ahead) after first rest) :
    Simulates settings (Recounted []) after first (do mention ahead; rest) := by
  intro state other related
  obtain ⟨said, isSaid, recalls⟩ := related.types
  rw [List.append_nil] at isSaid
  have isNote : (!·.isNote) ∘ Mention.toDiagnostic = fun _ => false := by
    funext mention
    simp [mention.isNote_toDiagnostic]
  have noted : Recounted ahead state { other with
      diagnostics := other.diagnostics ++ ahead.map Mention.toDiagnostic } := by
    refine ⟨related.text, related.scopes, ?_, said, ?_, recalls⟩
    · rw [List.filter_append, related.problems, List.filter_map, isNote]
      simp
    · rw [mentionsIn_append_mentions, isSaid]
  exact simulates state _ noted

/-- What is ahead is heard. -/
theorem hear (said : Mention) :
    Simulates settings (Recounted (said :: ahead)) (Recounted ahead)
      (modifyTypes fun types => types.hear said) (modifyTypes fun types => types.hear said) :=
  Simulates.ofChanges _ _ fun state other related => by
    obtain ⟨before, isBefore, recalls⟩ := related.types
    refine ⟨related.text, related.scopes, related.problems, before ++ [said], ?_,
      recalls.hear said⟩
    rw [List.append_assoc]
    exact isBefore

theorem modifyScopes (change : ScopeStack → ScopeStack) :
    Recounts settings (modifyScopes change) (modifyScopes change) :=
  Simulates.ofChanges _ _ fun _ _ related =>
    ⟨related.text, congrArg change related.scopes, related.problems, related.types⟩

theorem withinMemberBody {first second : Printer Unit} (inside : Recounts settings first second) :
    Recounts settings (withinMemberBody first) (withinMemberBody second) := by
  intro state other related
  have bodies := (modifyScopes fun scopes => scopes.markMemberBody true).andThen
    (inside.andThen (modifyScopes fun scopes =>
      scopes.markMemberBody state.scopes.top.inMemberBody))
  have same := bodies state other related
  simp only [Printer.withinMemberBody, outcome_bind, outcome_get, ← related.scopes] at same ⊢
  exact same

/-- A name in another place than that of a type. -/
theorem name {role : Role} (noType : role ≠ .typeName) (source : String) :
    Recounts settings (name role source) (name role source) := by
  have closed := textCongruence settings []
  let renamed := settings.options.renameIdentifier source
  intro state other related
  by_cases bare : role.isBare
  · rw [outcome_name bare, outcome_name bare, related.scopes]
    exact closed.andThen (closed.write _) (closed.write renamed) state other related
  · cases role
    case typeName => exact absurd rfl noType
    case parameter =>
        rw [outcome_name_parameter, outcome_name_parameter]
        exact (modifyScopes fun scopes => scopes.declareParam renamed).andThen
          (closed.write renamed) state other related
    case declaredName =>
        rw [outcome_name_declaredName, outcome_name_declaredName]
        exact (modifyScopes fun scopes => scopes.declareLocal renamed).andThen
          (closed.write renamed) state other related
    case memberName =>
        rw [outcome_name_label (.inl rfl), outcome_name_label (.inl rfl)]
        exact closed.write renamed state other related
    case key =>
        rw [outcome_name_label (.inr rfl), outcome_name_label (.inr rfl)]
        exact closed.write renamed state other related
    all_goals exact absurd rfl bare

theorem memberCongruence (settings : Settings) :
    MemberCongruence fun {Result} (first second : Printer Result) =>
      Recounts settings first second :=
  .of_modifyScopes (textCongruence settings [])
    (name (by decide)) modifyScopes withinMemberBody

/-- A name in the place of a type is heard. -/
theorem typeName (source : String) :
    let type := settings.options.renameType (settings.options.renameIdentifier source)
    Simulates settings (Recounted [.refersTo type]) (Recounted []) (Printer.name .typeName source)
      (Printer.name .typeName source) := by
  intro type state other related
  exact (hear (.refersTo type)).andThen ((textCongruence settings []).write type) state other
    related

/-! ## Constructs that say something of types -/

/-- A part whose two printers come to the same, of which the second notes what is said. -/
abbrev Pair (settings : Settings) : Type :=
  Twin fun {Result} (first second : Printer Result) => Recounts settings first second

theorem identifier (role : Role) (source : String) (type : Option (Pair settings))
    (optional : Bool) :
    Simulates settings
      (Recounted (if role = .typeName then
        [.refersTo (settings.options.renameType (settings.options.renameIdentifier source))]
      else []))
      (Recounted []) (identifier role source (type.map Twin.first) optional)
      (identifier role source (type.map Twin.second) optional) := by
  have closed := textCongruence settings []
  have behind := closed.andThen (closed.writeIf optional "?") (closed.declaredType type)
  by_cases isType : role = .typeName
  · subst isType
    exact (typeName source).andThen behind
  · rw [if_neg isType]
    exact (name isType source).andThen behind

theorem classDefinition (role : Role) (place : Position) (marks : ClassMarks)
    (name superClass : Option (Pair settings)) (implementing : List (Pair settings))
    (body : Pair settings) (decorators : List (Pair settings)) :
    Simulates settings
      (Recounted ((name.bind (·.node.identifier?)).toList.map fun source =>
        .bringsIn (settings.options.renameIdentifier source)))
      (Recounted [])
      (classDefinition role place marks (name.map Twin.first) (superClass.map Twin.first)
        (implementing.map Twin.first) body.first (decorators.map Twin.first))
      (classDefinition role place marks (name.map Twin.second) (superClass.map Twin.second)
        (implementing.map Twin.second) body.second (decorators.map Twin.second)) := by
  have closed := textCongruence settings []
  have nameOfFirst : (name.map Twin.first).bind (·.node.identifier?) =
      name.bind (·.node.identifier?) := by
    cases name <;> rfl
  have nameOfSecond : (name.map Twin.second).bind (·.node.identifier?) =
      name.bind (·.node.identifier?) := by
    cases name <;> rfl
  have sameEmpty (toPart : Pair settings → Part) :
      (decorators.map toPart).isEmpty = decorators.isEmpty := List.isEmpty_map
  unfold Printer.classDefinition
  rw [nameOfFirst, nameOfSecond, sameEmpty, sameEmpty, Twin.lastName?_first,
    Twin.lastName?_second]
  cases name.bind (·.node.identifier?) with
  | none => exact closed.missing place "Class name"
  | some source =>
      let className := settings.options.renameIdentifier source
      have ahead := textCongruence settings [.bringsIn className]
      apply (ahead.unsupportedIf _ place _).andThen
      apply (ahead.unsupportedIf _ place _).andThen
      apply Simulates.bothOptions
      apply (hear (.bringsIn className)).andThen
      exact closed.classText role marks className superClass implementing
        ((modifyScopes _).andThen ((body.related .plain).andThen (modifyScopes _)))

theorem interface (place : Position) (name body : Pair settings)
    (extending implementing : List (Pair settings)) :
    Simulates settings
      (Recounted (name.node.identifier?.toList.map fun source =>
        .bringsIn (settings.options.renameIdentifier source)))
      (Recounted [])
      (interface place name.first body.first (extending.map Twin.first)
        (implementing.map Twin.first))
      (interface place name.second body.second (extending.map Twin.second)
        (implementing.map Twin.second)) := by
  have sameEmpty (toPart : Pair settings → Part) :
      (implementing.map toPart).isEmpty = implementing.isEmpty := List.isEmpty_map
  unfold Printer.interface
  rw [sameEmpty, sameEmpty]
  apply ((textCongruence settings _).unsupportedIf _ place _).andThen
  apply Simulates.asking (outcome_partName? name.first) (outcome_partName? name.second)
  rw [Twin.node_first]
  cases name.node.identifier? with
  | none => exact (textCongruence settings []).missing place "Interface name"
  | some source =>
      exact (hear (.bringsIn (settings.options.renameIdentifier source))).andThen
        ((textCongruence settings []).interfaceText _ body extending)

theorem importedText (ahead : List Mention) (specifier : Node) :
    Simulates settings
      (Recounted (((settings.options.importedName? specifier).toList.map fun imported =>
        .bringsIn imported.bound) ++ ahead))
      (Recounted ahead) (importedText specifier) (importedText specifier) := by
  have closed := textCongruence settings ahead
  apply Simulates.bothOptions
  cases settings.options.importedName? specifier with
  | none => exact closed.andThen (closed.unsupported _ _) (closed.pure _)
  | some imported => exact (hear (.bringsIn imported.bound)).andThen (closed.pure _)

theorem importClause (clause : ImportClause) (specifiers : List (Pair settings)) :
    Simulates settings
      (Recounted (((specifiers.map (·.node)).filterMap settings.options.importedName?).map
        fun imported => .bringsIn imported.bound))
      (Recounted []) (importClause clause (specifiers.map Twin.first))
      (importClause clause (specifiers.map Twin.second)) := by
  induction specifiers generalizing clause with
  | nil => exact (textCongruence settings []).pure clause
  | cons specifier rest ih =>
      have ahead : ((((specifier :: rest).map (·.node)).filterMap
            settings.options.importedName?).map fun imported => Mention.bringsIn imported.bound) =
          ((settings.options.importedName? specifier.node).toList.map fun imported =>
            .bringsIn imported.bound) ++
          (((rest.map (·.node)).filterMap settings.options.importedName?).map
            fun imported => .bringsIn imported.bound) := by
        rw [List.map_cons, List.filterMap_cons]
        cases settings.options.importedName? specifier.node <;> rfl
      rw [ahead]
      apply (importedText _ specifier.node).bind
      intro text
      cases text with
      | none => exact ih clause
      | some text => exact ih (clause.add specifier.node text)

theorem specifier (node : Node) :
    Simulates settings
      (Recounted ((settings.options.importedName? node).toList.map fun imported =>
        .bringsIn imported.bound))
      (Recounted []) (specifier node) (specifier node) := by
  have closed := textCongruence settings []
  have imported : Simulates settings
      (Recounted (((settings.options.importedName? node).toList.map fun imported =>
        .bringsIn imported.bound) ++ [])) (Recounted []) (Printer.importedText node)
      (Printer.importedText node) := importedText [] node
  rw [List.append_nil] at imported
  apply imported.bind
  intro text
  cases text with
  | none => exact closed.pure ()
  | some text => exact closed.write text

/-- A construct comes to the same with and without notes of what it says. -/
theorem construct (location : Location) (shape : Shape (Pair settings)) (role : Role) :
    Recounts settings (construct location (shape.map Twin.first) role)
      (constructMentioning location (shape.map Twin.second) role) := by
  have asks (state : PrinterState) :
      (read : Printer Settings).outcome settings state = .ok (settings, state) := rfl
  apply Simulates.afterAsking asks
  apply afterMention
  rw [Shape.map_map]
  cases shape with
  | identifier source type optional => exact identifier role source type optional
  | classDefinition form marks name superClass implementing body decorators =>
      have related := classDefinition role location.start marks name superClass implementing body
        decorators
      cases name <;> exact related
  | interface name body extending implementing =>
      exact interface _ name body extending implementing
  | importDeclaration specifiers source =>
      exact (importClause {} specifiers).bind fun clause =>
        (textCongruence settings []).importFrom clause source
  | importSpecifier imported binding =>
      simp only [Shape.map, Printer.construct, Printer.withOperands, Printer.withoutOperands,
        Option.map_map]
      exact specifier _
  | importBinding form binding => exact specifier _
  | _ => exact (memberCongruence settings).construct location _ role rfl

end Recounts

end Printer

theorem Node.printMentioning_eq (location : Location) (shape : Shape Node) (role : Role) :
    Node.printMentioning ⟨location, shape⟩ role =
      Printer.constructMentioning location
        (shape.map fun part => ⟨part, part.printMentioning⟩) role := by
  unfold Node.printMentioning
  rw [Node.fold_eq]

/-- A tree comes to the same with and without notes of what it says. -/
theorem Node.recounts_printAs (settings : Settings) (node : Node) (role : Role) :
    Printer.Recounts settings (node.printAs role) (node.printMentioning role) := by
  revert role
  refine Node.induction (motive := fun node => ∀ role,
    Printer.Recounts settings (node.printAs role) (node.printMentioning role)) ?_ node
  intro location shape role
  let pairs : Shape (Printer.Recounts.Pair settings) :=
    shape.map fun part => ⟨part.1, part.1.printAs, part.1.printMentioning, part.2⟩
  have recounts := Printer.Recounts.construct location pairs role
  rw [Shape.map_map, Shape.map_map] at recounts
  rw [printAs_eq, printMentioning_eq, Shape.map_map, Shape.map_map]
  exact recounts

/-- The types that a file refers to without having them, in the order of their first
mention. -/
theorem TypeImports.Recalls.pending {types : TypeImports} {said : List Mention}
    (recalls : types.Recalls said) :
    types.pending.Pairwise (fun earlier later =>
      said.idxOf (.refersTo earlier) < said.idxOf (.refersTo later)) ∧
    ∀ type, type ∈ types.pending ↔
      .refersTo type ∈ said ∧ ¬isBuiltin type ∧ .bringsIn type ∉ said := by
  constructor
  · exact recalls.ordered.filter _
  · intro type
    have missing : (!types.isImported type) = true ↔ .bringsIn type ∉ said := by
      rw [← recalls.imported]
      simp [isImported]
    unfold TypeImports.pending
    rw [List.mem_filter, recalls.referenced, missing, and_assoc]

/-- Generated code is the printed body of the file behind a block with one import for
each type that is missing: one that is printed in the place of a type anywhere, is not
built in, and is not the name of a class, of an interface or of an import anywhere.  The
types stand in the block in the reverse order of their first printing. -/
theorem Settings.generate_imports (settings : Settings) (tree : Node) (generated : Generated)
    (ends : settings.generate tree = .ok generated) :
    ∃ (printed : Printed) (block : List String),
      settings.printMentioning tree = .ok printed ∧
      generated.diagnostics = printed.diagnostics ∧
      generated.text = String.join (block.map fun type =>
        "import \x7b" ++ type ++ "\x7d from \"" ++ TypeImports.moduleDirectory settings.file ++
          type ++ "\";\n") ++ printed.body ∧
      (∀ type, type ∈ block ↔ .refersTo type ∈ printed.mentions ∧
        ¬TypeImports.isBuiltin type ∧ .bringsIn type ∉ printed.mentions) ∧
      block.Pairwise fun upper lower =>
        printed.mentions.idxOf (.refersTo lower) < printed.mentions.idxOf (.refersTo upper) := by
  have started : Recounted [] {} {} := ⟨rfl, rfl, rfl, [], rfl, .nothing⟩
  rw [generate_eq] at ends
  rcases tree.recounts_printAs settings .plain {} {} started with
    ⟨diagnostic, stops, -⟩ | ⟨value, next, otherNext, comesTo, alsoComesTo, same⟩
  · rw [stops] at ends
    cases ends
  · rw [comesTo] at ends
    obtain rfl := Except.ok.inj ends
    obtain ⟨said, isSaid, recalls⟩ := same.types
    rw [List.append_nil] at isSaid
    subst isSaid
    obtain ⟨ordered, isPending⟩ := recalls.pending
    refine ⟨⟨otherNext.text.toString, otherNext.diagnostics.filter (!·.isNote),
      mentionsIn otherNext.diagnostics⟩, next.types.pending.reverse, ?_, same.problems, ?_, ?_, ?_⟩
    · unfold Printer.outcome at alsoComesTo
      unfold Settings.printMentioning PrinterState.start
      rw [alsoComesTo]
      rfl
    · rw [← same.text]
      rfl
    · intro type
      rw [List.mem_reverse]
      exact isPending type
    · exact List.pairwise_reverse.mpr ordered

/-- The declaration of a variable with a type. -/
def typedVariable (name type : String) : Node :=
  let identifier (text : String) (type : Option Node) : Node := ⟨{}, .identifier text type false⟩
  let reference : Node := ⟨{}, .typeReference (identifier type none) none none⟩
  ⟨{}, .variableDeclaration
    [⟨{}, .declarator (identifier name (some ⟨{}, .typeClause reference⟩)) none⟩] "var"⟩

/-- A file that refers to a class before it declares it, and to other types before and
behind it. -/
def garden : Node :=
  let identifier (text : String) : Node := ⟨{}, .identifier text none false⟩
  ⟨{}, .group .program [
    typedVariable "first" "Bed", typedVariable "size" "int", typedVariable "sun" "Rose",
    ⟨{}, .classDefinition .declaration {} (some (identifier "Bed")) (some (identifier "Plot")) []
      ⟨{}, .group .classBody []⟩ []⟩,
    typedVariable "second" "Rose"]⟩

theorem Settings.generate_imports_garden :
    let settings : Settings := { file := "land/Garden.as" }
    ∃ generated, settings.generate garden = .ok generated ∧
      generated.text = "import \x7bPlot\x7d from \"land/Plot\";\n" ++
        "import \x7bRose\x7d from \"land/Rose\";\n" ++
        "let first: Bed;\nlet size: number;\nlet sun: Rose;\nclass Bed extends Plot \x7b\x7d\n" ++
        "let second: Rose;" ∧
      ∃ (printed : Printed) (block : List String),
        settings.printMentioning garden = .ok printed ∧
        (∀ type, type ∈ block ↔ .refersTo type ∈ printed.mentions ∧
          ¬TypeImports.isBuiltin type ∧ .bringsIn type ∉ printed.mentions) := by
  intro settings
  have text : (settings.generate garden).toOption.map Generated.text =
      some ("import \x7bPlot\x7d from \"land/Plot\";\n" ++
        "import \x7bRose\x7d from \"land/Rose\";\n" ++
        "let first: Bed;\nlet size: number;\nlet sun: Rose;\nclass Bed extends Plot \x7b\x7d\n" ++
        "let second: Rose;") := by
    decide +kernel
  cases ends : settings.generate garden with
  | error diagnostic =>
      rw [ends] at text
      cases text
  | ok generated =>
      rw [ends] at text
      obtain ⟨printed, block, isPrinted, -, -, isMissing, -⟩ :=
        Settings.generate_imports settings garden generated ends
      exact ⟨generated, rfl, Option.some.inj text, printed, block, isPrinted, isMissing⟩

end ScriptBridge

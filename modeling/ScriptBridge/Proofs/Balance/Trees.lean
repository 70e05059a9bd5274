import ScriptBridge.Proofs.Balance.Declarations
import ScriptBridge.Proofs.Printing.Roles

/-!
# Balanced trees

Every tree is balanced: printing it leaves the level of indentation and the scopes
around it as they were, apart from names that were learned, and adds to the text,
to the types and to the diagnostics.  If no bracket stands in the words of the tree
and of the settings, the brackets of the generated text are nested.
-/

/-!
## Balanced imports and exports

An import gathers the names of its specifiers and writes the named ones between
braces of its own, or writes the name of a part of a global module.
-/

namespace ScriptBridge

variable {settings : Settings} {followed : Prop} {origin : PrinterState} {depth after : Depth}

namespace Bracket

/-- Characters that close what they open. -/
def Closed (characters : List Char) : Prop :=
  ∀ awaited, read awaited characters = some awaited

theorem Absent.closed {characters : List Char} (absent : Absent characters) :
    Closed characters :=
  fun _ => read_absent absent

theorem Closed.append {first second : List Char} (before : Closed first)
    (behind : Closed second) : Closed (first ++ second) := by
  intro awaited
  rw [read_append, before awaited, Option.bind_some, behind awaited]

theorem closed_intercalate {separator : String} {texts : List String}
    (between : Closed separator.toList) (each : ∀ text ∈ texts, Closed text.toList) :
    Closed (separator.intercalate texts).toList := by
  induction texts with
  | nil => exact fun _ => rfl
  | cons text rest ih =>
      obtain ⟨first, others⟩ := List.forall_mem_cons.mp each
      cases rest with
      | nil =>
          rw [String.intercalate_singleton]
          exact first
      | cons next rest =>
          rw [String.intercalate_cons_cons, String.toList_append, String.toList_append]
          exact (first.append between).append (ih others)

end Bracket

/-! ## Imports -/

/-- Every name of the clause closes what it opens. -/
def ImportClause.Closed (clause : ImportClause) : Prop :=
  ∀ text ∈ clause.bare ++ clause.named, Bracket.Closed text.toList

theorem ImportClause.Closed.add {clause : ImportClause} (closed : clause.Closed)
    (specifier : Node) {text : String} (isClosed : Bracket.Closed text.toList) :
    (clause.add specifier text).Closed := by
  obtain ⟨default, namespaced, named⟩ := clause
  simp only [Closed, bare, List.forall_mem_append, Option.mem_toList] at closed
  obtain ⟨⟨closedDefault, closedNamespaced⟩, closedNamed⟩ := closed
  unfold ImportClause.add
  split <;>
    simp only [Closed, bare, List.forall_mem_append, Option.mem_toList, Option.some.injEq,
      forall_eq', List.forall_mem_singleton]
  · exact ⟨⟨isClosed, closedNamespaced⟩, closedNamed⟩
  · exact ⟨⟨closedDefault, isClosed⟩, closedNamed⟩
  · exact ⟨⟨closedDefault, closedNamespaced⟩, closedNamed, isClosed⟩

theorem ImportClause.Closed.clauses {clause : ImportClause} (closed : clause.Closed) :
    Bracket.Closed (String.intercalate ", " clause.clauses).toList := by
  obtain ⟨closedBare, closedNamed⟩ := List.forall_mem_append.mp closed
  apply Bracket.closed_intercalate fun _ => rfl
  unfold ImportClause.clauses
  rw [List.forall_mem_append]
  refine ⟨closedBare, ?_⟩
  intro text isText
  split at isText
  · exact absurd isText List.not_mem_nil
  · rw [List.mem_singleton.mp isText]
    intro awaited
    rw [String.toList_append, String.toList_append, Bracket.read_append, Bracket.read_append]
    have opened : Bracket.read awaited "\x7b".toList = some (.curly :: awaited) := rfl
    rw [opened, Option.bind_some, Bracket.closed_intercalate (fun _ => rfl) closedNamed,
      Option.bind_some]
    rfl

theorem Options.absent_importedName? (without : settings.WithoutBrackets) {specifier : Node}
    (words : specifier.WithoutBrackets settings.options) {imported : ImportedName}
    (isImported : settings.options.importedName? specifier = some imported) :
    Bracket.Absent imported.text.toList := by
  have parts := (Node.withoutBrackets_iff.mp words).2
  unfold Options.importedName? at isImported
  split at isImported
  · next first binding isShape =>
      rw [isShape] at parts
      simp only [Shape.parts, List.forall_mem_append, List.forall_mem_singleton,
        Option.mem_toList] at parts
      obtain ⟨source, isSource, rfl⟩ := Option.map_eq_some_iff.mp isImported
      have absent := without.renameIdentifier (parts.1.identifier? isSource)
      dsimp only
      split
      · next bound isBound =>
          obtain ⟨name, isName, rfl⟩ := Option.map_eq_some_iff.mp isBound
          obtain ⟨node, isNode, isName⟩ := Option.bind_eq_some_iff.mp isName
          have boundAbsent := without.renameIdentifier ((parts.2 node isNode).identifier? isName)
          split
          · exact absent
          · rw [String.toList_append, String.toList_append]
            exact (absent.append (Bracket.absent_of_all rfl)).append boundAbsent
      · exact absent
  · next form binding isShape =>
      rw [isShape] at parts
      simp only [Shape.parts, List.forall_mem_singleton] at parts
      obtain ⟨source, isSource, rfl⟩ := Option.map_eq_some_iff.mp isImported
      have absent := without.renameIdentifier (parts.identifier? isSource)
      dsimp only
      split
      · exact absent
      · rw [String.toList_append]
        exact Bracket.Absent.append (Bracket.absent_of_all rfl) absent
  · cases isImported

theorem absent_lastSegment {path : String} (absent : Bracket.Absent path.toList) :
    Bracket.Absent (lastSegment path).toList := by
  unfold lastSegment
  rw [String.toList_ofList]
  intro character member
  rw [List.mem_reverse] at member
  exact absent character (List.mem_reverse.mp ((List.takeWhile_sublist _).subset member))

theorem Options.absent_importAlias? (without : settings.WithoutBrackets) {path binding : String}
    (absent : Bracket.Absent path.toList)
    (isAlias : settings.options.importAlias? path = some binding) :
    Bracket.Absent binding.toList := by
  obtain ⟨rule, isRule, applies⟩ := List.exists_of_findSome?_eq_some isAlias
  unfold ImportRule.aliasOf? at applies
  split at applies
  · cases applies
    rw [String.toList_append, String.toList_append]
    exact ((without.modules rule isRule).append (Bracket.absent_of_all rfl)).append
      (absent_lastSegment absent)
  · cases applies

namespace Printer

theorem gives_importedText {specifier : Node} {text : String}
    (gives : Gives settings (importedText specifier) (some text)) :
    ∃ imported, settings.options.importedName? specifier = some imported ∧
      imported.text = text := by
  obtain ⟨state, next, ends⟩ := gives
  rw [importedText, outcome_bind, outcome_options] at ends
  dsimp only at ends
  cases found : settings.options.importedName? specifier with
  | none =>
      rw [found] at ends
      dsimp only at ends
      rw [outcome_bind] at ends
      split at ends <;> cases ends
  | some imported =>
      rw [found] at ends
      cases ends
      exact ⟨imported, rfl, rfl⟩

theorem closed_importedText (without : settings.WithoutBrackets) {specifier : Node}
    (words : specifier.WithoutBrackets settings.options) {text : String}
    (gives : Gives settings (importedText specifier) (some text)) :
    Bracket.Closed text.toList := by
  obtain ⟨imported, isImported, rfl⟩ := gives_importedText gives
  exact (Options.absent_importedName? without words isImported).closed

/-- The names that are gathered close what they open. -/
theorem closed_importClause (without : settings.WithoutBrackets) {specifiers : List Part}
    (words : ∀ part ∈ specifiers, part.node.WithoutBrackets settings.options)
    {clause result : ImportClause} (closed : clause.Closed)
    (gives : Gives settings (importClause clause specifiers) result) : result.Closed := by
  induction specifiers generalizing clause with
  | nil =>
      rw [gives_pure gives]
      exact closed
  | cons specifier rest ih =>
      obtain ⟨first, others⟩ := List.forall_mem_cons.mp words
      obtain ⟨text, givesText, givesRest⟩ := gives.of_bind
      cases text with
      | none => exact ih others closed givesRest
      | some text =>
          exact ih others (closed.add specifier.node (closed_importedText without first givesText))
            givesRest

namespace Leads

theorem importedText (specifier : Node) :
    Leads settings followed origin depth depth (importedText specifier) := by
  apply askingOptions
  split
  · exact (noteImported _).andThen (pure _)
  · exact (unsupported _ _).andThen (pure _)

theorem importClause (clause : ImportClause) (specifiers : List Part) :
    Leads settings followed origin depth depth (importClause clause specifiers) := by
  induction specifiers generalizing clause with
  | nil => exact pure clause
  | cons specifier rest ih =>
      apply (importedText specifier.node).bind
      intro text
      cases text with
      | none => exact ih clause
      | some text => exact ih (clause.add specifier.node text)

theorem importDeclaration (without : followed → settings.WithoutBrackets)
    {specifiers : List Part} {source : Part}
    (balanced : ∀ part ∈ specifiers, part.Balanced settings followed)
    (balancedSource : source.Balanced settings followed) :
    Leads settings followed origin depth depth (importDeclaration specifiers source) := by
  apply (importClause {} specifiers).bindGiven
  intro clause gives
  have closed : followed → clause.Closed := fun asked =>
    closed_importClause (without asked) (fun part member => (balanced part member).words asked)
      (fun text member => absurd member List.not_mem_nil) gives
  apply (word fun _ _ => rfl).andThen
  apply askingOptions
  split
  · next binding isAlias =>
      obtain ⟨path, isPath, isAlias⟩ := Option.bind_eq_some_iff.mp isAlias
      have absent : followed → Bracket.Absent binding.toList := fun asked =>
        Options.absent_importAlias? (without asked)
          ((balancedSource.words asked).stringLiteral? isPath) isAlias
      apply (word fun asked => Bracket.closed_intercalate (fun _ => rfl) (closed asked)).andThen
      exact (word fun _ _ => rfl).andThen (plainWord absent)
  · split
    · apply (word fun asked => (closed asked).clauses).andThen
      exact (word fun _ _ => rfl).andThen balancedSource.plain
    · exact balancedSource.plain

theorem specifier (without : followed → settings.WithoutBrackets) {node : Node}
    (words : followed → node.WithoutBrackets settings.options) :
    Leads settings followed origin depth depth (specifier node) := by
  apply (importedText node).bindGiven
  intro text gives
  cases text with
  | none => exact pure ()
  | some text =>
      exact word fun asked => closed_importedText (without asked) (words asked) gives

theorem exportNamed {position : Position} {declaration : Option Part} {specifiers : List Part}
    (balanced : ∀ part ∈ declaration, part.Balanced settings followed) :
    Leads settings followed origin depth depth
      (exportNamed position declaration specifiers) := by
  cases declaration with
  | some part => exact (balanced part rfl).role .exported trivial
  | none => exact unsupportedIf _ position _

theorem exportDefault {declaration : Part} (balanced : declaration.Balanced settings followed) :
    Leads settings followed origin depth depth (exportDefault declaration) :=
  (word fun _ _ => rfl).andThen balanced.plain

end Leads

end Printer

end ScriptBridge

/-! ## Trees -/

namespace ScriptBridge

variable {settings : Settings} {followed : Prop} {origin : PrinterState} {depth : Depth}

namespace Printer.Leads

/-- A construct is balanced if its parts are. -/
theorem construct (without : followed → settings.WithoutBrackets) {location : Location}
    {shape : Shape Part} {role : Role} (closed : followed → role.Closed)
    (words : followed → ∀ word ∈ shape.words settings.options, Bracket.Absent word.toList)
    (parts : ∀ part ∈ shape.parts, part.Balanced settings followed) :
    Leads settings followed origin depth depth (construct location shape role) := by
  cases shape <;> simp only [Shape.parts, List.forall_mem_append, List.forall_mem_cons,
    List.not_mem_nil, Option.mem_toList, false_implies, implies_true, and_true] at parts
  case leaf form =>
    cases form with
    | empty => exact pure ()
    | _ => exact word fun _ _ => rfl
  case keywordType form => exact word fun _ _ => by cases form <;> rfl
  case unsupported form => exact unsupported _ _
  case unknown name fields => exact report _ _ _
  case group form body =>
    cases form with
    | program => exact topLevel parts
    | moduleBlock => exact topLevel parts
    | block =>
        cases role with
        | block prologue => exact block closed parts
        | _ => exact block (fun _ => trivial) parts
    | classBody => exact block (fun _ => trivial) parts
    | interfaceBody => exact block (fun _ => trivial) parts
  case identifier source type optional =>
    exact identifier without (fun asked => words asked _ List.mem_cons_self) parts
  case literal raw value =>
    exact literal fun asked => words asked _ List.mem_cons_self
  case arrayLiteral elements =>
    refine arrayLiteral fun element isElement part isPart => parts part ?_
    exact List.mem_filterMap.mpr ⟨element, isElement, isPart⟩
  case objectLiteral properties => exact objectLiteral parts
  case entry key value computed shorthand => exact entry parts.1 parts.2
  case function form marks name params body returnType =>
    obtain ⟨⟨⟨ofName, ofParams⟩, ofBody⟩, ofType⟩ := parts
    cases form with
    | declared => exact unsupported _ _
    | arrow => exact arrow ofParams ofBody ofType
    | emptyBody =>
        cases role with
        | method owner isConstructor isAbstract => exact methodFunction ofParams ofBody ofType
        | _ => exact unsupported _ _
    | expression =>
        cases role with
        | method owner isConstructor isAbstract => exact methodFunction ofParams ofBody ofType
        | _ => exact function without ofName ofParams ofBody ofType
    | declaration =>
        cases role with
        | method owner isConstructor isAbstract => exact methodFunction ofParams ofBody ofType
        | _ => exact function without ofName ofParams ofBody ofType
  case classDefinition form marks name superClass implementing body decorators =>
    obtain ⟨⟨⟨⟨ofName, ofSuper⟩, ofImplementing⟩, ofBody⟩, -⟩ := parts
    exact classDefinition without ofName ofSuper ofImplementing ofBody
  case classProperty marks key value type decorators =>
    obtain ⟨⟨⟨ofKey, ofValue⟩, ofType⟩, -⟩ := parts
    exact classProperty (fun asked text isMark => words asked text (Option.mem_toList.mpr isMark))
      ofKey ofValue ofType
  case method form marks key value =>
    exact method without
      (fun asked text isMark => words asked text (Option.mem_toList.mpr isMark)) parts.1 parts.2
  case unary form operator leading argument =>
    exact (ownRank _ _ _).bind fun _ =>
      unary (fun asked => words asked _ List.mem_cons_self) parts
  case binary form operator left right =>
    exact (ownRank _ _ _).bind fun _ =>
      binary (fun asked => words asked _ List.mem_cons_self) parts.1 parts.2
  case conditional test consequent alternate =>
    exact (ownRank _ _ _).bind fun _ => conditional parts.1 parts.2.1 parts.2.2
  case call form callee arguments optional typeParameters typeArguments =>
    obtain ⟨⟨⟨ofCallee, ofArguments⟩, ofParams⟩, ofTypes⟩ := parts
    cases form with
    | call => exact call ofCallee ofArguments ofParams ofTypes
    | construction =>
        exact (ownRank _ _ _).bind fun _ => construction ofCallee ofArguments ofParams ofTypes
  case member object property computed optional =>
    exact (ownRank _ _ _).bind fun _ => member parts.1 parts.2
  case sequence expressions =>
    exact (ownRank _ _ _).bind fun _ =>
      separated fun part isPart => operand _ _ (parts part isPart)
  case spread form argument type =>
    cases form with
    | spread => exact (ownRank _ _ _).bind fun _ => spread parts.1
    | rest => exact rest parts.1 parts.2
  case assignmentPattern left right => exact assignmentPattern parts.1 parts.2
  case cast expression type => exact parts.1.role _ role.closed_underCast
  case expressionStatement expression => exact parts.plain
  case ifStatement test consequent alternate =>
    obtain ⟨⟨ofTest, ofConsequent⟩, ofAlternate⟩ := parts
    exact ifStatement ofTest ofConsequent ofAlternate
  case switch discriminant cases => exact switch parts.1 parts.2
  case switchCase test consequent => exact switchCase parts.1 parts.2
  case forLoop init test update body =>
    obtain ⟨⟨⟨ofInit, ofTest⟩, ofUpdate⟩, ofBody⟩ := parts
    exact forLoop ofInit ofTest ofUpdate ofBody
  case forEach form left right body => exact forEach parts.1 parts.2.1 parts.2.2
  case loop form test body => exact loop parts.1 parts.2
  case jump form label => exact jump parts
  case exit form argument => exact exit parts
  case tryStatement body handler finalizer =>
    obtain ⟨⟨ofBody, ofHandler⟩, ofFinalizer⟩ := parts
    exact tryStatement ofBody ofHandler ofFinalizer
  case catchClause param body => exact catchClause without parts.1 parts.2
  case variableDeclaration declarations kind => exact variableDeclaration parts
  case declarator name init => exact declarator parts.1 parts.2
  case importDeclaration specifiers source => exact importDeclaration without parts.1 parts.2
  case importSpecifier imported binding =>
    refine specifier without fun asked => Node.withoutBrackets_iff.mpr ⟨?_, ?_⟩
    · exact fun word member => absurd member List.not_mem_nil
    · simp only [Shape.parts, List.forall_mem_append, List.forall_mem_singleton,
        Option.mem_toList, Option.map_eq_some_iff]
      refine ⟨parts.1.words asked, ?_⟩
      rintro node ⟨part, isPart, rfl⟩
      exact (parts.2 part isPart).words asked
  case importBinding form binding =>
    refine specifier without fun asked => Node.withoutBrackets_iff.mpr ⟨?_, ?_⟩
    · exact fun word member => absurd member List.not_mem_nil
    · simp only [Shape.parts, List.forall_mem_singleton]
      exact parts.words asked
  case exportNamed declaration specifiers source =>
    obtain ⟨⟨ofDeclaration, -⟩, -⟩ := parts
    exact exportNamed ofDeclaration
  case exportDefault declaration => exact exportDefault parts
  case moduleDeclaration name body =>
    exact whenPresent fun part isPart => (parts.2 part isPart).plain
  case interface name body extending implementing =>
    obtain ⟨⟨⟨ofName, ofBody⟩, ofExtending⟩, -⟩ := parts
    exact interface without ofName ofBody ofExtending
  case heritage form expression typeParameters typeArguments =>
    obtain ⟨⟨ofExpression, ofParams⟩, ofTypes⟩ := parts
    exact namedType ofExpression ofParams ofTypes
  case methodSignature marks key params returnType =>
    obtain ⟨⟨ofKey, ofParams⟩, ofType⟩ := parts
    exact methodSignature
      (fun asked text isMark => words asked text (Option.mem_toList.mpr isMark))
      ofKey ofParams ofType
  case propertySignature key type readonly optional computed =>
    exact propertySignature parts.1 parts.2
  case typeClause type => exact typeClause parts
  case typeReference name typeParameters typeArguments =>
    obtain ⟨⟨ofName, ofParams⟩, ofTypes⟩ := parts
    exact namedType ofName ofParams ofTypes
  case typeList params => exact typeList parts
  case qualifiedName left right => exact qualifiedName parts.1 parts.2
  case arrayType element => exact arrayType parts

end Printer.Leads

/-- Every tree is balanced, with brackets followed if its words hold none. -/
theorem Node.balanced (without : followed → settings.WithoutBrackets) (node : Node) :
    (followed → node.WithoutBrackets settings.options) →
      Part.Balanced settings followed ⟨node, node.printAs⟩ := by
  induction node using parts_induction with
  | step node ih =>
      intro words
      obtain ⟨location, shape⟩ := node
      refine ⟨words, fun origin depth role closed => ?_⟩
      change Printer.Leads settings followed origin depth depth
        (Node.printAs ⟨location, shape⟩ role)
      rw [printAs_eq]
      apply Printer.Leads.construct without closed
      · intro asked
        rw [Shape.words_map]
        exact (withoutBrackets_iff.mp (words asked)).1
      · rw [Shape.parts_map]
        intro part isPart
        obtain ⟨child, isChild, rfl⟩ := List.mem_map.mp isPart
        exact ih child isChild fun asked => (withoutBrackets_iff.mp (words asked)).2 child isChild

/-! ## Printing -/

theorem absent_moduleDirectory {file : String} (absent : Bracket.Absent file.toList) :
    Bracket.Absent (TypeImports.moduleDirectory file).toList := by
  have characters : Bracket.Absent (file.toList.map fun character =>
      if character = '\\' then '/' else character) := by
    intro character member
    obtain ⟨source, isSource, rfl⟩ := List.mem_map.mp member
    split
    · rfl
    · exact absent source isSource
  unfold TypeImports.moduleDirectory
  dsimp only
  split
  · exact Bracket.absent_of_all rfl
  · rw [String.toList_ofList]
    intro character member
    rcases List.mem_cons.mp (List.mem_reverse.mp member) with rfl | member
    · rfl
    · exact characters character (List.mem_reverse.mp
        ((List.dropWhile_sublist _).subset ((List.drop_sublist _ _).subset member)))

/-- The line that imports a type closes its braces. -/
theorem closed_importLine {file name : String} (absentFile : Bracket.Absent file.toList)
    (absentName : Bracket.Absent name.toList) :
    Bracket.Closed (TypeImports.importLine file name).toList := by
  intro awaited
  have opened : Bracket.read awaited "import \x7b".toList = some (.curly :: awaited) := rfl
  have closed : Bracket.read (.curly :: awaited) "\x7d from \"".toList = some awaited := rfl
  simp only [TypeImports.importLine, String.toList_append, Bracket.read_append, opened, closed,
    Option.bind_some, Bracket.read_absent absentName,
    Bracket.read_absent (absent_moduleDirectory absentFile)]
  rfl

/-- The imports in front of a text close their braces. -/
theorem read_prepend {types : TypeImports} {file body : String}
    (absentFile : Bracket.Absent file.toList)
    (absentNames : ∀ name ∈ types.referenced, Bracket.Absent name.toList)
    (reads : Bracket.read [] body.toList = some []) :
    Bracket.read [] (types.prepend file body).toList = some [] := by
  have lines : Bracket.Closed (String.join (types.pending.reverse.map
      (TypeImports.importLine file))).toList := by
    have pending : ∀ name ∈ types.pending.reverse, Bracket.Absent name.toList := by
      intro name member
      exact absentNames name (List.mem_of_mem_filter (List.mem_reverse.mp member))
    generalize types.pending.reverse = names at pending
    induction names with
    | nil => exact fun _ => rfl
    | cons name rest ih =>
        obtain ⟨first, others⟩ := List.forall_mem_cons.mp pending
        rw [List.map_cons, String.join_cons, String.toList_append]
        exact (closed_importLine absentFile first).append (ih others)
  rw [TypeImports.prepend, String.toList_append, Bracket.read_append, lines, Option.bind_some,
    reads]

/-- If no bracket stands in the words of a tree nor in what the settings add, every
bracket of the generated text is matched and brackets are nested, also where the
tree has constructs that are not converted. -/
theorem Settings.generate_nested (settings : Settings) (tree : Node)
    (without : settings.WithoutBrackets) (words : tree.WithoutBrackets settings.options)
    (generated : Generated) (ends : settings.generate tree = .ok generated) :
    Bracket.Nested generated.text.toList := by
  apply Bracket.nested_of_read
  rw [generate_eq] at ends
  cases printed : (tree.printAs .plain).outcome settings {} with
  | error diagnostic =>
      rw [printed] at ends
      cases ends
  | ok result =>
      rw [printed] at ends
      cases ends
      have balanced : Part.Balanced settings True ⟨tree, tree.printAs⟩ :=
        tree.balanced (fun _ => without) fun _ => words
      have start : PrinterState.Stands True ⟨0, []⟩ {} :=
        ⟨rfl, fun _ => rfl, fun _ _ isOwner => absurd isOwner (Option.not_mem_none _),
          fun _ _ isNoted => absurd isNoted List.not_mem_nil⟩
      obtain ⟨-, stands⟩ := balanced.leads {} _ .plain (fun _ => trivial) {} result.1 result.2
        (.refl _) start printed
      apply read_prepend without.file (stands.referenced trivial)
      rw [IndentedText.toString, String.toList_ofList]
      exact stands.awaited trivial

/-- A class with a construct that is not converted and one that is not known; it
imports two types. -/
def swarm : Node :=
  let name (text : String) : Node := ⟨{}, .identifier text none false⟩
  let call (callee : String) : Node := ⟨{}, .call .call (name callee) [] false none none⟩
  let cell : Node := ⟨{}, .member (name "cells") (call "next") true false⟩
  let place : Node := ⟨{}, .objectLiteral [⟨{}, .entry (name "place") cell false false⟩]⟩
  let fresh : Node := ⟨{}, .call .construction (call "kind") [place] false none none⟩
  let branch : Node := ⟨{}, .switchCase (some ⟨{}, .literal "1" .null⟩)
    [⟨{}, .unsupported .yield⟩, ⟨{}, .expressionStatement fresh⟩]⟩
  let last : Node := ⟨{}, .switchCase none [⟨{}, .unknown "Riddle" []⟩]⟩
  let body : Node := ⟨{}, .group .block [⟨{}, .switch (name "step") [branch, last]⟩]⟩
  let type : Node := ⟨{}, .typeClause ⟨{}, .typeReference (name "Step") none none⟩⟩
  let grow : Node := ⟨{}, .method .concrete {} (name "grow") ⟨{}, .function .expression {} none
    [⟨{}, .identifier "step" (some type) false⟩] (some body) none⟩⟩
  ⟨{}, .group .program [⟨{}, .classDefinition .declaration {} (some (name "Swarm"))
    (some (name "Hive")) [] ⟨{}, .group .classBody [grow]⟩ []⟩]⟩

/-- The code that is generated for the swarm. -/
def swarmText : String :=
  "import \x7bStep\x7d from \"a/Step\";\nimport \x7bHive\x7d from \"a/Hive\";\n" ++
    "class Swarm extends Hive \x7b\n    grow(step: Step) \x7b\n" ++
    "        switch (step) \x7b\n            case 1:\n                \x7b\n" ++
    "                    new (kind())(\x7bplace: cells[next()]\x7d);\n" ++
    "                \x7d\n                break;\n            default:\n" ++
    "                break;\n        \x7d\n    \x7d\n\x7d"

theorem Settings.generate_nested_swarm :
    let settings : Settings := { options := { stopAtError := false }, file := "a/Swarm.as" }
    settings.WithoutBrackets ∧ swarm.WithoutBrackets settings.options ∧
    ∃ generated, settings.generate swarm = .ok generated ∧ generated.text = swarmText ∧
      generated.diagnostics.length = 2 ∧ Bracket.Nested generated.text.toList := by
  intro settings
  have without : settings.WithoutBrackets :=
    ⟨by decide, by decide, by decide, by decide⟩
  have words : swarm.WithoutBrackets settings.options := by decide
  have prints : (settings.generate swarm).toOption.map
      (fun generated => (generated.text, generated.diagnostics.length)) =
        some (swarmText, 2) := by
    decide +kernel
  refine ⟨without, words, ?_⟩
  cases ends : settings.generate swarm with
  | error diagnostic =>
      rw [ends] at prints
      cases prints
  | ok generated =>
      rw [ends] at prints
      obtain ⟨text, count⟩ := Prod.mk.inj (Option.some.inj prints)
      exact ⟨generated, rfl, text, count,
        Settings.generate_nested settings swarm without words generated ends⟩

end ScriptBridge

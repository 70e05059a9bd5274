import ScriptBridge.Proofs.Normalize.ImportLines
import ScriptBridge.Proofs.Normalize.Skeleton

/-!
# The header of a skeleton

In front of its class a skeleton has a line for the package and one for each import.
The package becomes a module, and each import is taken from a path.
-/

namespace ScriptBridge

namespace Normalize

open Pattern

/-! ## The package -/

def packageText : List Char := "package".toList

/-- What is covered behind the word `package`. -/
def behindPackage : Pattern :=
  .choice (.sequence maybeBlanks (.literal ['\x7b'])) (.one .blank)

/-- What takes the place of the head of a package. -/
def moduleHead (found : Match) : List Char :=
  if Text.trim (found.group 1) = ['\x7b'] then
    ("module " ++ anonymousPackageName ++ " \x7b").toList
  else "module".toList ++ found.group 1

/-- The head of a package notes what stands behind the word. -/
theorem replaces_packageHead {behind rest new : List Char} {previous : Option Char}
    (begins : previous.any Text.isWord = false)
    (ends : (behind ++ rest).head?.any Text.isWord = false)
    (covers : ∀ cursor : Cursor, cursor.after = behind ++ rest →
      (behindPackage.ways ⟨cursor, []⟩).head? = some ⟨cursor.past behind rest, []⟩)
    (written : ∀ found : Match, found.group 1 = behind → moduleHead found = new) :
    (Edit.mk packageHead moduleHead).Replaces previous (packageText ++ behind) rest new := by
  have isSome : packageText ≠ [] := by decide
  have isWord : packageText.all Text.isWord = true := by decide
  have partsEq : packageHead = .sequence boundary (.sequence (.literal packageText)
      (.sequence boundary (.group 1 behindPackage))) := rfl
  refine ⟨by simp [isSome], fun position => ⟨[⟨1, position + packageText.length,
    position + packageText.length + behind.length⟩], ?_, ?_⟩⟩
  · have edge (cursor : Cursor) : (cursor.past packageText (behind ++ rest)).previous.any
        Text.isWord ≠ (behind ++ rest).head?.any Text.isWord := by
      rw [previous_past_word isSome isWord, ends]
      decide
    rw [partsEq, List.append_assoc, ways_word isSome isWord begins rfl,
      ways_sequence_of_eq (ways_boundary_of_edge (edge _)), head?_ways_group, covers _ rfl,
      Option.map_some, Cursor.past_past]
    simp only [Attempt.close, Cursor.past_position, List.length_append, Nat.add_assoc]
  · exact written _ (group_of_note packageText behind (List.append_assoc _ _ _) rfl)

/-- White space and the brace of an anonymous package are covered. -/
theorem covers_opened (rest : List Char) (cursor : Cursor)
    (afterEq : cursor.after = Gap.opened.text ++ rest) :
    (behindPackage.ways ⟨cursor, []⟩).head? =
      some ⟨cursor.past Gap.opened.text rest, []⟩ := by
  have stops : (['\x7b'] ++ rest).head?.any CharClass.blank.contains = false := by
    show Text.isBlank '\x7b' = false
    decide
  have afterSpace : cursor.after = [' '] ++ (['\x7b'] ++ rest) := afterEq
  refine head?_ways_choice_left (head?_ways_sequence
    (head?_ways_run blank_space stops (Nat.zero_le _) afterSpace _) ?_)
  rw [ways_literal_of_eq rfl, List.head?_cons, Cursor.past_past]
  rfl

/-- The space in front of the name of a package is covered. -/
theorem covers_space {name rest : List Char} (isSome : name ≠ [])
    (isWord : name.all Text.isWord = true) (cursor : Cursor)
    (afterEq : cursor.after = [' '] ++ (name ++ rest)) :
    (behindPackage.ways ⟨cursor, []⟩).head? =
      some ⟨cursor.past [' '] (name ++ rest), []⟩ := by
  obtain ⟨first, name, rfl⟩ := List.exists_cons_of_ne_nil isSome
  have inWord : Text.isWord first = true := List.all_eq_true.mp isWord first (by simp)
  have noBrace : (Pattern.sequence maybeBlanks (.literal ['\x7b'])).ways ⟨cursor, []⟩ = [] := by
    rw [List.eq_nil_iff_forall_not_mem]
    intro way isWay
    obtain ⟨_, isGap, isBrace⟩ := mem_ways_sequence.mp isWay
    obtain ⟨gap, _, gapEq, allBlank, -, rfl⟩ := mem_ways_run.mp isGap
    obtain ⟨more, rfl, -⟩ := mem_ways_literal.mp isBrace
    rw [afterEq] at gapEq
    -- the brace would have to be the space or the first character of the name
    match gap, gapEq with
    | [], gapEq => cases gapEq
    | [_], gapEq =>
        obtain ⟨-, gapEq⟩ := List.cons.inj gapEq
        obtain ⟨rfl, -⟩ := List.cons.inj gapEq
        exact absurd inWord (by decide)
    | _ :: second :: gap, gapEq =>
        obtain ⟨-, gapEq⟩ := List.cons.inj gapEq
        obtain ⟨rfl, -⟩ := List.cons.inj gapEq
        have blank : Text.isBlank first = true := allBlank first (by simp)
        simp [Text.isWord_of_isBlank blank] at inWord
  have blank : ⟨cursor.past [' '] (first :: name ++ rest), []⟩ ∈
      (Pattern.one .blank).ways ⟨cursor, []⟩ :=
    mem_ways_one.mpr ⟨' ', first :: name ++ rest, afterEq, by decide, rfl⟩
  rw [behindPackage, head?_ways_choice_right noBrace]
  refine head?_of_forall_eq blank fun way isWay => ?_
  obtain ⟨_, _, sameAfter, -, rfl⟩ := mem_ways_one.mp isWay
  obtain ⟨rfl, rfl⟩ := List.cons.inj (afterEq.symm.trans sameAfter)
  rfl

/-- A dotted name starts with a word. -/
theorem DottedName.exists_word (separator : Char) (name : DottedName) :
    ∃ (first : Identifier) (more : List Char), name.print separator = first.text ++ more := by
  obtain ⟨qualifier, last⟩ := name
  cases qualifier with
  | nil => exact ⟨last, [], (List.append_nil _).symm⟩
  | cons part qualifier => exact ⟨part, _, by simp [print]; rfl⟩

/-- The package becomes a module. -/
theorem run_packageToModule (package? : Option DottedName) (rest : List Char) :
    packageToModule.run (printPackage .source package? ++ rest) =
      printPackage .target package? ++ rest := by
  have replaced {covered rest new : List Char}
      (replaces : (Edit.mk packageHead moduleHead).Replaces none covered rest new) :
      packageToModule.run (covered ++ rest) = new ++ rest := by
    have first : packageHead.replaceFirst moduleHead ([] ++ (covered ++ rest)) = _ :=
      replaceFirst_append .nil replaces
    exact congrArg (Option.getD · (covered ++ rest)) first
  match package? with
  | none =>
      refine replaced (replaces_packageHead rfl isWord_space (covers_opened rest) ?_)
      intro found groupEq
      rw [moduleHead, groupEq]
      exact if_pos (by decide)
  | some name =>
      obtain ⟨first, more, nameEq⟩ := name.exists_word '.'
      have ofName (word : List Char) : word ++ [' '] ++ name.print '.' ++ " \x7b".toList ++ rest =
          word ++ [' '] ++ (first.text ++ (more ++ (" \x7b".toList ++ rest))) := by
        rewrite [nameEq]
        simp only [List.append_assoc]
      have replaces :=
        @replaces_packageHead [' '] (first.text ++ (more ++ (" \x7b".toList ++ rest)))
        ("module".toList ++ [' ']) none rfl isWord_space
        (covers_space first.isSome first.isWord) fun found groupEq => by
          rw [moduleHead, groupEq]
          exact if_neg (by decide)
      exact (congrArg packageToModule.run (ofName packageText)).trans
        ((replaced replaces).trans (ofName "module".toList).symm)

/-! ## Imports -/

namespace DottedName

/-- The name as words. -/
def qualified (name : DottedName) : QualifiedName where
  words := (name.qualifier ++ [name.last]).map Identifier.text
  isSome := by simp
  areWords := by
    intro word isMember
    obtain ⟨part, -, rfl⟩ := List.mem_map.mp isMember
    exact ⟨part.isSome, part.isWord⟩

theorem intercalate_qualified (separator : Char) (name : DottedName) :
    [separator].intercalate name.qualified.words = name.print separator := by
  have wordsEq : name.qualified.words = name.qualifier.map Identifier.text ++ [name.last.text] :=
    List.map_append
  rw [wordsEq, QualifiedName.intercalate_concat, print, List.flatMap_map]

theorem dotted_qualified (name : DottedName) : name.qualified.dotted = name.print '.' :=
  name.intercalate_qualified '.'

theorem path_qualified (name : DottedName) : name.qualified.path = name.print '/' :=
  name.intercalate_qualified '/'

theorem last_qualified (name : DottedName) : name.qualified.last = name.last.text := by
  simp [QualifiedName.last, qualified]

theorem statement_qualified (name : DottedName) :
    name.qualified.statement = printImport .source name := by
  have printed : printImport .source name = importText ++ (' ' :: (name.print '.' ++ [';'])) :=
    List.append_assoc _ _ _
  rw [printed, QualifiedName.statement, dotted_qualified]

theorem imported_qualified (name : DottedName) :
    name.qualified.imported = printImport .target name := by
  unfold QualifiedName.imported printImport
  rewrite [name.last_qualified, name.path_qualified]
  simp only [List.append_assoc]

end DottedName

/-- The line of an import takes the last word of its name from a path. -/
theorem replaces_importLine {indent : List Char} (isIndent : IsLineBlank indent)
    (name : DottedName) (rest : List Char) :
    importEdit.Replaces (some '\n') (indent ++ printImport .source name) ('\n' :: rest)
      (indent ++ printImport .target name) := by
  have noRemark : IsRemark [] := by decide
  have replaces := (name.qualified.onLine isIndent noRemark).replaces
    (show (some '\n').all (· == '\n') = true from rfl)
    (show ('\n' :: rest).head?.all (· == '\n') = true from rfl)
  rw [QualifiedName.source_onLine, List.append_nil, name.statement_qualified] at replaces
  rw [← name.imported_qualified]
  exact replaces

/-! ### The rule for imports -/

/-- Whether a line has been started. -/
def InLine (previous : Option Char) : Prop :=
  previous.all (· == '\n') = false

instance (previous : Option Char) : Decidable (InLine previous) :=
  inferInstanceAs (Decidable (_ = _))

theorem ways_importLine_of_inLine {cursor : Cursor} (inLine : InLine cursor.previous) :
    importLine.ways ⟨cursor, []⟩ = [] :=
  ways_importLine_eq_nil fun _ _ starts => absurd (inLine.symm.trans starts) Bool.false_ne_true

/-- An import comes to its word behind white space. -/
theorem leadsTo_importLine : importLine.LeadsTo [importText] := by
  intro attempt way isWay
  obtain ⟨covered, rest, notes, afterEq, covers⟩ := covers_of_way isWay
  obtain ⟨starts, -, statement, rfl, -⟩ := covers_importLine_iff.mp covers
  have notWord {character : Char} (isBlank : character = ' ' ∨ character = '\t') :
      Text.isWord character = false := by
    rcases isBlank with rfl | rfl <;> decide
  refine ⟨importText, by simp, statement.indent, _, afterEq.trans (List.append_assoc _ _ _), ?_, ?_⟩
  · cases last : statement.indent.getLast? with
    | some character => exact notWord (statement.isIndent character (List.mem_of_getLast? last))
    | none =>
        cases before : attempt.cursor.previous with
        | none => rfl
        | some character =>
            obtain rfl : character = '\n' := by simpa [before] using starts
            show Text.isWord '\n' = false
            decide
  · obtain ⟨character, gap, gapEq⟩ := List.exists_cons_of_ne_nil statement.gapIsSome
    rw [gapEq]
    exact notWord (statement.isGap character (by simp [gapEq]))

theorem missesIn_importLine {previous : Option Char} {stretch rest : List Char}
    (inLine : InLine previous) (oneLine : '\n' ∉ stretch) :
    importLine.MissesIn previous stretch rest := by
  intro before after position split _
  refine ways_importLine_of_inLine ?_
  cases last : before.getLast? with
  | none => exact inLine
  | some character =>
      have isIn : character ∈ stretch := by simp [split, List.mem_of_getLast? last]
      have different : character ≠ '\n' := fun same => oneLine (same ▸ isIn)
      simpa [InLine] using different

/-- Each import is taken from a path. -/
theorem rewrites_imports (width : Nat) (names : List DottedName) {previous : Option Char}
    {rest : List Char} (inLine : InLine previous)
    (behind : ∀ previous, InLine previous →
      importEdit.Rewrites previous ('\n' :: rest) ('\n' :: rest)) :
    importEdit.Rewrites previous
      (names.flatMap (fun name => newLine width 1 ++ printImport .source name) ++ '\n' :: rest)
      (names.flatMap (fun name => newLine width 1 ++ printImport .target name) ++
        '\n' :: rest) := by
  induction names generalizing previous with
  | nil => exact behind previous inLine
  | cons name names ih =>
      let indent := List.replicate (width * 1) ' '
      have isIndent : IsLineBlank indent := fun character isIn =>
        Or.inl (List.eq_of_mem_replicate isIn)
      obtain ⟨more, moreEq⟩ : ∃ more, names.flatMap (fun name =>
          newLine width 1 ++ printImport .source name) ++ '\n' :: rest = '\n' :: more := by
        cases names with
        | nil => exact ⟨rest, rfl⟩
        | cons next names => exact ⟨_, rfl⟩
      have closed : InLine ((indent ++ printImport .source name).getLast?.or (some '\n')) := by
        have last : (printImport .source name).getLast? = some ';' := List.getLast?_concat
        rw [List.getLast?_append, last]
        show (';' == '\n') = false
        decide
      have inRest := ih closed
      rw [moreEq] at inRest
      have whole : importEdit.Rewrites previous _ _ :=
        .keep (fun _ => ways_importLine_of_inLine inLine)
          (.replace (replaces_importLine isIndent name more) inRest)
      rw [← moreEq] at whole
      simpa only [List.flatMap_cons, newLine, indent, List.append_assoc, List.cons_append]
        using whole

/-- The line of the package is a single one that starts with the word `module`. -/
theorem printPackage_target_eq (package? : Option DottedName) :
    ∃ middle, printPackage .target package? = 'm' :: (middle ++ ['\x7b']) ∧ '\n' ∉ middle := by
  match package? with
  | none => exact ⟨"odule __package ".toList, rfl, by decide⟩
  | some name =>
      refine ⟨"odule ".toList ++ (name.print '.' ++ [' ']), ?_, ?_⟩
      · have printed : printPackage .target (some name) =
            'm' :: ("odule ".toList ++ name.print '.' ++ ([' '] ++ ['\x7b'])) := rfl
        rewrite [printed]
        simp only [List.append_assoc]
      · have notInName : '\n' ∉ name.print '.' := by
          rw [← name.dotted_qualified]
          exact fun isIn =>
            absurd (List.all_eq_true.mp name.qualified.inDottedName_dotted _ isIn) (by decide)
        have notInWord : '\n' ∉ "odule ".toList := by decide
        rw [List.mem_append, List.mem_append, not_or, not_or]
        exact ⟨notInWord, notInName, by decide⟩

/-- The line of the package holds no import. -/
theorem missesIn_package (package? : Option DottedName) (rest : List Char) :
    importLine.MissesIn none (printPackage .target package?) rest ∧
      InLine ((printPackage .target package?).getLast?) := by
  obtain ⟨middle, printed, oneLine⟩ := printPackage_target_eq package?
  rw [printed]
  constructor
  · refine .cons (fun position => ?_) (missesIn_importLine (show InLine (some 'm') by decide) ?_)
    · refine ways_importLine_eq_nil fun statement _ _ _ afterEq => ?_
      have starts : 'm' :: (middle ++ ['\x7b'] ++ rest) =
          statement.indent ++ (importText ++ _) := afterEq.trans (List.append_assoc _ _ _)
      cases indentEq : statement.indent with
      | nil =>
          rw [indentEq] at starts
          exact absurd (List.cons.inj starts).1 (by decide)
      | cons character indent =>
          have isBlank := statement.isIndent character (by simp [indentEq])
          rw [indentEq] at starts
          obtain ⟨rfl, -⟩ := List.cons.inj starts
          exact absurd isBlank (by decide)
    · simpa using oneLine
  · have last : ('m' :: (middle ++ ['\x7b'])).getLast? = some '\x7b' :=
      @List.getLast?_concat _ ('m' :: middle) '\x7b'
    rw [last]
    show ('\x7b' == '\n') = false
    decide

/-- Each import of a text is taken from a path, if it holds no other one. -/
theorem run_destructureImports (width : Nat) (package? : Option DottedName)
    (names : List DottedName) {pieces : List SpacedWord} {more : List Char}
    (startsLine : SpacedWord.textOf pieces = '\n' :: more)
    (apart : ∀ piece ∈ pieces, piece.word ≠ importText) :
    destructureImports.run (printPackage .target package? ++
        (names.flatMap (fun name => newLine width 1 ++ printImport .source name) ++
          SpacedWord.textOf pieces)) =
      printPackage .target package? ++
        (names.flatMap (fun name => newLine width 1 ++ printImport .target name) ++
          SpacedWord.textOf pieces) := by
  obtain ⟨misses, inLine⟩ := missesIn_package package? (names.flatMap (fun name =>
    newLine width 1 ++ printImport .source name) ++ SpacedWord.textOf pieces)
  have behind (previous : Option Char) : importEdit.Rewrites previous
      (SpacedWord.textOf pieces) (SpacedWord.textOf pieces) := by
    have kept : importEdit.Rewrites previous
        (SpacedWord.textOf pieces ++ []) (SpacedWord.textOf pieces ++ []) :=
      .keepAll (leadsTo_importLine.missesIn (by decide) fun piece isPiece isWord =>
        apart piece isPiece (List.mem_singleton.mp isWord)) (.done _)
    simpa using kept
  rw [destructureImports, Rule.run_ofEdits]
  refine Edit.Rewrites.run_eq (.keepAll misses ?_)
  rw [startsLine] at behind ⊢
  exact rewrites_imports width names (by simpa using inLine) fun previous _ => behind previous

end Normalize

end ScriptBridge

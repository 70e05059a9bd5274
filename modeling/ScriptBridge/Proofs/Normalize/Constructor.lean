import ScriptBridge.Proofs.Normalize.Skeleton

/-!
# The constructor of a skeleton

The first rule takes the name of the class and gives the fixed name of a constructor to
the first function that is called like the class, be it a constructor or a method.
-/

namespace ScriptBridge

namespace Normalize

open Pattern

/-! ## The patterns of the rule -/

/-- The head of a class notes its name. -/
theorem head?_ways_classHead {name rest : List Char} {previous : Option Char}
    (isSome : name ≠ []) (isWord : name.all Text.isWord = true)
    (begins : previous.any Text.isWord = false) (ends : rest.head?.any Text.isWord = false)
    (position : Nat) :
    ∃ stop, (classHead.ways ⟨⟨position, previous,
        HeadWord.classWord.text ++ ([' '] ++ (name ++ rest))⟩, []⟩).head? =
      some ⟨stop, [⟨1, position + (HeadWord.classWord.text ++ [' ']).length,
        position + (HeadWord.classWord.text ++ [' ']).length + name.length⟩]⟩ := by
  have partsEq : classHead = .sequence boundary (.sequence (.literal HeadWord.classWord.text)
      (.sequence blanks (.group 1 (.oneOrMore .word)))) := rfl
  have inside : ∀ character ∈ name, CharClass.word.contains character :=
    List.all_eq_true.mp isWord
  have outside : rest.head?.any CharClass.word.contains = false := ends
  refine
    ⟨(⟨position, previous, []⟩ : Cursor).past (HeadWord.classWord.text ++ [' '] ++ name) rest, ?_⟩
  rw [partsEq, ways_word (HeadWord.text_ne_nil _) (HeadWord.isWord_text _) begins rfl,
    ways_sequence_of_eq (ways_space (any_isBlank_head?_word isSome isWord) rfl _),
    head?_ways_group, oneOrMore,
    head?_ways_run inside outside (List.length_pos_iff.mpr isSome) rfl, Option.map_some,
    Cursor.past_past, Cursor.past_past]
  simp only [Attempt.close, Cursor.past_position, List.length_append, Nat.add_assoc]
  rfl

theorem areWords_function : AreWords (HeadWord.texts [.functionWord]) :=
  HeadWord.areWords_texts _

theorem startsWith_functionHead (name : List Char) :
    (functionHead name).StartsWith (HeadWord.texts [.functionWord]) :=
  (Picks.literal HeadWord.functionWord.text).startsWith areWords_function
    (FailsInWords.blanks.sequence _)

/-- A function with the given name gets the name of constructors. -/
theorem replaces_functionHead {name rest : List Char} {previous : Option Char}
    (isSome : name ≠ []) (isWord : name.all Text.isWord = true)
    (begins : previous.any Text.isWord = false) :
    (Edit.mk (functionHead name) fun _ => "function constructor(".toList).Replaces previous
      (HeadWord.functionWord.text ++ [' '] ++ name ++ ['(']) rest
      "function constructor(".toList := by
  refine ⟨by simp, fun position => ⟨[], ?_, rfl⟩⟩
  have partsEq : functionHead name = .sequence boundary
      (.sequence (.literal HeadWord.functionWord.text) (.sequence blanks
        (.sequence (.literal name) (.sequence maybeBlanks (.literal ['(']))))) := rfl
  have noBlank : (['('] ++ rest).head?.any CharClass.blank.contains = false := by
    show Text.isBlank '(' = false
    decide
  have notBlank (cursor : Cursor) (afterEq : cursor.after = [] ++ (['('] ++ rest)) :
      maybeBlanks.ways ⟨cursor, []⟩ = [⟨cursor.past [] (['('] ++ rest), []⟩] :=
    @ways_run_of_eq .blank cursor [] (['('] ++ rest) nofun noBlank afterEq []
  dsimp only
  rw [partsEq, List.append_assoc, List.append_assoc, List.append_assoc,
    ways_word (HeadWord.text_ne_nil _) (HeadWord.isWord_text _) begins rfl,
    ways_sequence_of_eq (ways_space (any_isBlank_head?_word isSome isWord) rfl _),
    ways_sequence_of_eq (ways_literal_of_eq rfl _), ways_sequence_of_eq (notBlank _ rfl),
    ways_literal_of_eq rfl]
  simp

/-- A function with another name is left alone. -/
theorem ways_functionHead_eq_nil {name next rest : List Char} {previous : Option Char}
    (isSome : name ≠ []) (isWord : name.all Text.isWord = true) (nextIsSome : next ≠ [])
    (nextIsWord : next.all Text.isWord = true) (ends : rest.head?.any Text.isWord = false)
    (different : next ≠ name) (position : Nat) :
    (functionHead name).ways ⟨⟨position, previous,
      HeadWord.functionWord.text ++ ([' '] ++ (next ++ rest))⟩, []⟩ = [] := by
  rw [List.eq_nil_iff_forall_not_mem]
  intro way isWay
  obtain ⟨_, isEdge, behindEdge⟩ := mem_ways_sequence.mp isWay
  obtain ⟨-, rfl⟩ := mem_ways_boundary.mp isEdge
  obtain ⟨_, isFunction, behindFunction⟩ := mem_ways_sequence.mp behindEdge
  obtain ⟨_, afterEq, rfl⟩ := mem_ways_literal.mp isFunction
  obtain ⟨_, isGap, behindGap⟩ := mem_ways_sequence.mp behindFunction
  obtain ⟨gap, _, rfl, allBlank, long, rfl⟩ := mem_ways_run.mp isGap
  obtain ⟨_, isName, behindName⟩ := mem_ways_sequence.mp behindGap
  obtain ⟨_, rfl, rfl⟩ := mem_ways_literal.mp isName
  obtain ⟨_, isSpace, behindSpace⟩ := mem_ways_sequence.mp behindName
  obtain ⟨space, _, rfl, allSpace, -, rfl⟩ := mem_ways_run.mp isSpace
  obtain ⟨more, rfl, -⟩ := mem_ways_literal.mp behindSpace
  -- behind the name white space or the parenthesis follows, so it is the whole next word
  have nameEnds : (space ++ (['('] ++ more)).head?.any Text.isWord = false := by
    cases space with
    | nil =>
        show Text.isWord '(' = false
        decide
    | cons character space => exact Text.isWord_of_isBlank (allSpace character (by simp))
  exact different (spaced_inj (HeadWord.isWord_text _) (HeadWord.isWord_text .functionWord)
    isBlank_space (List.all_eq_true.mpr allBlank) (by simp) (List.length_pos_iff.mp long)
    nextIsSome isSome nextIsWord isWord ends nameEnds afterEq).2.2.1

/-! ## The functions of a skeleton -/

/-- Whether a member is printed as a function with the given name. -/
def isFunctionCalled (className : Identifier) : Identifier × Member → Bool
  | (_, .field _) => false
  | (name, .constructor _) => name.text == className.text
  | (name, .method declared) => declared.accessor?.isNone && name.text == className.text

/-- The first function with the given name becomes a constructor. -/
def renameFirst (className : Identifier) :
    List (Identifier × Member) → List (Identifier × Member)
  | [] => []
  | first :: rest =>
      if isFunctionCalled className first then (constructorName, first.2) :: rest
      else first :: renameFirst className rest

theorem renameFirst_cases (className : Identifier) (named : List (Identifier × Member)) :
    ((∀ one ∈ named, isFunctionCalled className one = false) ∧
      renameFirst className named = named) ∨
    ∃ before found behind, named = before ++ found :: behind ∧
      (∀ one ∈ before, isFunctionCalled className one = false) ∧
      isFunctionCalled className found = true ∧
      renameFirst className named = before ++ (constructorName, found.2) :: behind := by
  induction named with
  | nil => exact .inl ⟨nofun, rfl⟩
  | cons first rest ih =>
      by_cases isCalled : isFunctionCalled className first = true
      · exact .inr ⟨[], first, rest, rfl, nofun, isCalled, by simp [renameFirst, isCalled]⟩
      · rw [renameFirst, if_neg isCalled]
        have isNot : isFunctionCalled className first = false := by simpa using isCalled
        rcases ih with ⟨none, same⟩ | ⟨before, found, behind, rfl, none, isFound, renamed⟩
        · exact .inl ⟨List.forall_mem_cons.mpr ⟨isNot, none⟩, by rw [same]⟩
        · exact .inr ⟨first :: before, found, behind, rfl,
            List.forall_mem_cons.mpr ⟨isNot, none⟩, isFound, by rw [renamed]; rfl⟩

theorem HeadWord.mem_onlyIf {word other : HeadWord} {isThere : Bool} :
    other ∈ word.onlyIf isThere ↔ isThere = true ∧ other = word := by
  cases isThere <;> simp [onlyIf]

theorem Access.word_ne_function (access : Access) : .functionWord ≠ access.word := by
  cases access <;> decide

theorem Method.function_notMem_modifiers (method : Method) :
    .functionWord ∉ method.modifiers := by
  simp [modifiers, HeadWord.mem_onlyIf, Access.word_ne_function]

theorem Method.function_notMem_accessorWords (method : Method) :
    .functionWord ∉ method.accessorWords := by
  intro isWord
  obtain ⟨accessor, -, same⟩ := List.mem_map.mp isWord
  cases accessor <;> cases same

theorem Field.function_notMem_head (field : Field) : .functionWord ∉ field.head .source := by
  cases isConstant : field.isConstant <;>
    simp [head, HeadWord.mem_onlyIf, Access.word_ne_function, isConstant]

section Lines

variable {className : Identifier} {previous : Option Char} {rest : List Char}

/-- Pieces without the word `function` are missed. -/
theorem missesIn_functionHead {pieces : List SpacedWord}
    (apart : ∀ piece ∈ pieces, piece.word ≠ HeadWord.functionWord.text) :
    (functionHead className.text).MissesIn previous (SpacedWord.textOf pieces) rest :=
  (startsWith_functionHead _).missesIn areWords_function fun piece isPiece isWord =>
    apart piece isPiece (List.mem_singleton.mp isWord)

theorem word_ne_of_arePlain {word : HeadWord} {pieces : List SpacedWord}
    (isSource : word ∈ HeadWord.sourceWords) (plain : ArePlain pieces) :
    ∀ piece ∈ pieces, piece.word ≠ word.text := by
  intro piece isPiece same
  exact plain piece isPiece (same ▸ HeadWord.text_mem_texts.mpr isSource)

theorem word_ne_of_notMem {word : HeadWord} {head : List HeadWord} (apart : word ∉ head) :
    ∀ piece ∈ HeadWord.pieces head, piece.word ≠ word.text := by
  intro piece isPiece same
  obtain ⟨other, isOther, rfl⟩ := List.mem_map.mp isPiece
  obtain rfl : other = word := HeadWord.text_injective same
  exact apart isOther

/-- What stands in front of a word of a head. -/
theorem word_ne_before (gap : Gap) {word : HeadWord} {modifiers : List HeadWord}
    (apart : word ∉ modifiers) :
    ∀ piece ∈ gap.alone :: HeadWord.pieces modifiers, piece.word ≠ word.text :=
  List.forall_mem_cons.mpr ⟨(HeadWord.text_ne_nil _).symm, word_ne_of_notMem apart⟩

/-- A function is missed if the word behind it is not the name of the class. -/
theorem missesIn_otherFunction {before behind : List SpacedWord} {next : SpacedWord}
    (apartBefore : ∀ piece ∈ before, piece.word ≠ HeadWord.functionWord.text)
    (apartBehind : ∀ piece ∈ next :: behind, piece.word ≠ HeadWord.functionWord.text)
    (isSome : next.word ≠ []) (different : next.word ≠ className.text) :
    (functionHead className.text).MissesIn previous
      (SpacedWord.textOf (before ++ HeadWord.functionWord.piece :: next :: behind)) rest := by
  have atFunction {previous : Option Char} : (functionHead className.text).MissesIn previous
      HeadWord.functionWord.piece.text (SpacedWord.textOf (next :: behind) ++ rest) := by
    refine (startsWith_functionHead _).missesIn_piece areWords_function fun position => ?_
    have missed := @ways_functionHead_eq_nil className.text next.word
      (next.gap ++ (SpacedWord.textOf behind ++ rest)) previous className.isSome className.isWord
      isSome next.isWord (next.head?_gap _) different position
    rw [SpacedWord.textOf_cons, List.append_assoc, List.append_assoc]
    exact missed
  have inFront : (functionHead className.text).MissesIn previous (SpacedWord.textOf before)
      (SpacedWord.textOf (HeadWord.functionWord.piece :: next :: behind) ++ rest) :=
    missesIn_functionHead apartBefore
  have whole := inFront.append (atFunction.append (missesIn_functionHead apartBehind))
  simpa using whole

/-- A member that is no function with the name of the class is missed. -/
theorem missesIn_member (width : Nat) (types : Language) {name : Identifier} {member : Member}
    (isNot : isFunctionCalled className (name, member) = false) :
    (functionHead className.text).MissesIn previous
      (SpacedWord.textOf (member.line width .source types name).pieces) rest := by
  have plain := @word_ne_of_arePlain .functionWord _ (by decide)
    (member.isPlain_line width .source types name).plain
  obtain ⟨apartLead, apartRest⟩ := List.forall_mem_cons.mp plain
  cases member with
  | field declared =>
      refine missesIn_functionHead (List.forall_mem_cons.mpr ⟨apartLead, ?_⟩)
      exact List.forall_mem_append.mpr
        ⟨word_ne_of_notMem declared.function_notMem_head, apartRest⟩
  | constructor parameters =>
      have different : name.text ≠ className.text := by simpa [isFunctionCalled] using isNot
      exact missesIn_otherFunction
        (@word_ne_before (Gap.newLine width 2 []) .functionWord [.publicWord] (by decide)) apartRest
        name.isSome different
  | method declared =>
      have apartFront :=
        word_ne_before (Gap.newLine width 2 []) declared.function_notMem_modifiers
      have piecesEq : (Member.line width .source types name (.method declared)).pieces =
          ((Gap.newLine width 2 []).alone :: HeadWord.pieces declared.modifiers) ++
            HeadWord.functionWord.piece :: (HeadWord.pieces declared.accessorWords ++
              name.before .parenthesis :: Member.pieces types (.method declared)) := by
        simp [Line.pieces, Member.line, Member.head, Method.head, HeadWord.pieces, Member.gap]
      rw [piecesEq]
      have apartAccessor := word_ne_of_notMem declared.function_notMem_accessorWords
      unfold Method.accessorWords at apartAccessor ⊢
      cases isAccessor : declared.accessor? with
      | none =>
          have different : name.text ≠ className.text := by
            simpa [isFunctionCalled, isAccessor] using isNot
          exact missesIn_otherFunction apartFront apartRest name.isSome different
      | some accessor =>
          rw [isAccessor] at apartAccessor
          refine missesIn_otherFunction apartFront
            (List.forall_mem_append.mpr ⟨apartAccessor, apartRest⟩) accessor.word.text_ne_nil ?_
          -- the name of a class is no word that the rules look for
          intro same
          have isKnown : accessor.word.text ∈ lookedFor := by cases accessor <;> decide
          exact className.isFree (same ▸ isKnown)

/-- A function with the name of the class stands behind pieces that are missed. -/
theorem line_of_isFunctionCalled {name : Identifier} {member : Member} (width : Nat)
    (types : Language) (isCalled : isFunctionCalled className (name, member) = true) :
    ∃ before, (∀ piece ∈ before, piece.word ≠ HeadWord.functionWord.text) ∧
      name.text = className.text ∧ ∀ name : Identifier,
        (member.line width .source types name).pieces =
          before ++ HeadWord.functionWord.piece :: name.before .parenthesis ::
            member.pieces types := by
  cases member with
  | field declared => cases isCalled
  | constructor parameters =>
      exact ⟨_, @word_ne_before (Gap.newLine width 2 []) .functionWord [.publicWord] (by decide),
        by simpa [isFunctionCalled] using isCalled, fun _ => rfl⟩
  | method declared =>
      obtain ⟨noAccessor, sameName⟩ : declared.accessor? = none ∧ name.text = className.text := by
        simpa [isFunctionCalled] using isCalled
      refine ⟨_, word_ne_before (Gap.newLine width 2 [])
        declared.function_notMem_modifiers, sameName, fun name => ?_⟩
      simp [Line.pieces, Member.line, Member.head, Method.head, Method.accessorWords, noAccessor,
        HeadWord.pieces, Member.gap]

/-- Members are missed if none of them is a function with the name of the class. -/
theorem missesIn_members (width : Nat) (types : Language) {named : List (Identifier × Member)}
    (areNot : ∀ one ∈ named, isFunctionCalled className one = false) :
    (functionHead className.text).MissesIn previous (SpacedWord.textOf
      ((named.map fun (name, member) => member.line width .source types name).flatMap
        Line.pieces)) rest := by
  induction named generalizing previous with
  | nil => exact .nil
  | cons one named ih =>
      obtain ⟨isNot, areNot⟩ := List.forall_mem_cons.mp areNot
      rw [List.map_cons, List.flatMap_cons, SpacedWord.textOf_append]
      exact (missesIn_member width types isNot).append (ih areNot)

end Lines

/-! ## The rule -/

namespace Skeleton

variable (width : Nat) (packages imports types : Language) (skeleton : Skeleton)

/-- The pieces in front of the members. -/
def beforeMembers : List SpacedWord :=
  skeleton.opening width packages imports ++ (skeleton.classLine width .source).pieces

theorem outline_eq (named : List (Identifier × Member)) :
    outline (skeleton.opening width packages imports)
        (skeleton.lines width .source types named) (closing width) =
      SpacedWord.textOf (skeleton.beforeMembers width packages imports) ++
        (SpacedWord.textOf ((named.map fun (name, member) =>
          member.line width .source types name).flatMap Line.pieces) ++
            SpacedWord.textOf (closing width)) := by
  simp only [outline, lines, beforeMembers, List.flatMap_cons, SpacedWord.textOf_append,
    List.append_assoc]

theorem arePlain_opening : ArePlain (skeleton.opening width packages imports) :=
  (skeleton.isPlainOutline width packages imports .source .source []).before

theorem arePlain_classLine : ArePlain (skeleton.classLine width .source).around :=
  arePlain_of_areOrdinary (skeleton.areOrdinary_classLine width .source)

/-- The words in front of the word `class`. -/
def modifiers : List HeadWord :=
  .publicWord :: HeadWord.finalWord.onlyIf skeleton.isFinal

theorem startsWith_classHead : classHead.StartsWith (HeadWord.texts [.classWord]) :=
  (Picks.literal HeadWord.classWord.text).startsWith (HeadWord.areWords_texts [.classWord])
    (FailsInWords.blanks.sequence _)

/-- The first class of the text is the one of the skeleton. -/
theorem find?_classHead (named : List (Identifier × Member)) :
    ∃ found, classHead.find? (outline (skeleton.opening width packages imports)
        (skeleton.lines width .source types named) (closing width)) = some found ∧
      found.group 1 = skeleton.name.text := by
  let line := skeleton.classLine width .source
  let before := skeleton.opening width packages imports ++
    line.lead :: HeadWord.pieces skeleton.modifiers
  have apart : ∀ piece ∈ before, piece.word ∉ HeadWord.texts [.classWord] := by
    have noClass : .classWord ∉ skeleton.modifiers := by
      simp [modifiers, HeadWord.mem_onlyIf]
    have inOpening := @word_ne_of_arePlain .classWord _ (by decide)
      (skeleton.arePlain_opening width packages imports)
    intro piece isPiece isWord
    exact List.forall_mem_append.mpr ⟨inOpening, word_ne_before _ noClass⟩ piece isPiece
      (List.mem_singleton.mp isWord)
  obtain ⟨rest, textEq⟩ : ∃ rest, outline (skeleton.opening width packages imports)
      (skeleton.lines width .source types named) (closing width) =
        SpacedWord.textOf before ++ (HeadWord.classWord.text ++
          ([' '] ++ (skeleton.name.text ++ (line.subject.gap ++ rest)))) := by
    refine ⟨SpacedWord.textOf line.rest ++ (SpacedWord.textOf ((named.map fun (name, member) =>
      member.line width .source types name).flatMap Line.pieces) ++
        SpacedWord.textOf (closing width)), ?_⟩
    have headEq : line.head = skeleton.modifiers ++ [HeadWord.classWord] := rfl
    have subjectEq : line.subject.word = skeleton.name.text := rfl
    simp only [outline_eq, beforeMembers, Line.pieces, before]
    rw [show (skeleton.classLine width .source) = line from rfl, headEq, ← subjectEq]
    simp [HeadWord.pieces, HeadWord.piece]
  have begins : (SpacedWord.textOf before).getLast?.any Text.isWord = false := by
    simpa using @SpacedWord.getLast?_textOf before none rfl
  obtain ⟨stop, fits⟩ := head?_ways_classHead skeleton.name.isSome skeleton.name.isWord begins
    (line.subject.head?_gap rest) (SpacedWord.textOf before).length
  rw [textEq]
  refine ⟨_, Pattern.find?_append
    (startsWith_classHead.missesIn (HeadWord.areWords_texts _) apart) fits, ?_⟩
  exact group_of_note (HeadWord.classWord.text ++ [' ']) skeleton.name.text
    (List.append_assoc _ _ _).symm rfl

theorem missesIn_beforeMembers {previous : Option Char} {rest : List Char} :
    (functionHead skeleton.name.text).MissesIn previous
      (SpacedWord.textOf (skeleton.beforeMembers width packages imports)) rest := by
  have noFunction : HeadWord.functionWord ∉ skeleton.modifiers ++ [HeadWord.classWord] := by
    simp [modifiers, HeadWord.mem_onlyIf]
  have inOpening := @word_ne_of_arePlain .functionWord _ (by decide)
    (skeleton.arePlain_opening width packages imports)
  have inLine := (List.forall_mem_cons.mp (@word_ne_of_arePlain .functionWord _ (by decide)
    (skeleton.arePlain_classLine width))).2
  refine missesIn_functionHead (List.forall_mem_append.mpr ⟨inOpening, ?_⟩)
  exact (List.forall_mem_append.mpr ⟨word_ne_before (Gap.newLine width 1 []) noFunction, inLine⟩ :
    ∀ piece ∈ (_ :: HeadWord.pieces (skeleton.modifiers ++ [.classWord])) ++ _, _)

/-- Without a function with the name of the class the rule finds nothing. -/
theorem replaceFirst_of_noFunction {named : List (Identifier × Member)}
    (areNot : ∀ one ∈ named, isFunctionCalled skeleton.name one = false)
    (replacement : Match → List Char) :
    (functionHead skeleton.name.text).replaceFirst replacement
      (outline (skeleton.opening width packages imports)
        (skeleton.lines width .source types named) (closing width)) = none := by
  have inClosing := @word_ne_of_arePlain .functionWord _ (by decide)
    (arePlain_of_areOrdinary (areOrdinary_closing width))
  refine replaceFirst_eq_none ?_ fun position previous =>
    (startsWith_functionHead _).ways_nil areWords_function position previous []
  rw [outline_eq]
  exact (skeleton.missesIn_beforeMembers width packages imports).append
    ((missesIn_members width types areNot).append (missesIn_functionHead inClosing))

/-- The first function with the name of the class gets the name of constructors. -/
theorem replaceFirst_of_function {before behind : List (Identifier × Member)} {name : Identifier}
    {member : Member} (areNot : ∀ one ∈ before, isFunctionCalled skeleton.name one = false)
    (isCalled : isFunctionCalled skeleton.name (name, member) = true) :
    (functionHead skeleton.name.text).replaceFirst (fun _ => "function constructor(".toList)
      (outline (skeleton.opening width packages imports)
        (skeleton.lines width .source types (before ++ (name, member) :: behind))
        (closing width)) =
      some (outline (skeleton.opening width packages imports)
        (skeleton.lines width .source types (before ++ (constructorName, member) :: behind))
        (closing width)) := by
  obtain ⟨front, apartFront, sameName, piecesEq⟩ := line_of_isFunctionCalled width types isCalled
  let inFront := SpacedWord.textOf (skeleton.beforeMembers width packages imports) ++
    (SpacedWord.textOf ((before.map fun (name, member) =>
      member.line width .source types name).flatMap Line.pieces) ++ SpacedWord.textOf front)
  let rest := SpacedWord.textOf (member.pieces types) ++
    (SpacedWord.textOf ((behind.map fun (name, member) =>
      member.line width .source types name).flatMap Line.pieces) ++
        SpacedWord.textOf (closing width))
  have textEq (name : Identifier) : outline (skeleton.opening width packages imports)
      (skeleton.lines width .source types (before ++ (name, member) :: behind)) (closing width) =
        inFront ++ (HeadWord.functionWord.text ++ [' '] ++ name.text ++ ['('] ++ rest) := by
    rw [outline_eq, List.map_append, List.map_cons, List.flatMap_append, List.flatMap_cons,
      piecesEq]
    simp [inFront, rest, HeadWord.piece, Identifier.before, Gap.parenthesis]
  have misses : (functionHead skeleton.name.text).MissesIn none inFront
      (HeadWord.functionWord.text ++ [' '] ++ skeleton.name.text ++ ['('] ++ rest) :=
    (skeleton.missesIn_beforeMembers width packages imports).append
      ((missesIn_members width types areNot).append (missesIn_functionHead apartFront))
  have begins : inFront.getLast?.any Text.isWord = false := by
    have apart := @SpacedWord.getLast?_textOf (skeleton.beforeMembers width packages imports ++
      ((before.map fun (name, member) => member.line width .source types name).flatMap
        Line.pieces ++ front)) none rfl
    simpa only [SpacedWord.textOf_append, Option.or_none] using apart
  rw [textEq, textEq, sameName, replaceFirst_append misses
    (replaces_functionHead skeleton.name.isSome skeleton.name.isWord begins)]
  rfl

/-- The first rule renames the first function with the name of the class. -/
theorem run_renameConstructor (named : List (Identifier × Member))
    (fits : named.any (isFunctionCalled skeleton.name) = true →
      (functionHeadExpression skeleton.name.text).fitsLimit = true) :
    renameConstructor.run (outline (skeleton.opening width packages imports)
        (skeleton.lines width .source types named) (closing width)) =
      outline (skeleton.opening width packages imports)
        (skeleton.lines width .source types (renameFirst skeleton.name named))
        (closing width) := by
  obtain ⟨found, isFound, groupEq⟩ := skeleton.find?_classHead width packages imports types named
  have applied : renameConstructor.apply (outline (skeleton.opening width packages imports)
      (skeleton.lines width .source types named) (closing width)) =
        if (functionHeadExpression skeleton.name.text).fitsLimit then
          (functionHead skeleton.name.text).replaceFirst
            (fun _ => "function constructor(".toList) (outline
              (skeleton.opening width packages imports)
              (skeleton.lines width .source types named) (closing width))
        else none := by
    simp only [renameConstructor, isFound, groupEq]
  rw [Rule.run, applied]
  rcases renameFirst_cases skeleton.name named with
    ⟨areNot, same⟩ | ⟨before, ⟨name, member⟩, behind, rfl, areNot, isCalled, renamed⟩
  · rw [same, skeleton.replaceFirst_of_noFunction width packages imports types areNot]
    split <;> rfl
  · have isShort := fits (List.any_eq_true.mpr ⟨(name, member), by simp, isCalled⟩)
    rw [renamed, if_pos isShort,
      skeleton.replaceFirst_of_function width packages imports types areNot isCalled]
    rfl

end Skeleton

end Normalize

end ScriptBridge

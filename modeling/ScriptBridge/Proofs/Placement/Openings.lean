import ScriptBridge.Proofs.Placement.Leaders

/-!
# How statements and bodies of functions start

A statement that starts with a brace is a block, and one that starts with the word
`function` or `class` is a declaration, so an expression that starts like this needs
parentheses; so does the body of an arrow function that starts with a brace.  No statement
puts them, and a body puts them only for its outermost construct.  So the text starts as
that of the leader does.
-/

namespace ScriptBridge

/-- What a text starts with: a brace, one of the words that open declarations, or anything
else. -/
inductive TextStart where
  | brace
  | functionWord
  | classWord
  | other
  deriving DecidableEq, Repr

/-- What a text starts with if it starts with a word. -/
def TextStart.ofWord (word : List Char) : TextStart :=
  if word = "function".toList then .functionWord
  else if word = "class".toList then .classWord
  else .other

/-- What a text starts with. -/
def startOf (characters : List Char) : TextStart :=
  let visible := characters.dropWhile isBlank
  if visible.head? = some '\x7b' then .brace else .ofWord (visible.takeWhile isWordCharacter)

/-- What the text of a construct starts with if no other one stands in front. -/
def Shape.textStart {Part : Type} : Shape Part → TextStart
  | .objectLiteral _ => .brace
  | .function .arrow .. => .other
  | .function .. => .functionWord
  | .classDefinition _ marks .. => if marks.abstract then .other else .classWord
  | _ => .other

/-- What the text of an expression starts with. -/
def Node.textStart (settings : Settings) (scopes : ScopeStack) (expression : Node) : TextStart :=
  ((expression.leader? settings scopes).map (·.shape.textStart)).getD .other

/-- What the text of the body of an arrow function starts with: parentheses are put around an
object literal and around what binds looser than an assignment. -/
def Node.bodyStart (settings : Settings) (scopes : ScopeStack) (body : Node) : TextStart :=
  if Printer.isObjectLiteral body.toPart || Precedence.assignment < body.underCasts.shape.rank then
    .other
  else body.textStart settings scopes

/-- Whether a text starts with a digit, a quote or another sign than a brace. -/
def startsWithSign (text : String) : Bool :=
  text.toList.head?.any fun first => !isBlank first && !first.isAlpha && first != '\x7b'

theorem noLineEnd_of_word {word : List Char}
    (isWord : word.all isWordCharacter) : '\n' ∉ word :=
  fun place => absurd (List.all_eq_true.mp isWord _ place) (by decide)

/-- Characters that start in a given way, behind indentation. -/
inductive Starts : TextStart → List Char → Prop where
  | word {lead word rest : List Char} : AreBlank lead → word ≠ [] →
      word.all isWordCharacter → Closes rest →
      Starts (.ofWord word) (lead ++ (word ++ rest))
  | brace {lead rest : List Char} : AreBlank lead → Starts .brace (lead ++ '\x7b' :: rest)
  | other {lead rest : List Char} {first : Char} : AreBlank lead → isBlank first = false →
      first.isAlpha = false → first ≠ '\x7b' → Starts .other (lead ++ first :: rest)

namespace Starts

variable {start : TextStart} {characters added : List Char}

theorem more (starts : Starts start characters) (apart : Closes added) :
    Starts start (characters ++ added) := by
  cases starts with
  | word blank nonempty isWord apartRest =>
      rw [List.append_assoc, List.append_assoc]
      exact .word blank nonempty isWord (apartRest.append apart)
  | brace blank =>
      rw [List.append_assoc]
      exact .brace blank
  | other blank visible noLetter noBrace =>
      rw [List.append_assoc]
      exact .other blank visible noLetter noBrace

/-- More indentation in front changes nothing. -/
theorem behind {lead : List Char} (blank : AreBlank lead) (starts : Starts start characters) :
    Starts start (lead ++ characters) := by
  have both {shift : List Char} (blankShift : AreBlank shift) : AreBlank (lead ++ shift) :=
    fun character place => (List.mem_append.mp place).elim (blank _) (blankShift _)
  cases starts with
  | word blankShift nonempty isWord apart =>
      rw [← List.append_assoc]
      exact .word (both blankShift) nonempty isWord apart
  | brace blankShift =>
      rw [← List.append_assoc]
      exact .brace (both blankShift)
  | other blankShift visible noLetter noBrace =>
      rw [← List.append_assoc]
      exact .other (both blankShift) visible noLetter noBrace

theorem dropWhile_blank {lead rest : List Char} {first : Char} (blank : AreBlank lead)
    (visible : isBlank first = false) :
    (lead ++ first :: rest).dropWhile isBlank = first :: rest := by
  rw [List.dropWhile_append_of_pos, List.dropWhile_cons_of_neg]
  · simp [visible]
  · intro character place
    rw [blank character place]
    rfl

theorem startOf_eq (starts : Starts start characters) : startOf characters = start := by
  cases starts with
  | @word lead word rest blank nonempty isWord apart =>
      cases word with
      | nil => exact absurd rfl nonempty
      | cons first tail =>
          have isFirst := List.all_eq_true.mp isWord first List.mem_cons_self
          have visible : isBlank first = false := by
            simp only [isWordCharacter, Bool.and_eq_true, Bool.not_eq_true'] at isFirst
            exact isFirst.1
          have noBrace : first ≠ '\x7b' := by
            rintro rfl
            exact absurd isFirst (by decide)
          have ends : rest.takeWhile isWordCharacter = [] := by
            cases rest with
            | nil => rfl
            | cons next others =>
                have isNext : isWordCharacter next = false := apart next rfl
                simp [isNext]
          have taken : (first :: tail ++ rest).takeWhile isWordCharacter = first :: tail := by
            rw [List.takeWhile_append_of_pos (List.all_eq_true.mp isWord), ends, List.append_nil]
          rw [List.cons_append] at taken
          rw [List.cons_append, startOf, dropWhile_blank blank visible, List.head?_cons,
            if_neg (by simpa using noBrace), taken]
  | brace blank =>
      rw [startOf, dropWhile_blank blank (by decide)]
      rfl
  | @other lead rest first blank visible noLetter noBrace =>
      rw [startOf, dropWhile_blank blank visible, List.head?_cons,
        if_neg (by simpa using noBrace)]
      have noWord {word : List Char} (isWord : ∃ letter ∈ word.head?, letter.isAlpha = true) :
          (first :: rest).takeWhile isWordCharacter ≠ word := by
        obtain ⟨letter, isHead, isLetter⟩ := isWord
        rintro rfl
        rw [List.takeWhile_cons] at isHead
        split at isHead
        · cases isHead
          exact Bool.false_ne_true (noLetter.symm.trans isLetter)
        · cases isHead
      rw [TextStart.ofWord, if_neg (noWord ⟨'f', by decide, by decide⟩),
        if_neg (noWord ⟨'c', by decide, by decide⟩)]

end Starts

namespace Printer

variable {settings : Settings} {state : PrinterState} {start : TextStart} {Result Other : Type}

/-- A printer that leaves the text as it is. -/
def KeepsText (settings : Settings) (printer : Printer Result) : Prop :=
  ∀ state value next, printer.outcome settings state = .ok (value, next) →
    next.text = state.text

namespace KeepsText

theorem pure (value : Result) : KeepsText settings (Pure.pure value) := by
  intro state result next ends
  cases ends
  rfl

theorem modifyScopes (change : ScopeStack → ScopeStack) :
    KeepsText settings (Printer.modifyScopes change) := by
  intro state value next ends
  cases ends
  rfl

theorem modifyTypes (change : TypeImports → TypeImports) :
    KeepsText settings (Printer.modifyTypes change) := by
  intro state value next ends
  cases ends
  rfl

theorem options : KeepsText settings Printer.options := by
  intro state value next ends
  cases ends
  rfl

theorem unsupportedIf (present : Bool) (place : Position) (what : String) :
    KeepsText settings (Printer.unsupportedIf present place what) := by
  cases present with
  | false => exact .pure ()
  | true =>
      intro state value next ends
      change (report .unsupportedConstruct place [what]).outcome settings state = _ at ends
      rw [outcome_report] at ends
      dsimp only at ends
      split at ends
      · cases ends
      · cases ends
        rfl

theorem whenPresent {Item : Type} {item : Option Item} {print : Item → Printer Unit}
    (keeps : ∀ item, KeepsText settings (print item)) :
    KeepsText settings (Printer.whenPresent item print) := by
  cases item with
  | none => exact .pure ()
  | some item => exact keeps item

end KeepsText

theorem AddsApart.after {first : Printer Other} {rest : Other → Printer Unit}
    (keeps : KeepsText settings first) (adds : ∀ value, AddsApart settings (rest value)) :
    AddsApart settings (first >>= rest) := by
  intro state next ends
  obtain ⟨value, middle, isMiddle, goesOn⟩ := outcome_bind_eq_ok ends
  obtain ⟨added, apart, isNext⟩ := adds _ _ _ goesOn
  exact ⟨added, apart, by rw [isNext, keeps _ _ _ isMiddle]⟩

/-- What a printer adds at a state starts in the given way. -/
def OpensAs (settings : Settings) (state : PrinterState) (start : TextStart)
    (printer : Printer Unit) : Prop :=
  ∀ next, printer.outcome settings state = .ok ((), next) →
    ∃ added, Starts start added ∧ next.text.characters = state.text.characters ++ added

namespace OpensAs

theorem after {first : Printer Other} {rest : Other → Printer Unit}
    (keeps : KeepsText settings first)
    (opens : ∀ value state, OpensAs settings state start (rest value)) :
    OpensAs settings state start (first >>= rest) := by
  intro next ends
  obtain ⟨value, middle, isMiddle, goesOn⟩ := outcome_bind_eq_ok ends
  obtain ⟨added, starts, isNext⟩ := opens _ _ _ goesOn
  exact ⟨added, starts, by rw [isNext, keeps _ _ _ isMiddle]⟩

/-- A word with something apart behind it. -/
theorem word {text : String} (nonempty : text.toList ≠ [])
    (isWord : text.toList.all isWordCharacter)
    {rest : Unit → Printer Unit} (apart : AddsApart settings (rest ())) :
    OpensAs settings state (.ofWord text.toList) (write text >>= rest) := by
  intro next ends
  obtain ⟨_, middle, isMiddle, goesOn⟩ := outcome_bind_eq_ok ends
  obtain ⟨added, isApart, isNext⟩ := apart _ _ goesOn
  obtain ⟨lead, blank, isWritten⟩ := state.text.characters_write_line (noLineEnd_of_word isWord)
  cases isMiddle
  refine ⟨lead ++ (text.toList ++ added), .word blank nonempty isWord isApart, ?_⟩
  rw [isNext]
  simp only [isWritten, List.append_assoc]

/-- A text that starts with a word, which ends within the text. -/
theorem words {text : String} {word : List Char} {tail : List Char}
    (isText : text.toList = word ++ tail) (nonempty : word ≠ [])
    (isWord : word.all isWordCharacter)
    (apart : Closes tail) (goesOn : tail ≠ []) (inLine : '\n' ∉ text.toList)
    {rest : Unit → Printer Unit} (adds : Adds settings (rest ())) :
    OpensAs settings state (.ofWord word) (write text >>= rest) := by
  intro next ends
  obtain ⟨_, middle, isMiddle, last⟩ := outcome_bind_eq_ok ends
  obtain ⟨added, isNext⟩ := adds _ _ _ last
  obtain ⟨lead, blank, isWritten⟩ := state.text.characters_write_line inLine
  cases isMiddle
  refine ⟨lead ++ (word ++ (tail ++ added)),
    .word blank nonempty isWord (apart.append_left goesOn), ?_⟩
  rw [← isNext]
  simp only [isWritten, isText, List.append_assoc]

theorem sign {text : String} (isSign : startsWithSign text = true)
    {rest : Unit → Printer Unit} (adds : Adds settings (rest ())) :
    OpensAs settings state .other (write text >>= rest) := by
  intro next ends
  obtain ⟨_, middle, isMiddle, last⟩ := outcome_bind_eq_ok ends
  obtain ⟨added, isNext⟩ := adds _ _ _ last
  cases isText : text.toList with
  | nil =>
      rw [startsWithSign, isText] at isSign
      cases isSign
  | cons first tail =>
      simp only [startsWithSign, isText, List.head?_cons, Option.any_some, Bool.and_eq_true,
        Bool.not_eq_true', bne_iff_ne] at isSign
      obtain ⟨⟨visible, noLetter⟩, noBrace⟩ := isSign
      obtain ⟨lead, later, blank, isWritten⟩ := state.text.characters_write_cons isText
      cases isMiddle
      refine ⟨lead ++ first :: (later ++ added), .other blank visible noLetter noBrace, ?_⟩
      rw [← isNext]
      simp only [isWritten, List.append_assoc, List.cons_append]

theorem brace {rest : Unit → Printer Unit} (adds : Adds settings (rest ())) :
    OpensAs settings state .brace (write "\x7b" >>= rest) := by
  intro next ends
  obtain ⟨_, middle, isMiddle, last⟩ := outcome_bind_eq_ok ends
  obtain ⟨added, isNext⟩ := adds _ _ _ last
  obtain ⟨lead, later, blank, isWritten⟩ :=
    state.text.characters_write_cons (show "\x7b".toList = '\x7b' :: [] from rfl)
  cases isMiddle
  refine ⟨lead ++ '\x7b' :: (later ++ added), .brace blank, ?_⟩
  rw [← isNext]
  simp only [isWritten, List.append_assoc, List.cons_append]

end OpensAs

end Printer

theorem TextStart.ofWord_of_isPlainWord {text : String} (plain : isPlainWord text = true) :
    ofWord text.toList = .other := by
  have isReserved (word : String) (reserved : reservedWords.contains word = true) :
      text.toList ≠ word.toList := by
    intro same
    obtain rfl := String.toList_injective same
    rw [isPlainWord, reserved, Bool.not_true, Bool.and_false] at plain
    exact Bool.false_ne_true plain
  rw [ofWord, if_neg (isReserved _ (by decide)), if_neg (isReserved _ (by decide))]

/-- A receiver is `this` or the name of the class. -/
theorem Scope.receiver_of_qualifier {scope : Scope} {index : Option MemberIndex}
    {name receiver : String} (answers : scope.qualifier index name = some receiver) :
    receiver = "this." ∨ ∃ owner ∈ scope.owner, receiver = owner.name ++ "." := by
  unfold qualifier at answers
  split at answers
  · cases answers
  · next owner isOwner =>
      grind

/-- Whether a text may be a literal: one of three words, or something that starts with a
digit, a quote or another sign than a brace. -/
def isLiteralText (text : String) : Bool :=
  ["true", "false", "null"].contains text || startsWithSign text

/-- A callee that is not written as the name for which a pattern is written. -/
def Node.IsNoPattern (settings : Settings) (callee : Node) : Prop :=
  ∀ rank state text next,
    (Printer.textOf (Printer.constructed rank callee.toPart)).outcome settings state =
      .ok (text, next) → text ≠ "RegExp"

/-- The constructs that may stand at the very left of an expression, with the names and
literals in them spelled as such. -/
def Node.MayLead (settings : Settings) (scopes : ScopeStack) (leader : Node) : Prop :=
  match leader.shape with
  | .leaf .this | .leaf .super | .arrayLiteral _ | .objectLiteral _ | .spread .spread _ _ => True
  | .identifier source _ _ =>
      isPlainWord (settings.options.renameIdentifier source) ∧
        ∀ owner ∈ scopes.top.owner, isPlainWord owner.name
  | .literal raw value =>
      isLiteralText (settings.options.renameLiteral (if raw.isEmpty then value.compact else raw))
  | .function form _ _ _ _ _ => form ≠ .declared ∧ form ≠ .emptyBody
  | .classDefinition _ _ name _ _ _ _ => (name.bind (·.identifier?)).isSome
  | .unary _ operator true _ =>
      operator ∈ UnaryOperator.all.map (·.text) ∨ operator = "++" ∨ operator = "--"
  | .call .construction callee _ _ _ _ => callee.IsNoPattern settings
  | _ => False

namespace Printer

variable {settings : Settings} {state : PrinterState} {role : Role}

theorem OpensAs.of_outcome {start : TextStart} {first second : Printer Unit}
    (same : first.outcome settings state = second.outcome settings state)
    (opens : OpensAs settings state start second) : OpensAs settings state start first :=
  fun next ends => opens next (same.symm.trans ends)

/-- A printer that does nothing is left out. -/
theorem AddsApart.declaredType (type : Option Node) :
    AddsApart settings (declaredType (type.map Node.toPart)) := by
  cases type with
  | none => exact .pure
  | some type =>
      exact .write (by decide) (by decide) (by decide) fun _ =>
        .of_leads fun _ _ => (type.balanced_toPart settings).plain

theorem opens_identifier (bare : role.isBare) {source : String}
    (isWord : isPlainWord (settings.options.renameIdentifier source) = true)
    (isOwner : ∀ owner ∈ state.scopes.top.owner, isPlainWord owner.name = true)
    (type : Option Node) (optional : Bool) :
    OpensAs settings state .other (identifier role source (type.map Node.toPart) optional) := by
  have apart : AddsApart settings (do
      writeIf optional "?"
      declaredType (type.map Node.toPart)) := by
    cases optional with
    | false => exact .after (.pure ()) fun _ => .declaredType type
    | true =>
        exact .write (by decide) (by decide) (by decide) fun _ => adds_declaredType type
  have adds : Adds settings (do
      writeIf optional "?"
      declaredType (type.map Node.toPart)) :=
    fun state _ next ends =>
      let ⟨added, _, isNext⟩ := apart state next ends
      ⟨added, isNext.symm⟩
  have same : (identifier role source (type.map Node.toPart) optional).outcome settings state =
      (write (settings.bareName state.scopes source) >>= fun _ => do
        writeIf optional "?"
        declaredType (type.map Node.toPart) : Printer Unit).outcome settings state := by
    rw [Settings.bareName, ← write_bind_write, ← bind_assoc, identifier, outcome_bind, outcome_bind,
      outcome_name bare]
  refine .of_outcome same ?_
  let renamed : PlainName := ⟨settings.options.renameIdentifier source, isWord⟩
  unfold Settings.bareName
  dsimp only
  cases answers : state.scopes.qualifier settings.index
      (settings.options.renameIdentifier source) with
  | none =>
      rw [Option.getD_none, String.empty_append, ← TextStart.ofWord_of_isPlainWord isWord]
      exact .word renamed.toList_ne_nil (List.all_eq_true.mpr renamed.isWord) apart
  | some receiver =>
      obtain ⟨word, isPlain, rfl⟩ : ∃ word : String, (TextStart.ofWord word.toList = .other ∧
          word.toList ≠ [] ∧ word.toList.all isWordCharacter) ∧
            receiver = word ++ "." := by
        obtain rfl | ⟨owner, isTop, rfl⟩ := Scope.receiver_of_qualifier answers
        · exact ⟨"this", by decide, rfl⟩
        · let name : PlainName := ⟨owner.name, isOwner owner isTop⟩
          exact ⟨owner.name, ⟨TextStart.ofWord_of_isPlainWord name.isPlain, name.toList_ne_nil,
            List.all_eq_true.mpr name.isWord⟩, rfl⟩
      obtain ⟨isOther, nonempty, areWord⟩ := isPlain
      rw [Option.getD_some, ← isOther]
      have isText : (word ++ "." ++ renamed.text).toList =
          word.toList ++ ('.' :: renamed.text.toList) := by
        simp
      have inLine : '\n' ∉ (word ++ "." ++ renamed.text).toList := by
        simp [noLineEnd_of_word areWord, noLineEnd_of_word (List.all_eq_true.mpr renamed.isWord)]
      exact .words isText nonempty areWord (by simp [Closes]; decide) (List.cons_ne_nil _ _)
        inLine adds

theorem opens_literal {raw : String} {value : Json}
    (isText : isLiteralText (settings.options.renameLiteral
      (if raw.isEmpty then value.compact else raw)) = true) :
    OpensAs settings state .other (literal raw value) := by
  have isWrite : (literal raw value).outcome settings state = (write (settings.options.renameLiteral
      (if raw.isEmpty then value.compact else raw)) >>= Pure.pure : Printer Unit).outcome settings
        state := rfl
  refine .of_outcome isWrite ?_
  generalize settings.options.renameLiteral (if raw.isEmpty then value.compact else raw) = text
    at isText
  unfold isLiteralText at isText
  rcases Bool.or_eq_true_iff.mp isText with isWord | isSign
  · have spelled : TextStart.ofWord text.toList = .other ∧ text.toList ≠ [] ∧
        text.toList.all isWordCharacter := by
      simp only [List.contains_iff_mem, List.mem_cons, List.not_mem_nil, or_false] at isWord
      rcases isWord with rfl | rfl | rfl <;> decide
    obtain ⟨isOther, nonempty, areWord⟩ := spelled
    rw [← isOther]
    exact .word nonempty areWord .pure
  · exact .sign isSign (.pure ())

/-- An operator in front of its operand. -/
theorem opens_unary {operator : String}
    (isOperator : operator ∈ UnaryOperator.all.map (·.text) ∨ operator = "++" ∨ operator = "--")
    (rank : Rank) (argument : Node) :
    OpensAs settings state .other (unary rank operator true argument.toPart) := by
  have adds (spaced : Bool) : Adds settings (do
      writeIf spaced " "
      operand .tight rank argument.toPart) :=
    Adds.bind (.of_leads fun _ _ => .wordIf fun asked => asked.elim)
      fun _ => adds_operand .tight rank argument
  have spaced : AddsApart settings (do
      writeIf true " "
      operand .tight rank argument.toPart) :=
    .write (by decide) (by decide) (by decide) fun _ => adds_operand .tight rank argument
  simp only [UnaryOperator.all, UnaryOperator.text, List.map_cons, List.map_nil, List.mem_cons,
    List.not_mem_nil, or_false] at isOperator
  have spelled : startsWithSign operator = true ∨ (isWordOperator operator = true ∧
      TextStart.ofWord operator.toList = .other ∧ operator.toList ≠ [] ∧
        operator.toList.all isWordCharacter) := by
    rcases isOperator with (rfl | rfl | rfl | rfl | rfl | rfl | rfl) | rfl | rfl <;> decide
  obtain isSign | ⟨isSpaced, isOther, nonempty, areWord⟩ := spelled
  · exact .sign isSign (adds _)
  · rw [← isOther]
    refine .word nonempty areWord ?_
    rw [isSpaced]
    exact spaced

/-- An array literal, also in place of the construction of an empty one. -/
theorem opens_arrayLiteral (elements : List (Option Node)) :
    OpensAs settings state .other (arrayLiteral (elements.map (·.map Node.toPart))) := by
  have leads (origin : PrinterState) (depth : Depth) :
      ∀ element ∈ elements.map (·.map Node.toPart),
        Leads settings False origin depth depth (whenPresent element listItem) := by
    intro element isElement
    obtain ⟨node, -, rfl⟩ := List.mem_map.mp isElement
    exact .whenPresent fun part isPart => .listItem (Node.balanced_of_map part isPart)
  exact .sign (by decide) (Adds.bind (.of_leads fun _ _ => .separated (leads _ _))
    fun _ => .write "]")

theorem opens_objectLiteral (properties : List Node) :
    OpensAs settings state .brace (objectLiteral (properties.map Node.toPart)) :=
  .brace (Adds.bind (.of_leads fun _ _ => .separated fun part isPart =>
    (Node.balanced_of_mem_map part isPart).plain) fun _ => .write "\x7d")

theorem adds_applied (sign : String) (arguments : List Node)
    (typeParameters typeArguments : Option Node) :
    Adds settings (applied sign (arguments.map Node.toPart)
      (chosenTypeArguments (typeParameters.map Node.toPart) (typeArguments.map Node.toPart))) := by
  refine Adds.bind (.of_leads fun _ _ => .chosenTypes Node.balanced_of_map Node.balanced_of_map)
    fun _ => (Adds.write sign).bind fun _ => Adds.bind (.of_leads fun _ _ => ?_)
      fun _ => .write ")"
  exact .separated fun part isPart => .listItem (Node.balanced_of_mem_map part isPart)

/-- A construction starts with `new`, and that of an array with its bracket. -/
theorem opens_construction {rank : Rank} {callee : Node} (noPattern : callee.IsNoPattern settings)
    (arguments : List Node) (typeParameters typeArguments : Option Node) :
    OpensAs settings state .other (construction rank callee.toPart (arguments.map Node.toPart)
      (chosenTypeArguments (typeParameters.map Node.toPart)
        (typeArguments.map Node.toPart))) := by
  intro next ends
  obtain ⟨text, middle, isTaken, goesOn⟩ := outcome_bind_eq_ok ends
  have adds : Adds settings (constructed rank callee.toPart) :=
    .of_leads fun _ _ => .constructed (callee.balanced_toPart settings)
  obtain ⟨-, -, -, -, lead, blank, isMiddle⟩ := textOf_eq_ok adds isTaken
  have opens : ∃ added, Starts .other added ∧
      next.text.characters = middle.text.characters ++ added := by
    split at goesOn
    · rw [← bind_pure (write "[]")] at goesOn
      exact OpensAs.sign (by decide) (.pure ()) next goesOn
    · rw [if_neg (noPattern _ _ _ _ isTaken)] at goesOn
      have addsRest : Adds settings (do
          writeVerbatim text
          applied "(" (arguments.map Node.toPart) (chosenTypeArguments
            (typeParameters.map Node.toPart) (typeArguments.map Node.toPart))) :=
        Adds.bind (.of_leads fun _ _ => .writeVerbatim rfl False.elim)
          fun _ => adds_applied "(" arguments typeParameters typeArguments
      exact OpensAs.words (show "new ".toList = "new".toList ++ [' '] from rfl) (by decide)
        (by decide) (by decide) (by decide) (by decide) addsRest next goesOn
  obtain ⟨added, starts, isNext⟩ := opens
  exact ⟨lead ++ added, starts.behind blank, by rw [isNext, isMiddle, List.append_assoc]⟩

theorem opens_spread (rank : Rank) (argument : Node) :
    OpensAs settings state .other (spread rank argument.toPart) :=
  .sign (by decide) (adds_operand .loose rank argument)

theorem opens_arrow (place : Position) (params : List Node) (body returnType : Option Node) :
    OpensAs settings state .other (arrow place (params.map Node.toPart) (body.map Node.toPart)
      (returnType.map Node.toPart)) := by
  simp only [arrow, withinFunction, parameters, bind_assoc]
  refine .after (.modifyScopes _) fun _ _ => .sign (by decide) ?_
  refine Adds.bind (.of_leads fun _ _ => .separated fun part isPart => ?_) fun _ => ?_
  · exact (Node.balanced_of_mem_map part isPart).role .parameter trivial
  · refine (Adds.write ")").bind fun _ => (adds_declaredType returnType).bind fun _ =>
      (Adds.write " => ").bind fun _ => Adds.bind ?_ fun _ => adds_modifyScopes _
    cases body with
    | none => exact .of_leads fun _ _ => .unsupported place _
    | some body => exact .of_leads fun _ _ => .arrowBody (body.balanced_toPart settings)

/-- Behind the word stands a name or the parameters. -/
theorem opens_functionWord (name : Option String) (params : List Node) (returnType : Option Node)
    {rest : Printer Unit} (adds : Adds settings rest) :
    OpensAs settings state .functionWord (do
      write "function"
      whenPresent name fun name => do
        write " "
        write name
      withinFunction (name.getD "") false false do
        parameters (params.map Node.toPart)
        declaredType (returnType.map Node.toPart)
        rest) := by
  have addsInside : Adds settings (do
      declaredType (returnType.map Node.toPart)
      rest) :=
    (adds_declaredType returnType).bind fun _ => adds
  have nonempty : "function".toList ≠ [] := by decide
  refine .word nonempty (by decide) ?_
  cases name with
  | some name =>
      simp only [whenPresent, bind_assoc]
      refine .write (by decide) (by decide) (by decide) fun _ => (Adds.write name).bind fun _ => ?_
      exact (adds_modifyScopes _).bind fun _ => Adds.bind ((adds_parameters params).bind
        fun _ => addsInside) fun _ => adds_modifyScopes _
  | none =>
      simp only [withinFunction, parameters, bind_assoc]
      refine .after (.pure ()) fun _ => .after (.modifyScopes _) fun _ =>
        .write (by decide) (by decide) (by decide) fun _ => ?_
      refine Adds.bind (.of_leads fun _ _ => .separated fun part isPart => ?_) fun _ => ?_
      · exact (Node.balanced_of_mem_map part isPart).role .parameter trivial
      · exact (Adds.write ")").bind fun _ => (adds_declaredType returnType).bind fun _ =>
          adds.bind fun _ => adds_modifyScopes _

/-- Functions of both other forms start with the word. -/
theorem opens_function {form : FunctionForm} (plain : role = .plain ∨ role = .ranked)
    (place : Position) (marks : FunctionMarks) (name : Option Node) (params : List Node)
    (body returnType : Option Node) :
    OpensAs settings state .functionWord (function form role place marks (name.map Node.toPart)
      (params.map Node.toPart) (body.map Node.toPart) (returnType.map Node.toPart)) := by
  have notExported : decide (role = .exported) = false := by
    rcases plain with rfl | rfl <;> rfl
  refine .after (.unsupportedIf _ _ _) fun _ _ => .after (.unsupportedIf _ _ _) fun _ _ =>
    .after (.unsupportedIf _ _ _) fun _ _ => .after .options fun options _ => ?_
  dsimp only
  split
  case' isTrue =>
    rw [notExported]
    refine .after (.pure ()) fun _ _ => .after (.whenPresent fun _ => .modifyScopes _) fun _ _ => ?_
  all_goals
    refine opens_functionWord _ _ _ ?_
    cases body with
    | none => exact .of_leads fun _ _ => .missing place _
    | some body =>
        exact (Adds.write " ").bind fun _ => .of_leads fun _ _ =>
          .inBraces (body.balanced_toPart settings)

/-- A class with a name starts with the word, unless it is abstract. -/
theorem opens_classDefinition (plain : role = .plain ∨ role = .ranked) (place : Position)
    (marks : ClassMarks) {name : Option Node} (named : (name.bind (·.identifier?)).isSome)
    (superClass : Option Node) (implementing : List Node) (body : Node) (decorators : List Node) :
    OpensAs settings state (if marks.abstract then .other else .classWord)
      (classDefinition role place marks (name.map Node.toPart) (superClass.map Node.toPart)
        (implementing.map Node.toPart) body.toPart (decorators.map Node.toPart)) := by
  have isNode : (name.map Node.toPart).bind (·.node.identifier?) = name.bind (·.identifier?) := by
    cases name <;> rfl
  have notExported : decide (role = .exported) = false := by
    rcases plain with rfl | rfl <;> rfl
  have addsHeritage : Adds settings (whenPresent (superClass.map Node.toPart) fun part => do
      write " extends "
      part.printAs .typeName) := by
    refine .of_leads fun _ _ => .whenPresent fun part isPart => ?_
    exact (Leads.word fun asked => asked.elim).andThen
      ((Node.balanced_of_map part isPart).role .typeName trivial)
  have addsBody (className : String) (superName : Option String) : Adds settings (do
      write " "
      modifyScopes fun scopes => scopes.enterClass className superName
      body.toPart.print
      modifyScopes fun scopes => scopes.exitClass.1) :=
    (Adds.write " ").bind fun _ => (adds_modifyScopes _).bind fun _ =>
      Adds.bind (.of_leads fun _ _ => (body.balanced_toPart settings).plain)
        fun _ => adds_modifyScopes _
  have addsRest (className : String) (superName : Option String) : Adds settings (do
      write className
      whenPresent (superClass.map Node.toPart) fun part => do
        write " extends "
        part.printAs .typeName
      if !(implementing.map Node.toPart).isEmpty then
        write " implements "
        separated Folded.print (implementing.map Node.toPart)
      write " "
      modifyScopes fun scopes => scopes.enterClass className superName
      body.toPart.print
      modifyScopes fun scopes => scopes.exitClass.1) := by
    refine (Adds.write className).bind fun _ => addsHeritage.bind fun _ => ?_
    split
    · refine (Adds.write " implements ").bind fun _ => Adds.bind (.of_leads fun _ _ =>
        .separated fun part isPart => ?_) fun _ => addsBody className superName
      exact (Node.balanced_of_mem_map part isPart).plain
    · exact addsBody className superName
  obtain ⟨source, isSource⟩ := Option.isSome_iff_exists.mp named
  unfold classDefinition
  rw [isNode, isSource]
  dsimp only
  rw [notExported]
  refine .after (.unsupportedIf _ _ _) fun _ _ => .after (.unsupportedIf _ _ _) fun _ _ =>
    .after .options fun options _ => .after (.modifyTypes _) fun _ _ =>
    .after (.pure ()) fun _ state => ?_
  have nonempty : "class".toList ≠ [] := by decide
  cases marks.abstract with
  | false =>
      exact .after (.pure ()) fun _ _ => .words (show "class ".toList = "class".toList ++ [' ']
        from rfl) nonempty (by decide) (by decide) (by decide) (by decide) (addsRest _ _)
  | true =>
      exact .words (show "abstract ".toList = "abstract".toList ++ [' '] from rfl) (by decide)
        (by decide) (by decide) (by decide) (by decide)
        ((Adds.write "class ").bind fun _ => addsRest _ _)

end Printer

namespace Node

open Printer

variable {settings : Settings} {state : PrinterState} {role : Role}

/-- The text of a construct that may lead starts as its shape tells. -/
theorem opens_leader (leader : Node) (mayLead : leader.MayLead settings state.scopes)
    (plain : role = .plain ∨ role = .ranked) :
    OpensAs settings state leader.shape.textStart (leader.printAs role) := by
  have bare : role.isBare := by
    rcases plain with rfl | rfl <;> rfl
  have keepsRank (place : Position) (shape : Shape Part) :
      KeepsText settings (ownRank role place shape) := by
    intro state rank next ends
    obtain ⟨-, diagnostics, rfl⟩ := ownRank_eq_ok ends
    rfl
  obtain ⟨location, shape⟩ := leader
  rw [printAs_eq]
  cases shape with
  | leaf form =>
      have spelled (word : String) (isWord : word.toList ≠ [] ∧
          (word.toList.all isWordCharacter)) :
          OpensAs settings state (.ofWord word.toList) (write word) := by
        rw [← bind_pure (write word)]
        exact .word isWord.1 isWord.2 .pure
      cases form with
      | this => exact spelled "this" (by decide)
      | super => exact spelled "super" (by decide)
      | _ => cases mayLead
  | identifier source type optional => exact opens_identifier bare mayLead.1 mayLead.2 type optional
  | literal raw value => exact opens_literal mayLead
  | arrayLiteral elements => exact opens_arrayLiteral elements
  | objectLiteral properties => exact opens_objectLiteral properties
  | function form marks name params body returnType =>
      cases form with
      | arrow => exact opens_arrow _ params body returnType
      | declaration => 
          rcases plain with rfl | rfl <;>
            exact opens_function (by simp) _ marks name params body returnType
      | expression => 
          rcases plain with rfl | rfl <;>
            exact opens_function (by simp) _ marks name params body returnType
      | declared => exact absurd rfl mayLead.1
      | emptyBody => exact absurd rfl mayLead.2
  | classDefinition form marks name superClass implementing body decorators =>
      exact opens_classDefinition plain _ marks mayLead superClass implementing body decorators
  | unary form operator leading argument =>
      cases leading with
      | true => exact .after (keepsRank _ _) fun _ _ => opens_unary mayLead _ argument
      | false => cases mayLead
  | call form callee arguments optional typeParameters typeArguments =>
      cases form with
      | call => cases mayLead
      | construction =>
          exact .after (keepsRank _ _) fun _ _ =>
            opens_construction mayLead arguments typeParameters typeArguments
  | spread form argument type =>
      cases form with
      | spread => exact .after (keepsRank _ _) fun _ _ => opens_spread _ argument
      | rest => cases mayLead
  | _ => cases mayLead

/-- The text of an expression starts as its leader tells. -/
theorem opens_printed (expression : Node)
    (mayLead : ∀ leader ∈ expression.leader? settings state.scopes,
      leader.MayLead settings state.scopes) (plain : role = .plain ∨ role = .ranked) :
    OpensAs settings state (expression.textStart settings state.scopes)
      (expression.printAs role) := by
  intro next ends
  have starts := expression.begins plain _ _ rfl ends
  unfold textStart
  cases isLeader : expression.leader? settings state.scopes with
  | none =>
      rw [isLeader] at starts
      cases starts with
      | @enclosed lead rest blank isNext =>
          refine ⟨lead ++ '(' :: rest, .other blank (by decide) (by decide) (by decide), ?_⟩
          rw [isNext, List.append_assoc]
  | some leader =>
      rw [isLeader] at starts
      cases starts with
      | @leading _ _ begun reached rest plain indents printed apart isNext =>
          have leads := mayLead leader isLeader
          rw [← indents.scopes] at leads
          obtain ⟨added, startsLeader, isReached⟩ := leader.opens_leader leads plain _ printed
          obtain ⟨lead, blank, isBegun⟩ := indents.text
          refine ⟨lead ++ (added ++ rest), (startsLeader.more apart).behind blank, ?_⟩
          rw [isNext, isReached, isBegun]
          simp only [List.append_assoc]

/-- The text of an expression statement, and that of the body of an arrow function, starts as
that of its leader does.  So a statement starts with a brace if and only if its leader is an
object literal, and with one of the two words if and only if its leader is a function or a
class.  The same holds for the brace at the start of a body, unless the body is the object
literal itself or a sequence. -/
theorem startOf_printed (settings : Settings) (expression : Node) (state next : PrinterState)
    (mayLead : ∀ leader ∈ expression.leader? settings state.scopes,
      leader.MayLead settings state.scopes) :
    (∀ location role, (printAs ⟨location, .expressionStatement expression⟩ role).outcome settings
        state = .ok ((), next) →
      ∃ added, next.text.characters = state.text.characters ++ added ∧
        startOf added = expression.textStart settings state.scopes) ∧
    (Printer.isBlock expression.toPart = false →
      (arrowBody expression.toPart).outcome settings state = .ok ((), next) →
      ∃ added, next.text.characters = state.text.characters ++ added ∧
        startOf added = expression.bodyStart settings state.scopes) := by
  refine ⟨fun location role ends => ?_, fun noBlock ends => ?_⟩
  · rw [printAs_eq] at ends
    obtain ⟨added, starts, isNext⟩ := expression.opens_printed mayLead (.inl rfl) next ends
    exact ⟨added, isNext, starts.startOf_eq⟩
  · unfold arrowBody at ends
    rw [noBlock, if_neg Bool.false_ne_true] at ends
    obtain ⟨rank, middle, isRank, goesOn⟩ := outcome_bind_eq_ok ends
    obtain ⟨rfl, diagnostics, rfl⟩ := rankOf_eq_ok isRank
    have opens : OpensAs settings { state with diagnostics }
        (expression.bodyStart settings state.scopes)
        (enclosedIf (Printer.isObjectLiteral expression.toPart ||
          Precedence.assignment < expression.underCasts.shape.rank) "(" ")"
            (expression.printAs .ranked)) := by
      unfold bodyStart
      cases Printer.isObjectLiteral expression.toPart ||
          decide (Precedence.assignment < expression.underCasts.shape.rank) with
      | true =>
          have inside : Adds settings (expression.printAs .ranked) :=
            .of_leads fun _ _ => (expression.balanced_toPart settings).role .ranked trivial
          exact .sign (by decide) (inside.bind fun _ => .write ")")
      | false =>
          rw [if_neg Bool.false_ne_true, enclosedIf_false]
          exact expression.opens_printed mayLead (.inr rfl)
    obtain ⟨added, starts, isNext⟩ := opens next goesOn
    exact ⟨added, isNext, starts.startOf_eq⟩

/-- A member of an object literal, as a statement and as a body. -/
theorem startOf_printed_member :
    let object : Node := ⟨{}, .objectLiteral []⟩
    let expression : Node := ⟨{}, .member object ⟨{}, .identifier "c" none false⟩ false false⟩
    expression.leader? {} {} = some object ∧ object.MayLead {} {} ∧
    Printer.isBlock expression.toPart = false ∧
    ∃ next, (printAs ⟨{}, .expressionStatement expression⟩ .plain).outcome {} {} = .ok ((), next) ∧
      (arrowBody expression.toPart).outcome {} {} = .ok ((), next) ∧
      next.text.toString = "\x7b\x7d.c" ∧
      (∃ added, next.text.characters = added ∧ startOf added = .brace) := by
  intro object expression
  have isLeader : expression.leader? {} {} = some object := rfl
  have mayLead : object.MayLead {} {} := trivial
  have printed : ∃ next,
      (printAs ⟨{}, .expressionStatement expression⟩ .plain).outcome {} {} = .ok ((), next) ∧
      (arrowBody expression.toPart).outcome {} {} = .ok ((), next) ∧
      next.text.toString = "\x7b\x7d.c" := ⟨_, rfl, rfl, rfl⟩
  obtain ⟨next, isStatement, isBody, isText⟩ := printed
  have mayLeadAll : ∀ leader ∈ expression.leader? {} {}, leader.MayLead {} {} := by
    rw [isLeader]
    rintro leader ⟨⟩
    exact mayLead
  obtain ⟨-, ofBody⟩ := startOf_printed {} expression {} next mayLeadAll
  obtain ⟨added, isNext, isBrace⟩ := ofBody rfl isBody
  exact ⟨isLeader, mayLead, rfl, next, isStatement, isBody, isText, added, isNext, isBrace⟩

/-- A function that is called at once is printed as a declaration, and the body of an arrow
function that accesses an object literal as a block. -/
theorem generate_leaders :
    let called : Node := ⟨{}, .call .call ⟨{}, .function .expression {} none []
      (some ⟨{}, .group .block []⟩) none⟩ [] false none none⟩
    let object : Node := ⟨{}, .objectLiteral []⟩
    let body : Node := ⟨{}, .member object ⟨{}, .identifier "c" none false⟩ false false⟩
    let program (expression : Node) : Node :=
      ⟨{}, .group .program [⟨{}, .expressionStatement expression⟩]⟩
    Settings.generate {} (program called) = .ok ⟨"function() \x7b\x7d();", []⟩ ∧
    Settings.generate {} (program ⟨{}, .call .call ⟨{}, .identifier "f" none false⟩
        [⟨{}, .function .arrow {} none [] (some body) none⟩] false none none⟩) =
      .ok ⟨"f(() => \x7b\x7d.c);", []⟩ :=
  ⟨rfl, rfl⟩

end Node

end ScriptBridge

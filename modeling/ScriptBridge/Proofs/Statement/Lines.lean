import ScriptBridge.Proofs.Expression.Separation
import ScriptBridge.Proofs.Statement.Syntax
import ScriptBridge.Proofs.Printing.PlainText

/-!
# Printers of whole lines

Beyond single lines it does not matter how far a line is indented, only which
tokens the text is read as.  A printer emits text of a certain kind if it
appends such text, with all line ends and indentation, and leaves the level of
indentation as it was.
-/

/-!
## Layouts of statements keep their tokens apart

The layout of a simple statement may be followed by what may follow an
expression.  The head of a loop ends with a parenthesis and may be followed by
anything.
-/

namespace ScriptBridge

open Expression (Separate)

namespace Layout

/-- A layout may be followed by anything. -/
def Closed (layout : Layout) : Prop :=
  ∀ rest, layout.SeparateBefore rest

theorem Closed.append {first second : Layout} (closedFirst : first.Closed)
    (closedSecond : second.Closed) : Closed (first ++ second) := by
  intro rest
  rw [separateBefore_append]
  exact ⟨closedFirst _, closedSecond rest⟩

theorem Closed.append_separate {first second : Layout} (closed : first.Closed)
    (separate : Separate second) : Separate (first ++ second) := by
  intro rest closes
  rw [separateBefore_append]
  exact ⟨closed _, separate rest closes⟩

theorem closed_blank : Closed [.blank] :=
  fun _ => ⟨trivial, trivial⟩

/-- Signs that nothing extends. -/
theorem closed_sign {text : String} (alone : text ∈ signs ∧ extensions text = []) :
    Closed [.sign text] := by
  refine fun rest => ⟨⟨alone.1, fun next _ => ?_⟩, trivial⟩
  rw [alone.2]
  exact List.not_mem_nil

/-- Whether a text is a word. -/
def isWord (text : String) : Bool :=
  !text.toList.isEmpty && text.toList.all isWordCharacter

theorem separate_word {text : String} (valid : isWord text = true) :
    Separate [.word text] := by
  simp only [isWord, Bool.and_eq_true, Bool.not_eq_true', List.isEmpty_eq_false_iff,
    List.all_eq_true] at valid
  exact fun rest closes => ⟨⟨valid.1, valid.2, closes⟩, trivial⟩

/-- A word with a blank behind it. -/
theorem closed_word {text : String} (valid : isWord text = true) :
    Closed [.word text, .blank] := by
  intro rest
  rw [← List.singleton_append, separateBefore_append]
  exact ⟨separate_word valid _ (closes_cons (by decide) _), closed_blank rest⟩

theorem closed_enclosed {layout : Layout} (separate : Separate layout) :
    Closed (Expression.enclosed layout) := by
  intro rest
  simp only [Expression.enclosed, separateBefore_append, separateBefore_cons,
    separateBefore_nil, and_true]
  refine ⟨⟨Piece.endsBefore_sign (by decide) _, ?_⟩, Piece.endsBefore_sign (by decide) _⟩
  exact separate _ (closes_cons (by decide) _)

theorem closed_parenthesized {word : String} (valid : isWord word = true) {layout : Layout}
    (separate : Separate layout) : Closed (parenthesized word layout) :=
  (closed_word valid).append (closed_enclosed separate)

end Layout

open Layout (closed_blank closed_sign closed_word closed_parenthesized separate_word)

theorem PlainName.isWord_text (name : PlainName) : Layout.isWord name.text = true := by
  simp only [Layout.isWord, Bool.and_eq_true, Bool.not_eq_true', List.isEmpty_eq_false_iff,
    List.all_eq_true]
  exact ⟨name.toList_ne_nil, name.isWord⟩

theorem DeclarationKind.isWord_word (kind : DeclarationKind) :
    Layout.isWord kind.word = true := by
  cases kind <;> decide

/-! ## Simple statements -/

theorem Binding.WellFormed.separate {binding : Binding} (wellFormed : binding.WellFormed) :
    Separate binding.layout := by
  obtain ⟨name, value⟩ := binding
  have first : Separate [.word name.text] := separate_word name.isWord_text
  cases value with
  | none => exact first
  | some value =>
      exact Expression.separate_between first
        (Expression.separate_operandLayout (wellFormed value rfl).separate) (by decide)

theorem separate_bindings {bindings : List Binding}
    (wellFormed : ∀ binding ∈ bindings, binding.WellFormed) :
    Separate (bindingsLayout bindings) := by
  induction bindings with
  | nil => exact fun rest _ => trivial
  | cons binding others ih =>
      have first := (wellFormed binding (by simp)).separate
      cases others with
      | nil => exact first
      | cons next others =>
          have more := ih fun other place => wellFormed other (by simp [place])
          intro rest closes
          simp only [bindingsLayout, Layout.separateBefore_append, Layout.separateBefore_cons,
            Layout.separateBefore_nil, and_true]
          refine ⟨⟨?_, Piece.endsBefore_sign (by decide) _, trivial⟩, more rest closes⟩
          exact first _ (closes_cons (by decide) _)

theorem separate_declaration (kind : DeclarationKind) {bindings : List Binding}
    (wellFormed : ∀ binding ∈ bindings, binding.WellFormed) :
    Separate (declarationLayout kind bindings) :=
  (closed_word kind.isWord_word).append_separate (separate_bindings wellFormed)

theorem separate_optional {value : Option Expression}
    (wellFormed : ∀ expression ∈ value, expression.WellFormed) :
    Separate (optionalLayout value) := by
  cases value with
  | none => exact fun rest _ => trivial
  | some value => exact closed_blank.append_separate (wellFormed value rfl).separate

theorem closes_optional (value : Option Expression) {rest : List Char} (closes : Closes rest) :
    Closes ((optionalLayout value).characters ++ rest) := by
  cases value with
  | none => exact closes
  | some value => exact closes_cons (by decide) _

theorem SimpleStatement.WellFormed.separate {content : SimpleStatement}
    (wellFormed : content.WellFormed) : Separate content.layout := by
  cases content with
  | expression value => exact wellFormed.1.separate
  | declaration kind bindings => exact separate_declaration kind wellFormed.2
  | returning value =>
      intro rest closes
      rw [SimpleStatement.layout, Layout.separateBefore_append]
      exact ⟨separate_word (by decide) _ (closes_optional value closes),
        separate_optional wellFormed rest closes⟩
  | throwing value =>
      exact (closed_word (by decide)).append_separate (Expression.WellFormed.separate wellFormed)
  | jump form =>
      cases form with
      | breaking => exact separate_word (by decide)
      | continuing => exact separate_word (by decide)

/-! ## Heads -/

theorem LoopStart.WellFormed.separate {start : LoopStart} (wellFormed : start.WellFormed) :
    Separate start.layout := by
  cases start with
  | nothing => exact fun rest _ => trivial
  | expression value => exact wellFormed.1.separate
  | declaration kind bindings => exact separate_declaration kind wellFormed.2.1

theorem LoopTarget.WellFormed.separate {form : EachForm} {target : LoopTarget}
    (wellFormed : target.WellFormed form) : Separate target.layout := by
  cases target with
  | place target => exact wellFormed.1.separate
  | declared kind name =>
      refine separate_declaration kind fun binding place => ?_
      rw [List.mem_singleton] at place
      subst place
      exact nofun

theorem closed_semicolon : Layout.Closed [.sign ";"] :=
  closed_sign (by decide)

theorem LoopHead.WellFormed.closed {head : LoopHead} (wellFormed : head.WellFormed) :
    head.layout.Closed := by
  cases head with
  | whileLoop test =>
      exact closed_parenthesized (by decide) (Expression.WellFormed.separate wellFormed)
  | counting start test update =>
      obtain ⟨wellFormed, wellFormedTest, wellFormedUpdate⟩ := wellFormed
      apply closed_parenthesized (by decide)
      intro rest closes
      simp only [Layout.separateBefore_append]
      exact ⟨⟨⟨⟨wellFormed.separate _ (closes_cons (by decide) _), closed_semicolon _⟩,
        separate_optional wellFormedTest _ (closes_cons (by decide) _)⟩, closed_semicolon _⟩,
        separate_optional wellFormedUpdate rest closes⟩
  | each form target collection =>
      have between : [.blank, .word (Printer.eachWord form), .blank] =
          Expression.betweenLayout (Printer.eachWord form) := by
        cases form <;> rfl
      rw [LoopHead.layout, between]
      exact closed_parenthesized (by decide)
        (Expression.separate_between wellFormed.1.separate wellFormed.2.1.separate
          (by cases form <;> decide))

theorem closed_handler (caught : Option PlainName) : (handlerLayout caught).Closed := by
  cases caught with
  | none => exact closed_word (by decide)
  | some name =>
      exact (closed_parenthesized (by decide) (separate_word name.isWord_text)).append
        closed_blank

end ScriptBridge

/-! ## Printers -/

namespace ScriptBridge

/-- Characters are read as tokens, whatever follows. -/
def Spells (characters : List Char) (tokens : List Token) : Prop :=
  ∀ rest, tokenize? (characters ++ rest) = (tokenize? rest).map (tokens ++ ·)

/-- Characters are read as tokens, if what follows may stand behind an expression. -/
def SpellsBefore (characters : List Char) (tokens : List Token) : Prop :=
  ∀ rest, Closes rest → tokenize? (characters ++ rest) = (tokenize? rest).map (tokens ++ ·)

/-- Texts that may stand behind an expression if what follows them may. -/
def ClosesBefore (characters : List Char) : Prop :=
  ∀ rest, Closes rest → Closes (characters ++ rest)

theorem ClosesBefore.append {first second : List Char} (closes : ClosesBefore first)
    (closesBehind : ClosesBefore second) : ClosesBefore (first ++ second) := by
  intro rest closesRest
  rw [List.append_assoc]
  exact closes _ (closesBehind rest closesRest)

section Spelling

variable {first second : List Char} {tokens others : List Token}

theorem Spells.before (spells : Spells first tokens) : SpellsBefore first tokens :=
  fun rest _ => spells rest

theorem Spells.append (spells : Spells first tokens) (spellsBehind : Spells second others) :
    Spells (first ++ second) (tokens ++ others) := by
  intro rest
  rw [List.append_assoc, spells, spellsBehind, Option.map_map]
  simp [Function.comp_def]

theorem Spells.append_before (spells : Spells first tokens)
    (spellsBehind : SpellsBefore second others) :
    SpellsBefore (first ++ second) (tokens ++ others) := by
  intro rest closes
  rw [List.append_assoc, spells, spellsBehind rest closes, Option.map_map]
  simp [Function.comp_def]

/-- What a text may end before can be put behind it. -/
theorem SpellsBefore.append (spells : SpellsBefore first tokens)
    (spellsBehind : Spells second others) (closes : ∀ rest, Closes (second ++ rest)) :
    Spells (first ++ second) (tokens ++ others) := by
  intro rest
  rw [List.append_assoc, spells _ (closes rest), spellsBehind, Option.map_map]
  simp [Function.comp_def]

theorem closes_of_blank {character : Char} (blank : isBlank character = true)
    (rest : List Char) : Closes (character :: rest) :=
  closes_cons (by simp [isWordCharacter, blank]) rest

/-- Blanks make no difference for what may stand behind an expression. -/
theorem closes_behind_blank {lead rest : List Char}
    (blank : ∀ character ∈ lead, isBlank character = true) (closes : Closes rest) :
    Closes (lead ++ rest) := by
  cases lead with
  | nil => exact closes
  | cons character lead => exact closes_of_blank (blank character (by simp)) _

theorem SpellsBefore.append_before (spells : SpellsBefore first tokens)
    (spellsBehind : SpellsBefore second others)
    (closes : ClosesBefore second) :
    SpellsBefore (first ++ second) (tokens ++ others) := by
  intro rest closesRest
  rw [List.append_assoc, spells _ (closes rest closesRest), spellsBehind rest closesRest,
    Option.map_map]
  simp [Function.comp_def]

theorem spells_nil : Spells [] [] := by
  intro rest
  simp

theorem spells_blank {characters : List Char}
    (blank : ∀ character ∈ characters, isBlank character = true) : Spells characters [] := by
  induction characters with
  | nil => exact spells_nil
  | cons character characters ih =>
      intro rest
      rw [List.cons_append, tokenize?, if_pos (blank character (by simp))]
      exact ih (fun other place => blank other (by simp [place])) rest

theorem Layout.Closed.spells {layout : Layout} (closed : layout.Closed) :
    Spells layout.characters layout.tokens :=
  fun rest => Layout.tokenize?_characters (closed rest)

theorem Expression.Separate.spells {layout : Layout} (separate : Expression.Separate layout) :
    SpellsBefore layout.characters layout.tokens :=
  fun rest closes => Layout.tokenize?_characters (separate rest closes)

theorem SpellsBefore.ne_nil (spells : SpellsBefore first tokens) (nonempty : tokens ≠ []) :
    first ≠ [] := by
  rintro rfl
  have reads := spells [] closes_nil
  rw [List.append_nil, tokenize?, Option.map_some, List.append_nil, Option.some.injEq] at reads
  exact nonempty reads.symm

end Spelling

theorem IndentedText.isBlank_indentation (text : IndentedText) :
    ∀ character ∈ text.indentation, isBlank character = true := by
  intro character place
  rw [List.eq_of_mem_replicate place]
  decide

namespace Printer

/-- A printer has a result and appends text of the given kind. -/
def Emits {Result : Type} (settings : Settings) (printer : Printer Result) (result : Result)
    (accepts : List Char → Prop) : Prop :=
  ∀ state, IsPlain state → ∃ next added, state.Keeps next ∧ state.text.Extends added next.text ∧
    accepts added ∧ printer.outcome settings state = .ok (result, next)

variable {settings : Settings} {Result Other : Type}

theorem Emits.bind {printer : Printer Result} {rest : Result → Printer Other} {value : Result}
    {result : Other} {first second accepts : List Char → Prop}
    (before : Emits settings printer value first)
    (behind : Emits settings (rest value) result second)
    (combine : ∀ written more, first written → second more → accepts (written ++ more)) :
    Emits settings (printer >>= rest) result accepts := by
  intro state plain
  obtain ⟨middle, written, keeps, goesOn, isFirst, ends⟩ := before state plain
  obtain ⟨next, more, keepsOn, goesOnBehind, isSecond, endsBehind⟩ :=
    behind middle ⟨goesOn.coherent, keeps.outside⟩
  refine ⟨next, written ++ more, keeps.trans keepsOn, goesOn.trans goesOnBehind,
    combine written more isFirst isSecond, ?_⟩
  rw [outcome_bind, ends]
  exact endsBehind

theorem Emits.mono {printer : Printer Result} {result : Result}
    {first accepts : List Char → Prop} (emits : Emits settings printer result first)
    (implies : ∀ written, first written → accepts written) :
    Emits settings printer result accepts := by
  intro state plain
  obtain ⟨next, written, keeps, goesOn, isFirst, ends⟩ := emits state plain
  exact ⟨next, written, keeps, goesOn, implies written isFirst, ends⟩

/-- Text spelled one behind the other. -/
theorem Emits.andThen {before : Printer Unit} {behind : Printer Result} {result : Result}
    {first second : List Token} (emits : Emits settings before () (Spells · first))
    (emitsBehind : Emits settings behind result (Spells · second)) :
    Emits settings (do before; behind) result (Spells · (first ++ second)) :=
  emits.bind emitsBehind fun _ _ => Spells.append

/-- What is written within a line is emitted behind blanks, which indent the line. -/
theorem Yields.emits_behind {printer : Printer Result} {result : Result} {added : List Char}
    (yields : Yields settings printer result added) (noLineEnd : '\n' ∉ added)
    {accepts : List Char → Prop}
    (accepted : ∀ lead : List Char, (∀ character ∈ lead, isBlank character = true) →
      accepts (lead ++ added)) :
    Emits settings printer result accepts := by
  intro state plain
  obtain ⟨next, keeps, ⟨lead, isLead, goesOn⟩, ends⟩ := yields state plain (.inr noLineEnd)
  refine ⟨next, lead ++ added, keeps, goesOn, accepted lead ?_, ends⟩
  rcases isLead with rfl | ⟨_, rfl⟩
  · nofun
  · exact state.text.isBlank_indentation

theorem Yields.emits {printer : Printer Result} {result : Result} {layout : Layout}
    (yields : Yields settings printer result layout.characters)
    (separate : Expression.Separate layout) :
    Emits settings printer result (SpellsBefore · layout.tokens) :=
  yields.emits_behind (Layout.lineEnd_not_mem (separate [] closes_nil))
    fun _ blank => (spells_blank blank).append_before separate.spells

theorem Yields.emitsClosed {printer : Printer Result} {result : Result} {layout : Layout}
    (yields : Yields settings printer result layout.characters) (closed : layout.Closed) :
    Emits settings printer result (Spells · layout.tokens) :=
  yields.emits_behind (Layout.lineEnd_not_mem (closed [])) fun _ blank =>
    (spells_blank blank).append closed.spells

end Printer

end ScriptBridge

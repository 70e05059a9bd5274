import Mathlib.Data.List.Induction
import ScriptBridge.Proofs.Expression.Printing
import ScriptBridge.Proofs.Expression.Separation

/-!
# Array literals

In an array literal commas stand between the elements, and each further comma makes a hole, except
for one behind the last element, which adds nothing.  So a reader has to tell commas apart by what
stands in front of them.

A printed array literal has a comma between every two elements, whether they are left out or not,
and none behind the last one.  So a last element that is left out is lost, in every array literal
of the text, and everything else is read back.
-/

namespace ScriptBridge

/-! ## Grammar -/

/-- An element of an array literal: a name, or an array literal, of which some elements may be
left out. -/
inductive Element where
  | name (plain : PlainName)
  | array (elements : List (Option Element))

namespace Element

theorem induction {motive : Element → Prop} (name : ∀ plain, motive (.name plain))
    (array : ∀ elements, (∀ element, some element ∈ elements → motive element) →
      motive (.array elements)) : ∀ element, motive element
  | .name plain => name plain
  | .array elements => array elements fun element _ => element.induction name array
termination_by element => sizeOf element
decreasing_by
  have smaller := List.sizeOf_lt_of_mem ‹some element ∈ elements›
  simp only [Option.some.sizeOf_spec, Element.array.sizeOf_spec] at smaller ⊢
  omega

end Element

/-- A number of commas. -/
def commas (count : Nat) : List Token :=
  List.replicate count (.sign ",")

/-- A number of elements that are left out. -/
def holes (count : Nat) : List (Option Element) :=
  List.replicate count none

/-- What tokens may be read as. -/
inductive ArrayGoal where
  /-- A single element. -/
  | element
  /-- Elements with commas between them, the last of which is not left out. -/
  | elements
  /-- An array literal. -/
  | literal

/-- The readings of tokens.  An element is read as the list of it, and an array literal as the
list of its elements. -/
inductive ReadsArray : ArrayGoal → List Token → List (Option Element) → Prop where
  | name (plain : PlainName) : ReadsArray .element [Token.word plain.text] [some (.name plain)]
  | nested {tokens : List Token} {elements : List (Option Element)} :
      ReadsArray .literal tokens elements → ReadsArray .element tokens [some (.array elements)]
  | first (count : Nat) {tokens : List Token} {element : List (Option Element)} :
      ReadsArray .element tokens element →
        ReadsArray .elements (commas count ++ tokens) (holes count ++ element)
  | next {before tokens : List Token} {elements element : List (Option Element)} (count : Nat) :
      ReadsArray .elements before elements → ReadsArray .element tokens element →
        ReadsArray .elements (before ++ [Token.sign ","] ++ commas count ++ tokens)
          (elements ++ holes count ++ element)
  | elided (count : Nat) :
      ReadsArray .literal ([Token.sign "["] ++ commas count ++ [Token.sign "]"]) (holes count)
  | listed {tokens : List Token} {elements : List (Option Element)} :
      ReadsArray .elements tokens elements →
        ReadsArray .literal ([Token.sign "["] ++ tokens ++ [Token.sign "]"]) elements
  | trailing {tokens : List Token} {elements : List (Option Element)} (count : Nat) :
      ReadsArray .elements tokens elements →
        ReadsArray .literal
          ([Token.sign "["] ++ (tokens ++ [Token.sign ","] ++ commas count) ++ [Token.sign "]"])
          (elements ++ holes count)

/-! ## A reader

The reader keeps, for each array literal that is open, its elements so far and whether an element
stands in front. -/

/-- An array literal that is open. -/
structure OpenArray where
  elements : List (Option Element) := []
  behindElement : Bool := false

namespace OpenArray

/-- The literal with a further element. -/
def add (literal : OpenArray) (element : Element) : OpenArray :=
  ⟨literal.elements ++ [some element], true⟩

/-- Read one token; the innermost literal comes first. -/
def read : List OpenArray → Token → List OpenArray
  | literals, .sign "[" => {} :: literals
  | literal :: outer, .sign "," =>
      (if literal.behindElement then ⟨literal.elements, false⟩
        else ⟨literal.elements ++ [none], false⟩) :: outer
  | inner :: literal :: outer, .sign "]" => literal.add (.array inner.elements) :: outer
  | literal :: outer, .word text =>
      (if isPlain : isPlainWord text = true then literal.add (.name ⟨text, isPlain⟩)
        else literal) :: outer
  | literals, _ => literals

theorem read_opening (literals : List OpenArray) :
    read literals (.sign "[") = ⟨[], false⟩ :: literals :=
  rfl

theorem read_comma (literal : OpenArray) (outer : List OpenArray) :
    read (literal :: outer) (.sign ",") =
      (if literal.behindElement then ⟨literal.elements, false⟩
        else ⟨literal.elements ++ [none], false⟩) :: outer :=
  rfl

theorem read_closing (inner literal : OpenArray) (outer : List OpenArray) :
    read (inner :: literal :: outer) (.sign "]") =
      literal.add (.array inner.elements) :: outer :=
  rfl

theorem read_word (plain : PlainName) (literal : OpenArray) (outer : List OpenArray) :
    read (literal :: outer) (.word plain.text) = literal.add (.name plain) :: outer :=
  congrArg (· :: outer) (dif_pos plain.isPlain)

theorem read_commas (count : Nat) (elements : List (Option Element)) (outer : List OpenArray) :
    (commas count).foldl read (⟨elements, false⟩ :: outer) =
      ⟨elements ++ holes count, false⟩ :: outer := by
  induction count generalizing elements with
  | zero => simp [commas, holes]
  | succ count ih =>
      change (commas count).foldl read (⟨elements ++ [none], false⟩ :: outer) = _
      rw [ih, List.append_assoc]
      rfl

end OpenArray

/-- The elements that the literal around a reading gets. -/
def ArrayGoal.adds (elements : List (Option Element)) : ArrayGoal → List (Option Element)
  | .literal => [some (.array elements)]
  | .element | .elements => elements

/-- Whatever is read is found by the reader. -/
theorem ReadsArray.found {goal : ArrayGoal} {tokens : List Token}
    {elements : List (Option Element)} (reads : ReadsArray goal tokens elements)
    (before : List (Option Element)) (outer : List OpenArray) :
    tokens.foldl OpenArray.read (⟨before, false⟩ :: outer) =
      ⟨before ++ goal.adds elements, true⟩ :: outer := by
  induction reads generalizing before outer with
  | name plain => exact OpenArray.read_word plain ⟨before, false⟩ outer
  | nested _ ih => exact ih before outer
  | first count _ ih =>
      rw [List.foldl_append, OpenArray.read_commas, ih, List.append_assoc]
      rfl
  | next count _ _ elementsFound elementFound =>
      simp only [List.foldl_append, List.foldl_cons, List.foldl_nil, elementsFound]
      rw [OpenArray.read_comma, if_pos rfl, OpenArray.read_commas, elementFound]
      simp only [ArrayGoal.adds, List.append_assoc]
  | elided count =>
      simp only [List.foldl_append, List.foldl_cons, List.foldl_nil]
      rw [OpenArray.read_opening, OpenArray.read_commas, OpenArray.read_closing]
      rfl
  | listed _ ih =>
      simp only [List.foldl_append, List.foldl_cons, List.foldl_nil]
      rw [OpenArray.read_opening, ih, OpenArray.read_closing]
      rfl
  | trailing count _ ih =>
      simp only [List.foldl_append, List.foldl_cons, List.foldl_nil]
      rw [OpenArray.read_opening, ih, OpenArray.read_comma, if_pos rfl, OpenArray.read_commas,
        OpenArray.read_closing]
      rfl

/-- An array literal has at most one reading. -/
theorem ReadsArray.unique {tokens : List Token} {first second : List (Option Element)}
    (readsFirst : ReadsArray .literal tokens first)
    (readsSecond : ReadsArray .literal tokens second) : first = second := by
  have same := (readsFirst.found [] []).symm.trans (readsSecond.found [] [])
  simpa [ArrayGoal.adds] using same

/-! ## Layouts -/

namespace Element

/-- The elements of an array literal, without the last one if it is left out. -/
def withoutLastHole (elements : List (Option Element)) : List (Option Element) :=
  match elements.getLast? with
  | some none => elements.dropLast
  | _ => elements

theorem withoutLastHole_hole (elements : List (Option Element)) :
    withoutLastHole (elements ++ [none]) = elements := by
  simp [withoutLastHole]

theorem withoutLastHole_of_ne {elements : List (Option Element)}
    (noHole : elements.getLast? ≠ some none) : withoutLastHole elements = elements := by
  unfold withoutLastHole
  split
  · next hole => exact absurd hole noHole
  · rfl

mutual

/-- An element without the last hole of each of its array literals. -/
def kept : Element → Element
  | .name plain => .name plain
  | .array elements => .array (withoutLastHole (keptElements elements))

def keptElements : List (Option Element) → List (Option Element)
  | [] => []
  | element :: rest => keptElement element :: keptElements rest

def keptElement : Option Element → Option Element
  | none => none
  | some element => some element.kept

end

mutual

/-- The elements of all array literals in an element. -/
def literals : Element → List (List (Option Element))
  | .name _ => []
  | .array elements => elements :: literalsIn elements

def literalsIn : List (Option Element) → List (List (Option Element))
  | [] => []
  | element :: rest => literalsOf element ++ literalsIn rest

def literalsOf : Option Element → List (List (Option Element))
  | none => []
  | some element => element.literals

end

/-- Layouts with commas between them. -/
def commaLayout (layouts : List Layout) : Layout :=
  [.sign ",", .blank].intercalate layouts

mutual

/-- The layout of an element. -/
def layout : Element → Layout
  | .name plain => [.word plain.text]
  | .array elements => [.sign "["] ++ commaLayout (layouts elements) ++ [.sign "]"]

def layouts : List (Option Element) → List Layout
  | [] => []
  | element :: rest => holeLayout element :: layouts rest

def holeLayout : Option Element → Layout
  | none => []
  | some element => element.layout

end

theorem keptElements_eq_map (elements : List (Option Element)) :
    keptElements elements = elements.map (Option.map kept) := by
  induction elements with
  | nil => rfl
  | cons element rest ih =>
      rw [keptElements, ih, List.map_cons]
      cases element <;> rfl

theorem layouts_eq_map (elements : List (Option Element)) :
    layouts elements = elements.map holeLayout := by
  induction elements with
  | nil => rfl
  | cons element rest ih => rw [layouts, ih, List.map_cons]

/-- A list keeps its elements exactly if its last element is not left out, and each element is
kept. -/
theorem withoutLastHole_keptElements (elements : List (Option Element)) :
    withoutLastHole (keptElements elements) = elements ↔
      elements.getLast? ≠ some none ∧ keptElements elements = elements := by
  have sameLast : (keptElements elements).getLast? = some none ↔
      elements.getLast? = some none := by
    rw [keptElements_eq_map, List.getLast?_map]
    rcases elements.getLast? with _ | _ | element <;> simp
  by_cases hole : elements.getLast? = some none
  · obtain ⟨before, rfl⟩ := List.getLast?_eq_some_iff.mp hole
    have shorter : withoutLastHole (keptElements (before ++ [none])) = keptElements before := by
      rw [keptElements_eq_map, keptElements_eq_map, List.map_append]
      exact withoutLastHole_hole _
    rw [shorter]
    constructor
    · intro same
      have lengths := congrArg List.length same
      simp [keptElements_eq_map] at lengths
    · intro both
      exact absurd hole both.1
  · rw [withoutLastHole_of_ne (sameLast.not.mpr hole)]
    exact ⟨fun same => ⟨hole, same⟩, fun both => both.2⟩

theorem keptElements_eq_iff {elements : List (Option Element)}
    (each : ∀ element, some element ∈ elements → (element.kept = element ↔
      ∀ inner ∈ element.literals, inner.getLast? ≠ some none)) :
    keptElements elements = elements ↔
      ∀ inner ∈ literalsIn elements, inner.getLast? ≠ some none := by
  induction elements with
  | nil => simp [keptElements, literalsIn]
  | cons element rest ih =>
      have others := ih fun other place => each other (List.mem_cons_of_mem _ place)
      rw [keptElements, literalsIn, List.cons.injEq, List.forall_mem_append, others]
      cases element with
      | none => simp [keptElement, literalsOf]
      | some element =>
          rw [keptElement, literalsOf, Option.some.injEq, each element (List.mem_cons_self ..)]

/-- Nothing is lost exactly if no array literal ends with a hole. -/
theorem kept_eq_iff (element : Element) :
    element.kept = element ↔ ∀ elements ∈ element.literals, elements.getLast? ≠ some none := by
  induction element using Element.induction with
  | name plain => simp [kept, literals]
  | array elements ih =>
      rw [kept, literals, Element.array.injEq, withoutLastHole_keptElements, List.forall_mem_cons,
        keptElements_eq_iff ih]

/-! ## Reading -/

/-- What may stand between the brackets of an array literal, if there is anything. -/
inductive Readable : List Token → List (Option Element) → Prop where
  | elided (count : Nat) : Readable (commas count) (holes (count + 1))
  | behind {tokens : List Token} {before : List (Option Element)} {element : Element}
      (reads : ReadsArray .elements tokens (before ++ [some element])) (count : Nat) :
      Readable (tokens ++ commas count) (before ++ [some element] ++ holes count)

theorem commas_succ (count : Nat) : commas (count + 1) = commas count ++ [Token.sign ","] :=
  List.replicate_succ'

theorem holes_succ (count : Nat) : holes (count + 1) = holes count ++ [none] :=
  List.replicate_succ'

namespace Readable

variable {tokens : List Token} {elements : List (Option Element)}

theorem hole (readable : Readable tokens elements) :
    Readable (tokens ++ [Token.sign ","]) (elements ++ [none]) := by
  cases readable with
  | elided count =>
      rw [← commas_succ, ← holes_succ]
      exact .elided (count + 1)
  | behind reads count =>
      rw [List.append_assoc, List.append_assoc _ (holes count), ← commas_succ, ← holes_succ]
      exact .behind reads (count + 1)

theorem ofElements {before : List (Option Element)} {element : Element}
    (reads : ReadsArray .elements tokens (before ++ [some element])) :
    Readable tokens (before ++ [some element]) := by
  simpa [commas, holes] using behind reads 0

theorem further (readable : Readable tokens elements) {added : List Token} {element : Element}
    (reads : ReadsArray .element added [some element]) :
    Readable (tokens ++ [Token.sign ","] ++ added) (elements ++ [some element]) := by
  cases readable with
  | elided count =>
      rw [← commas_succ]
      exact ofElements (.first (count + 1) reads)
  | @behind tokens before last readsBefore count =>
      have order : commas count ++ [Token.sign ","] = [Token.sign ","] ++ commas count :=
        (commas_succ count).symm
      rw [List.append_assoc tokens, order, ← List.append_assoc tokens]
      exact ofElements (.next count readsBefore reads)

/-- Between brackets, a hole at the end is lost. -/
theorem literal (readable : Readable tokens elements) :
    ReadsArray .literal ([Token.sign "["] ++ tokens ++ [Token.sign "]"])
      (withoutLastHole elements) := by
  cases readable with
  | elided count =>
      rw [holes_succ, withoutLastHole_hole]
      exact .elided count
  | @behind tokens before last reads count =>
      cases count with
      | zero =>
          have noHole : (before ++ [some last] ++ holes 0).getLast? ≠ some none := by
            simp [holes]
          rw [withoutLastHole_of_ne noHole]
          simpa [commas, holes] using ReadsArray.listed reads
      | succ count =>
          have order : commas (count + 1) = [Token.sign ","] ++ commas count := rfl
          rw [holes_succ, ← List.append_assoc _ (holes count), withoutLastHole_hole, order,
            ← List.append_assoc tokens]
          exact .trailing count reads

end Readable

theorem tokens_commaLayout (layouts : List Layout) :
    (commaLayout layouts).tokens = [.sign ","].intercalate (layouts.map Layout.tokens) := by
  unfold commaLayout
  induction layouts with
  | nil => rfl
  | cons first rest ih =>
      cases rest with
      | nil => simp
      | cons next rest =>
          rw [List.map_cons] at ih
          simp [List.intercalate_cons_cons, ih]

theorem intercalate_concat {Item : Type} (separator last : List Item) {lists : List (List Item)}
    (nonempty : lists ≠ []) :
    separator.intercalate (lists ++ [last]) = separator.intercalate lists ++ separator ++ last := by
  induction lists with
  | nil => exact absurd rfl nonempty
  | cons first rest ih =>
      cases rest with
      | nil => simp [List.intercalate_cons_cons]
      | cons next rest =>
          rw [List.cons_append, List.cons_append, List.intercalate_cons_cons,
            List.intercalate_cons_cons, ← List.cons_append, ih (List.cons_ne_nil _ _)]
          simp only [List.append_assoc]

/-- The layout of elements with commas between them is read as these elements. -/
theorem readable_layouts {elements : List (Option Element)} (nonempty : elements ≠ [])
    (reads : ∀ element, some element ∈ elements →
      ReadsArray .element element.layout.tokens [some element.kept]) :
    Readable (commaLayout (layouts elements)).tokens (keptElements elements) := by
  rw [layouts_eq_map, keptElements_eq_map, tokens_commaLayout]
  induction elements using List.reverseRecOn with
  | nil => exact absurd rfl nonempty
  | append_singleton before last ih =>
      by_cases first : before = []
      · subst first
        cases last with
        | none => exact .elided 0
        | some element =>
            have single := ReadsArray.first 0 (reads element (List.mem_singleton_self _))
            simpa [holeLayout, commas, holes] using @Readable.ofElements _ [] _ single
      · have readsBefore := ih first fun element place =>
          reads element (List.mem_append_left _ place)
        have nonempty : (before.map holeLayout).map Layout.tokens ≠ [] := by simpa using first
        simp only [List.map_append, List.map_cons, List.map_nil]
        rw [intercalate_concat _ _ nonempty]
        cases last with
        | none => simpa [holeLayout] using readsBefore.hole
        | some element =>
            exact readsBefore.further (reads element (List.mem_append_right _ (by simp)))

/-- The layout of an element is read as what is kept of it. -/
theorem reads_layout (element : Element) :
    ReadsArray .element element.layout.tokens [some element.kept] := by
  induction element using Element.induction with
  | name plain => exact .name plain
  | array elements ih =>
      refine .nested ?_
      simp only [layout, Layout.tokens_append, Layout.tokens_token, Layout.tokens_nil]
      by_cases nonempty : elements = []
      · subst nonempty
        exact .elided 0
      · exact (readable_layouts nonempty ih).literal

/-- The layout of an array literal is read as what is kept of it, and as nothing else. -/
theorem reads_layout_iff (elements reading : List (Option Element)) :
    ReadsArray .literal (array elements).layout.tokens reading ↔
      array reading = (array elements).kept := by
  have reads := (array elements).reads_layout
  rw [kept] at reads ⊢
  rw [Element.array.injEq]
  cases reads with
  | nested reads =>
      constructor
      · intro otherwise
        exact otherwise.unique reads
      · rintro rfl
        exact reads

theorem characters_commaLayout (layouts : List Layout) :
    (commaLayout layouts).characters =
      [',', ' '].intercalate (layouts.map Layout.characters) := by
  unfold commaLayout
  induction layouts with
  | nil => rfl
  | cons first rest ih =>
      cases rest with
      | nil => simp
      | cons next rest =>
          rw [List.map_cons] at ih
          simp [List.intercalate_cons_cons, ih, Piece.characters, Token.text]

theorem separate_commaLayout {layouts : List Layout}
    (each : ∀ layout ∈ layouts, Expression.Separate layout) :
    Expression.Separate (commaLayout layouts) := by
  unfold commaLayout
  induction layouts with
  | nil => exact fun _ _ => trivial
  | cons first rest ih =>
      have separateFirst := each first (List.mem_cons_self ..)
      have separateRest := ih fun layout place => each layout (List.mem_cons_of_mem _ place)
      cases rest with
      | nil => rwa [List.intercalate_singleton]
      | cons next rest =>
          intro following closes
          rw [List.intercalate_cons_cons, Layout.separateBefore_append,
            Layout.separateBefore_append]
          exact ⟨⟨separateFirst _ (closes_cons (by decide) _),
            Piece.endsBefore_sign (by decide) _, trivial, trivial⟩, separateRest following closes⟩

/-- Nothing in the layout of an element runs into what stands behind it. -/
theorem separate_layout (element : Element) : Expression.Separate element.layout := by
  induction element using Element.induction with
  | name plain =>
      intro rest closes
      rw [layout]
      exact ⟨Piece.endsBefore_word_of_closes plain closes, trivial⟩
  | array elements ih =>
      have inside : Expression.Separate (commaLayout (layouts elements)) := by
        rw [layouts_eq_map]
        refine separate_commaLayout fun layout place => ?_
        obtain ⟨element, member, rfl⟩ := List.mem_map.mp place
        cases element with
        | none => exact fun _ _ => trivial
        | some element => exact ih element member
      intro rest closes
      rw [layout]
      simp only [Layout.separateBefore_append, Layout.separateBefore_cons,
        Layout.separateBefore_nil, and_true]
      exact ⟨⟨Piece.endsBefore_sign (by decide) _, inside _ (closes_cons (by decide) _)⟩,
        Piece.endsBefore_sign (by decide) _⟩

end Element

/-! ## Printed array literals -/

/-- What a part of an array literal stands for: an element, or one that is left out. -/
def elementOrHole? : Option (Folded (Option Element)) → Option (Option Element)
  | none => some none
  | some part => part.result.map some

/-- The element that a shape stands for, given those of its parts, under options that may rename
it. -/
def Shape.element? (options : Options) : Shape (Folded (Option Element)) → Option Element
  | .identifier name none false =>
      if isPlain : isPlainWord (options.renameIdentifier name) = true then
        some (.name ⟨options.renameIdentifier name, isPlain⟩)
      else none
  | .arrayLiteral elements =>
      (elements.mapM elementOrHole?).map .array
  | _ => none

/-- The name or array literal that a tree stands for, if all names in it are words. -/
def Node.element? (options : Options) : Node → Option Element :=
  fold fun _ shape => shape.element? options

theorem Node.element?_eq (options : Options) (location : Location) (shape : Shape Node) :
    Node.element? options ⟨location, shape⟩ =
      (shape.map fun part => ⟨part, part.element? options⟩).element? options := by
  unfold Node.element?
  rw [Node.fold_eq]

namespace Printer

variable {settings : Settings}

/-- A part is printed as the layout of an element, and never in parentheses. -/
structure PrintsElement (settings : Settings) (part : Part) (element : Element) : Prop where
  rank : rankOf part = pure Precedence.primary
  prints : ∀ role ∈ [Role.plain, .ranked],
    Yields settings (part.printAs role) () element.layout.characters

theorem PrintsElement.listItem {part : Part} {element : Element}
    (printsElement : PrintsElement settings part element) :
    Yields settings (listItem part) () element.layout.characters := by
  have bare := (printsElement.prints .ranked (by simp)).enclosedIf
    (Operand.needsParens .tight Precedence.primary Precedence.comma) "(" ")"
  unfold Printer.listItem operand
  rw [printsElement.rank, pure_bind]
  exact bare

/-- Outside of classes a name is renamed and nothing else. -/
theorem yields_identifier (source : String) {role : Role} (place : role ∈ [Role.plain, .ranked]) :
    Yields settings (identifier role source none false) ()
      (settings.options.renameIdentifier source).toList := by
  have named : Yields settings (name role source) ()
      (settings.options.renameIdentifier source).toList := by
    intro state isPlain fits
    refine ⟨{ state with
      text := state.text.write (settings.options.renameIdentifier source) }, isPlain.keeps _,
      IndentedText.continues_write isPlain.coherent fits, ?_⟩
    have noReceiver : state.scopes.qualifier settings.index
        (settings.options.renameIdentifier source) = none := by
      simp only [ScopeStack.qualifier, Scope.qualifier, isPlain.outside]
    have bare : role.isBare := by
      simp only [List.mem_cons, List.not_mem_nil, or_false] at place
      rcases place with rfl | rfl <;> rfl
    rw [outcome_name bare, noReceiver]
    rfl
  have all : Yields settings (identifier role source none false) () _ :=
    named.andThen ((yields_pure ()).andThen (yields_pure ()))
  simpa using all

/-- Items are printed with commas between them. -/
theorem yields_commas {Item : Type} {print : Item → Printer Unit} {items : List Item}
    {texts : List (List Char)}
    (each : List.Forall₂ (fun item text => Yields settings (print item) () text) items texts) :
    Yields settings (separated print items) () ([',', ' '].intercalate texts) := by
  induction each with
  | nil => exact yields_pure ()
  | cons first others ih =>
      cases others with
      | nil =>
          rw [List.intercalate_singleton]
          exact first
      | cons second others =>
          rw [List.intercalate_cons_cons, List.append_assoc]
          exact first.andThen ((yields_write ", ").andThen ih)

theorem printsElement_name (plain : PlainName) (location : Location) {source : String}
    (renamed : settings.options.renameIdentifier source = plain.text) :
    PrintsElement settings (assembled location (.identifier source none false)) (.name plain) where
  rank := rfl
  prints := by
    intro role place
    have layout : (Element.name plain).layout.characters = plain.text.toList := by
      simp only [Element.layout, Layout.characters_cons, Layout.characters_nil, List.append_nil]
      rfl
    rw [layout, ← renamed]
    exact yields_identifier source place

theorem printsElement_array {parts : List (Option Part)} {elements : List (Option Element)}
    (each : List.Forall₂ (Option.Rel (PrintsElement settings)) parts elements)
    (location : Location) :
    PrintsElement settings (assembled location (.arrayLiteral parts)) (.array elements) where
  rank := rfl
  prints := by
    intro role _
    have items : List.Forall₂
        (fun part text => Yields settings (whenPresent part listItem) () text) parts
        ((Element.layouts elements).map Layout.characters) := by
      rw [Element.layouts_eq_map, List.map_map, List.forall₂_map_right_iff]
      refine each.imp fun part element same => ?_
      cases same with
      | none => exact yields_pure ()
      | some printsElement => exact printsElement.listItem
    have printed : Yields settings (arrayLiteral parts) () _ :=
      (yields_write "[").andThen ((yields_commas items).andThen (yields_write "]"))
    rw [← Element.characters_commaLayout] at printed
    simp only [Element.layout, Layout.characters_append, Layout.characters_cons,
      Layout.characters_nil, List.append_nil, List.append_assoc]
    exact printed

end Printer

/-- A tree is printed as the layout of the element that it stands for. -/
theorem Node.printsElement {settings : Settings} (node : Node) :
    ∀ element, node.element? settings.options = some element →
      Printer.PrintsElement settings ⟨node, node.printAs⟩ element := by
  refine Node.induction (motive := fun node => ∀ element,
    node.element? settings.options = some element →
      Printer.PrintsElement settings ⟨node, node.printAs⟩ element) ?_ node
  intro location shape element stands
  rw [Node.element?_eq, Shape.map_map] at stands
  rw [← Printer.assembled_eq, Shape.map_map]
  cases shape with
  | identifier source type optional =>
      cases type with
      | some type => cases stands
      | none =>
          cases optional with
          | true => cases stands
          | false =>
              simp only [Shape.map, Option.map_none, Shape.element?] at stands
              split at stands
              · next isPlain =>
                  cases stands
                  exact Printer.printsElement_name ⟨_, isPlain⟩ location rfl
              · cases stands
  | arrayLiteral parts =>
      simp only [Shape.map, Shape.element?, Option.map_eq_some_iff] at stands
      obtain ⟨elements, all, rfl⟩ := stands
      refine Printer.printsElement_array ?_ location
      have results := forall₂_of_mapM all
      rw [List.forall₂_map_left_iff] at results ⊢
      refine results.imp fun part element stands => ?_
      cases part with
      | none =>
          cases stands
          exact .none
      | some part =>
          obtain ⟨element, isElement, rfl⟩ := Option.map_eq_some_iff.mp stands
          exact .some (part.2 element isElement)
  | _ => cases stands

/-- A tree that is printed as a layout is generated as that, and its text is split into the tokens
of the layout. -/
theorem Settings.generate_layout {settings : Settings} {tree : Node} {layout : Layout}
    (yields : Printer.Yields settings (tree.printAs .plain) () layout.characters)
    (separate : Expression.Separate layout) :
    ∃ generated : Generated, settings.generate tree = .ok generated ∧
      generated.diagnostics = [] ∧ tokenize? generated.text.toList = some layout.tokens := by
  obtain ⟨next, keeps, continues, ends⟩ := yields {} ⟨.inl rfl, rfl⟩ (.inl rfl)
  have written : next.text.characters = layout.characters := by
    rw [IndentedText.characters, continues.reversed, List.reverse_append, List.reverse_reverse]
    rfl
  refine ⟨⟨next.text.toString, []⟩, ?_, rfl, ?_⟩
  · rw [generate_of_ends ends, keeps.types, keeps.diagnostics]
    rfl
  · have tokens := Layout.tokenize?_characters (separate [] closes_nil)
    rw [List.append_nil, tokenize?, Option.map_some, List.append_nil] at tokens
    rw [IndentedText.toString, String.toList_ofList, written]
    exact tokens

/-- An array literal is generated without any diagnostics, and its text is read as its elements
without the last hole of each literal, and as nothing else.  So the elements are read back exactly
if no literal ends with a hole. -/
theorem Settings.generate_array (settings : Settings) (tree : Node)
    (elements : List (Option Element))
    (stands : tree.element? settings.options = some (.array elements)) :
    ∃ (generated : Generated) (tokens : List Token),
      settings.generate tree = .ok generated ∧ generated.diagnostics = [] ∧
      tokenize? generated.text.toList = some tokens ∧
      (∀ reading, ReadsArray .literal tokens reading ↔
        Element.array reading = (Element.array elements).kept) ∧
      (ReadsArray .literal tokens elements ↔
        ∀ literal ∈ (Element.array elements).literals, literal.getLast? ≠ some none) := by
  have printsElement := tree.printsElement (.array elements) stands
  obtain ⟨generated, ends, noDiagnostics, tokens⟩ :=
    generate_layout (printsElement.prints .plain (by simp)) (Element.array elements).separate_layout
  refine ⟨generated, _, ends, noDiagnostics, tokens, Element.reads_layout_iff elements, ?_⟩
  rw [Element.reads_layout_iff, eq_comm, Element.kept_eq_iff]

/-- Holes at the start, in the middle and in a row are read back. -/
theorem Settings.generate_array_holes :
    let a : Element := .name ⟨"a", by decide⟩
    let tree : Node := ⟨{}, .arrayLiteral [none, some ⟨{}, .identifier "a" none false⟩, none, none,
      some ⟨{}, .arrayLiteral [none, some ⟨{}, .identifier "a" none false⟩]⟩]⟩
    let elements := [none, some a, none, none, some (.array [none, some a])]
    ∃ (generated : Generated) (tokens : List Token),
      Settings.generate {} tree = .ok generated ∧
      tokenize? generated.text.toList = some tokens ∧ ReadsArray .literal tokens elements := by
  intro a tree elements
  obtain ⟨generated, tokens, ends, -, read, -, same⟩ :=
    generate_array {} tree elements (by rfl)
  refine ⟨generated, tokens, ends, read, same.mpr ?_⟩
  simp [elements, a, Element.literals, Element.literalsIn, Element.literalsOf]

/-- A hole at the end is lost. -/
theorem Settings.generate_array_lastHole :
    let a : Element := .name ⟨"a", by decide⟩
    let tree : Node := ⟨{}, .arrayLiteral [some ⟨{}, .identifier "a" none false⟩, none]⟩
    tree.element? {} = some (.array [some a, none]) ∧
      Settings.generate {} tree = .ok ⟨"[a, ]", []⟩ ∧
      ∃ tokens, tokenize? "[a, ]".toList = some tokens ∧ ReadsArray .literal tokens [some a] ∧
        ¬ ReadsArray .literal tokens [some a, none] := by
  intro a tree
  have reads : ReadsArray .literal (Element.array [some a, none]).layout.tokens [some a] :=
    .trailing 0 (.first 0 (.name _))
  have separate := (Element.array [some a, none]).separate_layout [] closes_nil
  have tokens := Layout.tokenize?_characters separate
  rw [tokenize?, Option.map_some, List.append_nil, List.append_nil] at tokens
  refine ⟨by rfl, by rfl, _, tokens, reads, fun other => ?_⟩
  exact absurd (reads.unique other) (by simp)

end ScriptBridge

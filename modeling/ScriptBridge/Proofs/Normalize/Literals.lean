import ScriptBridge.Proofs.Pattern.Retouching

/-!
# Literals between quotes

A text is read as stretches between double quotes, every other one of which is a literal.
The retouches of a text tell what becomes of each literal: it stays, it is edited, it
disappears, or it is added.
-/

namespace ScriptBridge

namespace Normalize

/-- The literals of a text; where it starts in a literal, the text of that one so far is
given.  A literal that is not closed is none. -/
def literalsFrom : Option (List Char) → List Char → List (List Char)
  | _, [] => []
  | none, character :: rest =>
      literalsFrom (if character = '"' then some [] else none) rest
  | some literal, character :: rest =>
      if character = '"' then literal :: literalsFrom none rest
      else literalsFrom (some (literal ++ [character])) rest

/-- The double-quoted literals of a text. -/
def literals (text : List Char) : List (List Char) :=
  literalsFrom none text

/-- The literal that is open behind a text. -/
def openedBy : Option (List Char) → List Char → Option (List Char)
  | opened, [] => opened
  | none, character :: rest => openedBy (if character = '"' then some [] else none) rest
  | some literal, character :: rest =>
      openedBy (if character = '"' then none else some (literal ++ [character])) rest

/-- Every literal of a text is closed on its line. -/
def ClosesLiterals (text : List Char) : Prop :=
  openedBy none text = none ∧ ∀ literal ∈ literals text, '\n' ∉ literal

instance (text : List Char) : Decidable (ClosesLiterals text) :=
  inferInstanceAs (Decidable (_ ∧ ∀ literal ∈ literals text, '\n' ∉ literal))

/-! ## Stretches without quotes -/

section Stretches

variable {stretch : List Char} (plain : '"' ∉ stretch) (rest : List Char)

include plain

theorem literalsFrom_outside :
    literalsFrom none (stretch ++ rest) = literalsFrom none rest := by
  induction stretch with
  | nil => rfl
  | cons character stretch ih =>
      simp only [List.mem_cons, not_or] at plain
      rw [List.cons_append, literalsFrom, if_neg (Ne.symm plain.1), ih plain.2]

theorem openedBy_outside : openedBy none (stretch ++ rest) = openedBy none rest := by
  induction stretch with
  | nil => rfl
  | cons character stretch ih =>
      simp only [List.mem_cons, not_or] at plain
      rw [List.cons_append, openedBy, if_neg (Ne.symm plain.1), ih plain.2]

theorem literalsFrom_inside (literal : List Char) :
    literalsFrom (some literal) (stretch ++ rest) =
      literalsFrom (some (literal ++ stretch)) rest := by
  induction stretch generalizing literal with
  | nil => simp
  | cons character stretch ih =>
      simp only [List.mem_cons, not_or] at plain
      rw [List.cons_append, literalsFrom, if_neg (Ne.symm plain.1), ih plain.2,
        List.append_assoc]
      rfl

theorem openedBy_inside (literal : List Char) :
    openedBy (some literal) (stretch ++ rest) = openedBy (some (literal ++ stretch)) rest := by
  induction stretch generalizing literal with
  | nil => simp
  | cons character stretch ih =>
      simp only [List.mem_cons, not_or] at plain
      rw [List.cons_append, openedBy, if_neg (Ne.symm plain.1), ih plain.2,
        List.append_assoc]
      rfl

end Stretches

/-- An open literal that is closed is the first one. -/
theorem exists_of_closes {literal text : List Char} (closes : openedBy (some literal) text = none) :
    ∃ tail rest, text = tail ++ '"' :: rest ∧
      literalsFrom (some literal) text = (literal ++ tail) :: literalsFrom none rest := by
  induction text generalizing literal with
  | nil => simp [openedBy] at closes
  | cons character text ih =>
      rw [openedBy] at closes
      split at closes
      · rename_i isQuote
        subst isQuote
        exact ⟨[], text, rfl, by simp [literalsFrom]⟩
      · rename_i notQuote
        obtain ⟨tail, rest, rfl, literalsEq⟩ := ih closes
        refine ⟨character :: tail, rest, rfl, ?_⟩
        rw [literalsFrom, if_neg notQuote, literalsEq, List.append_assoc]
        rfl

/-! ## Texts behind one another -/

theorem literalsFrom_append (opened : Option (List Char)) (first second : List Char) :
    literalsFrom opened (first ++ second) =
      literalsFrom opened first ++ literalsFrom (openedBy opened first) second := by
  induction first generalizing opened with
  | nil => cases opened <;> rfl
  | cons character first ih =>
      cases opened with
      | none => exact ih _
      | some literal =>
          simp only [List.cons_append, literalsFrom, openedBy]
          split
          · rw [ih, List.cons_append]
          · exact ih _

theorem openedBy_append (opened : Option (List Char)) (first second : List Char) :
    openedBy opened (first ++ second) = openedBy (openedBy opened first) second := by
  induction first generalizing opened with
  | nil => rfl
  | cons character first ih => cases opened <;> exact ih _

/-- A text without quotes closes its literals, as it has none. -/
theorem closesLiterals_of_not_mem {stretch : List Char} (plain : '"' ∉ stretch) :
    ClosesLiterals stretch := by
  have none := literalsFrom_outside plain []
  have outside := openedBy_outside plain []
  rw [List.append_nil] at none outside
  exact ⟨outside, by rw [literals, none]; nofun⟩

/-- The character before a place in a literal is the last one of the literal so far, or the
quote that opened it. -/
def StandsBehind (previous : Option Char) (opened : Option (List Char)) : Prop :=
  ∀ literal, opened = some literal → previous = literal.getLast?.or (some '"')

theorem standsBehind_none (previous : Option Char) : StandsBehind previous none := nofun

/-- The literal that is open behind one more character. -/
def openedNext (opened : Option (List Char)) (character : Char) : Option (List Char) :=
  openedBy opened [character]

theorem openedBy_cons (opened : Option (List Char)) (character : Char) (rest : List Char) :
    openedBy opened (character :: rest) = openedBy (openedNext opened character) rest :=
  openedBy_append opened [character] rest

theorem literalsFrom_cons (opened : Option (List Char)) (character : Char) (rest : List Char) :
    literalsFrom opened (character :: rest) =
      literalsFrom opened [character] ++ literalsFrom (openedNext opened character) rest :=
  literalsFrom_append opened [character] rest

theorem standsBehind_next (opened : Option (List Char)) (character : Char) :
    StandsBehind (some character) (openedNext opened character) := by
  intro literal isOpen
  cases opened with
  | none =>
      simp only [openedNext, openedBy] at isOpen
      split at isOpen
      · rename_i isQuote
        obtain rfl : [] = literal := Option.some.inj isOpen
        rw [isQuote]
        rfl
      · simp at isOpen
  | some before =>
      simp only [openedNext, openedBy] at isOpen
      split at isOpen
      · simp at isOpen
      · obtain rfl : before ++ [character] = literal := Option.some.inj isOpen
        simp

/-- Where a line starts, no literal is open. -/
theorem opened_eq_none_of_lineStart {previous : Option Char}
    (atStart : previous.all (· == '\n') = true) {opened : Option (List Char)}
    (behind : StandsBehind previous opened) {text : List Char}
    (closes : openedBy opened text = none)
    (onLines : ∀ literal ∈ literalsFrom opened text, '\n' ∉ literal) : opened = none := by
  cases opened with
  | none => rfl
  | some literal =>
      exfalso
      obtain ⟨tail, rest, -, literalsEq⟩ := exists_of_closes closes
      rw [literalsEq] at onLines
      have noLineFeed := onLines _ List.mem_cons_self
      rw [behind literal rfl] at atStart
      cases last : literal.getLast? with
      | none =>
          rw [last] at atStart
          exact absurd atStart (by decide)
      | some character =>
          have isLineFeed : character = '\n' := by simpa [last] using atStart
          rw [isLineFeed] at last
          exact noLineFeed (List.mem_append_left _ (List.mem_of_getLast? last))

/-- A stretch up to the end of a line closes its literals. -/
theorem closesLiterals_of_lineEnd {line rest : List Char}
    (atEnd : rest.head?.all (· == '\n') = true) (closes : openedBy none (line ++ rest) = none)
    (onLines : ∀ literal ∈ literalsFrom none (line ++ rest), '\n' ∉ literal) :
    ClosesLiterals line := by
  rw [openedBy_append] at closes
  rw [literalsFrom_append] at onLines
  refine ⟨?_, fun literal isLiteral => onLines literal (List.mem_append_left _ isLiteral)⟩
  cases isOpen : openedBy none line with
  | none => rfl
  | some literal =>
      exfalso
      rw [isOpen] at closes onLines
      obtain ⟨tail, behind, rfl, literalsEq⟩ := exists_of_closes closes
      cases tail with
      | nil => exact absurd (show ('"' == '\n') = true from atEnd) (by decide)
      | cons character tail =>
          have isLineFeed : character = '\n' := by simpa using atEnd
          refine onLines (literal ++ character :: tail) ?_ (by simp [isLineFeed])
          exact List.mem_append_right _ (literalsEq ▸ List.mem_cons_self)

/-! ## What becomes of literals -/

/-- What becomes of a literal, or of a place where there was none. -/
inductive Fate where
  | stays (literal : List Char)
  | edited (old new : List Char)
  | dropped (literal : List Char)
  | added (literal : List Char)
  deriving DecidableEq, Repr

namespace Fate

/-- The literal before. -/
def old? : Fate → Option (List Char)
  | stays literal | dropped literal => some literal
  | edited old _ => some old
  | added _ => none

/-- The literal after. -/
def new? : Fate → Option (List Char)
  | stays literal | added literal => some literal
  | edited _ new => some new
  | dropped _ => none

end Fate

/-- A literal that is open, as far as it has been gone over: untouched, or with what was
found and what is left. -/
inductive OpenLiteral where
  | untouched (literal : List Char)
  | touched (old new : List Char)

namespace OpenLiteral

/-- What was found of a literal. -/
def old : OpenLiteral → List Char
  | untouched literal => literal
  | touched old _ => old

/-- What is left of a literal. -/
def new : OpenLiteral → List Char
  | untouched literal => literal
  | touched _ new => new

/-- One more character of a literal stays. -/
def keep (character : Char) : OpenLiteral → OpenLiteral
  | untouched literal => untouched (literal ++ [character])
  | touched old new => touched (old ++ [character]) (new ++ [character])

/-- One more stretch of a literal gives way to another. -/
def change (old new : List Char) (opened : OpenLiteral) : OpenLiteral :=
  touched (opened.old ++ old) (opened.new ++ new)

/-- What became of a literal that is closed. -/
def fate : OpenLiteral → Fate
  | untouched literal => .stays literal
  | touched old new => .edited old new

variable (opened : OpenLiteral) (character : Char)

@[simp] theorem old_untouched (literal : List Char) : (untouched literal).old = literal := rfl

@[simp] theorem new_untouched (literal : List Char) : (untouched literal).new = literal := rfl

@[simp] theorem old_keep : (opened.keep character).old = opened.old ++ [character] := by
  cases opened <;> rfl

@[simp] theorem new_keep : (opened.keep character).new = opened.new ++ [character] := by
  cases opened <;> rfl

@[simp] theorem old_change (old new : List Char) :
    (opened.change old new).old = opened.old ++ old := rfl

@[simp] theorem new_change (old new : List Char) :
    (opened.change old new).new = opened.new ++ new := rfl

@[simp] theorem old?_fate : opened.fate.old? = some opened.old := by
  cases opened <;> rfl

@[simp] theorem new?_fate : opened.fate.new? = some opened.new := by
  cases opened <;> rfl

end OpenLiteral

/-- The literal that is open behind a character that stays. -/
def openBehind : Option OpenLiteral → Char → Option OpenLiteral
  | none, character => if character = '"' then some (.untouched []) else none
  | some opened, character => if character = '"' then none else some (opened.keep character)

/-- The fate of the literal that a character closes. -/
def closedBy : Option OpenLiteral → Char → List Fate
  | none, _ => []
  | some opened, character => if character = '"' then [opened.fate] else []

/-- The fates of the literals that retouches go over.  A change within a literal edits it; of
a change outside, the literals before are dropped and those after are added. -/
def fatesFrom : Option OpenLiteral → List Retouch → List Fate
  | _, [] => []
  | opened, .keep character :: rest =>
      closedBy opened character ++ fatesFrom (openBehind opened character) rest
  | none, .change old new :: rest =>
      (literals old).map .dropped ++ (literals new).map .added ++ fatesFrom none rest
  | some opened, .change old new :: rest => fatesFrom (some (opened.change old new)) rest

section Keeping

variable (opened : Option OpenLiteral) (character : Char)

theorem map_old_openBehind :
    (openBehind opened character).map OpenLiteral.old =
      openedNext (opened.map OpenLiteral.old) character := by
  cases opened <;> by_cases isQuote : character = '"' <;>
    simp [openBehind, openedNext, openedBy, isQuote]

theorem map_new_openBehind :
    (openBehind opened character).map OpenLiteral.new =
      openedNext (opened.map OpenLiteral.new) character := by
  cases opened <;> by_cases isQuote : character = '"' <;>
    simp [openBehind, openedNext, openedBy, isQuote]

theorem old?_closedBy :
    (closedBy opened character).filterMap Fate.old? =
      literalsFrom (opened.map OpenLiteral.old) [character] := by
  cases opened <;> by_cases isQuote : character = '"' <;> simp [closedBy, literalsFrom, isQuote]

theorem new?_closedBy :
    (closedBy opened character).filterMap Fate.new? =
      literalsFrom (opened.map OpenLiteral.new) [character] := by
  cases opened <;> by_cases isQuote : character = '"' <;> simp [closedBy, literalsFrom, isQuote]

end Keeping

/-- Changes respect literals: within one they hold no quote and bring no line feed, outside
they close the literals that they hold. -/
def Respects : Option (List Char) → List Retouch → Prop
  | _, [] => True
  | opened, .keep character :: rest => Respects (openedNext opened character) rest
  | none, .change old new :: rest => ClosesLiterals old ∧ ClosesLiterals new ∧ Respects none rest
  | some literal, .change old new :: rest =>
      '"' ∉ old ∧ '"' ∉ new ∧ ('\n' ∈ new → '\n' ∈ old) ∧ Respects (some (literal ++ old)) rest

open Retouch (before after)

/-- A change that moves no quote and brings no line feed. -/
def IsInline : Retouch → Prop
  | .keep _ => True
  | .change old new => '"' ∉ old ∧ '"' ∉ new ∧ ('\n' ∈ new → '\n' ∈ old)

theorem respects_of_inline {retouches : List Retouch}
    (inline : ∀ retouch ∈ retouches, IsInline retouch) (opened : Option (List Char)) :
    Respects opened retouches := by
  induction retouches generalizing opened with
  | nil => trivial
  | cons retouch retouches ih =>
      obtain ⟨here, later⟩ := List.forall_mem_cons.mp inline
      cases retouch with
      | keep character => exact ih later _
      | change old new =>
          cases opened with
          | none =>
              exact ⟨closesLiterals_of_not_mem here.1, closesLiterals_of_not_mem here.2.1,
                ih later _⟩
          | some literal => exact ⟨here.1, here.2.1, here.2.2, ih later _⟩

/-- Changes that move no quote add no literal. -/
theorem not_added_of_inline {retouches : List Retouch}
    (inline : ∀ retouch ∈ retouches, IsInline retouch) (opened : Option OpenLiteral)
    (literal : List Char) : Fate.added literal ∉ fatesFrom opened retouches := by
  induction retouches generalizing opened with
  | nil => cases opened <;> nofun
  | cons retouch retouches ih =>
      obtain ⟨here, later⟩ := List.forall_mem_cons.mp inline
      cases retouch with
      | keep character =>
          have notHere : Fate.added literal ∉ closedBy opened character := by
            rcases opened with _ | _ | _ <;> simp [closedBy, OpenLiteral.fate]
          rw [fatesFrom, List.mem_append, not_or]
          exact ⟨notHere, ih later _⟩
      | change old new =>
          cases opened with
          | none =>
              have noOld := literalsFrom_outside here.1 []
              have noNew := literalsFrom_outside here.2.1 []
              rw [List.append_nil] at noOld noNew
              rw [fatesFrom, literals, literals, noOld, noNew]
              exact ih later _
          | some opened => exact ih later _

/-- An open literal has no line feed that was not found in it. -/
def BringsNoLine (opened : Option OpenLiteral) : Prop :=
  ∀ literal ∈ opened, '\n' ∈ literal.new → '\n' ∈ literal.old

theorem BringsNoLine.none : BringsNoLine none := nofun

theorem BringsNoLine.behind {opened : Option OpenLiteral} (noLine : BringsNoLine opened)
    (character : Char) : BringsNoLine (openBehind opened character) := by
  intro literal isOpen
  cases opened with
  | none =>
      simp only [openBehind] at isOpen
      split at isOpen
      · obtain rfl := Option.some.inj isOpen
        exact id
      · nomatch isOpen
  | some opened =>
      simp only [openBehind] at isOpen
      split at isOpen
      · nomatch isOpen
      · obtain rfl := Option.some.inj isOpen
        simpa using Or.imp_left (noLine opened rfl)

theorem BringsNoLine.change {opened : OpenLiteral} (noLine : BringsNoLine (some opened))
    {old new : List Char} (noLineFeed : '\n' ∈ new → '\n' ∈ old) :
    BringsNoLine (some (opened.change old new)) := by
  rintro _ ⟨⟩
  simpa using Or.imp (noLine opened rfl) noLineFeed

theorem BringsNoLine.closed {opened : Option OpenLiteral} (noLine : BringsNoLine opened)
    {character : Char}
    (onLines : ∀ literal ∈ literalsFrom (opened.map OpenLiteral.old) [character],
      '\n' ∉ literal) :
    ∀ literal ∈ literalsFrom (opened.map OpenLiteral.new) [character], '\n' ∉ literal := by
  cases opened with
  | none => exact onLines
  | some opened =>
      simp only [Option.map_some, literalsFrom] at onLines ⊢
      split
      · rename_i isQuote
        rw [if_pos isQuote, List.forall_mem_singleton] at onLines
        exact List.forall_mem_singleton.mpr fun isThere => onLines (noLine opened rfl isThere)
      · nofun

/-- The literals before and after retouches that respect them are those of the fates, and
stay closed on their lines. -/
theorem fates_spec {retouches : List Retouch} {opened : Option OpenLiteral}
    (respects : Respects (opened.map OpenLiteral.old) retouches)
    (closes : openedBy (opened.map OpenLiteral.old) (before retouches) = none)
    (onLines : ∀ literal ∈ literalsFrom (opened.map OpenLiteral.old) (before retouches),
      '\n' ∉ literal)
    (noLine : BringsNoLine opened) :
    (fatesFrom opened retouches).filterMap Fate.old? =
        literalsFrom (opened.map OpenLiteral.old) (before retouches) ∧
      (fatesFrom opened retouches).filterMap Fate.new? =
        literalsFrom (opened.map OpenLiteral.new) (after retouches) ∧
      openedBy (opened.map OpenLiteral.new) (after retouches) = none ∧
      ∀ literal ∈ literalsFrom (opened.map OpenLiteral.new) (after retouches),
        '\n' ∉ literal := by
  induction retouches generalizing opened with
  | nil =>
      cases opened with
      | none => exact ⟨rfl, rfl, rfl, nofun⟩
      | some opened => simp [openedBy] at closes
  | cons retouch retouches ih =>
      cases retouch with
      | keep character =>
          -- A character that stays closes the same literal before and after, if any.
          simp only [Retouch.before_cons, Retouch.after_cons, Retouch.old, Retouch.new,
            List.singleton_append] at closes onLines ⊢
          rw [openedBy_cons, ← map_old_openBehind] at closes
          rw [literalsFrom_cons, ← map_old_openBehind, List.forall_mem_append] at onLines
          rw [Respects, ← map_old_openBehind] at respects
          obtain ⟨oldsEq, newsEq, closed, stay⟩ :=
            ih respects closes onLines.2 (noLine.behind character)
          rw [map_new_openBehind] at newsEq closed stay
          rw [map_old_openBehind] at oldsEq
          rw [fatesFrom, List.filterMap_append, List.filterMap_append, old?_closedBy,
            new?_closedBy, oldsEq, newsEq, ← literalsFrom_cons, ← literalsFrom_cons, openedBy_cons]
          refine ⟨rfl, rfl, closed, ?_⟩
          rw [literalsFrom_cons, List.forall_mem_append]
          exact ⟨noLine.closed onLines.1, stay⟩
      | change old new =>
          cases opened with
          | none =>
              obtain ⟨⟨oldCloses, -⟩, ⟨newCloses, newStay⟩, respects⟩ := respects
              simp only [Retouch.before_cons, Retouch.after_cons, Retouch.old, Retouch.new,
                Option.map_none, openedBy_append, literalsFrom_append, oldCloses, newCloses,
                List.forall_mem_append] at closes onLines ⊢
              obtain ⟨oldsEq, newsEq, closed, stay⟩ := @ih none respects closes onLines.2 .none
              have olds := oldsEq
              have news := newsEq
              simp only [Option.map_none] at olds news
              simp only [fatesFrom, List.filterMap_append, List.filterMap_map, Function.comp_def,
                Fate.old?, Fate.new?, olds, news, List.filterMap_some, List.filterMap_none,
                List.append_nil, List.nil_append]
              exact ⟨rfl, rfl, closed, newStay, stay⟩
          | some opened =>
              obtain ⟨oldPlain, newPlain, noLineFeed, respects⟩ := respects
              simp only [Retouch.before_cons, Retouch.after_cons, Retouch.old, Retouch.new,
                Option.map_some, openedBy_inside oldPlain, openedBy_inside newPlain,
                literalsFrom_inside oldPlain, literalsFrom_inside newPlain] at closes onLines ⊢
              exact @ih (some (opened.change old new)) respects closes onLines
                (noLine.change noLineFeed)

end Normalize

end ScriptBridge

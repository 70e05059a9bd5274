import Mathlib.Data.List.Basic

/-!
# Tokens of expressions

Code is read as words and signs with blanks between them.  A word is as long as
possible, and so is a sign.  A text that was put together from pieces is split
into exactly these pieces again if no piece runs into the text behind it.
-/

namespace ScriptBridge

/-- A word or a sign of code. -/
inductive Token where
  | word (text : String)
  | sign (text : String)
  deriving DecidableEq, Repr

/-- How a token is written. -/
def Token.text : Token → String
  | .word text => text
  | .sign text => text

/-- Blank characters and line ends. -/
def isBlank (character : Char) : Bool :=
  [0x09, 0x0a, 0x0b, 0x0c, 0x0d, 0x20, 0xa0, 0x1680, 0x2028, 0x2029, 0x202f, 0x205f, 0x3000,
    0xfeff].contains character.toNat ||
    (0x2000 ≤ character.toNat && character.toNat ≤ 0x200a)

/-- The characters of words.  Beyond the basic alphabet every character that is
not blank counts as a letter. -/
def isWordCharacter (character : Char) : Bool :=
  !isBlank character &&
    (character.isAlphanum || character = '_' || character = '$' || 0x80 ≤ character.toNat)

/-- All signs, each behind those that it starts.  Two of them open comments,
which are no part of expressions. -/
def signs : List String :=
  [">>>=", "...", "===", "!==", "**=", "<<=", ">>=", ">>>", "&&=", "||=", "??=", "=>", "==",
    "!=", "<=", ">=", "&&", "||", "??", "?.", "++", "--", "+=", "-=", "*=", "/=", "%=", "&=",
    "|=", "^=", "<<", ">>", "**", "//", "/*",
    "(", ")", "[", "]", "\x7b", "\x7d", ".", ";", ",", "<", ">", "+", "-", "*", "/", "%", "&",
    "|", "^", "!", "~", "?", ":", "="]

/-- The longest sign at the start of a text. -/
def signAt? (characters : List Char) : Option String :=
  signs.find? fun sign => sign.toList.isPrefixOf characters

/-- Split a text into tokens. -/
def tokenize? : List Char → Option (List Token)
  | [] => some []
  | character :: rest =>
      if isBlank character then tokenize? rest
      else if isWordCharacter character then
        (tokenize? (rest.dropWhile isWordCharacter)).map
          (.word (String.ofList (character :: rest.takeWhile isWordCharacter)) :: ·)
      else
        match signAt? (character :: rest) with
        | none => none
        | some sign => (tokenize? (rest.drop (sign.length - 1))).map (.sign sign :: ·)
termination_by characters => characters.length
decreasing_by
  · simp
  · have := (List.dropWhile_sublist isWordCharacter (l := rest)).length_le
    simp only [List.length_cons]
    omega
  · simp only [List.length_drop, List.length_cons]
    omega

/-- The characters that make another sign out of a sign if they follow it. -/
def extensions (sign : String) : List Char :=
  signs.filterMap fun longer =>
    if sign.toList <+: longer.toList then (longer.toList.drop sign.length).head? else none

/-- No sign stands behind one that it starts with. -/
theorem signs_longestFirst :
    signs.Pairwise fun first second => ¬ first.toList <+: second.toList := by
  decide +kernel

/-- A sign is found at the start of a text if nothing extends it. -/
theorem signAt?_append {sign : String} (known : sign ∈ signs) {rest : List Char}
    (ends : ∀ next ∈ rest.head?, next ∉ extensions sign) :
    signAt? (sign.toList ++ rest) = some sign := by
  obtain ⟨before, behind, split⟩ := List.append_of_mem known
  have order := signs_longestFirst
  rw [split, List.pairwise_append] at order
  unfold signAt?
  rw [split, List.find?_append, Option.or_eq_some_iff]
  right
  constructor
  · rw [List.find?_eq_none]
    intro other place isStart
    have start : other.toList <+: sign.toList ++ rest := List.isPrefixOf_iff_prefix.mp isStart
    have notShorter : ¬ other.toList <+: sign.toList :=
      order.2.2 other place sign (List.mem_cons_self ..)
    -- A sign that is no start of the given one goes on behind it.
    rcases List.prefix_or_prefix_of_prefix start (List.prefix_append _ _) with shorter | longer
    · exact notShorter shorter
    · obtain ⟨tail, isTail⟩ := longer
      rw [← isTail, List.prefix_append_right_inj] at start
      cases tail with
      | nil =>
          rw [List.append_nil] at isTail
          exact notShorter (isTail ▸ List.prefix_rfl)
      | cons next tail =>
          obtain ⟨last, rfl⟩ := start
          refine ends next rfl ?_
          unfold extensions
          rw [List.mem_filterMap]
          refine ⟨other, ?_, ?_⟩
          · rw [split]
            exact List.mem_append_left _ place
          · rw [← isTail, if_pos (List.prefix_append _ _), ← String.length_toList,
              List.drop_left]
            rfl
  · rw [List.find?_cons_of_pos]
    exact List.isPrefixOf_iff_prefix.mpr (List.prefix_append _ _)

/-- Blanks are passed over. -/
theorem tokenize?_blank (rest : List Char) : tokenize? (' ' :: rest) = tokenize? rest := by
  rw [tokenize?, if_pos (by decide)]

theorem isBlank_of_isWordCharacter {character : Char}
    (isWord : isWordCharacter character = true) : isBlank character = false := by
  unfold isWordCharacter at isWord
  simp only [Bool.and_eq_true, Bool.not_eq_true'] at isWord
  exact isWord.1

/-- A word ends where no further character of a word follows. -/
theorem tokenize?_word {word : String} (nonempty : word.toList ≠ [])
    (isWord : ∀ character ∈ word.toList, isWordCharacter character = true) {rest : List Char}
    (ends : ∀ next ∈ rest.head?, isWordCharacter next = false) :
    tokenize? (word.toList ++ rest) = (tokenize? rest).map (.word word :: ·) := by
  have noMore : rest.takeWhile isWordCharacter = [] ∧ rest.dropWhile isWordCharacter = rest := by
    cases rest with
    | nil => exact ⟨rfl, rfl⟩
    | cons next rest => simp [ends next rfl]
  cases split : word.toList with
  | nil => exact absurd split nonempty
  | cons first others =>
      rw [split] at isWord
      have firstIsWord := isWord first (List.mem_cons_self ..)
      have othersAreWord : ∀ other ∈ others, isWordCharacter other = true :=
        fun other place => isWord other (List.mem_cons_of_mem _ place)
      rw [List.cons_append, tokenize?, if_neg (by simp [isBlank_of_isWordCharacter firstIsWord]),
        if_pos firstIsWord, List.takeWhile_append_of_pos othersAreWord,
        List.dropWhile_append_of_pos othersAreWord, noMore.1, noMore.2, List.append_nil, ← split,
        String.ofList_toList]

/-- No sign starts like a blank or a word. -/
theorem signs_apart : (signs.all fun sign => sign.toList.head?.all fun first =>
    !isBlank first && !isWordCharacter first) = true := by
  decide

/-- A sign ends where nothing extends it. -/
theorem tokenize?_sign {sign : String} (known : sign ∈ signs) {rest : List Char}
    (ends : ∀ next ∈ rest.head?, next ∉ extensions sign) :
    tokenize? (sign.toList ++ rest) = (tokenize? rest).map (.sign sign :: ·) := by
  have found := signAt?_append known ends
  cases split : sign.toList with
  | nil =>
      have nonempty : ∀ sign ∈ signs, sign.toList ≠ [] := by decide
      exact absurd split (nonempty sign known)
  | cons first others =>
      have apart := List.all_eq_true.mp signs_apart sign known
      rw [split] at apart
      simp only [List.head?_cons, Option.all_some, Bool.and_eq_true, Bool.not_eq_true'] at apart
      have size : sign.length - 1 = others.length := by
        rw [← String.length_toList, split, List.length_cons, Nat.add_sub_cancel]
      rw [split] at found
      rw [List.cons_append] at found ⊢
      rw [tokenize?, if_neg (by simp [apart.1]), if_neg (by simp [apart.2]), found]
      dsimp only
      rw [size, List.drop_left]

/-- A piece of written code: a token, or a blank between two tokens. -/
inductive Piece where
  | token (content : Token)
  | blank
  deriving DecidableEq, Repr

namespace Piece

/-- A word as a piece of code. -/
abbrev word (text : String) : Piece := .token (.word text)

/-- A sign as a piece of code. -/
abbrev sign (text : String) : Piece := .token (.sign text)

/-- How a piece is written. -/
def characters : Piece → List Char
  | .token content => content.text.toList
  | .blank => [' ']

/-- The token of a piece that is not blank. -/
def token? : Piece → Option Token
  | .token content => some content
  | .blank => none

/-- A piece does not run into the text behind it. -/
def EndsBefore (rest : List Char) : Piece → Prop
  | .token (.word text) =>
      text.toList ≠ [] ∧ (∀ character ∈ text.toList, isWordCharacter character = true) ∧
        ∀ next ∈ rest.head?, isWordCharacter next = false
  | .token (.sign text) => text ∈ signs ∧ ∀ next ∈ rest.head?, next ∉ extensions text
  | .blank => True

end Piece

/-- Written code as a list of pieces. -/
abbrev Layout := List Piece

namespace Layout

/-- How a layout is written. -/
def characters (layout : Layout) : List Char :=
  layout.flatMap Piece.characters

/-- The tokens of a layout. -/
def tokens (layout : Layout) : List Token :=
  layout.filterMap Piece.token?

/-- No piece runs into what stands behind it. -/
def SeparateBefore (rest : List Char) : Layout → Prop
  | [] => True
  | piece :: layout =>
      piece.EndsBefore (characters layout ++ rest) ∧ SeparateBefore rest layout

@[simp]
theorem characters_nil : characters [] = [] := rfl

@[simp]
theorem characters_cons (piece : Piece) (layout : Layout) :
    characters (piece :: layout) = piece.characters ++ characters layout :=
  rfl

@[simp]
theorem characters_append (first second : Layout) :
    characters (first ++ second) = characters first ++ characters second := by
  simp [characters]

@[simp]
theorem tokens_nil : tokens [] = [] := rfl

@[simp]
theorem tokens_token (token : Token) (layout : Layout) :
    tokens (.token token :: layout) = token :: tokens layout :=
  rfl

@[simp]
theorem tokens_blank (layout : Layout) : tokens (.blank :: layout) = tokens layout :=
  rfl

@[simp]
theorem tokens_append (first second : Layout) :
    tokens (first ++ second) = tokens first ++ tokens second := by
  simp [tokens]

@[simp]
theorem separateBefore_nil (rest : List Char) : SeparateBefore rest [] :=
  trivial

@[simp]
theorem separateBefore_cons (rest : List Char) (piece : Piece) (layout : Layout) :
    SeparateBefore rest (piece :: layout) ↔
      piece.EndsBefore (characters layout ++ rest) ∧ SeparateBefore rest layout :=
  Iff.rfl

@[simp]
theorem separateBefore_append (rest : List Char) (first second : Layout) :
    SeparateBefore rest (first ++ second) ↔
      SeparateBefore (characters second ++ rest) first ∧ SeparateBefore rest second := by
  induction first with
  | nil => simp
  | cons piece first ih => simp [ih, and_assoc]

/-- Separate pieces are read back as they are. -/
theorem tokenize?_characters {layout : Layout} {rest : List Char}
    (separate : SeparateBefore rest layout) :
    tokenize? (layout.characters ++ rest) = (tokenize? rest).map (layout.tokens ++ ·) := by
  induction layout with
  | nil => simp
  | cons piece layout ih =>
      have remaining := ih separate.2
      rw [characters_cons, List.append_assoc]
      cases piece with
      | blank => exact (tokenize?_blank _).trans remaining
      | token token =>
          cases token with
          | word text =>
              obtain ⟨nonempty, isWord, ends⟩ := separate.1
              refine (tokenize?_word nonempty isWord ends).trans ?_
              rw [remaining, Option.map_map]
              rfl
          | sign text =>
              obtain ⟨known, ends⟩ := separate.1
              refine (tokenize?_sign known ends).trans ?_
              rw [remaining, Option.map_map]
              rfl

end Layout

end ScriptBridge

import ScriptBridge.Normalize.Declarations
import ScriptBridge.Proofs.Normalize.Heads

/-!
# Class skeletons

A skeleton is a class file without code: a package with imports and one class, whose
fields are not set and whose functions are empty.  It is printed line by line, in the
source language or in the target language.  Its text is also cut into pieces, so that
the words in it are known.
-/

namespace ScriptBridge

namespace Normalize

/-- The words that the rules look for. -/
def lookedFor : List (List Char) :=
  HeadWord.texts HeadWord.sourceWords ++
    ["package", "import", "if", "for", "new", "Vector"].map String.toList

/-- A word that no rule looks for. -/
structure Identifier where
  text : List Char
  isSome : text ≠ [] := by decide
  isWord : text.all Text.isWord = true := by decide
  isFree : text ∉ lookedFor := by decide

/-- The name of every constructor in the target language. -/
def constructorName : Identifier where
  text := "constructor".toList

inductive Language where
  | source
  | target
  deriving DecidableEq

/-- Names with separators between them. -/
structure DottedName where
  qualifier : List Identifier
  last : Identifier

/-- A type: a name, or vectors of a type. -/
inductive TypeName where
  | named (name : DottedName)
  | vector (element : TypeName)

structure Parameter where
  name : Identifier
  type? : Option TypeName

inductive Access where
  | isPublic
  | isProtected
  | isPrivate

structure Field where
  access : Access
  isStatic : Bool
  isConstant : Bool
  name : Identifier
  type : TypeName

/-- Where the word `override` stands. -/
inductive OverridePlace where
  | beforeAccess
  | behindAccess
  deriving DecidableEq

inductive Accessor where
  | getter
  | setter

structure Method where
  override? : Option OverridePlace
  isFinal : Bool
  access : Access
  isStatic : Bool
  accessor? : Option Accessor
  name : Identifier
  parameters : List Parameter
  result : TypeName

inductive Member where
  | field (field : Field)
  | constructor (parameters : List Parameter)
  | method (method : Method)

def Member.isConstructor : Member → Bool
  | .constructor _ => true
  | _ => false

structure Skeleton where
  package? : Option DottedName
  imports : List DottedName
  isFinal : Bool
  name : Identifier
  superclass? : Option DottedName
  members : List Member
  oneConstructor : members.countP Member.isConstructor ≤ 1

/-! ## Printing -/

def DottedName.print (separator : Char) (name : DottedName) : List Char :=
  name.qualifier.flatMap (fun part => part.text ++ [separator]) ++ name.last.text

def Language.vectorOpening : Language → List Char
  | .source => "Vector.<".toList
  | .target => "Array<".toList

def TypeName.print (language : Language) : TypeName → List Char
  | .named name => name.print '.'
  | .vector element => language.vectorOpening ++ element.print language ++ ['>']

def Parameter.print (language : Language) (parameter : Parameter) : List Char :=
  match parameter.type? with
  | some type => parameter.name.text ++ [':'] ++ type.print language
  | none => parameter.name.text

def printParameters (language : Language) (parameters : List Parameter) : List Char :=
  ", ".toList.intercalate (parameters.map (·.print language))

def Access.word : Access → HeadWord
  | .isPublic => .publicWord
  | .isProtected => .protectedWord
  | .isPrivate => .privateWord

def Accessor.word : Accessor → HeadWord
  | .getter => .getWord
  | .setter => .setWord

/-- A word that stands only under a condition. -/
def HeadWord.onlyIf (word : HeadWord) (isThere : Bool) : List HeadWord :=
  if isThere then [word] else []

def Field.head (field : Field) : Language → List HeadWord
  | .source => field.access.word :: HeadWord.staticWord.onlyIf field.isStatic ++
      [if field.isConstant then .constWord else .varWord]
  | .target => field.access.word :: HeadWord.staticWord.onlyIf field.isStatic ++
      HeadWord.readonlyWord.onlyIf field.isConstant

/-- The words in front of a function in the source language. -/
def Method.modifiers (method : Method) : List HeadWord :=
  HeadWord.overrideWord.onlyIf (method.override? = some .beforeAccess) ++
    HeadWord.finalWord.onlyIf method.isFinal ++ [method.access.word] ++
    HeadWord.overrideWord.onlyIf (method.override? = some .behindAccess) ++
    HeadWord.staticWord.onlyIf method.isStatic

def Method.accessorWords (method : Method) : List HeadWord :=
  method.accessor?.toList.map Accessor.word

def Method.head (method : Method) : Language → List HeadWord
  | .source => method.modifiers ++ .functionWord :: method.accessorWords
  | .target => [method.access.word] ++ HeadWord.staticWord.onlyIf method.isStatic ++
      method.accessorWords

def Member.head (language : Language) : Member → List HeadWord
  | .field declared => declared.head language
  | .constructor _ =>
      match language with
      | .source => [.publicWord, .functionWord]
      | .target => [.publicWord]
  | .method declared => declared.head language

/-- The name that a member has in a class. -/
def Member.name (language : Language) (className : Identifier) : Member → Identifier
  | .field declared => declared.name
  | .constructor _ =>
      match language with
      | .source => className
      | .target => constructorName
  | .method declared => declared.name

/-- What is printed behind the name of a member. -/
def Member.printBehind (language : Language) : Member → List Char
  | .field declared => [':'] ++ declared.type.print language ++ [';']
  | .constructor parameters =>
      ['('] ++ printParameters language parameters ++ ") \x7b\x7d".toList
  | .method declared =>
      ['('] ++ printParameters language declared.parameters ++ "):".toList ++
        declared.result.print language ++ " \x7b\x7d".toList

/-- Words with a space behind each. -/
def HeadWord.print (head : List HeadWord) : List Char :=
  head.flatMap fun word => word.text ++ [' ']

/-- The start of a line at a level of indentation. -/
def newLine (width level : Nat) : List Char :=
  '\n' :: List.replicate (width * level) ' '

def printPackage (language : Language) (package? : Option DottedName) : List Char :=
  match language, package? with
  | .source, none => "package \x7b".toList
  | .source, some name => "package ".toList ++ name.print '.' ++ " \x7b".toList
  | .target, none => "module __package \x7b".toList
  | .target, some name => "module ".toList ++ name.print '.' ++ " \x7b".toList

def printImport (language : Language) (name : DottedName) : List Char :=
  match language with
  | .source => "import ".toList ++ name.print '.' ++ [';']
  | .target => "import \x7b".toList ++ name.last.text ++ "\x7d from \"".toList ++
      name.print '/' ++ "\";".toList

namespace Skeleton

def head (skeleton : Skeleton) : Language → List HeadWord
  | .source => .publicWord :: HeadWord.finalWord.onlyIf skeleton.isFinal ++ [.classWord]
  | .target => [.exportWord, .classWord]

def printSuperclass (skeleton : Skeleton) : List Char :=
  match skeleton.superclass? with
  | some name => " extends ".toList ++ name.print '.'
  | none => []

/-- A skeleton whose members have the given names. -/
def printNamed (width : Nat) (language : Language) (skeleton : Skeleton)
    (named : List (Identifier × Member)) : List Char :=
  printPackage language skeleton.package? ++
    skeleton.imports.flatMap (fun name => newLine width 1 ++ printImport language name) ++
    newLine width 1 ++ HeadWord.print (skeleton.head language) ++ skeleton.name.text ++
    skeleton.printSuperclass ++ " \x7b".toList ++
    named.flatMap (fun (name, member) => newLine width 2 ++
      HeadWord.print (member.head language) ++ name.text ++ member.printBehind language) ++
    newLine width 1 ++ ['\x7d'] ++ newLine width 0 ++ ['\x7d', '\n']

/-- The members with their names. -/
def named (language : Language) (skeleton : Skeleton) : List (Identifier × Member) :=
  skeleton.members.map fun member => (member.name language skeleton.name, member)

/-- The text of a skeleton, with so many spaces for each level of indentation. -/
def print (width : Nat) (language : Language) (skeleton : Skeleton) : List Char :=
  skeleton.printNamed width language (skeleton.named language)

end Skeleton

/-! ## Pieces -/

/-- Characters between words, none of which assigns anything. -/
structure Gap where
  text : List Char
  isSome : text ≠ [] := by decide
  isGap : text.all (!Text.isWord ·) = true := by decide
  unsigned : '=' ∉ text := by decide

def Gap.dot : Gap where
  text := ['.']

def Gap.slash : Gap where
  text := ['/']

def Gap.space : Gap where
  text := [' ']

def Gap.opened : Gap where
  text := " \x7b".toList

def Gap.colon : Gap where
  text := [':']

def Gap.comma : Gap where
  text := ", ".toList

def Gap.parenthesis : Gap where
  text := ['(']

def Gap.closedVector (gap : Gap) : Gap where
  text := '>' :: gap.text
  isSome := List.cons_ne_nil _ _
  isGap := by
    rw [List.all_cons, gap.isGap]
    decide
  unsigned := by simp [gap.unsigned]

def Gap.newLine (width level : Nat) (closing : List Char)
    (isGap : closing.all (!Text.isWord ·) = true := by decide)
    (unsigned : '=' ∉ closing := by decide) : Gap where
  text := Normalize.newLine width level ++ closing
  isSome := List.cons_ne_nil _ _
  isGap := by
    have outside : Text.isWord '\n' = false := by decide
    simp [Normalize.newLine, isGap, outside, isWord_space]
  unsigned := by simp [Normalize.newLine, unsigned]

/-- A gap without a word before it. -/
def Gap.alone (gap : Gap) : SpacedWord where
  word := []
  gap := gap.text
  isSome := gap.isSome
  isGap := gap.isGap

def Identifier.before (name : Identifier) (gap : Gap) : SpacedWord where
  word := name.text
  gap := gap.text
  isWord := name.isWord
  isSome := gap.isSome
  isGap := gap.isGap

def DottedName.pieces (separator gap : Gap) (name : DottedName) : List SpacedWord :=
  name.qualifier.map (·.before separator) ++ [name.last.before gap]

def vectorPiece : Language → SpacedWord
  | .source => { word := "Vector".toList, gap := ".<".toList }
  | .target => { word := "Array".toList, gap := ['<'] }

def TypeName.pieces (language : Language) : Gap → TypeName → List SpacedWord
  | gap, .named name => name.pieces .dot gap
  | gap, .vector element => vectorPiece language :: element.pieces language gap.closedVector

def Parameter.pieces (language : Language) (gap : Gap) (parameter : Parameter) :
    List SpacedWord :=
  match parameter.type? with
  | some type => parameter.name.before .colon :: type.pieces language gap
  | none => [parameter.name.before gap]

def parameterPieces (language : Language) (gap : Gap) : List Parameter → List SpacedWord
  | [] => [gap.alone]
  | [parameter] => parameter.pieces language gap
  | parameter :: rest => parameter.pieces language .comma ++ parameterPieces language gap rest

/-- The gap behind the name of a member. -/
def Member.gap : Member → Gap
  | .field _ => .colon
  | _ => .parenthesis

def Member.pieces (language : Language) : Member → List SpacedWord
  | .field declared => declared.type.pieces language { text := [';'] }
  | .constructor parameters => parameterPieces language { text := ") \x7b\x7d".toList } parameters
  | .method declared => parameterPieces language { text := "):".toList } declared.parameters ++
      declared.result.pieces language { text := " \x7b\x7d".toList }

/-- The line of a member, with its head and its types in a language each. -/
def Member.line (width : Nat) (heads types : Language) (name : Identifier) (member : Member) :
    Line where
  lead := (Gap.newLine width 2 []).alone
  head := member.head heads
  subject := name.before member.gap
  rest := member.pieces types

def packagePieces (language : Language) (package? : Option DottedName) : List SpacedWord :=
  match language, package? with
  | .source, none => [{ word := "package".toList, gap := " \x7b".toList }]
  | .source, some name =>
      { word := "package".toList, gap := [' '] } :: name.pieces .dot .opened
  | .target, none =>
      [{ word := "module".toList, gap := [' '] },
        { word := "__package".toList, gap := " \x7b".toList }]
  | .target, some name =>
      { word := "module".toList, gap := [' '] } :: name.pieces .dot .opened

def importPieces (language : Language) (name : DottedName) : List SpacedWord :=
  match language with
  | .source => { word := "import".toList, gap := [' '] } :: name.pieces .dot { text := [';'] }
  | .target =>
      { word := "import".toList, gap := " \x7b".toList } ::
        name.last.before { text := "\x7d ".toList } ::
        { word := "from".toList, gap := " \"".toList } ::
        name.pieces .slash { text := "\";".toList }

namespace Skeleton

def classLine (width : Nat) (heads : Language) (skeleton : Skeleton) : Line where
  lead := (Gap.newLine width 1 []).alone
  head := skeleton.head heads
  subject := skeleton.name.before (if skeleton.superclass?.isSome then .space else .opened)
  rest :=
    match skeleton.superclass? with
    | some name => { word := "extends".toList, gap := [' '] } :: name.pieces .dot .opened
    | none => []

/-- The pieces in front of the class. -/
def opening (width : Nat) (packages imports : Language) (skeleton : Skeleton) :
    List SpacedWord :=
  packagePieces packages skeleton.package? ++
    skeleton.imports.flatMap fun name =>
      (Gap.newLine width 1 []).alone :: importPieces imports name

def lines (width : Nat) (heads types : Language) (skeleton : Skeleton)
    (named : List (Identifier × Member)) : List Line :=
  skeleton.classLine width heads ::
    named.map fun (name, member) => member.line width heads types name

def closing (width : Nat) : List SpacedWord :=
  [(Gap.newLine width 1 ['\x7d']).alone, (Gap.newLine width 0 ['\x7d', '\n']).alone]

end Skeleton

/-! ### The text of the pieces -/

theorem textOf_head (head : List HeadWord) :
    SpacedWord.textOf (HeadWord.pieces head) = HeadWord.print head := by
  induction head with
  | nil => rfl
  | cons word head ih => rw [textOf_pieces_cons, ih]; simp [HeadWord.print]

theorem DottedName.textOf_pieces {separator gap : Gap} {character : Char}
    (isSeparator : separator.text = [character]) (name : DottedName) :
    SpacedWord.textOf (name.pieces separator gap) = name.print character ++ gap.text := by
  obtain ⟨qualifier, last⟩ := name
  induction qualifier with
  | nil => simp [pieces, print, Identifier.before]
  | cons part qualifier ih =>
      simp only [pieces, print, List.map_cons, List.cons_append, SpacedWord.textOf_cons,
        List.flatMap_cons, List.append_assoc] at ih ⊢
      rw [ih]
      simp [Identifier.before, isSeparator]

theorem DottedName.textOf_dotted (gap : Gap) (name : DottedName) :
    SpacedWord.textOf (name.pieces .dot gap) = name.print '.' ++ gap.text :=
  @DottedName.textOf_pieces .dot gap '.' rfl name

theorem DottedName.textOf_slashed (gap : Gap) (name : DottedName) :
    SpacedWord.textOf (name.pieces .slash gap) = name.print '/' ++ gap.text :=
  @DottedName.textOf_pieces .slash gap '/' rfl name

theorem text_vectorPiece (language : Language) :
    (vectorPiece language).word ++ (vectorPiece language).gap = language.vectorOpening := by
  cases language <;> rfl

theorem TypeName.textOf_pieces (language : Language) (gap : Gap) (type : TypeName) :
    SpacedWord.textOf (type.pieces language gap) = type.print language ++ gap.text := by
  induction type generalizing gap with
  | named name => exact name.textOf_dotted gap
  | vector element ih =>
      rw [pieces, SpacedWord.textOf_cons, ih, ← List.append_assoc, text_vectorPiece]
      simp [print, Gap.closedVector]

theorem Parameter.textOf_pieces (language : Language) (gap : Gap) (parameter : Parameter) :
    SpacedWord.textOf (parameter.pieces language gap) = parameter.print language ++ gap.text := by
  unfold pieces print
  split
  · simp [TypeName.textOf_pieces, Identifier.before, Gap.colon]
  · simp [Identifier.before]

theorem textOf_parameterPieces (language : Language) (gap : Gap) (parameters : List Parameter) :
    SpacedWord.textOf (parameterPieces language gap parameters) =
      printParameters language parameters ++ gap.text := by
  induction parameters with
  | nil => simp [parameterPieces, printParameters, Gap.alone]
  | cons parameter rest ih =>
      cases rest with
      | nil => simp [parameterPieces, printParameters, Parameter.textOf_pieces]
      | cons second rest =>
          rw [parameterPieces, SpacedWord.textOf_append, ih, Parameter.textOf_pieces]
          · simp [printParameters, Gap.comma]
          · exact List.cons_ne_nil _ _

theorem Member.textOf_pieces (language : Language) (member : Member) :
    member.gap.text ++ SpacedWord.textOf (member.pieces language) =
      member.printBehind language := by
  cases member with
  | field declared => simp [pieces, gap, printBehind, TypeName.textOf_pieces, Gap.colon]
  | constructor parameters =>
      simp [pieces, gap, printBehind, textOf_parameterPieces, Gap.parenthesis]
  | method declared =>
      simp [pieces, gap, printBehind, textOf_parameterPieces, TypeName.textOf_pieces,
        Gap.parenthesis]

theorem textOf_packagePieces (language : Language) (package? : Option DottedName) :
    SpacedWord.textOf (packagePieces language package?) = printPackage language package? := by
  match language, package? with
  | .source, none => rfl
  | .target, none => rfl
  | .source, some name =>
      exact (congrArg ("package ".toList ++ ·) (name.textOf_dotted .opened)).trans
        (List.append_assoc _ _ _).symm
  | .target, some name =>
      exact (congrArg ("module ".toList ++ ·) (name.textOf_dotted .opened)).trans
        (List.append_assoc _ _ _).symm

theorem textOf_importPieces (language : Language) (name : DottedName) :
    SpacedWord.textOf (importPieces language name) = printImport language name := by
  match language with
  | .source =>
      exact (congrArg ("import ".toList ++ ·) (name.textOf_dotted { text := [';'] })).trans
        (List.append_assoc _ _ _).symm
  | .target =>
      have printed : printImport .target name = "import \x7b".toList ++ (name.last.text ++
          ("\x7d from \"".toList ++ (name.print '/' ++ "\";".toList))) := by
        unfold printImport
        simp only [List.append_assoc]
      rewrite [printed, importPieces, SpacedWord.textOf_cons, SpacedWord.textOf_cons,
        SpacedWord.textOf_cons, DottedName.textOf_slashed]
      rfl

theorem text_alone_newLine (width level : Nat) (rest : List Char) :
    (Gap.newLine width level []).alone.word ++ ((Gap.newLine width level []).alone.gap ++ rest) =
      newLine width level ++ rest := by
  simp [Gap.alone, Gap.newLine]

theorem Member.text_line (width : Nat) (language : Language) (name : Identifier)
    (member : Member) :
    SpacedWord.textOf (member.line width language language name).pieces =
      newLine width 2 ++ HeadWord.print (member.head language) ++ name.text ++
        member.printBehind language := by
  rw [← member.textOf_pieces language]
  simp only [line, Line.pieces, SpacedWord.textOf_cons, SpacedWord.textOf_append, textOf_head,
    text_alone_newLine, List.append_assoc]
  rfl

namespace Skeleton

theorem text_classLine (width : Nat) (language : Language) (skeleton : Skeleton) :
    SpacedWord.textOf (skeleton.classLine width language).pieces =
      newLine width 1 ++ HeadWord.print (skeleton.head language) ++ skeleton.name.text ++
        skeleton.printSuperclass ++ " \x7b".toList := by
  simp only [classLine, Line.pieces, SpacedWord.textOf_cons, SpacedWord.textOf_append, textOf_head,
    text_alone_newLine, List.append_assoc, printSuperclass]
  cases skeleton.superclass? with
  | none => rfl
  | some name =>
      dsimp only
      rewrite [SpacedWord.textOf_cons, DottedName.textOf_dotted]
      rfl

theorem text_opening (width : Nat) (packages imports : Language) (skeleton : Skeleton) :
    SpacedWord.textOf (skeleton.opening width packages imports) =
      printPackage packages skeleton.package? ++
        skeleton.imports.flatMap (fun name => newLine width 1 ++ printImport imports name) := by
  have imported (names : List DottedName) : SpacedWord.textOf (names.flatMap fun name =>
      (Gap.newLine width 1 []).alone :: importPieces imports name) =
        names.flatMap fun name => newLine width 1 ++ printImport imports name := by
    induction names with
    | nil => rfl
    | cons name names ih =>
        simp only [List.flatMap_cons, List.cons_append, SpacedWord.textOf_cons,
          SpacedWord.textOf_append, textOf_importPieces, text_alone_newLine, ih, List.append_assoc]
  rw [opening, SpacedWord.textOf_append, textOf_packagePieces, imported]

theorem printNamed_eq (width : Nat) (language : Language) (skeleton : Skeleton)
    (named : List (Identifier × Member)) :
    skeleton.printNamed width language named =
      outline (skeleton.opening width language language)
        (skeleton.lines width language language named) (closing width) := by
  have membersPrinted : SpacedWord.textOf ((named.map fun (name, member) =>
      member.line width language language name).flatMap Line.pieces) =
        named.flatMap fun (name, member) => newLine width 2 ++
          HeadWord.print (member.head language) ++ name.text ++ member.printBehind language := by
    induction named with
    | nil => rfl
    | cons first named ih =>
        simp only [List.map_cons, List.flatMap_cons, SpacedWord.textOf_append, Member.text_line, ih]
  have closed : SpacedWord.textOf (closing width) =
      newLine width 1 ++ ['\x7d'] ++ newLine width 0 ++ ['\x7d', '\n'] := by
    simp [closing, Gap.alone, Gap.newLine]
  simp only [outline, lines, List.flatMap_cons, SpacedWord.textOf_append, text_opening,
    text_classLine, membersPrinted, closed, printNamed, List.append_assoc]

end Skeleton

/-! ### The words of the pieces -/

/-- A piece that assigns nothing and has only some of the words that the rules look for.
The word of a vector stands in front of its element. -/
structure IsOrdinary (allowed : List String) (piece : SpacedWord) : Prop where
  word : piece.word ∈ lookedFor → piece.word ∈ allowed.map String.toList
  unsigned : '=' ∉ piece.gap
  vector : piece.word = "Vector".toList → piece.gap = ".<".toList

def AreOrdinary (allowed : List String) (pieces : List SpacedWord) : Prop :=
  ∀ piece ∈ pieces, IsOrdinary allowed piece

theorem AreOrdinary.append {allowed : List String} {first second : List SpacedWord}
    (ofFirst : AreOrdinary allowed first) (ofSecond : AreOrdinary allowed second) :
    AreOrdinary allowed (first ++ second) :=
  List.forall_mem_append.mpr ⟨ofFirst, ofSecond⟩

theorem AreOrdinary.cons {allowed : List String} {piece : SpacedWord} {pieces : List SpacedWord}
    (ofPiece : IsOrdinary allowed piece) (ofPieces : AreOrdinary allowed pieces) :
    AreOrdinary allowed (piece :: pieces) :=
  List.forall_mem_cons.mpr ⟨ofPiece, ofPieces⟩

theorem AreOrdinary.mono {allowed more : List String} {pieces : List SpacedWord}
    (ordinary : AreOrdinary allowed pieces) (within : allowed ⊆ more) :
    AreOrdinary more pieces :=
  fun piece isPiece =>
    ⟨fun isKnown => List.map_subset _ within ((ordinary piece isPiece).word isKnown),
    (ordinary piece isPiece).unsigned, (ordinary piece isPiece).vector⟩

/-- Ordinary pieces have no other words that the rules look for. -/
theorem AreOrdinary.word_ne {allowed : List String} {pieces : List SpacedWord}
    (ordinary : AreOrdinary allowed pieces) {word : List Char} (isKnown : word ∈ lookedFor)
    (notAllowed : word ∉ allowed.map String.toList) : ∀ piece ∈ pieces, piece.word ≠ word := by
  rintro piece isPiece rfl
  exact notAllowed ((ordinary piece isPiece).word isKnown)

variable {allowed : List String}

theorem Identifier.isOrdinary (name : Identifier) (gap : Gap) :
    IsOrdinary allowed (name.before gap) := by
  refine ⟨fun isKnown => absurd isKnown name.isFree, gap.unsigned, fun isVector => ?_⟩
  have isKnown : "Vector".toList ∈ lookedFor := by decide
  rw [← isVector] at isKnown
  exact absurd isKnown name.isFree

theorem Gap.isOrdinary (gap : Gap) : IsOrdinary allowed gap.alone := by
  have unknown : [] ∉ lookedFor := by decide
  exact ⟨fun isKnown => absurd isKnown unknown, gap.unsigned, nofun⟩

theorem DottedName.areOrdinary (separator gap : Gap) (name : DottedName) :
    AreOrdinary allowed (name.pieces separator gap) := by
  intro piece isPiece
  rcases List.mem_append.mp isPiece with inQualifier | isLast
  · obtain ⟨part, -, rfl⟩ := List.mem_map.mp inQualifier
    exact part.isOrdinary separator
  · obtain rfl := List.mem_singleton.mp isLast
    exact name.last.isOrdinary gap

theorem TypeName.areOrdinary (language : Language) (gap : Gap) (type : TypeName) :
    AreOrdinary ["Vector"] (type.pieces language gap) := by
  induction type generalizing gap with
  | named name => exact name.areOrdinary .dot gap
  | vector element ih =>
      refine .cons ?_ (ih _)
      cases language <;> exact ⟨by decide, by decide, by decide⟩

theorem Parameter.areOrdinary (language : Language) (gap : Gap) (parameter : Parameter) :
    AreOrdinary ["Vector"] (parameter.pieces language gap) := by
  unfold pieces
  split
  · exact .cons (parameter.name.isOrdinary _) (TypeName.areOrdinary _ _ _)
  · exact .cons (parameter.name.isOrdinary _) nofun

theorem areOrdinary_parameterPieces (language : Language) (gap : Gap)
    (parameters : List Parameter) :
    AreOrdinary ["Vector"] (parameterPieces language gap parameters) := by
  fun_induction parameterPieces language gap parameters with
  | case1 => exact .cons gap.isOrdinary nofun
  | case2 parameter => exact parameter.areOrdinary language gap
  | case3 parameter rest _ ih => exact (parameter.areOrdinary language .comma).append ih

theorem Member.areOrdinary (language : Language) (member : Member) :
    AreOrdinary ["Vector"] (member.pieces language) := by
  cases member with
  | field declared => exact declared.type.areOrdinary language _
  | constructor parameters => exact areOrdinary_parameterPieces language _ parameters
  | method declared =>
      exact (areOrdinary_parameterPieces language _ _).append
        (declared.result.areOrdinary language _)

theorem areOrdinary_packagePieces (language : Language) (package? : Option DottedName) :
    AreOrdinary ["package"] (packagePieces language package?) := by
  match language, package? with
  | .source, none => exact .cons ⟨by decide, by decide, by decide⟩ nofun
  | .source, some name => exact .cons ⟨by decide, by decide, by decide⟩ (name.areOrdinary _ _)
  | .target, none =>
      exact .cons ⟨by decide, by decide, by decide⟩
        (.cons ⟨by decide, by decide, by decide⟩ nofun)
  | .target, some name => exact .cons ⟨by decide, by decide, by decide⟩ (name.areOrdinary _ _)

theorem areOrdinary_importPieces (language : Language) (name : DottedName) :
    AreOrdinary ["import"] (importPieces language name) := by
  match language with
  | .source => exact .cons ⟨by decide, by decide, by decide⟩ (name.areOrdinary _ _)
  | .target =>
      exact .cons ⟨by decide, by decide, by decide⟩ (.cons (name.last.isOrdinary _)
        (.cons ⟨by decide, by decide, by decide⟩ (name.areOrdinary _ _)))

theorem Member.areOrdinary_around (width : Nat) (heads types : Language) (name : Identifier)
    (member : Member) : AreOrdinary ["Vector"] (member.line width heads types name).around :=
  .cons (Gap.isOrdinary _) (.cons (name.isOrdinary _) (member.areOrdinary types))

/-- Ordinary pieces have none of the words of heads. -/
theorem arePlain_of_areOrdinary {pieces : List SpacedWord}
    (ordinary : AreOrdinary ["package", "import", "Vector"] pieces) : ArePlain pieces := by
  intro piece isPiece isHead
  have apart : ∀ word ∈ ["package", "import", "Vector"].map String.toList,
      word ∉ HeadWord.texts HeadWord.sourceWords := by decide
  have isAllowed := (ordinary piece isPiece).word (List.mem_append_left _ isHead)
  exact apart _ isAllowed isHead

theorem Member.isPlain_line (width : Nat) (heads types : Language) (name : Identifier)
    (member : Member) : (member.line width heads types name).IsPlain where
  isSome := name.isSome
  plain := arePlain_of_areOrdinary
    ((member.areOrdinary_around width heads types name).mono (by decide))

namespace Skeleton

theorem areOrdinary_opening (width : Nat) (packages imports : Language) (skeleton : Skeleton) :
    AreOrdinary ["package", "import"] (skeleton.opening width packages imports) := by
  refine ((areOrdinary_packagePieces packages _).mono (by decide)).append ?_
  intro piece isPiece
  obtain ⟨name, -, isPiece⟩ := List.mem_flatMap.mp isPiece
  exact (AreOrdinary.cons (Gap.isOrdinary _)
    ((areOrdinary_importPieces imports name).mono (by decide))) piece isPiece

theorem areOrdinary_closing (width : Nat) : AreOrdinary allowed (closing width) :=
  .cons (Gap.isOrdinary _) (.cons (Gap.isOrdinary _) nofun)

theorem areOrdinary_classLine (width : Nat) (heads : Language) (skeleton : Skeleton) :
    AreOrdinary allowed (skeleton.classLine width heads).around := by
  refine .cons (Gap.isOrdinary _) (.cons (skeleton.name.isOrdinary _) ?_)
  unfold classLine
  dsimp only
  split
  · exact .cons ⟨fun isKnown => absurd isKnown (by decide), by decide, by decide⟩
      (DottedName.areOrdinary _ _ _)
  · nofun

theorem areOrdinary_lines (width : Nat) (heads types : Language) (skeleton : Skeleton)
    (named : List (Identifier × Member)) :
    ∀ line ∈ skeleton.lines width heads types named, AreOrdinary ["Vector"] line.around := by
  intro line isLine
  rcases List.mem_cons.mp isLine with rfl | isLine
  · exact skeleton.areOrdinary_classLine width heads
  · obtain ⟨⟨name, member⟩, -, rfl⟩ := List.mem_map.mp isLine
    exact member.areOrdinary_around width heads types name

theorem isPlainOutline (width : Nat) (packages imports heads types : Language)
    (skeleton : Skeleton) (named : List (Identifier × Member)) :
    IsPlainOutline (skeleton.opening width packages imports)
      (skeleton.lines width heads types named) (closing width) where
  before := arePlain_of_areOrdinary
    ((skeleton.areOrdinary_opening width packages imports).mono (by decide))
  lines := by
    intro line isLine
    rcases List.mem_cons.mp isLine with rfl | isLine
    · exact ⟨skeleton.name.isSome,
        arePlain_of_areOrdinary (skeleton.areOrdinary_classLine width heads)⟩
    · obtain ⟨⟨name, member⟩, -, rfl⟩ := List.mem_map.mp isLine
      exact member.isPlain_line width heads types name
  closing := arePlain_of_areOrdinary (areOrdinary_closing width)

end Skeleton

end Normalize

end ScriptBridge

/-!
# Indented text

Generated text grows at its end, one character after the other.  Indentation is
written lazily, in front of the first character of a line, so that blank lines
stay blank.  Text may be cut off again at an earlier length, counted in bytes.
-/

namespace ScriptBridge

/-- The number of bytes of a list of characters. -/
def byteSize (characters : List Char) : Nat :=
  characters.foldr (fun character size => character.utf8Size + size) 0

@[simp] theorem byteSize_nil : byteSize [] = 0 := rfl

@[simp] theorem byteSize_cons (character : Char) (rest : List Char) :
    byteSize (character :: rest) = character.utf8Size + byteSize rest := rfl

@[simp] theorem byteSize_append (first second : List Char) :
    byteSize (first ++ second) = byteSize first + byteSize second := by
  induction first with
  | nil => simp
  | cons character rest ih => simp [ih, Nat.add_assoc]

/-- Text under construction: its characters in reverse, their size in bytes, the
level of indentation, and whether the next character starts a line. -/
structure IndentedText where
  reversed : List Char := []
  size : Nat := 0
  level : Nat := 0
  atLineStart : Bool := true
  size_eq : size = byteSize reversed := by rfl
  deriving DecidableEq, Repr

namespace IndentedText

/-- The characters written so far. -/
def characters (text : IndentedText) : List Char :=
  text.reversed.reverse

/-- The text written so far. -/
def toString (text : IndentedText) : String :=
  String.ofList text.characters

/-- Whether nothing has been written. -/
def isEmpty (text : IndentedText) : Bool :=
  text.reversed.isEmpty

/-- Whether some characters in reverse leave the next one at the start of a line. -/
def endsLine : List Char → Bool
  | [] => true
  | character :: _ => character == '\n'

/-- Add characters, given in reverse, at the end. -/
def append (text : IndentedText) (added : List Char) (atLineStart : Bool) : IndentedText where
  reversed := added ++ text.reversed
  size := byteSize added + text.size
  level := text.level
  atLineStart := atLineStart
  size_eq := by simp [text.size_eq]

/-- The indentation in force. -/
def indentation (text : IndentedText) : List Char :=
  List.replicate (4 * text.level) ' '

/-- Write the indentation if a line has just started. -/
def startLine (text : IndentedText) : IndentedText :=
  if text.atLineStart then text.append text.indentation false else text

/-- End the line. -/
def newLine (text : IndentedText) : IndentedText :=
  text.append ['\n'] true

/-- Write one character. -/
def put (text : IndentedText) (character : Char) : IndentedText :=
  if character = '\n' then text.newLine
  else text.startLine.append [character] false

/-- Write a text; its line ends start new, indented lines. -/
def write (text : IndentedText) (added : String) : IndentedText :=
  added.toList.foldl put text

/-- Write a text exactly as it is. -/
def writeVerbatim (text : IndentedText) (added : String) : IndentedText :=
  match added.toList.reverse with
  | [] => text
  | last :: before => text.append (last :: before) (last == '\n')

/-- Indent further lines by one more level. -/
def indent (text : IndentedText) : IndentedText :=
  { text with level := text.level + 1 }

/-- Indent further lines by one level less. -/
def dedent (text : IndentedText) : IndentedText :=
  { text with level := text.level - 1 }

/-- Take at least so many bytes of characters from a list; gives what was taken,
in reverse, and what remains. -/
def take (bytes : Nat) (taken : List Char) : List Char → List Char × List Char
  | [] => (taken, [])
  | character :: rest =>
      if bytes = 0 then (taken, character :: rest)
      else take (bytes - character.utf8Size) (character :: taken) rest

/-- Taking characters loses none of their bytes. -/
theorem byteSize_take (bytes : Nat) (taken characters : List Char) :
    byteSize (take bytes taken characters).1 + byteSize (take bytes taken characters).2 =
      byteSize taken + byteSize characters := by
  induction characters generalizing bytes taken with
  | nil => simp [take]
  | cons character rest ih =>
      by_cases enough : bytes = 0
      · simp [take, enough]
      · have inner := ih (bytes - character.utf8Size) (character :: taken)
        simp only [byteSize_cons] at inner
        simp only [take, enough, if_false, byteSize_cons]
        omega

/-- Cut the text at an earlier length; gives the text before and the characters
behind.  A cut at or behind the end changes nothing. -/
def splitAt (text : IndentedText) (length : Nat) : IndentedText × List Char :=
  if text.size ≤ length then (text, [])
  else
    let cut := take (text.size - length) [] text.reversed
    ({ reversed := cut.2
       size := text.size - byteSize cut.1
       level := text.level
       atLineStart := endsLine cut.2
       size_eq := by
        have all := byteSize_take (text.size - length) [] text.reversed
        simp only [byteSize_nil, ← text.size_eq] at all
        show text.size - byteSize (take (text.size - length) [] text.reversed).1 =
          byteSize (take (text.size - length) [] text.reversed).2
        omega }, cut.1)

/-- Drop everything behind an earlier length. -/
def truncate (text : IndentedText) (length : Nat) : IndentedText :=
  (text.splitAt length).1

/-- Take back everything behind an earlier length. -/
def splitOff (text : IndentedText) (length : Nat) : IndentedText × String :=
  let (before, tail) := text.splitAt length
  (before, String.ofList tail)

/-- A length to cut at.  The indentation is written first, so that what is taken
back starts with the content. -/
def mark (text : IndentedText) : IndentedText × Nat :=
  (text.startLine, text.startLine.size)

end IndentedText

end ScriptBridge

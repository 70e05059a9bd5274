/-!
# Paths

A path is a text whose parts are divided by slashes.  Repeated slashes and
single dots within a path mean nothing; a single dot in front and double dots
are parts of their own.
-/

namespace ScriptBridge

/-- A path as it is written. -/
structure Path where
  text : String
  deriving DecidableEq, Repr

/-- A part of a path. -/
inductive PathPart where
  | root
  | here
  | parent
  | name (text : String)
  deriving DecidableEq, Repr

namespace Path

/-- Cut a text at slashes; `gathered` is the current part in reverse. -/
def cutAtSlashes (gathered : List Char) : List Char → List String
  | [] => [String.ofList gathered.reverse]
  | character :: rest =>
      if character = '/' then String.ofList gathered.reverse :: cutAtSlashes [] rest
      else cutAtSlashes (character :: gathered) rest

/-- The texts between the slashes of a path. -/
def pieces (path : Path) : List String :=
  cutAtSlashes [] path.text.toList

/-- Whether a path starts at the root. -/
def isAbsolute (path : Path) : Bool :=
  path.text.toList.head? == some '/'

/-- Whether a path is empty. -/
def isEmpty (path : Path) : Bool :=
  path.text.isEmpty

/-- The part that a text between slashes stands for, not counting dots. -/
def part? (piece : String) : Option PathPart :=
  if piece = "" ∨ piece = "." then none
  else if piece = ".." then some .parent
  else some (.name piece)

/-- The parts of a path. -/
def parts (path : Path) : List PathPart :=
  let start : List PathPart :=
    if path.isAbsolute then [.root]
    else if path.pieces.head? == some "." then [.here]
    else []
  start ++ path.pieces.filterMap part?

/-- The names among parts. -/
def names (parts : List PathPart) : List String :=
  parts.filterMap fun part =>
    match part with
    | .name text => some text
    | _ => none

/-- A text in reverse without the slashes and single dots at its end. -/
def dropEnd : List Char → List Char
  | '/' :: rest => dropEnd rest
  | '.' :: '/' :: rest => dropEnd rest
  | text => text

/-- The last text between slashes, with what stands in front of it in reverse. -/
def splitLast (path : Path) : List Char × String :=
  let reversed := dropEnd path.text.toList.reverse
  (reversed.dropWhile (· ≠ '/'), String.ofList (reversed.takeWhile (· ≠ '/')).reverse)

/-- Whether a text between slashes is the name of a file or directory. -/
def isName (piece : String) : Bool :=
  piece ≠ "" && piece ≠ "." && piece ≠ ".."

/-- The name of the file or directory that a path ends with. -/
def fileName? (path : Path) : Option String :=
  let (_, last) := path.splitLast
  if isName last then some last else none

/-- The path without its last part. -/
def parent? (path : Path) : Option Path :=
  let (before, last) := path.splitLast
  if last = "" then none
  else
    let kept := dropEnd before
    if kept.isEmpty && path.isAbsolute then some ⟨"/"⟩
    else some ⟨String.ofList kept.reverse⟩

/-- A name in front of its last dot and behind it.  A dot at the start of a name
does not count. -/
def splitExtension (name : String) : String × Option String :=
  let reversed := name.toList.reverse
  let extension := reversed.takeWhile (· ≠ '.')
  match reversed.drop extension.length with
  | _ :: stem =>
      if stem.isEmpty then (name, none)
      else (String.ofList stem.reverse, some (String.ofList extension.reverse))
  | [] => (name, none)

/-- The extension of the name that a path ends with. -/
def extension? (path : Path) : Option String :=
  path.fileName?.bind fun name => (splitExtension name).2

/-- A dot and an extension, or nothing for the empty one. -/
def extensionText (extension : String) : String :=
  if extension.isEmpty then "" else "." ++ extension

/-- Put an extension behind the stem of the name that a path ends with. -/
def setExtension (path : Path) (extension : String) : Path :=
  let (before, last) := path.splitLast
  if isName last then
    ⟨String.ofList before.reverse ++ (splitExtension last).1 ++ extensionText extension⟩
  else path

/-- The path with another extension.  A path that ends with no name stays as it
is. -/
def withExtension (path : Path) (extension : String) : Path :=
  match path.extension? with
  | some before =>
      let characters := path.text.toList
      setExtension ⟨String.ofList (characters.take (characters.length - before.length))⟩
        extension
  | none => path.setExtension extension

/-- One path behind another; an absolute path stands alone. -/
def join (path next : Path) : Path :=
  if next.isAbsolute then next
  else if path.isEmpty || path.text.toList.getLast? == some '/' then
    ⟨path.text ++ next.text⟩
  else ⟨path.text ++ "/" ++ next.text⟩

/-- The names of a path below a base, with slashes between them.  A path that is
not below the base keeps all its names. -/
def relativeTo (path base : Path) : String :=
  let inner :=
    if base.parts.isPrefixOf path.parts then path.parts.drop base.parts.length
    else path.parts
  String.intercalate "/" (names inner)

end Path

end ScriptBridge

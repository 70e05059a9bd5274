import ScriptBridge.OrderedMap
import ScriptBridge.Path

/-!
# File systems

A file system knows what stands at each location below its root: a file with its
text, or a directory.  Paths are followed piece by piece, from the root or from the
working directory, and every piece but the last has to lead into a directory.
-/

namespace ScriptBridge

/-- What stands at a location. -/
inductive FileEntry where
  | file (text : String)
  | directory
  deriving DecidableEq, Repr

/-- Why a file operation fails. -/
inductive FileError where
  | notFound
  | alreadyExists
  | notADirectory
  | isADirectory
  | notPermitted
  deriving DecidableEq, Repr

namespace FileError

/-- The number of a failure. -/
def code : FileError → Nat
  | .notFound => 2
  | .notPermitted => 13
  | .alreadyExists => 17
  | .notADirectory => 20
  | .isADirectory => 21

/-- What went wrong. -/
def reason : FileError → String
  | .notFound => "No such file or directory"
  | .notPermitted => "Permission denied"
  | .alreadyExists => "File exists"
  | .notADirectory => "Not a directory"
  | .isADirectory => "Is a directory"

/-- The message of a failed file operation. -/
def message (error : FileError) : String :=
  error.reason ++ " (os error " ++ toString error.code ++ ")"

end FileError

/-- The names that lead from the root to an entry. -/
abbrev FileLocation := List String

/-- What stands at each location, and the location of the working directory. -/
structure FileSystem where
  entries : OrderedMap FileLocation FileEntry := {}
  working : FileLocation := []
  deriving DecidableEq, Repr

namespace FileSystem

/-- What stands at a location; the root itself is always there. -/
def entry? (files : FileSystem) (location : FileLocation) : Option FileEntry :=
  if location.isEmpty then some .directory else files.entries.find? location

/-- Put an entry at a location. -/
def put (files : FileSystem) (location : FileLocation) (entry : FileEntry) : FileSystem :=
  { files with entries := files.entries.insert location entry }

/-- The location that a piece of a path leads to from a directory.  Nothing lies above
the root. -/
def follow (location : FileLocation) (piece : String) : FileLocation :=
  if piece = "" ∨ piece = "." then location
  else if piece = ".." then location.dropLast
  else location ++ [piece]

/-- Follow the pieces of a path; each has to start in a directory. -/
def walk (files : FileSystem) (location : FileLocation) :
    List String → Except FileError FileLocation
  | [] => .ok location
  | piece :: rest =>
      match files.entry? location with
      | none => .error .notFound
      | some (.file _) => .error .notADirectory
      | some .directory => files.walk (follow location piece) rest

/-- Where a path starts: an absolute one at the root, any other in the working directory. -/
def startOf (files : FileSystem) (path : Path) : FileLocation :=
  if path.isAbsolute then [] else files.working

/-- The location that a path leads to, whether or not something stands there. -/
def locate (files : FileSystem) (path : Path) : Except FileError FileLocation :=
  if path.isEmpty then .error .notFound
  else files.walk (files.startOf path) path.pieces

/-- What stands at the end of a path. -/
def lookUp (files : FileSystem) (path : Path) : Except FileError FileEntry :=
  match files.locate path with
  | .error error => .error error
  | .ok location =>
      match files.entry? location with
      | some entry => .ok entry
      | none => .error .notFound

/-- Whether a path leads to something. -/
def pathExists (files : FileSystem) (path : Path) : Bool :=
  (files.lookUp path).isOk

/-- Whether a path leads to a file. -/
def isFile (files : FileSystem) (path : Path) : Bool :=
  match files.lookUp path with
  | .ok (.file _) => true
  | _ => false

/-- Whether a path leads to a directory. -/
def isDirectory (files : FileSystem) (path : Path) : Bool :=
  match files.lookUp path with
  | .ok .directory => true
  | _ => false

/-- Read a file. -/
def read (files : FileSystem) (path : Path) : Except FileError String :=
  match files.lookUp path with
  | .ok (.file text) => .ok text
  | .ok .directory => .error .isADirectory
  | .error error => .error error

/-- Whether a path ends with a slash. -/
def endsWithSlash (path : Path) : Bool :=
  path.text.toList.getLast? == some '/'

/-- A path without the slashes it ends with. -/
def withoutEndSlashes (path : Path) : Path :=
  ⟨String.ofList (path.text.toList.reverse.dropWhile (· = '/')).reverse⟩

/-- Write a file in a directory that exists.  A path that ends with a slash names a
directory, even one that does not exist. -/
def write (files : FileSystem) (path : Path) (text : String) :
    Except FileError FileSystem :=
  match files.locate (withoutEndSlashes path) with
  | .error error => .error error
  | .ok location =>
      if endsWithSlash path || files.entry? location = some .directory then
        .error .isADirectory
      else .ok (files.put location (.file text))

/-- Make one directory in a directory that exists. -/
def makeDirectory (files : FileSystem) (path : Path) : Except FileError FileSystem :=
  let bare := withoutEndSlashes path
  match files.locate bare with
  | .error error => .error error
  | .ok location =>
      if bare.pieces.getLast?.all Path.isName && (files.entry? location).isNone then
        .ok (files.put location .directory)
      else .error .alreadyExists

/-- Make one directory; one that is there already will do. -/
def ensureDirectory (files : FileSystem) (path : Path) : FileSystem × Except FileError Unit :=
  match files.makeDirectory path with
  | .ok made => (made, .ok ())
  | .error error => (files, if files.isDirectory path then .ok () else .error error)

/-- Make a directory, together with those around it that are missing, at most so many.
Directories made before a failure stay. -/
def makeAround (files : FileSystem) (bound : Nat) (path : Path) :
    FileSystem × Except FileError Unit :=
  if path.isEmpty then (files, .ok ())
  else
    match bound, files.ensureDirectory path with
    | bound + 1, (_, .error .notFound) =>
        match path.parent? with
        | none => (files, .error .notFound)
        | some parent =>
            match files.makeAround bound parent with
            | (made, .ok ()) => made.ensureDirectory path
            | failed => failed
    | _, result => result

/-- Make a directory, together with those around it that are missing. -/
def makeDirectories (files : FileSystem) (path : Path) : FileSystem × Except FileError Unit :=
  files.makeAround path.text.length path

/-- Remove whatever stands at the end of a path and below it. -/
def remove (files : FileSystem) (path : Path) : FileSystem :=
  match files.locate path with
  | .error _ => files
  | .ok location =>
      { files with
        entries := ⟨files.entries.entries.filter fun (other, _) => !location.isPrefixOf other⟩ }

/-- Write a file in a directory that is made if it is missing, if that is possible. -/
def place (files : FileSystem) (path : Path) (text : String) : FileSystem :=
  let (made, _) := files.makeDirectories (path.parent?.getD ⟨""⟩)
  (made.write path text).toOption.getD made

/-- The file system with the given files, in directories made for them.  The working
directory is the root. -/
def ofFiles (contents : List (String × String)) : FileSystem :=
  contents.foldl (fun files (path, text) => files.place ⟨path⟩ text) {}

/-- All files with their texts, ordered by the path from the root. -/
def allFiles (files : FileSystem) : List (String × String) :=
  let found := files.entries.entries.filterMap fun (location, entry) =>
    match entry with
    | .file text => some (String.intercalate "/" location, text)
    | .directory => none
  found.mergeSort fun first second => !(second.1 < first.1)

/-- The name of an entry that stands directly in a directory. -/
def nameIn? (directory location : FileLocation) : Option String :=
  if directory.isPrefixOf location && location.length = directory.length + 1 then
    location.getLast?
  else none

/-- The entries of a directory, ordered by name. -/
def children (files : FileSystem) (directory : FileLocation) :
    List (String × FileEntry) :=
  let found := files.entries.entries.filterMap fun (location, entry) =>
    (nameIn? directory location).map fun name => (name, entry)
  found.mergeSort fun first second => !(second.1 < first.1)

/-- The greatest number of names in a location. -/
def depth (files : FileSystem) : Nat :=
  files.entries.keys.foldl (fun deepest location => max deepest location.length) 0

/-- The files below a directory, given by the names that lead there from `start`:
in the order of their names, with the contents of a directory in its place.
Directories that `enters` refuses are left out.  At most so many directories lie
within each other. -/
def visit (files : FileSystem) (enters : FileLocation → Bool) (start : FileLocation) :
    Nat → FileLocation → List FileLocation
  | 0, _ => []
  | bound + 1, inner =>
      (files.children (start ++ inner)).flatMap fun (name, entry) =>
        let next := inner ++ [name]
        match entry with
        | .file _ => [next]
        | .directory =>
            if enters next then files.visit enters start bound next else []

/-- The files below a directory, without the directories that are refused. -/
def filesBelow (files : FileSystem) (enters : FileLocation → Bool)
    (start : FileLocation) : List FileLocation :=
  files.visit enters start (files.depth + 1) []

end FileSystem

end ScriptBridge

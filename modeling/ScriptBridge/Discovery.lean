import ScriptBridge.FileSystem
import ScriptBridge.Pattern.Reader

/-!
# Discovery of sources

The sources of a run are the files of the source language below its input, minus
those that the skip rules leave out.  These are patterns on paths, relative to the
input and with slashes between their parts.  An input may also be a single file.
-/

namespace ScriptBridge

/-- Which directories and files are left out. -/
structure SkipRules where
  directories : List WrittenPattern := []
  files : List WrittenPattern := []
  deriving DecidableEq, Repr

namespace SkipRules

/-- Whether a directory is left out.  Its path is tried as it is and with a slash
at the end, so that a pattern for its contents also leaves out the directory. -/
def skipsDirectory (rules : SkipRules) (path : String) : Bool :=
  rules.directories.any fun rule => rule.occursIn path || rule.occursIn (path ++ "/")

/-- Whether a file is left out. -/
def skipsFile (rules : SkipRules) (path : String) : Bool :=
  rules.files.any fun rule => rule.occursIn path

end SkipRules

/-- A source: where it is, and its path relative to the input. -/
structure SourceFile where
  path : Path
  relative : String
  deriving DecidableEq, Repr

/-- The extension of sources, in any case. -/
def sourceExtension : String :=
  "as"

/-- The extension of generated files. -/
def targetExtension : String :=
  "ts"

/-- Whether a path names a source. -/
def Path.isSource (path : Path) : Bool :=
  match path.extension? with
  | some extension => extension.toList.map Char.toLower == sourceExtension.toList
  | none => false

/-- The path of a relative location with slashes between its names. -/
def relativeText (location : FileLocation) : String :=
  String.intercalate "/" location

/-- The source at a location below the input. -/
def SourceFile.below (input : Path) (location : FileLocation) : SourceFile :=
  ⟨location.foldl (fun path name => path.join ⟨name⟩) input, relativeText location⟩

/-- The sources of an input, in the order of their names. -/
def FileSystem.sources (files : FileSystem) (skip : SkipRules) (input : Path) :
    Except FileError (List SourceFile) :=
  match files.locate input with
  | .error error => .error error
  | .ok start =>
      match files.entry? start with
      | none => .error .notFound
      | some (.file _) =>
          let name := input.fileName?.getD ""
          .ok (if skip.skipsFile name then [] else [⟨input, name⟩])
      | some .directory =>
          let found := files.filesBelow
            (fun directory => !skip.skipsDirectory (relativeText directory)) start
          .ok ((found.map (SourceFile.below input)).filter fun source =>
            source.path.isSource && !skip.skipsFile source.relative)

/-- Where the code of a source is written. -/
def FileSystem.targetPath (files : FileSystem) (input output : Path) (relative : String) :
    Path :=
  let inside := output.join ((Path.mk relative).withExtension targetExtension)
  if files.isFile input && !files.isDirectory output then
    output.withExtension targetExtension
  else inside

end ScriptBridge

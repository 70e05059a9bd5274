/-!
# Imports of types

The types that a file refers to are noted in the order in which they are first
met.  Those that the file neither declares nor imports, and that are not built
in, are imported from the directory of the file.
-/

namespace ScriptBridge

/-- The types of a file: those referred to, without repetition, and the names
that the file brings in by itself. -/
structure TypeImports where
  referenced : List String := []
  imported : List String := []
  deriving DecidableEq, Repr

namespace TypeImports

/-- The names that are never imported. -/
def builtin : List String :=
  ["number", "string", "boolean", "any", "Array", "[]", "Object", "void"]

/-- Whether a name is built in. -/
def isBuiltin (name : String) : Bool :=
  builtin.contains name

/-- Note a reference to a type. -/
def record (types : TypeImports) (name : String) : TypeImports :=
  if isBuiltin name || types.referenced.contains name then types
  else { types with referenced := types.referenced ++ [name] }

/-- Note that the file brings in a name by itself. -/
def noteImported (types : TypeImports) (name : String) : TypeImports :=
  { types with imported := name :: types.imported }

/-- Whether the file brings in a name by itself. -/
def isImported (types : TypeImports) (name : String) : Bool :=
  types.imported.contains name

/-- The types that have to be imported, in the order of their first reference. -/
def pending (types : TypeImports) : List String :=
  types.referenced.filter fun name => !types.isImported name

/-- The directory of a file with a slash at the end; the place of the file
itself if it has none. -/
def moduleDirectory (file : String) : String :=
  let characters := file.toList.map fun character =>
    if character = '\\' then '/' else character
  let directory := (characters.reverse.dropWhile (· ≠ '/')).drop 1
  if directory.isEmpty then "./" else String.ofList ('/' :: directory).reverse

/-- The line that imports a type. -/
def importLine (file name : String) : String :=
  "import \x7b" ++ name ++ "\x7d from \"" ++ moduleDirectory file ++ name ++ "\";\n"

/-- Put the missing imports in front of a text, the last one first. -/
def prepend (types : TypeImports) (file body : String) : String :=
  String.join (types.pending.reverse.map (importLine file)) ++ body

end TypeImports

end ScriptBridge

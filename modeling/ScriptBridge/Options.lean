import ScriptBridge.OrderedMap
import ScriptBridge.Pattern.Reader

/-!
# Options of generation

Names, literals and types may be renamed, and imports from certain paths become
aliases of parts of a global module.
-/

namespace ScriptBridge

/-- Imports from paths that fit a pattern become aliases into a module. -/
structure ImportRule where
  moduleName : String
  path : WrittenPattern
  deriving DecidableEq, Repr

/-- The last segment of a path. -/
def lastSegment (path : String) : String :=
  String.ofList (path.toList.reverse.takeWhile (· ≠ '/')).reverse

/-- What an import from a path becomes an alias of, if the rule applies. -/
def ImportRule.aliasOf? (rule : ImportRule) (path : String) : Option String :=
  if rule.path.occursIn path then some (rule.moduleName ++ "." ++ lastSegment path)
  else none

/-- New names by old names. -/
abbrev Renaming := OrderedMap String String

/-- The new name of a name, which is the name itself if none is given. -/
def Renaming.apply (names : Renaming) (name : String) : String :=
  (names.find? name).getD name

/-- The types of the source language in the target language. -/
def builtinTypeMap : Renaming :=
  ⟨[("int", "number"), ("uint", "number"), ("Number", "number"), ("Boolean", "boolean"),
    ("String", "string"), ("Object", "any")]⟩

/-- Options of one run. -/
structure Options where
  identifiers : Renaming := {}
  literals : Renaming := {}
  types : Renaming := builtinTypeMap
  importRules : List ImportRule := []
  /-- The first error ends the generation of a file. -/
  stopAtError : Bool := true
  /-- Problems are logged with the construct they are about. -/
  detailed : Bool := false
  deriving DecidableEq, Repr

namespace Options

/-- The name of an identifier; the name of a constructor is fixed. -/
def renameIdentifier (options : Options) (name : String) : String :=
  if name = "constructor" then name else options.identifiers.apply name

/-- The text of a literal. -/
def renameLiteral (options : Options) (text : String) : String :=
  options.literals.apply text

/-- The name of a type. -/
def renameType (options : Options) (name : String) : String :=
  options.types.apply name

/-- What an import from a path becomes an alias of, by the first rule that
applies. -/
def importAlias? (options : Options) (path : String) : Option String :=
  options.importRules.findSome? fun rule => rule.aliasOf? path

end Options

end ScriptBridge

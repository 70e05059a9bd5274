import ScriptBridge.Discovery
import ScriptBridge.FileSystem
import ScriptBridge.Json.Record
import ScriptBridge.Options

/-!
# Configuration

A configuration is written as JSON, every field of it being optional.  It is
resolved by reading its patterns; a pattern that is not well-formed makes the
whole configuration unusable.  Loading a configuration from a file also fails when
the file cannot be read.
-/

namespace ScriptBridge

/-- An import rule as it is written. -/
structure WrittenImportRule where
  moduleName : String
  pattern : String
  deriving DecidableEq, Repr

/-- A configuration as it is written. -/
structure WrittenConfiguration where
  skippedDirectories : List String := []
  skippedFiles : List String := []
  identifiers : Renaming := {}
  literals : Renaming := {}
  types : Option Renaming := none
  importRules : List WrittenImportRule := []
  detailed : Bool := false
  stopAtError : Bool := true
  continueLast : Bool := false
  temporaryRoot : String := "tmp/"
  parserCommand : List String := []
  deriving DecidableEq, Repr

/-- What a run is configured with. -/
structure Configuration where
  options : Options := {}
  skip : SkipRules := {}
  continueLast : Bool := false
  temporaryRoot : String := "tmp/"
  parserCommand : List String := []
  deriving DecidableEq, Repr

/-- Why a configuration is unusable. -/
inductive ConfigurationError where
  | badDirectoryPattern (pattern : String)
  | badFilePattern (pattern : String)
  | badImportPattern (moduleName pattern : String)
  deriving DecidableEq, Repr

/-- The message of an unusable configuration. -/
def ConfigurationError.message : ConfigurationError → String
  | .badDirectoryPattern pattern =>
      "invalid skipRule.dirs pattern in configuration: " ++ pattern
  | .badFilePattern pattern => "invalid skipRule.files pattern in configuration: " ++ pattern
  | .badImportPattern moduleName pattern =>
      "invalid importRule pattern for module " ++ moduleName ++ ": " ++ pattern

namespace WrittenConfiguration

/-- A list of strings. -/
def toTexts : JsonText → Except DataError (List String) :=
  JsonText.toList JsonText.toText

/-- New names by old names. -/
def toRenaming : JsonText → Except DataError Renaming :=
  JsonText.toMap JsonText.toText

/-- New names by old names, or null for none. -/
def toMaybeRenaming : JsonText → Except DataError (Option Renaming)
  | .null => .ok none
  | other => (toRenaming other).map some

/-- A path. -/
def toPath (text : JsonText) : Except DataError String :=
  text.glance.bind fun value =>
    match value with
    | .string path => .ok path
    | other => .error (.invalidType other "path string")

/-- The fields of written skip rules. -/
def skipRecord : Record JsonText (List String × List String) :=
  Prod.mk <$> .withDefault "dirs" [] toTexts <*> .withDefault "files" [] toTexts

/-- The fields of a written import rule. -/
def moduleRecord : Record JsonText WrittenImportRule :=
  WrittenImportRule.mk <$> .required "module" JsonText.toText <*>
    .required "regular" JsonText.toText

/-- The fields of the written import rules. -/
def importRecord : Record JsonText (List WrittenImportRule) :=
  .withDefault "fromModule" [] (JsonText.toList (moduleRecord.ofText "struct ModuleRuleConfig"))

/-- Put a configuration together from its fields in the order of declaration. -/
def ofFields (skipped : List String × List String) (identifiers literals : Renaming)
    (types : Option Renaming) (importRules : List WrittenImportRule)
    (detailed stopAtError continueLast : Bool) (temporaryRoot : String)
    (parserCommand : List String) : WrittenConfiguration :=
  ⟨skipped.1, skipped.2, identifiers, literals, types, importRules, detailed, stopAtError,
    continueLast, temporaryRoot, parserCommand⟩

/-- The fields of a written configuration. -/
def record : Record JsonText WrittenConfiguration :=
  ofFields <$> .withDefault "skipRule" ([], []) (skipRecord.ofText "struct SkipRuleConfig") <*>
    .withDefault "idReplacement" {} toRenaming <*>
    .withDefault "literalReplacement" {} toRenaming <*>
    .withDefault "typeMapper" none toMaybeRenaming <*>
    .withDefault "importRule" [] (importRecord.ofText "struct ImportRuleConfig") <*>
    .withDefault "errorDetail" false JsonText.toBool <*>
    .withDefault "terminateWhenError" true JsonText.toBool <*>
    .withDefault "continueLast" false JsonText.toBool <*>
    .withDefault "tmpRoot" "tmp/" toPath <*>
    .withDefault "parserCommand" [] toTexts

/-- Read a configuration. -/
def read (source : String) : Except DataError WrittenConfiguration :=
  JsonText.readWhole (record.ofText "struct As2TsConfig") source

/-- Read patterns, in order; the first that is not well-formed is the error. -/
def readPatterns (failure : String → ConfigurationError) (sources : List String) :
    Except ConfigurationError (List WrittenPattern) :=
  sources.mapM fun source =>
    match WrittenPattern.read? source with
    | some written => .ok written
    | none => .error (failure source)

/-- Read the pattern of an import rule. -/
def readImportRule (rule : WrittenImportRule) : Except ConfigurationError ImportRule :=
  match WrittenPattern.read? rule.pattern with
  | some written => .ok ⟨rule.moduleName, written⟩
  | none => .error (.badImportPattern rule.moduleName rule.pattern)

/-- Read all patterns of a configuration: those for directories, those for files,
and those of import rules. -/
def resolve (written : WrittenConfiguration) : Except ConfigurationError Configuration := do
  let directories ← readPatterns .badDirectoryPattern written.skippedDirectories
  let files ← readPatterns .badFilePattern written.skippedFiles
  let importRules ← written.importRules.mapM readImportRule
  return {
    options := {
      identifiers := written.identifiers
      literals := written.literals
      types := written.types.getD builtinTypeMap
      importRules
      stopAtError := written.stopAtError
      detailed := written.detailed }
    skip := { directories, files }
    continueLast := written.continueLast
    temporaryRoot := written.temporaryRoot
    parserCommand := written.parserCommand }

end WrittenConfiguration

/-- Why no configuration is loaded. -/
inductive ConfigurationFileError where
  | unreadable (path : Path) (cause : FileError)
  | malformed (path : Path)
  | unusable (cause : ConfigurationError)
  deriving DecidableEq, Repr

/-- The message of a failed loading. -/
def ConfigurationFileError.message : ConfigurationFileError → String
  | .unreadable path cause =>
      "failed to read configuration: " ++ path.text ++ ": " ++ cause.message
  | .malformed path => "failed to parse configuration: " ++ path.text
  | .unusable cause => "invalid configuration: " ++ cause.message

/-- The configuration written in a file. -/
def FileSystem.readConfiguration (files : FileSystem) (path : Path) :
    Except ConfigurationFileError WrittenConfiguration :=
  match files.read path with
  | .error cause => .error (.unreadable path cause)
  | .ok text =>
      match WrittenConfiguration.read text with
      | .error _ => .error (.malformed path)
      | .ok written => .ok written

/-- The configuration to run with. -/
def WrittenConfiguration.load (written : WrittenConfiguration) :
    Except ConfigurationFileError Configuration :=
  written.resolve.mapError .unusable

end ScriptBridge

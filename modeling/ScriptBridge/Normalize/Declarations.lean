import ScriptBridge.Normalize.Rule
import ScriptBridge.Pattern.Size

/-!
# Rules for imports, declarations and members

An import of a dotted name that stands alone on its line becomes an import of
its last word from a path.  The constructor gets its fixed name, `final`
disappears, public types are exported, and the package becomes a module.  Fields
lose `var`, constants become read-only, `override` disappears, and methods lose
the word `function`.
-/

namespace ScriptBridge

namespace Normalize

open Pattern

/-- A space or a tab. -/
def lineBlank : CharClass :=
  .ofList [' ', '\t']

/-- A line that imports a dotted name: its indentation is group 1, the name
group 2. -/
def importLine : Pattern :=
  inOrder [.condition .lineStart, .group 1 (zeroOrMore lineBlank), text "import",
    .oneOrMore lineBlank,
    .group 2 (inOrder [.chain .word '.', .oneOrMore .word]),
    zeroOrMore lineBlank,
    optional (inOrder [text ";", zeroOrMore (.complement (.ofList ['\r', '\n']))]),
    optional (text "\r"), .condition .lineEnd]

/-- The part of a dotted name behind its last dot. -/
def lastSegment (name : List Char) : List Char :=
  (name.reverse.takeWhile (· != '.')).reverse

/-- A dotted name as a path. -/
def dottedPath (name : List Char) : List Char :=
  name.map fun character => if character = '.' then '/' else character

/-- Imports name what they take from a path. -/
def destructureImports : Rule :=
  .ofEdits "destructure-imports"
    [⟨importLine, fun found =>
      let name := found.group 2
      found.group 1 ++ "import \x7b".toList ++ lastSegment name ++ "\x7d from \"".toList ++
        dottedPath name ++ "\";".toList⟩]

/-- The placeholder for the name of an anonymous package. -/
def anonymousPackageName : String := "__package"

/-- The head of a class with its name as group 1. -/
def classHead : Pattern :=
  inOrder [boundary, text "class", blanks, .group 1 (.oneOrMore .word)]

/-- The head of a function with the given name. -/
def functionHead (name : List Char) : Pattern :=
  inOrder [boundary, text "function", blanks, .literal name, maybeBlanks, text "("]

/-- The head of a function with the given name, as it would be written. -/
def functionHeadExpression (name : List Char) : PatternExpression :=
  let characters (text : List Char) : List PatternExpression :=
    text.map fun character => .one (.only character)
  .inOrder (.condition (.edge .boundary .word) :: characters "function".toList ++
    .repeated (.one .blank) 1 none true :: characters name ++
    .repeated (.one .blank) 0 none true :: characters ['('])

/-- The first function named like the first class becomes its constructor.  A name that
is too long for a pattern stays. -/
def renameConstructor : Rule where
  name := "constructor-rename"
  apply source :=
    match classHead.find? source with
    | some head =>
        let name := head.group 1
        if (functionHeadExpression name).fitsLimit then
          (functionHead name).replaceFirst (fun _ => "function constructor(".toList) source
        else none
    | none => none

/-- The word `final` disappears with the blanks behind it. -/
def stripFinal : Rule :=
  .ofEdits "strip-final"
    [⟨inOrder [boundary, text "final", boundary, blanks], fun _ => []⟩]

/-- Public classes and interfaces are exported. -/
def exportPublicTypes : Rule :=
  .ofEdits "export-public-types"
    [⟨inOrder [boundary, text "public", blanks,
        .group 1 (anyOf [text "class", text "interface"]), boundary],
      fun found => "export ".toList ++ found.group 1⟩]

/-- The word `package` with its opening brace, or else one blank, as group 1. -/
def packageHead : Pattern :=
  inOrder [boundary, text "package", boundary,
    .group 1 (anyOf [inOrder [maybeBlanks, text "\x7b"], .one .blank])]

/-- The first package becomes a module; an anonymous one is given a name. -/
def packageToModule : Rule where
  name := "package-to-module"
  apply source :=
    packageHead.replaceFirst (fun found =>
      if Text.trim (found.group 1) = ['\x7b'] then
        ("module " ++ anonymousPackageName ++ " \x7b").toList
      else "module".toList ++ found.group 1) source

/-- One of the access words. -/
def accessWord : Pattern :=
  anyOf [text "public", text "protected", text "private"]

/-- An access word or `static`. -/
def modifierWord : Pattern :=
  anyOf [text "public", text "protected", text "private", text "static"]

/-- A modifier, as group 1, in front of the given word. -/
def modified (modifier : Pattern) (word : String) : Pattern :=
  inOrder [boundary, .group 1 modifier, blanks, text word, boundary]

/-- The text of group 1. -/
def firstGroup (found : Match) : List Char :=
  found.group 1

/-- Fields keep their modifiers and lose `var`; `const` becomes `readonly`. -/
def stripFieldVar : Rule :=
  .ofEdits "strip-field-var"
    [⟨modified modifierWord "var", firstGroup⟩,
      ⟨modified modifierWord "const", fun found => found.group 1 ++ " readonly".toList⟩]

/-- The word `override` disappears on either side of an access word. -/
def stripOverride : Rule :=
  .ofEdits "strip-override"
    [⟨modified accessWord "override", firstGroup⟩,
      ⟨inOrder [boundary, text "override", blanks, .group 1 accessWord, boundary], firstGroup⟩]

/-- A named function behind a blank (group 1); what follows the word `function`
is group 2. -/
def namedFunction : Pattern :=
  inOrder [.group 1 (anyOf [.condition .textStart, .one .blank]), text "function", blanks,
    .group 2 (inOrder [
      optional (inOrder [anyOf [text "get", text "set"], blanks]),
      .oneOrMore .word, maybeBlanks, text "("])]

/-- Methods and named functions lose the word `function`. -/
def stripFunctionKeyword : Rule :=
  .ofEdits "strip-function-keyword"
    [⟨modified modifierWord "function", firstGroup⟩,
      ⟨namedFunction, fun found => found.group 1 ++ found.group 2⟩]

end Normalize

end ScriptBridge

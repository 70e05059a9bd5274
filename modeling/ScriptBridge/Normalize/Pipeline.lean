import ScriptBridge.Normalize.Declarations
import ScriptBridge.Normalize.Expressions

/-!
# Normalisation

Source text goes through all rules in a fixed order.  Later rules rely on the
earlier ones: the constructor is recognised by the word `function` before that
word disappears, and `for each` is matched after vectors have become arrays.
-/

namespace ScriptBridge

namespace Normalize

/-- All rules in their order. -/
def rules : List Rule :=
  [renameConstructor, stripFinal, exportPublicTypes, packageToModule, destructureImports,
    stripFieldVar, stripOverride, stripFunctionKeyword, isToInstanceof, vectorToArray,
    forEachToForOf, newShorthands]

/-- The rule with the given name. -/
def rule? (name : String) : Option Rule :=
  rules.find? (·.name == name)

/-- The text after all rules. -/
def normalizeText (source : List Char) : List Char :=
  rules.foldl (fun text rule => rule.run text) source

/-- Normalise a source text. -/
def normalize (source : String) : String :=
  String.ofList (normalizeText source.toList)

/-- The rules that change the text, each with the text after it. -/
def changes : List Rule → List Char → List (String × List Char)
  | [], _ => []
  | rule :: rest, text =>
      let next := rule.run text
      if next = text then changes rest text
      else (rule.name, next) :: changes rest next

end Normalize

end ScriptBridge

import ScriptBridge.Normalize.Rule

/-!
# Rules for expressions and statements

Type tests become `instanceof`, vectors become arrays, `for each` becomes
`for … of`, and two short forms of `new` are spelled out.
-/

namespace ScriptBridge

namespace Normalize

open Pattern

/-- A type test in a condition: group 1 up to the last `is`, group 2 behind. -/
def testInCondition : Pattern :=
  inOrder [boundary, text "if", optional (.one .blank), text "(",
    .group 1 (.oneOrMore .notLineFeed), blanks, text "is", blanks,
    .group 2 (.oneOrMore (.complement .blank)), text ")"]

/-- A type test in an assignment: the sign is group 1, the tested expression
group 2, the type group 3. -/
def testInAssignment : Pattern :=
  inOrder [
    .group 1 (inOrder [.one (.complement (.ofList ['=', '!', '<', '>'])), text "="]),
    maybeBlanks,
    .group 2 (.run (.complement (.ofList ['=', ';', '\r', '\n'])) 1 false),
    blanks, text "is", blanks,
    .group 3 (.oneOrMore (.union .word (.only '.')))]

/-- Type tests in conditions and assignments become `instanceof`. -/
def isToInstanceof : Rule :=
  .ofEdits "is-to-instanceof"
    [⟨testInCondition, fun found =>
        "if(".toList ++ found.group 1 ++ " instanceof ".toList ++ found.group 2 ++ [')']⟩,
      ⟨testInAssignment, fun found =>
        found.group 1 ++ [' '] ++ found.group 2 ++ " instanceof ".toList ++ found.group 3⟩]

/-- Vectors become arrays. -/
def vectorToArray : Rule :=
  .ofEdits "vector-to-array"
    [⟨inOrder [boundary, text "Vector.<"], fun _ => "Array<".toList⟩,
      ⟨inOrder [boundary, text "Vector."], fun _ => "Array.".toList⟩]

/-- The head of a `for each` loop up to its opening parenthesis. -/
def forEachHead : Pattern :=
  inOrder [boundary, text "for", blanks, text "each", maybeBlanks, text "(", maybeBlanks]

/-- A loop that declares its variable, group 1, perhaps with a type. -/
def forEachDeclared : Pattern :=
  inOrder [forEachHead, anyOf [text "var", text "let"], blanks, .group 1 (.oneOrMore .word),
    optional (inOrder [maybeBlanks, text ":", maybeBlanks,
      .oneOrMore (.union .word (.ofList ['.', '<', '>', '*']))]),
    blanks, text "in", blanks]

/-- A loop over a variable that is declared elsewhere. -/
def forEachBare : Pattern :=
  inOrder [forEachHead, .group 1 (.oneOrMore .word), blanks, text "in", blanks]

/-- Loops over values are spelled `for … of`. -/
def forEachToForOf : Rule :=
  .ofEdits "for-each-to-for-of"
    [⟨forEachDeclared, fun found => "for (let ".toList ++ found.group 1 ++ " of ".toList⟩,
      ⟨forEachBare, fun found => "for (".toList ++ found.group 1 ++ " of ".toList⟩]

/-- A new array gets its parentheses, a typed array literal loses its type. -/
def newShorthands : Rule :=
  .ofEdits "new-shorthands"
    [⟨inOrder [boundary, text "new", blanks, text "Array<",
        .group 1 (.oneOrMore (.union .word (.ofList ['.', '<', '>']))), text ">",
        maybeBlanks, text ";"],
      fun found => "new Array<".toList ++ found.group 1 ++ ">();".toList⟩,
      ⟨inOrder [boundary, text "new", maybeBlanks, text "<",
        .oneOrMore (.union .word (.only '.')), text ">", maybeBlanks, text "["],
      fun _ => ['[']⟩]

end Normalize

end ScriptBridge

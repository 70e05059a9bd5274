import ScriptBridge.Emit.Printer
import ScriptBridge.Tree.Children

/-!
# Printing types

Names of types go through the type map and are noted for import.  Names with
dots are written as they are and are never imported.
-/

namespace ScriptBridge

/-- The names of a chain of qualified names, with dots between them. -/
def Node.dottedName? : Node → Option String
  | ⟨_, .identifier name _ _⟩ => some name
  | ⟨_, .qualifiedName left right⟩ =>
      match left.dottedName?, right.dottedName? with
      | some first, some second => some (first ++ "." ++ second)
      | _, _ => none
  | _ => none

namespace Printer

/-- The words for the types named by keywords. -/
def keywordText : KeywordType → String
  | .void => "void"
  | .any => "any"
  | .number => "number"
  | .string => "string"
  | .boolean => "boolean"
  | .null => "null"
  | .undefined => "undefined"
  | .all => "any"

/-- A type behind a colon.  The bare array type has no elements and becomes an
array of anything. -/
def typeClause (type : Part) : Printer Unit := do
  let text ← textOf type.print
  if text = "Array" then write "any[]" else writeVerbatim text

/-- A named type with its arguments. -/
def namedType (name : Part) (typeParameters typeArguments : Option Part) :
    Printer Unit := do
  name.printAs .typeName
  whenPresent (chosenTypeArguments typeParameters typeArguments) Folded.print

/-- Types between angle brackets. -/
def typeList (params : List Part) : Printer Unit := do
  write "<"
  separated (Folded.printAs · .typeName) params
  write ">"

/-- Two names joined by a dot. -/
def qualifiedName (left right : Part) : Printer Unit :=
  match left.node.dottedName?, right.node.dottedName? with
  | some first, some second => do
      write first
      write "."
      write second
  | _, _ => do
      left.print
      write "."
      right.printAs .memberName

/-- An array of an element type. -/
def arrayType (element : Part) : Printer Unit := do
  element.print
  write "[]"

end Printer

end ScriptBridge

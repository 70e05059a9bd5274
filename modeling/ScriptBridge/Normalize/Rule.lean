import ScriptBridge.Pattern.Match

/-!
# Text rules

A rule looks for spellings of the source language and puts the spelling of the
target language in their place.  It reports whether any of its patterns fits,
even if the text comes out the same.
-/

namespace ScriptBridge

/-- A pattern with the text that takes the place of its matches. -/
structure Edit where
  pattern : Pattern
  replacement : Match → List Char

/-- Apply edits one after the other; nothing if none of them fits. -/
def Edit.applyAll : List Edit → List Char → Option (List Char)
  | [], _ => none
  | edit :: rest, text =>
      match edit.pattern.replaceAll edit.replacement text with
      | some changed => some ((applyAll rest changed).getD changed)
      | none => applyAll rest text

/-- A named rule on source text. -/
structure Rule where
  name : String
  apply : List Char → Option (List Char)

/-- The text after a rule, which is the text itself if the rule does not fit. -/
def Rule.run (rule : Rule) (text : List Char) : List Char :=
  (rule.apply text).getD text

/-- A rule that applies edits one after the other. -/
def Rule.ofEdits (name : String) (edits : List Edit) : Rule :=
  ⟨name, Edit.applyAll edits⟩

end ScriptBridge

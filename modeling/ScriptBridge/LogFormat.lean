/-!
# Formats of the log

The log is written as lines of text, as a tree, or as JSON.
-/

namespace ScriptBridge

/-- How the log is written. -/
inductive LogFormat where
  | text
  | tree
  | json
  deriving DecidableEq, Repr

/-- The format with the given name, in any case; lines of text if there is none. -/
def LogFormat.ofName (name : String) : LogFormat :=
  let letters := name.toList.map Char.toLower
  if letters = "tree".toList then .tree
  else if letters = "json".toList then .json
  else .text

end ScriptBridge

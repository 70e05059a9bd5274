import ScriptBridge.Diagnostic.Basic

/-!
# Reports

Diagnostics are listed one on a line, as a place, a severity, a code and a
message.  A report may use colours; a colour that is switched off within the
painted text is switched on again behind that place.
-/

namespace ScriptBridge

namespace Report

/-- The sequence that starts a style of the terminal. -/
def styleStart (style : String) : String :=
  "\x1b[" ++ style ++ "m"

/-- The sequence that ends every style. -/
def styleEnd : String :=
  "\x1b[0m"

/-- A text in the given style, or plain. -/
def paint (coloured : Bool) (style text : String) : String :=
  if coloured then
    styleStart style ++ Text.substitute styleEnd (styleEnd ++ styleStart style) text ++ styleEnd
  else text

/-- The style of a severity. -/
def severityStyle : Severity → String
  | .error => "1;31"
  | .warning => "1;33"
  | .message => "1;36"

/-- Where a diagnostic was met. -/
def place (diagnostic : Diagnostic) : String :=
  if diagnostic.file.isEmpty then "<unknown>"
  else
    diagnostic.file ++ "(" ++ toString diagnostic.line ++ ":" ++
      toString diagnostic.column ++ ")"

/-- The line of a diagnostic. -/
def line (coloured : Bool) (diagnostic : Diagnostic) : String :=
  paint coloured "36" (place diagnostic) ++ " - " ++
    paint coloured (severityStyle diagnostic.severity) diagnostic.severity.word ++ " " ++
    paint coloured "94" ("AS" ++ toString diagnostic.code) ++ ": " ++ diagnostic.text

/-- The lines of several diagnostics. -/
def render (coloured : Bool) (diagnostics : List Diagnostic) : String :=
  String.intercalate "\n" (diagnostics.map (line coloured))

/-- A number of things, in the singular for one. -/
def counted (count : Nat) (word : String) : String :=
  toString count ++ " " ++ word ++ (if count = 1 then "" else "s")

/-- How many diagnostics have a severity. -/
def countOf (severity : Severity) (diagnostics : List Diagnostic) : Nat :=
  diagnostics.countP fun diagnostic => diagnostic.severity == severity

/-- How many errors and warnings there are. -/
def summary (diagnostics : List Diagnostic) : String :=
  "Found " ++ counted (countOf .error diagnostics) "error" ++ " and " ++
    counted (countOf .warning diagnostics) "warning" ++ "."

end Report

end ScriptBridge

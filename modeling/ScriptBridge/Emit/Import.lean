import ScriptBridge.Emit.Printer

/-!
# Printing imports and exports

An import lists the names it binds, or becomes an alias if a rule of the options
applies to its path.  The names it binds count as known types.
-/

namespace ScriptBridge

/-- An imported name: how it is written, and the name it binds. -/
structure ImportedName where
  text : String
  bound : String
  deriving DecidableEq, Repr

/-- The name that a specifier imports. -/
def Options.importedName? (options : Options) (specifier : Node) : Option ImportedName :=
  match specifier.shape with
  | .importSpecifier imported binding =>
      imported.identifier?.map fun source =>
        let name := options.renameIdentifier source
        match (binding.bind Node.identifier?).map options.renameIdentifier with
        | some bound =>
            if bound = name then ⟨name, bound⟩ else ⟨name ++ " as " ++ bound, bound⟩
        | none => ⟨name, name⟩
  | .importBinding form binding =>
      binding.identifier?.map fun source =>
        let bound := options.renameIdentifier source
        match form with
        | .default => ⟨bound, bound⟩
        | .namespaced => ⟨"* as " ++ bound, bound⟩
  | _ => none

/-- The names of an import: a default, a whole module, and names between braces. -/
structure ImportClause where
  default : Option String := none
  namespaced : Option String := none
  named : List String := []
  deriving DecidableEq, Repr

namespace ImportClause

/-- Add the written form of a specifier. -/
def add (clause : ImportClause) (specifier : Node) (text : String) : ImportClause :=
  match specifier.shape with
  | .importBinding .default _ => { clause with default := some text }
  | .importBinding .namespaced _ => { clause with namespaced := some text }
  | _ => { clause with named := clause.named ++ [text] }

/-- The names without braces. -/
def bare (clause : ImportClause) : List String :=
  clause.default.toList ++ clause.namespaced.toList

/-- All names in a row. -/
def names (clause : ImportClause) : String :=
  String.intercalate ", " (clause.bare ++ clause.named)

/-- The parts of the clause, the named ones between braces. -/
def clauses (clause : ImportClause) : List String :=
  clause.bare ++
    if clause.named.isEmpty then []
    else ["\x7b" ++ String.intercalate ", " clause.named ++ "\x7d"]

end ImportClause

namespace Printer

/-- The written form of a specifier, whose bound name becomes known.  Anything
else is reported. -/
def importedText (specifier : Node) : Printer (Option String) := do
  match (← options).importedName? specifier with
  | some imported =>
      modifyTypes fun types => types.noteImported imported.bound
      return some imported.text
  | none =>
      unsupported specifier.location.start specifier.tag
      return none

/-- Gather the names of an import. -/
def importClause (clause : ImportClause) : List Part → Printer ImportClause
  | [] => pure clause
  | specifier :: rest => do
      match ← importedText specifier.node with
      | some text => importClause (clause.add specifier.node text) rest
      | none => importClause clause rest

/-- An import of names from a module. -/
def importDeclaration (specifiers : List Part) (source : Part) : Printer Unit := do
  let clause ← importClause {} specifiers
  write "import "
  match source.node.stringLiteral?.bind (← options).importAlias? with
  | some binding =>
      write clause.names
      write " = "
      write binding
  | none =>
      if !clause.clauses.isEmpty then
        write (String.intercalate ", " clause.clauses)
        write " from "
      source.print

/-- A specifier by itself. -/
def specifier (node : Node) : Printer Unit := do
  match ← importedText node with
  | some text => write text
  | none => pure ()

/-- An exported declaration; lists of exported names are not converted. -/
def exportNamed (place : Position) (declaration : Option Part) (specifiers : List Part) :
    Printer Unit :=
  match declaration with
  | some part => part.printAs .exported
  | none => unsupportedIf (!specifiers.isEmpty) place "ExportSpecifier"

/-- A default export. -/
def exportDefault (declaration : Part) : Printer Unit := do
  write "export default "
  declaration.print

end Printer

end ScriptBridge

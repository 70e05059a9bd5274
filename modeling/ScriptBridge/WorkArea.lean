import ScriptBridge.Discovery

/-!
# The work area

Between its phases a run keeps files in a work area: the normalized text and the
tree of every source, the index of class members, and the last checkpoint.
-/

namespace ScriptBridge

/-- The directory of a work area. -/
structure WorkArea where
  root : Path
  deriving DecidableEq, Repr

namespace WorkArea

/-- Where the normalized text of a source is kept. -/
def text (area : WorkArea) (relative : String) : Path :=
  (area.root.join ⟨"ts"⟩).join ((Path.mk relative).withExtension targetExtension)

/-- Where the tree of a source is kept. -/
def tree (area : WorkArea) (relative : String) : Path :=
  (area.root.join ⟨"ast"⟩).join ((Path.mk relative).withExtension "json")

/-- Where the last checkpoint is kept. -/
def checkpoint (area : WorkArea) : Path :=
  area.root.join ⟨"last.txt"⟩

/-- Where the index is kept for reading by eye. -/
def indexDump (area : WorkArea) : Path :=
  area.root.join ⟨"analysor.txt"⟩

/-- Where the index is kept as JSON. -/
def index (area : WorkArea) : Path :=
  area.root.join ⟨"analysor.json"⟩

end WorkArea

end ScriptBridge

/-!
# Checkpoints

Before each file a run notes where it stands: its input, its output and the
file.  A later run over the same input and output may resume there, skipping
every file in front of the one noted.
-/

namespace ScriptBridge

/-- Where a run stands. -/
structure Checkpoint where
  input : String
  output : String
  file : String
  deriving DecidableEq, Repr

namespace Checkpoint

/-- The text in front of the first bar and the text behind it. -/
def splitAtBar (text : List Char) : Option (List Char × List Char) :=
  match text.dropWhile (· ≠ '|') with
  | _ :: rest => some (text.takeWhile (· ≠ '|'), rest)
  | [] => none

/-- A text without the line ends behind it. -/
def withoutLineEnds (text : List Char) : List Char :=
  (text.reverse.dropWhile fun character => character = '\r' || character = '\n').reverse

/-- Read a checkpoint: three parts with bars between them, where the last one may
hold bars itself. -/
def read? (text : String) : Option Checkpoint := do
  let (input, afterInput) ← splitAtBar (withoutLineEnds text.toList)
  let (output, file) ← splitAtBar afterInput
  return ⟨String.ofList input, String.ofList output, String.ofList file⟩

/-- Write a checkpoint. -/
def render (checkpoint : Checkpoint) : String :=
  checkpoint.input ++ "|" ++ checkpoint.output ++ "|" ++ checkpoint.file

end Checkpoint

/-- From which file on a run goes over its files: from a given one, or from the
first.  `reached` says whether the run has come to that file. -/
structure Resumption where
  target : Option String := none
  reached : Bool := false
  deriving DecidableEq, Repr

namespace Resumption

/-- Go over every file. -/
def everything : Resumption := {}

/-- Go over the files from the given one on. -/
def startingAt (file : String) : Resumption :=
  { target := some file }

/-- Whether files in front of a certain one are passed over. -/
def isResuming (resumption : Resumption) : Bool :=
  resumption.target.isSome

/-- Whether the next file is gone over, with what holds for those behind it. -/
def admits (resumption : Resumption) (file : String) : Resumption × Bool :=
  match resumption.target with
  | none => (resumption, true)
  | some target =>
      let reached := resumption.reached || target == file
      ({ resumption with reached }, reached)

/-- The same resumption before any file. -/
def rewound (resumption : Resumption) : Resumption :=
  { resumption with reached := false }

/-- The items that are gone over. -/
def admitted {Item : Type} (file : Item → String) : Resumption → List Item → List Item
  | _, [] => []
  | resumption, item :: rest =>
      let (next, admits) := resumption.admits (file item)
      if admits then item :: admitted file next rest else admitted file next rest

/-- Go on with an earlier run: from its checkpoint on, if that belongs to the same
input and output. -/
def ofCheckpoint (checkpoint : Option Checkpoint) (input output : String) : Resumption :=
  match checkpoint with
  | some noted =>
      if noted.input = input ∧ noted.output = output then startingAt noted.file
      else everything
  | none => everything

end Resumption

end ScriptBridge

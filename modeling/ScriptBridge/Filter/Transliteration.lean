import ScriptBridge.Filter.Basic

/-!
# Transliteration

The filter `tr` replaces, deletes or squeezes bytes.  Its sets are written as
characters, ranges, escapes and named classes.
-/

namespace ScriptBridge

namespace Filter

/-- The bytes from one to another. -/
def byteRange (first last : UInt8) : Bytes :=
  (List.range' first.toNat (last.toNat + 1 - first.toNat)).map Nat.toUInt8

/-- The named classes of bytes. -/
def byteClasses : List (String × Bytes) :=
  let lower := byteRange 0x61 0x7A
  let upper := byteRange 0x41 0x5A
  let digits := byteRange 0x30 0x39
  let graph := byteRange 0x21 0x7E
  [("alnum", digits ++ upper ++ lower),
   ("alpha", upper ++ lower),
   ("blank", [0x09, 0x20]),
   ("cntrl", byteRange 0x00 0x1F ++ [0x7F]),
   ("digit", digits),
   ("graph", graph),
   ("lower", lower),
   ("print", 0x20 :: graph),
   ("punct", graph.filter fun byte => !(digits ++ upper ++ lower).contains byte),
   ("space", byteRange 0x09 0x0D ++ [0x20]),
   ("upper", upper),
   ("xdigit", digits ++ byteRange 0x41 0x46 ++ byteRange 0x61 0x66)]

/-- Read one byte of a set, by itself or as an escape. -/
def readByte : Bytes → Option (UInt8 × Bytes)
  | [] => none
  | 0x5C :: next :: rest =>
      let digits := octalDigits 3 ((next :: rest).map fun byte => Char.ofNat byte.toNat)
      if digits.isEmpty then
        some ((escapeByte? (Char.ofNat next.toNat)).getD next, rest)
      else some (octalByte digits, (next :: rest).drop digits.length)
  | byte :: rest => some (byte, rest)

/-- A part of a set: some bytes, or one byte repeated so often, up to the length of the
other set if no count is given. -/
inductive SetPart where
  | members (bytes : Bytes)
  | repeated (byte : UInt8) (count : Option Nat)
  deriving DecidableEq, Repr

/-- A byte as it is shown in a complaint. -/
def shownByte (byte : UInt8) : String :=
  if 0x20 ≤ byte.toNat && byte.toNat < 0x7F then String.singleton (Char.ofNat byte.toNat)
  else
    let digit (place : Nat) := Char.ofNat ('0'.toNat + byte.toNat / place % 8)
    String.ofList ['\\', digit 64, digit 8, digit 1]

/-- Read a named class behind its opening bracket. -/
def readByteClass (input : Bytes) : Option (Except String (SetPart × Bytes)) :=
  match input with
  | 0x3A :: rest =>
      let name := rest.takeWhile (· ≠ 0x3A)
      match rest.drop name.length with
      | 0x3A :: 0x5D :: after =>
          match byteClasses.lookup (Utf8.repair name) with
          | some members => some (.ok (.members members, after))
          | none => some (.error ("invalid character class '" ++ Utf8.repair name ++ "'"))
      | _ => none
  | 0x3D :: byte :: 0x3D :: 0x5D :: after => some (.ok (.members [byte], after))
  | _ => none

/-- Read a repeated byte behind its opening bracket: the byte, a star, and a count that
may be missing. -/
def readRepeat (input : Bytes) : Option (SetPart × Bytes) :=
  match readByte input with
  | some (byte, 0x2A :: rest) =>
      let digits := rest.takeWhile fun digit => 0x30 ≤ digit && digit ≤ 0x39
      match rest.drop digits.length with
      | 0x5D :: after =>
          let count := (Utf8.repair digits).toNat?.getD 0
          some (.repeated byte (if count = 0 then none else some count), after)
      | _ => none
  | _ => none

/-- Read a set, at most so many steps.  A range from a greater to a smaller byte
is not well-formed. -/
def readByteSet : Nat → Bytes → Except String (List SetPart)
  | 0, _ => .ok []
  | _, [] => .ok []
  | bound + 1, first :: rest =>
      let inBrackets := if first = 0x5B then readByteClass rest else none
      let repeats := if first = 0x5B then readRepeat rest else none
      match inBrackets, repeats with
      | some (.error reason), _ => .error reason
      | some (.ok (part, after)), _ => (readByteSet bound after).map (part :: ·)
      | none, some (part, after) => (readByteSet bound after).map (part :: ·)
      | none, none =>
          match readByte (first :: rest) with
          | none => .ok []
          | some (low, 0x2D :: next :: after) =>
              match readByte (next :: after) with
              | some (high, behind) =>
                  if high < low then
                    .error ("range-endpoints of '" ++ shownByte low ++ "-" ++ shownByte high ++
                      "' are in reverse collating sequence order")
                  else (readByteSet bound behind).map (.members (byteRange low high) :: ·)
              | none => .ok []
          | some (byte, after) => (readByteSet bound after).map (.members [byte] :: ·)

/-- The number of bytes of parts, those without a count left out. -/
def countedLength (parts : List SetPart) : Nat :=
  parts.foldr (fun part length =>
    match part with
    | .members bytes => bytes.length + length
    | .repeated _ count => count.getD 0 + length) 0

/-- The bytes of a set that is to be as long as the given length, if it can. -/
def spread (length : Nat) (parts : List SetPart) : Bytes :=
  parts.flatMap fun part =>
    match part with
    | .members bytes => bytes
    | .repeated byte count =>
        List.replicate (count.getD (length - countedLength parts)) byte

/-- What `tr` is asked to do. -/
structure Transliteration where
  complement : Bool := false
  delete : Bool := false
  squeeze : Bool := false
  truncate : Bool := false
  sets : List String := []

namespace Transliteration

/-- Set the options that the letters of an argument name. -/
def addLetters (task : Transliteration) : List Char → Except String Transliteration
  | [] => .ok task
  | 'c' :: rest => { task with complement := true }.addLetters rest
  | 'C' :: rest => { task with complement := true }.addLetters rest
  | 'd' :: rest => { task with delete := true }.addLetters rest
  | 's' :: rest => { task with squeeze := true }.addLetters rest
  | 't' :: rest => { task with truncate := true }.addLetters rest
  | letter :: _ => .error ("invalid option -- '" ++ String.singleton letter ++ "'")

/-- Set the option with a long name. -/
def addOption (task : Transliteration) (option : String) : Except String Transliteration :=
  match option with
  | "--complement" => .ok { task with complement := true }
  | "--delete" => .ok { task with delete := true }
  | "--squeeze-repeats" => .ok { task with squeeze := true }
  | "--truncate-set1" => .ok { task with truncate := true }
  | _ => .error ("unrecognized option '" ++ option ++ "'")

/-- Read arguments: options first, then sets. -/
def ofArguments (task : Transliteration) : List String → Except String Transliteration
  | [] => .ok task
  | argument :: rest =>
      if !task.sets.isEmpty then .ok { task with sets := task.sets ++ argument :: rest }
      else
        match argument.toList with
        | '-' :: '-' :: [] => .ok { task with sets := rest }
        | '-' :: '-' :: _ => (task.addOption argument).bind (·.ofArguments rest)
        | '-' :: letter :: letters =>
            (task.addLetters (letter :: letters)).bind (·.ofArguments rest)
        | _ => { task with sets := [argument] }.ofArguments rest

/-- Why the number of sets is wrong, if it is. -/
def wrongCount? (task : Transliteration) : Option String :=
  let least := if task.delete = task.squeeze then 2 else 1
  let most := if task.delete && !task.squeeze then 1 else 2
  match task.sets with
  | [] => some "missing operand"
  | [only] =>
      if least ≤ 1 then none
      else
        some ("missing operand after '" ++ only ++ "'\nTwo strings must be given when " ++
          (if task.squeeze then "both deleting and squeezing repeats." else "translating."))
  | _ :: second :: further =>
      if most < 2 then
        some ("extra operand '" ++ second ++ "'" ++
          (if further.isEmpty then
            "\nOnly one string may be given when deleting without squeezing repeats."
          else ""))
      else further.head?.map fun extra => "extra operand '" ++ extra ++ "'"

/-- Keep one of several equal bytes of a set that follow each other. -/
def squeezed (members : Bytes) (previous : Option UInt8) (gathered : Bytes) : Bytes → Bytes
  | [] => gathered.reverse
  | byte :: rest =>
      if previous = some byte && members.contains byte then
        squeezed members previous gathered rest
      else squeezed members (some byte) (byte :: gathered) rest

/-- The byte that takes the place of a byte: its partner in the second set, the
last one where that set is shorter. -/
def replacement (first second : Bytes) (byte : UInt8) : UInt8 :=
  match first.reverse.findIdx? (· = byte) with
  | none => byte
  | some place =>
      let index := first.length - 1 - place
      match second[index]? with
      | some partner => partner
      | none => second.getLast?.getD byte

/-- The bytes of a set, or all others. -/
def chosen (task : Transliteration) (members : Bytes) : Bytes :=
  if task.complement then (byteRange 0x00 0xFF).filter fun byte => !members.contains byte
  else members

/-- The first set as it counts: cut to the length of the second one if that is asked
for. -/
def kept (task : Transliteration) (members others : Bytes) : Bytes :=
  if task.truncate then members.take others.length else members

/-- Do what is asked for, given the sets. -/
def apply (task : Transliteration) (first : Bytes) (second : Option Bytes) (input : Bytes) :
    Bytes :=
  let members := task.chosen first
  match task.delete, second with
  | true, none => input.filter fun byte => !members.contains byte
  | true, some others =>
      squeezed others none [] (input.filter fun byte => !members.contains byte)
  | false, none => squeezed members none [] input
  | false, some others =>
      let replaced := input.map (replacement (task.kept members others) others)
      if task.squeeze then squeezed others none [] replaced else replaced

/-- The sets of a task. -/
def readSets (task : Transliteration) : Except String (Bytes × Option Bytes) := do
  let read (set : String) : Except String (List SetPart) :=
    let bytes := Utf8.encode set
    readByteSet bytes.length bytes
  let first ← (task.sets.head?.map read).getD (.ok [])
  let members := spread 0 first
  match task.sets[1]? with
  | none => return (members, none)
  | some set =>
      let others := spread (task.chosen members).length (← read set)
      if others.isEmpty && !members.isEmpty && !task.delete && !task.truncate then
        throw "when not truncating set1, string2 must be non-empty"
      return (members, some others)

end Transliteration

/-- The filter that replaces, deletes or squeezes bytes. -/
def transliterate (arguments : List String) (input : Bytes) : Outcome :=
  let refuse (reason : String) : Outcome := complain 1 ("tr: " ++ reason) input
  let hint := "\nTry 'tr --help' for more information."
  match Transliteration.ofArguments {} arguments with
  | .error reason => refuse (reason ++ hint)
  | .ok task =>
      match task.wrongCount?, task.readSets with
      | some reason, _ => refuse (reason ++ hint)
      | none, .error reason => refuse reason
      | none, .ok (first, second) => { output := task.apply first second input }

end Filter

end ScriptBridge

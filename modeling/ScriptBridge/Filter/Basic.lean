import ScriptBridge.FileSystem
import ScriptBridge.Text.Utf8

/-!
# Filters

A filter reads bytes and writes bytes, some of them as complaints, and ends with
a status.  The filters of this library are the few standard ones that turn one
text into another: `cat`, `echo`, `printf` and `tr`.
-/

namespace ScriptBridge

namespace Filter

/-- What a filter came to: its status, what it wrote, its complaints, and what it
left unread. -/
structure Outcome where
  status : Nat := 0
  output : Bytes := []
  complaints : Bytes := []
  unread : Bytes := []
  deriving DecidableEq, Repr

/-- A filter that fails with a complaint. -/
def complain (status : Nat) (message : String) (input : Bytes) : Outcome :=
  { status, complaints := Utf8.encode (message ++ "\n"), unread := input }

/-- The digits of an octal number at the start of a text, at most so many. -/
def octalDigits : Nat → List Char → List Char
  | 0, _ => []
  | _, [] => []
  | bound + 1, digit :: rest =>
      if '0' ≤ digit && digit ≤ '7' then digit :: octalDigits bound rest else []

/-- The byte that octal digits stand for. -/
def octalByte (digits : List Char) : UInt8 :=
  (digits.foldl (fun number digit => 8 * number + (digit.toNat - '0'.toNat)) 0).toUInt8

/-- The byte that a letter stands for behind a backslash. -/
def escapeByte? : Char → Option UInt8
  | 'a' => some 0x07
  | 'b' => some 0x08
  | 'f' => some 0x0C
  | 'n' => some 0x0A
  | 'r' => some 0x0D
  | 't' => some 0x09
  | 'v' => some 0x0B
  | '\\' => some 0x5C
  | _ => none

/-- The bytes of a character. -/
def charBytes (character : Char) : Bytes :=
  Utf8.encode (String.singleton character)

/-- What is read under a name, with what is left of the input. -/
def readNamed (files : FileSystem) (name : String) (input : Bytes) :
    Except FileError (Bytes × Bytes) :=
  if name = "-" || name = "/dev/stdin" then .ok (input, [])
  else if name = "/dev/null" then .ok ([], input)
  else (files.read ⟨name⟩).map fun text => (Utf8.encode text, input)

/-- Copy what is read under each name. -/
def copyAll (files : FileSystem) (input : Bytes) (outcome : Outcome) : List String → Outcome
  | [] => { outcome with unread := input }
  | name :: rest =>
      match readNamed files name input with
      | .ok (bytes, left) =>
          copyAll files left { outcome with output := outcome.output ++ bytes } rest
      | .error error =>
          copyAll files input { outcome with
            status := 1
            complaints := outcome.complaints ++
              Utf8.encode ("cat: " ++ name ++ ": " ++ error.reason ++ "\n") } rest

/-- The filter that copies its input or files. -/
def copy (files : FileSystem) (arguments : List String) (input : Bytes) : Outcome :=
  let names := match arguments.dropWhile (· == "-u") with
    | "--" :: rest => rest
    | rest => rest
  copyAll files input {} (if names.isEmpty then ["-"] else names)

/-- The bytes of a text with escapes, at most so many steps, and whether the text
goes on behind them; an octal escape has a leading zero and up to three more
digits. -/
def echoBytes : Nat → List Char → Bytes × Bool
  | 0, _ => ([], true)
  | _, [] => ([], true)
  | bound + 1, '\\' :: letter :: rest =>
      if letter = 'c' then ([], false)
      else if letter = '0' then
        let digits := octalDigits 3 rest
        let (after, goesOn) := echoBytes bound (rest.drop digits.length)
        (octalByte digits :: after, goesOn)
      else
        let (after, goesOn) := echoBytes bound rest
        match escapeByte? letter with
        | some byte => (byte :: after, goesOn)
        | none => (charBytes '\\' ++ charBytes letter ++ after, goesOn)
  | bound + 1, character :: rest =>
      let (after, goesOn) := echoBytes bound rest
      (charBytes character ++ after, goesOn)

/-- The filter that writes its arguments, with or without escapes in them. -/
def writeWords (escapes ended : Bool) (words : List String) (input : Bytes) : Outcome :=
  let text := String.intercalate " " words
  let (bytes, goesOn) :=
    if escapes then echoBytes text.length text.toList else (Utf8.encode text, true)
  { output := bytes ++ (if goesOn && ended then [0x0A] else []), unread := input }

/-- The filter that writes its arguments, as scripts know it. -/
def echo (arguments : List String) (input : Bytes) : Outcome :=
  match arguments with
  | "-n" :: rest => writeWords true false rest input
  | _ => writeWords true true arguments input

/-- The filter that writes its arguments, as a program of its own: escapes count only
if they are asked for. -/
def echoProgram (escapes ended : Bool) (arguments : List String) (input : Bytes) : Outcome :=
  match arguments with
  | [] => writeWords escapes ended [] input
  | word :: rest =>
      match word.toList with
      | '-' :: letter :: letters =>
          let flags := letter :: letters
          if flags.all fun flag => ['n', 'e', 'E'].contains flag then
            let last := flags.reverse.find? (· ≠ 'n')
            let wanted := match last with
              | some flag => flag == 'e'
              | none => escapes
            echoProgram wanted (ended && !flags.contains 'n') rest input
          else writeWords escapes ended arguments input
      | _ => writeWords escapes ended arguments input

/-- The bytes of an argument in the format with the given letter. -/
def formatArgument (letter : Char) (argument : String) : Bytes :=
  if letter = 'd' || letter = 'i' || letter = 'u' then
    Utf8.encode (toString (argument.toInt?.getD 0))
  else if letter = 'c' then Utf8.encode (argument.take 1).toString
  else if letter = 'b' then (echoBytes argument.length argument.toList).1
  else Utf8.encode argument

/-- The bytes of a format with the arguments put in, at most so many steps, with
the arguments left over. -/
def formatBytes (arguments : List String) : Nat → List Char → Bytes × List String
  | 0, _ => ([], arguments)
  | _, [] => ([], arguments)
  | bound + 1, '\\' :: letter :: rest =>
      let digits := octalDigits 3 (letter :: rest)
      if digits.isEmpty then
        let (after, left) := formatBytes arguments bound rest
        match escapeByte? letter with
        | some byte => (byte :: after, left)
        | none => (charBytes '\\' ++ charBytes letter ++ after, left)
      else
        let (after, left) := formatBytes arguments bound ((letter :: rest).drop digits.length)
        (octalByte digits :: after, left)
  | bound + 1, '%' :: '%' :: rest =>
      let (after, left) := formatBytes arguments bound rest
      (charBytes '%' ++ after, left)
  | bound + 1, '%' :: letter :: rest =>
      let (after, left) := formatBytes (arguments.drop 1) bound rest
      (formatArgument letter (arguments.head?.getD "") ++ after, left)
  | bound + 1, character :: rest =>
      let (after, left) := formatBytes arguments bound rest
      (charBytes character ++ after, left)

/-- Use a format again until all arguments are put in, at most so often. -/
def formatAll (format : List Char) : Nat → List String → Bytes
  | 0, _ => []
  | bound + 1, arguments =>
      let (bytes, left) := formatBytes arguments format.length format
      if left.isEmpty || left.length = arguments.length then bytes
      else bytes ++ formatAll format bound left

/-- The filter that writes its arguments in a format. -/
def format (layout : String) (values : List String) (input : Bytes) : Outcome :=
  { output := formatAll layout.toList (values.length + 1) values, unread := input }

end Filter

end ScriptBridge

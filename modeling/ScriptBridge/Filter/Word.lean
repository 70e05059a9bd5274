import ScriptBridge.Filter.Basic

/-!
# The words of scripts

A script is cut into words and signs.  A word is made of pieces: text that stands
for itself, parameters, and inner scripts whose output is put in.  Quoted pieces
stay together; what is put in for others may fall into several words.
-/

namespace ScriptBridge

namespace Filter

/-- A parameter of a script. -/
inductive Parameter where
  /-- The status of the last command. -/
  | status
  /-- The number of the process that runs the script. -/
  | process
  /-- The number of arguments. -/
  | count
  /-- The name of the script, and behind it its arguments. -/
  | argument (index : Nat)
  | variable (name : String)
  deriving DecidableEq, Repr

/-- A piece of a word. -/
inductive Piece where
  | text (value : String) (quoted : Bool)
  | parameter (meant : Parameter) (quoted : Bool)
  | script (source : String) (quoted : Bool)
  deriving DecidableEq, Repr

/-- A word is made of pieces. -/
abbrev Word := List Piece

namespace Word

/-- The text of a word without quotes and without anything to put in. -/
def bare? : Word → Option String
  | [] => some ""
  | .text value false :: rest => (bare? rest).map (value ++ ·)
  | _ => none

/-- A word whose pieces are all quoted. -/
def quoted : Word → Word :=
  List.map fun piece =>
    match piece with
    | .text value _ => .text value true
    | .parameter meant _ => .parameter meant true
    | .script source _ => .script source true

/-- Whether a text can be the name of a variable. -/
def isVariableName (name : String) : Bool :=
  match name.toList with
  | first :: rest =>
      (first.isAlpha || first == '_') && rest.all fun letter => letter.isAlphanum || letter == '_'
  | [] => false

/-- The name and the value that a word assigns. -/
def assignment? (name : String) : Word → Option (String × Word)
  | .text "=" false :: value => if isVariableName name then some (name, value) else none
  | .text letter false :: rest => assignment? (name ++ letter) rest
  | _ => none

end Word

/-- What a redirection does. -/
inductive RedirectionKind where
  | read
  | write
  | append
  | duplicate
  deriving DecidableEq, Repr

/-- A sign between words. -/
inductive Sign where
  | semicolon
  | newline
  | pipe
  | onSuccess
  | onFailure
  | opening
  | closing
  | redirection (source : Nat) (kind : RedirectionKind)
  deriving DecidableEq, Repr

/-- A token of a script. -/
inductive Token where
  | word (pieces : Word)
  | sign (value : Sign)
  deriving DecidableEq, Repr

/-- The inner script up to its closing parenthesis, with what follows it.  Inside
quotes parentheses do not count. -/
def innerScript (depth : Nat) (quote : Option Char) (gathered : List Char) :
    List Char → Option (String × List Char)
  | [] => none
  | '\\' :: character :: rest =>
      if quote = some '\'' then
        innerScript depth (if character = '\'' then none else quote)
          (character :: '\\' :: gathered) rest
      else innerScript depth quote (character :: '\\' :: gathered) rest
  | character :: rest =>
      match quote with
      | some mark =>
          innerScript depth (if character = mark then none else quote) (character :: gathered)
            rest
      | none =>
          if character = '\'' || character = '"' then
            innerScript depth (some character) (character :: gathered) rest
          else if character = '(' then
            innerScript (depth + 1) none (character :: gathered) rest
          else if character = ')' then
            match depth with
            | 0 => some (String.ofList gathered.reverse, rest)
            | outer + 1 => innerScript outer none (character :: gathered) rest
          else innerScript depth none (character :: gathered) rest

/-- The inner script up to the closing grave accent, with what follows it. -/
def accentedScript (gathered : List Char) : List Char → Option (String × List Char)
  | [] => none
  | '\\' :: character :: rest =>
      if ['\\', '$', '\x60'].contains character then accentedScript (character :: gathered) rest
      else accentedScript (character :: '\\' :: gathered) rest
  | '\x60' :: rest => some (String.ofList gathered.reverse, rest)
  | character :: rest => accentedScript (character :: gathered) rest

/-- What a dollar sign in front of a text stands for, with what follows it. -/
def readExpansion (quoted : Bool) (input : List Char) : Option (Piece × List Char) :=
  match input with
  | '$' :: rest => some (.parameter .process quoted, rest)
  | '?' :: rest => some (.parameter .status quoted, rest)
  | '#' :: rest => some (.parameter .count quoted, rest)
  | '(' :: rest =>
      (innerScript 0 none [] rest).map fun (source, after) => (.script source quoted, after)
  | '\x7b' :: rest =>
      let name := String.ofList (rest.takeWhile (· ≠ '\x7d'))
      match rest.drop name.length with
      | _ :: after =>
          if Word.isVariableName name then some (.parameter (.variable name) quoted, after)
          else name.toNat?.map fun index => (.parameter (.argument index) quoted, after)
      | [] => none
  | character :: rest =>
      if character.isDigit then
        some (.parameter (.argument (character.toNat - '0'.toNat)) quoted, rest)
      else
        let name := input.takeWhile fun letter => letter.isAlphanum || letter == '_'
        if name.isEmpty then some (.text "$" quoted, input)
        else some (.parameter (.variable (String.ofList name)) quoted, input.drop name.length)
  | [] => some (.text "$" quoted, [])

/-- Whether a character ends a bare word. -/
def endsWord (character : Char) : Bool :=
  [' ', '\t', '\n', ';', '|', '&', '<', '>', '(', ')'].contains character

mutual

/-- Read a word, at most so many steps, with the pieces read so far in reverse;
nothing if a quote is not closed. -/
def readWord (gathered : Word) : Nat → List Char → Option (Word × List Char)
  | 0, rest => some (gathered.reverse, rest)
  | _ + 1, [] => some (gathered.reverse, [])
  | bound + 1, character :: rest =>
      if character = '\'' then
        let quoted := rest.takeWhile (· ≠ '\'')
        match rest.drop quoted.length with
        | _ :: after => readWord (.text (String.ofList quoted) true :: gathered) bound after
        | [] => none
      else if character = '"' then readQuoted (.text "" true :: gathered) bound rest
      else if character = '\\' then
        match rest with
        | '\n' :: after => readWord gathered bound after
        | next :: after => readWord (.text (String.singleton next) true :: gathered) bound after
        | [] => readWord (.text "\\" true :: gathered) bound []
      else if character = '$' then
        match readExpansion false rest with
        | some (piece, after) => readWord (piece :: gathered) bound after
        | none => none
      else if character = '\x60' then
        match accentedScript [] rest with
        | some (source, after) => readWord (.script source false :: gathered) bound after
        | none => none
      else if endsWord character then some (gathered.reverse, character :: rest)
      else readWord (.text (String.singleton character) false :: gathered) bound rest

/-- Read the part of a word between double quotes. -/
def readQuoted (gathered : Word) : Nat → List Char → Option (Word × List Char)
  | 0, _ => none
  | _ + 1, [] => none
  | bound + 1, character :: rest =>
      if character = '"' then readWord gathered bound rest
      else if character = '\\' then
        match rest with
        | '\n' :: after => readQuoted gathered bound after
        | next :: after =>
            let meant :=
              if ['"', '\\', '$', '\x60'].contains next then String.singleton next
              else String.ofList ['\\', next]
            readQuoted (.text meant true :: gathered) bound after
        | [] => none
      else if character = '$' then
        match readExpansion true rest with
        | some (piece, after) => readQuoted (piece :: gathered) bound after
        | none => none
      else if character = '\x60' then
        match accentedScript [] rest with
        | some (source, after) => readQuoted (.script source true :: gathered) bound after
        | none => none
      else readQuoted (.text (String.singleton character) true :: gathered) bound rest

end

/-- The sign at the start of a text, with what follows it. -/
def readSign : List Char → Option (Sign × List Char)
  | '\n' :: rest => some (.newline, rest)
  | ';' :: rest => some (.semicolon, rest)
  | '|' :: '|' :: rest => some (.onFailure, rest)
  | '|' :: rest => some (.pipe, rest)
  | '&' :: '&' :: rest => some (.onSuccess, rest)
  | '&' :: rest => some (.semicolon, rest)
  | '(' :: rest => some (.opening, rest)
  | ')' :: rest => some (.closing, rest)
  | '0' :: '<' :: rest => some (.redirection 0 .read, rest)
  | '1' :: '>' :: rest => some (output 1 rest)
  | '2' :: '>' :: rest => some (output 2 rest)
  | '<' :: '&' :: rest => some (.redirection 0 .duplicate, rest)
  | '<' :: rest => some (.redirection 0 .read, rest)
  | '>' :: rest => some (output 1 rest)
  | _ => none
where
  /-- The redirection of an output. -/
  output (source : Nat) : List Char → Sign × List Char
    | '>' :: rest => (.redirection source .append, rest)
    | '&' :: rest => (.redirection source .duplicate, rest)
    | '|' :: rest => (.redirection source .write, rest)
    | rest => (.redirection source .write, rest)

/-- Cut a script into tokens, at most so many steps, each with its line; nothing if a
quote is not closed. -/
def readTokens (line : Nat) (gathered : List (Nat × Token)) :
    Nat → List Char → Option (List (Nat × Token))
  | 0, _ => some gathered.reverse
  | _ + 1, [] => some gathered.reverse
  | bound + 1, character :: rest =>
      if character = ' ' || character = '\t' then readTokens line gathered bound rest
      else if character = '#' then
        readTokens line gathered bound (rest.dropWhile (· ≠ '\n'))
      else
        match readSign (character :: rest) with
        | some (.newline, after) =>
            readTokens (line + 1) ((line, .sign .newline) :: gathered) bound after
        | some (sign, after) => readTokens line ((line, .sign sign) :: gathered) bound after
        | none =>
            match readWord [] (rest.length + 2) (character :: rest) with
            | some (pieces, after) =>
                let lines := (character :: rest).length - after.length
                let passed := ((character :: rest).take lines).count '\n'
                readTokens (line + passed) ((line, .word pieces) :: gathered) bound after
            | none => none

end Filter

end ScriptBridge

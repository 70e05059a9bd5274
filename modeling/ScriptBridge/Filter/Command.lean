import ScriptBridge.Filter.Word

/-!
# The commands of scripts

A script is a sequence of steps.  Each step is a pipeline of commands, and a
connective says when it runs.  A command is a sequence of words, or a group of
steps, with its redirections.
-/

namespace ScriptBridge

namespace Filter

/-- A redirection of an input or an output. -/
structure Redirection where
  source : Nat
  kind : RedirectionKind
  target : Word
  deriving DecidableEq, Repr

/-- When a step runs. -/
inductive Connective where
  | always
  | onSuccess
  | onFailure
  deriving DecidableEq, Repr

/-- Whether a step runs behind the given status. -/
def Connective.admits : Connective → Nat → Bool
  | .always, _ => true
  | .onSuccess, status => status == 0
  | .onFailure, status => status != 0

/-- A command with the line it stands on. -/
inductive Command where
  | simple (line : Nat) (words : List Word) (redirections : List Redirection)
  /-- Steps that run as one command, in a script of their own or in this one.  A step
  has its connective, whether its status is turned round, and its commands. -/
  | group (line : Nat) (apart : Bool) (steps : List (Connective × Bool × List Command))
      (redirections : List Redirection)

/-- The steps of a script. -/
abbrev Script := List (Connective × Bool × List Command)

/-- A place where a script is not well-formed. -/
structure SyntaxFault where
  line : Nat
  reason : String

/-- The words for a token that should not be there. -/
def unexpected : List (Nat × Token) → String
  | [] => "end of file unexpected"
  | (_, .word pieces) :: _ =>
      match Word.bare? pieces with
      | some "\x7d" => "\"\x7d\" unexpected"
      | _ => "word unexpected"
  | (_, .sign sign) :: _ =>
      match sign with
      | .semicolon => "\";\" unexpected"
      | .newline => "newline unexpected"
      | .pipe => "\"|\" unexpected"
      | .onSuccess => "\"&&\" unexpected"
      | .onFailure => "\"||\" unexpected"
      | .opening => "\"(\" unexpected"
      | .closing => "\")\" unexpected"
      | .redirection _ _ => "redirection unexpected"

/-- The fault of tokens that go on in the wrong way. -/
def faultAt (line : Nat) (tokens : List (Nat × Token)) : SyntaxFault :=
  ⟨(tokens.head?.map (·.1)).getD line, unexpected tokens⟩

/-- The fault of tokens where a group should be closed. -/
def faultExpecting (line : Nat) (sign : String) (tokens : List (Nat × Token)) : SyntaxFault :=
  let fault := faultAt line tokens
  { fault with reason := fault.reason ++ " (expecting \"" ++ sign ++ "\")" }

/-- Pass over the ends of lines. -/
def skipNewlines : List (Nat × Token) → List (Nat × Token)
  | (_, .sign .newline) :: rest => skipNewlines rest
  | tokens => tokens

/-- Read the redirection whose sign has been read. -/
def readRedirection (line source : Nat) (kind : RedirectionKind) :
    List (Nat × Token) → Except SyntaxFault (Redirection × List (Nat × Token))
  | (_, .word target) :: rest => .ok (⟨source, kind, target⟩, rest)
  | tokens => .error (faultAt line tokens)

/-- Read the redirections behind a group, at most so many. -/
def readRedirections (line : Nat) :
    Nat → List (Nat × Token) → Except SyntaxFault (List Redirection × List (Nat × Token))
  | bound + 1, (_, .sign (.redirection source kind)) :: rest => do
      let (redirection, after) ← readRedirection line source kind rest
      let (further, left) ← readRedirections line bound after
      return (redirection :: further, left)
  | _, tokens => .ok ([], tokens)

/-- Read the words and redirections of a simple command, at most so many. -/
def readSimple (line : Nat) (words : List Word) (redirections : List Redirection) :
    Nat → List (Nat × Token) → Except SyntaxFault (Command × List (Nat × Token))
  | bound + 1, (_, .word pieces) :: rest =>
      readSimple line (pieces :: words) redirections bound rest
  | bound + 1, (_, .sign (.redirection source kind)) :: rest => do
      let (redirection, after) ← readRedirection line source kind rest
      readSimple line words (redirection :: redirections) bound after
  | _, tokens =>
      if words.isEmpty && redirections.isEmpty then .error (faultAt line tokens)
      else .ok (.simple line words.reverse redirections.reverse, tokens)

/-- Whether a group or a script ends in front of tokens. -/
def endsSteps : List (Nat × Token) → Bool
  | [] => true
  | (_, .sign .closing) :: _ => true
  | (_, .word pieces) :: _ => Word.bare? pieces == some "\x7d"
  | _ => false

mutual

/-- Read steps up to the end of the group. -/
def readSteps (fuel line : Nat) (connective : Connective) (tokens : List (Nat × Token)) :
    Except SyntaxFault (Script × List (Nat × Token)) :=
  match fuel with
  | 0 => .error (faultAt line tokens)
  | fuel + 1 =>
      let start := skipNewlines tokens
      if connective == .always && endsSteps start then .ok ([], start)
      else do
        let (negated, commands, after) ← readPipeline fuel line start
        let step := (connective, negated, commands)
        let further (next : Connective) (rest : List (Nat × Token)) := do
          let (steps, left) ← readSteps fuel line next rest
          return (step :: steps, left)
        match after with
        | (_, .sign .semicolon) :: rest => further .always rest
        | (_, .sign .newline) :: rest => further .always rest
        | (_, .sign .onSuccess) :: rest => further .onSuccess rest
        | (_, .sign .onFailure) :: rest => further .onFailure rest
        | _ => if endsSteps after then .ok ([step], after) else .error (faultAt line after)

/-- Read a pipeline, and whether its status is turned round. -/
def readPipeline (fuel line : Nat) (tokens : List (Nat × Token)) :
    Except SyntaxFault (Bool × List Command × List (Nat × Token)) :=
  match fuel with
  | 0 => .error (faultAt line tokens)
  | fuel + 1 =>
      match tokens with
      | (_, .word [.text "!" false]) :: rest => do
          let (negated, commands, after) ← readPipeline fuel line rest
          return (!negated, commands, after)
      | _ => do
          let (command, after) ← readCommand fuel line tokens
          match after with
          | (_, .sign .pipe) :: rest => do
              let (_, commands, left) ← readPipeline fuel line (skipNewlines rest)
              return (false, command :: commands, left)
          | _ => return (false, [command], after)

/-- Read a command. -/
def readCommand (fuel line : Nat) (tokens : List (Nat × Token)) :
    Except SyntaxFault (Command × List (Nat × Token)) :=
  match fuel with
  | 0 => .error (faultAt line tokens)
  | fuel + 1 =>
      match tokens with
      | (here, .sign .opening) :: rest => do
          let (steps, after) ← readSteps fuel here .always rest
          match after with
          | (_, .sign .closing) :: left =>
              let (redirections, next) ← readRedirections here left.length left
              return (.group here true steps redirections, next)
          | _ => throw (faultExpecting here ")" after)
      | (here, .word [.text "\x7b" false]) :: rest => do
          let (steps, after) ← readSteps fuel here .always rest
          match after with
          | (_, .word [.text "\x7d" false]) :: left =>
              let (redirections, next) ← readRedirections here left.length left
              return (.group here false steps redirections, next)
          | _ => throw (faultExpecting here "\x7d" after)
      | (here, _) :: _ => readSimple here [] [] tokens.length tokens
      | [] => .error (faultAt line [])

end

/-- The script that a text describes. -/
def readScript (source : String) : Except SyntaxFault Script :=
  let text := source.toList
  match readTokens 1 [] text.length text with
  | none => .error ⟨1 + text.count '\n', "Unterminated quoted string"⟩
  | some tokens =>
      match readSteps (4 * tokens.length + 4) 1 .always tokens with
      | .error fault => .error fault
      | .ok (script, []) => .ok script
      | .ok (_, left) => .error (faultAt 1 left)

end Filter

end ScriptBridge

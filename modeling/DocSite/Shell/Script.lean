/-! Shell scripts as data, and how they are read. Text is handled as bytes, one
character for each byte. -/
namespace DocSite.Shell

/-- A part of a word. Quoted parts are never split. -/
inductive Part where
  | text (chars : List Char) (quoted : Bool)
  | variable (name : String) (quoted : Bool)
  | processId
  deriving Repr, DecidableEq, Inhabited

abbrev Word := List Part

/-- Where an output stream goes. -/
inductive Stream where
  | output
  | error
  | nowhere
  deriving Repr, DecidableEq, Inhabited

inductive Redirect where
  | output (target : Stream)
  | error (target : Stream)
  | input
  deriving Repr, DecidableEq, Inhabited

structure Command where
  words : List Word
  redirects : List Redirect
  line : Nat
  deriving Repr, Inhabited

/-- How a pipeline hangs on the status of the one before it. -/
inductive Link where
  | always
  | ifSucceeded
  | ifFailed
  deriving Repr, DecidableEq, Inhabited

structure Step where
  link : Link
  pipeline : List Command
  deriving Repr, Inhabited

/-- Lexical units of a script. -/
inductive Token where
  | word (w : Word)
  | redirect (r : Redirect)
  | pipe
  | and
  | or
  | endOfCommand (line : Nat)
  deriving Repr, Inhabited

def isVariableStart (c : Char) : Bool := c.isAlpha || c == '_'
def isVariableChar (c : Char) : Bool := c.isAlphanum || c == '_'

/-- Reads what follows a `$`. -/
def readVariable (quoted : Bool) (cs : List Char) : Part × Nat :=
  match cs with
  | '$' :: _ => (.processId, 1)
  | '{' :: rest =>
    let name := rest.takeWhile isVariableChar
    (.variable (String.ofList name) quoted, name.length + 2)
  | c :: _ =>
    if isVariableStart c then
      let name := cs.takeWhile isVariableChar
      (.variable (String.ofList name) quoted, name.length)
    else (.text ['$'] quoted, 0)
  | [] => (.text ['$'] quoted, 0)

/-- Reads up to a closing double quote. -/
def readQuoted : (fuel : Nat) → List Char → Word × Nat
  | 0, _ => ([], 0)
  | _, [] => ([], 0)
  | _, '\x22' :: _ => ([], 1)
  | fuel + 1, '\\' :: c :: rest =>
    let kept := if c = '\x22' ∨ c = '\\' ∨ c = '$' ∨ c = '\x60' then [c] else ['\\', c]
    let (more, width) := readQuoted fuel rest
    (.text kept true :: more, width + 2)
  | fuel + 1, '$' :: rest =>
    let (part, width) := readVariable true rest
    let (more, width') := readQuoted fuel (rest.drop width)
    (part :: more, 1 + width + width')
  | fuel + 1, c :: rest =>
    let (more, width) := readQuoted fuel rest
    (.text [c] true :: more, width + 1)

def endsWord (c : Char) : Bool :=
  c == ' ' || c == '\t' || c == '\n' || c == ';' || c == '|' || c == '&' || c == '>' || c == '<'

def readWord : (fuel : Nat) → List Char → Word × Nat
  | 0, _ => ([], 0)
  | _, [] => ([], 0)
  | fuel + 1, c :: rest =>
    if endsWord c then ([], 0)
    else if c = '\x27' then
      let body := rest.takeWhile (· ≠ '\x27')
      let (more, width) := readWord fuel (rest.drop (body.length + 1))
      (.text body true :: more, body.length + 2 + width)
    else if c = '\x22' then
      let (parts, width) := readQuoted fuel rest
      let (more, width') := readWord fuel (rest.drop width)
      (.text [] true :: parts ++ more, 1 + width + width')
    else if c = '\\' then
      let (more, width) := readWord fuel (rest.drop 1)
      (.text (rest.take 1) true :: more, 2 + width)
    else if c = '$' then
      let (part, width) := readVariable false rest
      let (more, width') := readWord fuel (rest.drop width)
      (part :: more, 1 + width + width')
    else
      let (more, width) := readWord fuel rest
      (.text [c] false :: more, 1 + width)

def readTarget (fuel : Nat) (cs : List Char) : Stream × Nat :=
  match cs with
  | '&' :: '2' :: _ => (.error, 2)
  | '&' :: '1' :: _ => (.output, 2)
  | _ =>
    let blanks := cs.takeWhile (fun c => c = ' ' ∨ c = '\t')
    let (_, width) := readWord fuel (cs.drop blanks.length)
    (.nowhere, blanks.length + width)

def tokens : (fuel : Nat) → (line : Nat) → List Char → List Token
  | 0, line, _ => [.endOfCommand line]
  | _, line, [] => [.endOfCommand line]
  | fuel + 1, line, c :: rest =>
    if c = ' ' ∨ c = '\t' then tokens fuel line rest
    else if c = '\n' then .endOfCommand line :: tokens fuel (line + 1) rest
    else if c = ';' then .endOfCommand line :: tokens fuel line rest
    else if c = '#' then tokens fuel line (rest.dropWhile (· ≠ '\n'))
    else match c, rest with
      | '|', '|' :: more => .or :: tokens fuel line more
      | '&', '&' :: more => .and :: tokens fuel line more
      | '|', _ => .pipe :: tokens fuel line rest
      | '&', _ => .endOfCommand line :: tokens fuel line rest
      | '>', _ =>
        let rest := if rest.head? = some '>' then rest.drop 1 else rest
        let (target, width) := readTarget fuel rest
        .redirect (.output target) :: tokens fuel line (rest.drop width)
      | '1', '>' :: more =>
        let (target, width) := readTarget fuel more
        .redirect (.output target) :: tokens fuel line (more.drop width)
      | '2', '>' :: more =>
        let (target, width) := readTarget fuel more
        .redirect (.error target) :: tokens fuel line (more.drop width)
      | '<', _ =>
        let (_, width) := readTarget fuel rest
        .redirect .input :: tokens fuel line (rest.drop width)
      | _, _ =>
        let (w, width) := readWord (fuel + 1) (c :: rest)
        .word w :: tokens fuel line (rest.drop (width - 1))

/-- A pipeline that is being read. -/
structure Pending where
  link : Link := .always
  commands : List Command := []
  words : List Word := []
  redirects : List Redirect := []

def Pending.close (p : Pending) (line : Nat) : List Command :=
  if p.words.isEmpty && p.redirects.isEmpty then p.commands
  else p.commands ++ [⟨p.words, p.redirects, line⟩]

/-- Joins tokens into pipelines. -/
def steps (pending : Pending) : List Token → List Step
  | [] => []
  | .word w :: rest => steps { pending with words := pending.words ++ [w] } rest
  | .redirect r :: rest => steps { pending with redirects := pending.redirects ++ [r] } rest
  | .pipe :: rest =>
    steps { link := pending.link, commands := pending.close 0 } rest
  | .and :: rest => ⟨pending.link, pending.close 0⟩ :: steps { link := .ifSucceeded } rest
  | .or :: rest => ⟨pending.link, pending.close 0⟩ :: steps { link := .ifFailed } rest
  | .endOfCommand line :: rest =>
    match pending.close line with
    | [] => steps pending rest
    | commands => ⟨pending.link, commands⟩ :: steps {} rest

def readScript (text : List Char) : List Step := steps {} (tokens (text.length + 1) 1 text)

end DocSite.Shell

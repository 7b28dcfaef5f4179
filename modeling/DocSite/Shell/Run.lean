import DocSite.Files.Execution
import DocSite.Shell.Script
/-! Running a script with the commands that snippets use. A run yields bytes on
two streams and says how the process ended. -/
namespace DocSite.Shell

open Files (Execution ExitStatus)

structure Machine where
  environment : List (String × List Char)
  output : List Char := []
  error : List Char := []
  status : Nat := 0
  ended : Option ExitStatus := none

def octalDigits (most : Nat) (cs : List Char) : List Char :=
  (cs.take most).takeWhile fun c => '0' ≤ c ∧ c ≤ '7'

def octalValue (cs : List Char) : Nat := cs.foldl (fun n c => n * 8 + (c.toNat - 48)) 0

def simpleEscape? : Char → Option Char
  | 'a' => some (Char.ofNat 7)
  | 'b' => some (Char.ofNat 8)
  | 'f' => some (Char.ofNat 12)
  | 'n' => some '\n'
  | 'r' => some '\r'
  | 't' => some '\t'
  | 'v' => some (Char.ofNat 11)
  | '\\' => some '\\'
  | _ => none

/-- Replaces backslash escapes as `echo` does. `false` says that `\c` cut the text off. -/
def echoEscapes : (fuel : Nat) → List Char → List Char × Bool
  | 0, cs => (cs, true)
  | _, [] => ([], true)
  | fuel + 1, '\\' :: c :: rest =>
    if c = 'c' then ([], false)
    else if c = '0' then
      let digits := octalDigits 3 rest
      let (more, whole) := echoEscapes fuel (rest.drop digits.length)
      (Char.ofNat (octalValue digits % 256) :: more, whole)
    else
      let (more, whole) := echoEscapes fuel rest
      match simpleEscape? c with
      | some e => (e :: more, whole)
      | none => ('\\' :: c :: more, whole)
  | fuel + 1, c :: rest =>
    let (more, whole) := echoEscapes fuel rest
    (c :: more, whole)

def echo (arguments : List (List Char)) : List Char :=
  let (arguments, newline) := match arguments with
    | ['-', 'n'] :: rest => (rest, false)
    | _ => (arguments, true)
  let text := [' '].intercalate arguments
  let (text, whole) := echoEscapes (text.length + 1) text
  if newline && whole then text ++ ['\n'] else text

def pad (width : Nat) (left : Bool) (fill : Char) (cs : List Char) : List Char :=
  let more := List.replicate (width - cs.length) fill
  if left then cs ++ more else more ++ cs

/-- One walk over a format of `printf`, and the arguments it leaves. -/
def printfOnce : (fuel : Nat) → List Char → List (List Char) → List Char × List (List Char)
  | 0, _, arguments => ([], arguments)
  | _, [], arguments => ([], arguments)
  | fuel + 1, '\\' :: c :: rest, arguments =>
    let digits := octalDigits 3 (c :: rest)
    if digits.isEmpty then
      let (more, left) := printfOnce fuel rest arguments
      match simpleEscape? c with
      | some e => (e :: more, left)
      | none => ('\\' :: c :: more, left)
    else
      let (more, left) := printfOnce fuel ((c :: rest).drop digits.length) arguments
      (Char.ofNat (octalValue digits % 256) :: more, left)
  | fuel + 1, '%' :: '%' :: rest, arguments =>
    let (more, left) := printfOnce fuel rest arguments
    ('%' :: more, left)
  | fuel + 1, '%' :: rest, arguments =>
    let flags := rest.takeWhile fun c => c = '-' ∨ c = '0'
    let afterFlags := rest.drop flags.length
    let digits := afterFlags.takeWhile Char.isDigit
    let width := digits.foldl (fun n c => n * 10 + (c.toNat - 48)) 0
    let afterWidth := afterFlags.drop digits.length
    let argument := arguments.headD []
    let numeric := if argument.isEmpty then ['0'] else argument
    let (more, left) := printfOnce fuel (afterWidth.drop 1) (arguments.drop 1)
    let leftward := flags.contains '-'
    let shown := match afterWidth.head? with
      | some 'd' | some 'i' | some 'u' =>
        pad width leftward (if flags.contains '0' then '0' else ' ') numeric
      | some 'b' => pad width leftward ' ' (echoEscapes (argument.length + 1) argument).1
      | some 'c' => pad width leftward ' ' (argument.take 1)
      | _ => pad width leftward ' ' argument
    (shown ++ more, left)
  | fuel + 1, c :: rest, arguments =>
    let (more, left) := printfOnce fuel rest arguments
    (c :: more, left)

/-- The format is used again while arguments are left and it uses some of them. -/
def printfAll (format : List Char) : (fuel : Nat) → List (List Char) → List Char
  | 0, _ => []
  | fuel + 1, arguments =>
    let (text, left) := printfOnce (format.length + 1) format arguments
    if left.isEmpty || left.length == arguments.length then text
    else text ++ printfAll format fuel left

def printf : List (List Char) → List Char
  | [] => []
  | format :: arguments => printfAll format (arguments.length + 1) arguments

def linesOf (cs : List Char) : List (List Char) :=
  let pieces := cs.foldr (fun c acc =>
    if c = '\n' then [] :: acc
    else match acc with
      | first :: more => (c :: first) :: more
      | [] => [[c]]) [[]]
  if pieces.getLast? = some [] then pieces.dropLast else pieces

def unlines (lines : List (List Char)) : List Char := lines.flatMap (· ++ ['\n'])

def contains (part : List Char) : List Char → Bool
  | [] => part.isEmpty
  | c :: rest => part.isPrefixOf (c :: rest) || contains part rest

/-- Whether a line fits a pattern of plain text with `^` or `$` at its ends. -/
def lineMatches (pattern line : List Char) : Bool :=
  let atStart := pattern.head? == some '^'
  let pattern := if atStart then pattern.drop 1 else pattern
  let atEnd := pattern.getLast? == some '$'
  let pattern := if atEnd then pattern.dropLast else pattern
  if atStart && atEnd then pattern == line
  else if atStart then pattern.isPrefixOf line
  else if atEnd then pattern.reverse.isPrefixOf line.reverse
  else contains pattern line

def naturalOf? (cs : List Char) : Option Nat :=
  if cs.isEmpty || !cs.all Char.isDigit then none
  else some (cs.foldl (fun n c => n * 10 + (c.toNat - 48)) 0)

/-- The number of a signal given as a number or by its name. -/
def signalOf? (cs : List Char) : Option Nat :=
  match naturalOf? cs with
  | some n => some n
  | none =>
    let name := String.ofList cs
    let position := ExitStatus.signalNames.findIdx (fun s => s == name || s == "SIG" ++ name)
    if position < ExitStatus.signalNames.length then some (position + 1) else none

/-- What one command leaves: two streams, a status, and perhaps the end of the process. -/
structure Effect where
  output : List Char := []
  error : List Char := []
  status : Nat := 0
  ended : Option ExitStatus := none

def processIdText : List Char := ['$', '$']

/-- Runs one command on its arguments and input. -/
def runCommand (m : Machine) (scriptPath : List Char) (line : Nat) (name : String)
    (arguments : List (List Char)) (input : List Char) : Effect :=
  match name with
  | "echo" => { output := echo arguments }
  | "printf" => { output := printf arguments }
  | "cat" => { output := input }
  | "true" | ":" => {}
  | "false" => { status := 1 }
  | "exit" =>
    match arguments with
    | [] => { status := m.status, ended := some (.code m.status) }
    | a :: _ =>
      let n := (naturalOf? a).getD 2
      { status := n % 256, ended := some (.code (n % 256)) }
  | "kill" =>
    match arguments with
    | ('-' :: s) :: targets =>
      match signalOf? s with
      | some n => if targets.contains processIdText then { ended := some (.signal n false) } else {}
      | none => { status := 1 }
    | targets => if targets.contains processIdText then { ended := some (.signal 15 false) } else {}
  | "env" =>
    { output := unlines (m.environment.map fun (n, v) => n.toList ++ '=' :: v) }
  | "grep" =>
    let kept := (linesOf input).filter (lineMatches (arguments.headD []))
    { output := unlines kept, status := if kept.isEmpty then 1 else 0 }
  | "sort" =>
    let notAfter (a b : List Char) : Bool := !(String.ofList b < String.ofList a)
    { output := unlines ((linesOf input).mergeSort notAfter) }
  | _ =>
    { error := scriptPath ++ s!": {line}: {name}: not found\n".toList, status := 127 }

def isSplitter (c : Char) : Bool := c == ' ' || c == '\t' || c == '\n'

/-- The fields of a word. Only the text of unquoted variables is split. -/
def fields (m : Machine) (w : Word) : List (List Char) :=
  let lookup (name : String) := ((m.environment.find? (·.1 == name)).map (·.2)).getD []
  let step (acc : List (List Char) × Option (List Char)) (p : Part) :=
    let (finished, current) := acc
    match p with
    | .text cs _ => (finished, some (current.getD [] ++ cs))
    | .processId => (finished, some (current.getD [] ++ processIdText))
    | .variable name true => (finished, some (current.getD [] ++ lookup name))
    | .variable name false =>
      (lookup name).foldl (fun (finished, current) c =>
        if isSplitter c then
          match current with
          | some done => (finished ++ [done], none)
          | none => (finished, none)
        else (finished, some (current.getD [] ++ [c]))) (finished, current)
  let (finished, current) := w.foldl step ([], none)
  match current with
  | some last => finished ++ [last]
  | none => finished

/-- A word `NAME=value` in front of a command. -/
def assignment? (w : Word) : Option (String × Word) :=
  let leading := w.takeWhile fun
    | .text [c] false => isVariableChar c
    | _ => false
  match w.drop leading.length with
  | .text ['='] false :: value =>
    let name := leading.flatMap fun
      | .text cs _ => cs
      | _ => []
    if name.head?.any isVariableStart then some (String.ofList name, value) else none
  | _ => none

def Machine.assign (m : Machine) (name : String) (value : List Char) : Machine :=
  { m with environment := m.environment.filter (·.1 ≠ name) ++ [(name, value)] }

def run1 (m : Machine) (scriptPath : List Char) (c : Command) (input : List Char) :
    Machine × Effect :=
  let assignments := (c.words.takeWhile fun w => (assignment? w).isSome).filterMap assignment?
  let assigned := assignments.foldl (fun m (name, w) => m.assign name (fields m w).flatten) m
  match (c.words.drop assignments.length).flatMap (fields m) with
  | [] => (assigned, {})
  | name :: arguments =>
    let input := if c.redirects.contains .input then [] else input
    let e := runCommand assigned scriptPath c.line (String.ofList name) arguments input
    let (out, err, _, _) := c.redirects.foldl
      (fun (acc : List Char × List Char × Stream × Stream) r =>
        let (_, _, outTo, errTo) := acc
        let (outTo, errTo) : Stream × Stream := match r with
          | .output .error => (errTo, errTo)
          | .output .output => (outTo, errTo)
          | .output .nowhere => (.nowhere, errTo)
          | .error .output => (outTo, outTo)
          | .error .error => (outTo, errTo)
          | .error .nowhere => (outTo, .nowhere)
          | .input => (outTo, errTo)
        let pick (s : Stream) :=
          (if outTo = s then e.output else []) ++ (if errTo = s then e.error else [])
        (pick .output, pick .error, outTo, errTo))
      (e.output, e.error, .output, .error)
    (m, { e with output := out, error := err })

/-- Runs a pipeline. Its status is that of its last command. -/
def runPipeline (m : Machine) (scriptPath : List Char) (input : List Char) : List Command → Machine
  | [] => m
  | [c] =>
    let (m', e) := run1 m scriptPath c input
    { m' with
      output := m.output ++ e.output, error := m.error ++ e.error
      status := e.status, ended := e.ended }
  | c :: rest =>
    let (_, e) := run1 m scriptPath c input
    runPipeline { m with error := m.error ++ e.error } scriptPath e.output rest

def runSteps (scriptPath : List Char) : Machine → List Step → Machine
  | m, [] => m
  | m, s :: rest =>
    if m.ended.isSome then m
    else
      let due := match s.link with
        | .always => true
        | .ifSucceeded => m.status == 0
        | .ifFailed => m.status != 0
      runSteps scriptPath (if due then runPipeline m scriptPath [] s.pipeline else m) rest

/-- The bytes of a text, one character for each. -/
def byteChars (text : String) : List Char := text.toUTF8.toList.map fun b => Char.ofNat b.toNat

def bytesOf (cs : List Char) : ByteArray := ⟨(cs.map fun c => c.toNat.toUInt8).toArray⟩

/-- Runs the script text found at `path` in an environment. -/
def run (path : String) (script : ByteArray) (environment : List (String × String)) : Execution :=
  let text := script.toList.map fun b => Char.ofNat b.toNat
  let environment := environment.map fun (n, v) => (n, byteChars v)
  let m := runSteps (byteChars path) { environment } (readScript text)
  ⟨bytesOf m.output, bytesOf m.error, m.ended.getD (.code m.status)⟩

end DocSite.Shell

import DocSite.Files.Path
/-! What the arguments of the command line ask for. -/
namespace DocSite.CommandLine

inductive Command where
  /-- Shows what would be built. -/
  | check (json : Bool)
  | build (keepGoing : Bool)
  /-- Renders one template file. -/
  | render (file : String) (values : List (String × String))
  /-- Prints a configuration to begin with. -/
  | genConfig
deriving DecidableEq, Repr

structure Request where
  source : String
  output : String
  verbosity : Nat
  command : Command
deriving DecidableEq, Repr

/-- Why arguments ask for no command. -/
inductive Stop where
  | usage
  | help
  | version
deriving DecidableEq, Repr

inductive Level where
  | top
  | check
  | build
  | render
  | genConfig
deriving DecidableEq, Repr

def Level.ofWord? : String → Option Level
  | "check" => some .check
  | "build" => some .build
  | "render" => some .render
  | "gen-config" => some .genConfig
  | _ => none

structure Given where
  source : Option String := none
  output : Option String := none
  verbosity : Nat := 0
  json : Bool := false
  keepGoing : Bool := false
  file : Option String := none
  values : List (String × String) := []
deriving DecidableEq, Repr

structure Reading where
  level : Level := .top
  /-- What stands before the word for the command. -/
  before : Given := {}
  given : Given := {}
deriving DecidableEq, Repr

/-- Options that a value follows. -/
inductive Valued where
  | source
  | output
  | set
deriving DecidableEq, Repr

def Valued.ofName? (level : Level) : String → Option Valued
  | "source" => some .source
  | "output" => some .output
  | "set" => if level = .render then some .set else none
  | _ => none

/-- Splits at the first `=`. -/
def splitAssignment (s : List Char) : List Char × Option (List Char) :=
  let name := s.takeWhile (· ≠ '=')
  match s.drop name.length with
  | _ :: value => (name, some value)
  | [] => (name, none)

/-- Whether an argument is read as options. A single hyphen is a word. -/
def isOption (arg : String) : Bool :=
  match arg.toList with
  | '-' :: _ :: _ => true
  | _ => false

namespace Reading

def give (r : Reading) (change : Given → Given) : Reading := { r with given := change r.given }

def once (r : Reading) (already : Bool) (change : Given → Given) : Except Stop Reading :=
  if already then .error .usage else .ok (r.give change)

/-- Takes the value of an option. Paths are not empty. -/
def takeValue (r : Reading) (value : String) : Valued → Except Stop Reading
  | .source => r.once (r.given.source.isSome || value.isEmpty) ({ · with source := some value })
  | .output => r.once (r.given.output.isSome || value.isEmpty) ({ · with output := some value })
  | .set =>
    match splitAssignment value.toList with
    | (name, some text) =>
      .ok (r.give fun g =>
        { g with values := g.values ++ [(String.ofList name, String.ofList text)] })
    | (_, none) => .error .usage

def moreVerbose (r : Reading) : Reading := r.give fun g => { g with verbosity := g.verbosity + 1 }

def takeLong (r : Reading) (name : String) : Except Stop Reading :=
  match r.level, name with
  | _, "verbose" => .ok r.moreVerbose
  | _, "help" => .error .help
  | .top, "version" => .error .version
  | .check, "json" => r.once r.given.json ({ · with json := true })
  | .build, "keep-going" => r.once r.given.keepGoing ({ · with keepGoing := true })
  | _, _ => .error .usage

def takeShort (r : Reading) (letter : Char) : Except Stop Reading :=
  if letter = 'v' then .ok r.moreVerbose
  else if letter = 'h' then .error .help
  else if letter = 'V' ∧ r.level = .top then .error .version
  else .error .usage

/-- Takes a word that is not the one for the command. -/
def takeWord (r : Reading) (word : String) : Except Stop Reading :=
  if r.level = .render then
    r.once (r.given.file.isSome || word.isEmpty) ({ · with file := some word })
  else .error .usage

/-- Whether words after `help` name a command. -/
def asksHelp : List String → Bool
  | [] => true
  | [word] => word == "help" || (Level.ofWord? word).isSome
  | _ => false

/-- Reads arguments in order. After two hyphens there are only words. -/
def readAll (r : Reading) : List String → Except Stop Reading
  | [] => .ok r
  | arg :: rest =>
    match arg.toList with
    | ['-', '-'] => rest.foldlM takeWord r
    | '-' :: '-' :: long =>
      let (letters, attached?) := splitAssignment long
      let name := String.ofList letters
      match Valued.ofName? r.level name, attached?, rest with
      | some option, some value, rest => do
        readAll (← r.takeValue (String.ofList value) option) rest
      | some option, none, value :: rest => do
        if isOption value then throw .usage
        readAll (← r.takeValue value option) rest
      | some _, none, [] => .error .usage
      | none, some _, _ => .error .usage
      | none, none, rest => do readAll (← r.takeLong name) rest
    | '-' :: letter :: letters => do
      readAll (← (letter :: letters).foldlM takeShort r) rest
    | _ =>
      match r.level, Level.ofWord? arg with
      | .top, some level => readAll { level, before := r.given } rest
      | .top, none => .error (if arg = "help" ∧ asksHelp rest then .help else .usage)
      | _, _ => do readAll (← r.takeWord arg) rest

def command? (r : Reading) : Option Command :=
  match r.level with
  | .top => none
  | .check => some (.check r.given.json)
  | .build => some (.build r.given.keepGoing)
  | .render => r.given.file.map (.render · r.given.values)
  | .genConfig => some .genConfig

/-- What is asked for. An option after the word for the command wins over one before it. -/
def request? (r : Reading) : Option Request :=
  r.command?.map fun command => {
    source := (r.given.source.or r.before.source).getD "docs"
    output := (r.given.output.or r.before.output).getD "dist"
    verbosity := r.before.verbosity + r.given.verbosity
    command }

end Reading

def Request.read (args : List String) : Except Stop Request := do
  let r ← Reading.readAll {} args
  match r.request? with
  | some request => .ok request
  | none => .error .usage

end DocSite.CommandLine

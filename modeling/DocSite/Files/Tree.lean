import DocSite.Files.Execution
import DocSite.Files.Path
/-! A file system as a value: a tree of directories and files, a current directory that
relative paths start from, and what comes of starting a program from it. -/
namespace DocSite.Files

inductive Node where
  | file (content : ByteArray) (executable : Bool)
  | dir (entries : List (String × Node))

instance : Inhabited Node := ⟨.dir []⟩

namespace Node

def isDir : Node → Bool
  | .dir _ => true
  | .file .. => false

def isFile (n : Node) : Bool := !n.isDir

def entry? (name : String) : Node → Option Node
  | .dir entries => (entries.find? (·.1 == name)).map (·.2)
  | .file .. => none

/-- What a list of names leads to. -/
def find? : Node → List String → Option Node
  | n, [] => some n
  | n, name :: rest => (n.entry? name).bind (·.find? rest)

def putEntry (name : String) (node : Node) : List (String × Node) → List (String × Node)
  | [] => [(name, node)]
  | (n, old) :: rest =>
    if n = name then (n, node) :: rest else (n, old) :: putEntry name node rest

/-- Puts `node` where the names lead, if all but the last lead to directories. -/
def insert? (node : Node) : Node → List String → Option Node
  | _, [] => some node
  | .file .., _ :: _ => none
  | .dir entries, name :: rest => do
    let old ← if rest.isEmpty then some (.dir []) else Node.entry? name (.dir entries)
    let new ← insert? node old rest
    some (.dir (putEntry name new entries))

def erase : Node → List String → Node
  | n, [] => n
  | .file content executable, _ :: _ => .file content executable
  | .dir entries, [name] => .dir (entries.filter (·.1 ≠ name))
  | .dir entries, name :: rest =>
    match Node.entry? name (.dir entries) with
    | some child => .dir (putEntry name (child.erase rest) entries)
    | none => .dir entries

end Node

/-- What comes of starting the program at a path. It is given the variables on top of those that the
site's own program has. -/
abbrev Launch :=
  (root : Node) → (current : List String) → (path : String) → (exported : List (String × String)) →
    Except StartFailure Execution

end DocSite.Files

namespace DocSite

/-- A file system with a current directory. Programs are whatever `launch` makes of them, and unless it
is told nothing can be started. -/
structure Files where
  root : Files.Node := .dir []
  current : List String := []
  launch : Files.Launch := fun _ _ _ _ => .error .notFound
  deriving Inhabited

namespace Files

def execute (fs : Files) (path : String) (exported : List (String × String)) :
    Except StartFailure Execution :=
  fs.launch fs.root fs.current path exported

/-- Follows names from the directory `at'`, with `.` and `..` as the directories
they stand for. -/
def follow (root : Node) : (at' : List String) → List String → Option (List String)
  | at', [] => some at'
  | at', name :: rest =>
    match root.find? at' with
    | some (.dir entries) =>
      if name = "." then follow root at' rest
      else if name = ".." then follow root at'.dropLast rest
      else if entries.any (·.1 == name) then follow root (at' ++ [name]) rest
      else none
    | _ => none

def start (fs : Files) (path : String) : List String :=
  if Path.isAbsolute path then [] else fs.current

def place? (fs : Files) (path : String) : Option (List String) :=
  if path.isEmpty then none else follow fs.root (fs.start path) (Path.names path)

def find? (fs : Files) (path : String) : Option Node := do
  let node ← fs.root.find? (← fs.place? path)
  if Path.endsWithSlash path && node.isFile then none else some node

def isDir (fs : Files) (path : String) : Bool := (fs.find? path).any (·.isDir)

def isFile (fs : Files) (path : String) : Bool := (fs.find? path).any (·.isFile)

def contains (fs : Files) (path : String) : Bool := (fs.find? path).isSome

inductive ReadFailure where
  | missing
  | unreadable
  deriving Repr, DecidableEq

def read (fs : Files) (path : String) : Except ReadFailure ByteArray :=
  match fs.find? path with
  | none => .error .missing
  | some (.dir _) => .error .unreadable
  | some (.file content _) => .ok content

/-- Text must be well-formed UTF-8. -/
def readText (fs : Files) (path : String) : Except ReadFailure String := do
  match String.fromUTF8? (← fs.read path) with
  | some text => .ok text
  | none => .error .unreadable

/-- Makes the directories that the names lead through. -/
def createFrom (root : Node) : (at' : List String) → List String → Option (Node × List String)
  | at', [] => if (root.find? at').any (·.isDir) then some (root, at') else none
  | at', name :: rest =>
    match follow root at' [name] with
    | some next => createFrom root next rest
    | none => do
      let grown ← Node.insert? (.dir []) root (at' ++ [name])
      createFrom grown (at' ++ [name]) rest

/-- Makes a directory and those above it, unless a file is in the way. -/
def createDirs? (fs : Files) (path : String) : Option Files :=
  if path.isEmpty then some fs
  else (createFrom fs.root (fs.start path) (Path.names path)).map fun (root, _) => { fs with root }

/-- Puts a file into a directory that exists. The file that was there decides with
`executable` whether the new one can be executed. -/
def put? (fs : Files) (path : String) (content : ByteArray)
    (executable : (was : Option Bool) → Bool) : Option Files := do
  if Path.endsWithSlash path then none
  let names := Path.names path
  let name ← names.getLast?
  if name = "." || name = ".." then none
  let parent ← follow fs.root (fs.start path) names.dropLast
  let was ← match fs.root.find? (parent ++ [name]) with
    | some (.dir _) => none
    | some (.file _ was) => some (some was)
    | none => some none
  let root ← Node.insert? (.file content (executable was)) fs.root (parent ++ [name])
  some { fs with root }

/-- Writes a file. One that could be executed before still can. -/
def write? (fs : Files) (path : String) (content : ByteArray) (executable : Bool := false) :
    Option Files :=
  fs.put? path content fun was => was.getD false || executable

def createParents? (fs : Files) (path : String) : Option Files :=
  (createFrom fs.root (fs.start path) (Path.names path).dropLast).map fun (root, _) =>
    { fs with root }

def writeWithParents? (fs : Files) (path : String) (content : ByteArray)
    (executable : Bool := false) : Option Files := do
  (← fs.createParents? path).write? path content executable

/-- Copies a file into a directory that exists. The copy is empty before anything is
read, so a file copied onto itself is empty. -/
def copy? (fs : Files) (source target : String) : Option Files := do
  let .file _ executable ← fs.find? source | none
  let opened ← fs.put? target ByteArray.empty fun _ => executable
  let content ← (opened.read source).toOption
  opened.put? target content fun _ => executable

/-- Takes away a file. Directories stay. -/
def remove? (fs : Files) (path : String) : Option Files := do
  let place ← fs.place? path
  match fs.root.find? place with
  | some (.file ..) =>
    if Path.endsWithSlash path then none else some { fs with root := fs.root.erase place }
  | _ => none

end Files
end DocSite

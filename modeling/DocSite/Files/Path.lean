/-! Paths as they are written: text with `/` between the names. Joining never
looks at a file system. -/
namespace DocSite.Files

namespace Path

/-- The texts between separators. There is always at least one. -/
def splitOnChar (sep : Char) : List Char → List (List Char)
  | [] => [[]]
  | c :: rest =>
    if c = sep then [] :: splitOnChar sep rest
    else match splitOnChar sep rest with
      | first :: more => (c :: first) :: more
      | [] => [[c]]

def splitOn (sep : Char) (s : String) : List String :=
  (splitOnChar sep s.toList).map String.ofList

def isAbsolute (path : String) : Bool := path.toList.head? == some '/'

/-- The names of a path, without empty ones. -/
def names (path : String) : List String := (splitOn '/' path).filter (· ≠ "")

def endsWithSlash (path : String) : Bool := path.toList.getLast? == some '/'

/-- An absolute `path` replaces `base`. -/
def join (base path : String) : String :=
  if isAbsolute path || base.isEmpty then path
  else if endsWithSlash base then base ++ path
  else base ++ "/" ++ path

def trimSlashes (path : String) : String :=
  String.ofList (path.toList.reverse.dropWhile (· == '/')).reverse

/-- What precedes the last dot of a name and what follows it. A name that is
only a leading dot and more has no such dot. -/
def splitExtension (name : String) : String × Option String :=
  let reversed := name.toList.reverse
  let extension := (reversed.takeWhile (· ≠ '.')).reverse
  match reversed.dropWhile (· ≠ '.') with
  | [] => (name, none)
  | [_] => (name, none)
  | _ :: stem =>
    if name = ".." then (name, none)
    else (String.ofList stem.reverse, some (String.ofList extension))

theorem splitOnChar_ne_nil (sep : Char) (cs : List Char) : splitOnChar sep cs ≠ [] := by
  cases cs with
  | nil => simp [splitOnChar]
  | cons c rest =>
      simp only [splitOnChar]
      split
      · simp
      · split <;> simp

end Path
end DocSite.Files

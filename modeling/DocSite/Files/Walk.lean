import DocSite.Files.Tree
/-! The files below a directory. The directories on the way are read in the order of
their entries' names. -/
namespace DocSite.Files

/-- A file, with the names that lead to it from where the search began. -/
structure Found where
  names : List String
  content : ByteArray
deriving Inhabited

namespace Found

def path (f : Found) : String := "/".intercalate f.names

def notAfter (f g : Found) : Bool := f.names.compareLex compare g.names != .gt

end Found

namespace Node

mutual

/-- The files of a tree, as its entries stand. What `skip` holds of is left out with
all below it. -/
def collect (skip : (names : List String) → (isDir : Bool) → Bool) (at' : List String) :
    Node → List Found
  | .file content _ => [⟨at', content⟩]
  | .dir entries => collectIn skip at' entries

def collectIn (skip : (names : List String) → (isDir : Bool) → Bool) (at' : List String) :
    List (String × Node) → List Found
  | [] => []
  | (name, child) :: rest =>
    let names := at' ++ [name]
    (if skip names child.isDir then [] else child.collect skip names) ++ collectIn skip at' rest

end

def walk (skip : (names : List String) → (isDir : Bool) → Bool) (n : Node) : List Found :=
  (n.collect skip []).mergeSort Found.notAfter

end Node

def below (fs : Files) (path : String) : List Found :=
  ((fs.find? path).map (·.walk fun _ _ => false)).getD []

end DocSite.Files

import DocSite.Site.DocSet
/-! The main menu of a list of pages: the pages of each directory, then a section for
each directory in it. -/
namespace DocSite.Site

/-- The pages of one source directory and the directories in it, as they first come. -/
inductive Folder where
  | mk (pages : List Page) (folders : List (String × Folder))

namespace Folder

def empty : Folder := mk [] []

def pages : Folder → List Page
  | mk ps _ => ps

def folders : Folder → List (String × Folder)
  | mk _ fs => fs

/-- Changes the folder of one name. A folder that is missing is made at the end. -/
def alter (name : String) (change : Folder → Folder) :
    List (String × Folder) → List (String × Folder)
  | [] => [(name, change empty)]
  | (n, f) :: rest => if n = name then (n, change f) :: rest else (n, f) :: alter name change rest

def insert (p : Page) : (path : List String) → Folder → Folder
  | [], mk pages folders => mk (pages ++ [p]) folders
  | name :: path, mk pages folders => mk pages (alter name (insert p path) folders)

def pathOf (p : Page) : List String := (Files.Path.splitOn '/' p.source).dropLast

def ofPages (pages : List Page) : Folder := pages.foldl (fun f p => f.insert p (pathOf p)) empty

def outputPath (parent : String) (name : String) : String :=
  if parent.isEmpty then Text.lowered name else parent ++ "/" ++ Text.lowered name

/-- The output path of the first page that is its directory's own. -/
def index? (f : Folder) : Option String := (f.pages.find? (·.isIndex)).map (·.output)

mutual

/-- The menu of a folder whose output goes to `output`. -/
def items (output : String) : Folder → List MenuItem
  | mk pages folders =>
    (pages.filter (·.inMenu)).map (fun p => .page p.title p.output) ++ sections output folders

/-- A section for each folder in which a page shows. -/
def sections (output : String) : List (String × Folder) → List MenuItem
  | [] => []
  | (segment, folder) :: rest =>
    let entry := Naming.parse segment
    let path := outputPath output entry.name
    match folder.items path with
    | [] => sections output rest
    | children =>
      .section entry.displayTitle path folder.index? children :: sections output rest

end

end Folder

/-- The menu of pages that are in order. -/
def MenuItem.ofPages (pages : List Page) : List MenuItem := (Folder.ofPages pages).items ""

end DocSite.Site

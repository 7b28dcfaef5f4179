import DocSite.Site.Manifest
/-! What a site holds, as lines for people: menu, pages and assets of each version, and
where the configuration and the templates are. -/
namespace DocSite.Site.Listing

/-- A place in a list, with at least three digits. -/
def position (n : Nat) : String :=
  let digits := toString n
  String.ofList (List.replicate (3 - digits.length) '0') ++ digits

def indent (depth : Nat) : String := String.join (List.replicate depth "    ")

def menuLine (e : MenuItem.Entry) : String :=
  s!"{indent e.depth}{position e.position} {e.title}" ++
    (match e.output with
      | some path => " → " ++ path
      | none => "")

def pageLines (n : Nat) (p : Page) : List String :=
  let hidden := if p.inMenu then "" else " (hidden)"
  [s!"    {position n} {p.title}{hidden}", s!"        Source: {p.source}"] ++
    (p.layout.map fun layout => "        Layout: " ++ layout).toList

/-- Lines under a heading, after a blank line. Without lines there is no heading. -/
def group (heading : String) (lines : List String) : List String :=
  if lines.isEmpty then [] else "" :: heading :: lines

def docSetLines (d : DocSet) : List String :=
  "Menu" :: (MenuItem.listing d.menu).map menuLine ++
    group "Pages" (d.pages.mapIdx fun i p => pageLines (i + 1) p).flatten ++
    group "Assets" (d.assets.map fun a => "    " ++ a.output)

def versionLines (d : DocSet) : List String :=
  let place := if d.path.isEmpty then "root" else d.path
  [s!"Version {d.label} ({place})", ""] ++ docSetLines d

/-- Lists with a blank line between them. -/
def separated : List (List String) → List String
  | [] => []
  | [lines] => lines
  | lines :: rest => lines ++ "" :: separated rest

/-- Template directories. One of snippets is told only if it is not told before. -/
def templateDirs (t : Config.Templates) : List String :=
  t.snippetDirs.foldl Config.addNew t.chunkDirs

def configLines (fs : Files) (source : String) (c : Config) : List String :=
  (if fs.contains (Files.Path.join source Config.fileName) then ["    " ++ Config.fileName]
    else []) ++
  ((templateDirs c.templates).filter fun dir => fs.isDir (Files.Path.join source dir)).map
    fun dir => "    " ++ Config.asDir dir

def lines (fs : Files) (source : String) (m : Manifest) : List String :=
  separated (m.docSets.map (if m.isVersioned then versionLines else docSetLines)) ++
    ["", "Config"] ++ configLines fs source m.config

end DocSite.Site.Listing

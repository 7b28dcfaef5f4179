/-! Pages and assets of a site, as a scan finds them. -/
namespace DocSite.Site

/-- A Markdown document of the source tree. Paths are relative to the root of
its doc set. -/
structure Page where
  source : String
  output : String
  title : String
  /-- The layout that the page asks for. It may hold tags. -/
  layout : Option String := none
  inMenu : Bool := true
  tags : List String := []
  /-- Further values of the front matter, in the order of their keys. -/
  extra : List (String × String) := []
  /-- The Markdown text without front matter. -/
  body : String := ""
  deriving Repr, DecidableEq, Inhabited

/-- A file that is copied as it is. -/
structure Asset where
  source : String
  output : String
  deriving Repr, DecidableEq, Inhabited

/-- Whether an output path is that of a directory's own page. -/
def isIndexPath (output : String) : Bool :=
  output == "index.html" || "/index.html".toList.reverse.isPrefixOf output.toList.reverse

def Page.isIndex (p : Page) : Bool := isIndexPath p.output

end DocSite.Site

import DocSite.Naming
import DocSite.Site.Page
/-! The order of pages: by directory, the index of a directory before its other pages. -/
namespace DocSite.Site

/-- What the place of a page hangs on. -/
structure PageKey where
  dirs : List (Nat × String)
  notIndex : Bool
  file : Nat × String
deriving DecidableEq, Repr

namespace PageKey

def ofSource (source : String) : PageKey :=
  let segments := Files.Path.splitOn '/' source
  let file := segments.getLastD ""
  let stem := String.ofList
    ((Naming.beforeSuffix? Naming.markdownSuffix file.toList).getD file.toList)
  ⟨segments.dropLast.map fun s => (Naming.parse s).sortKey, stem != "index",
    (Naming.parse stem).sortKey⟩

protected def compare (a b : PageKey) : Ordering :=
  (a.dirs.compareLex Naming.compareKeys b.dirs).then
    ((compare a.notIndex b.notIndex).then (Naming.compareKeys a.file b.file))

end PageKey

/-- Pages in order. Pages with the same key stay as they are. -/
def Page.sort (pages : List Page) : List Page :=
  pages.mergeSort fun p q => (PageKey.ofSource p.source).compare (PageKey.ofSource q.source) != .gt

end DocSite.Site

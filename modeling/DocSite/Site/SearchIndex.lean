import DocSite.Site.DocSet
import DocSite.Text.Json
/-! The search index of a doc set: a script that holds the text of every page. -/
namespace DocSite.Site.SearchIndex

/-- The name of the index file in the root of a doc set. -/
def fileName : String := "tipuesearch_content.js"

def entry (p : Page) : Text.Json :=
  .object [("title", .string p.title), ("text", .string p.body),
    ("tags", .string (" ".intercalate p.tags)), ("url", .string p.output)]

/-- The index of all pages, those left out of the menu included. -/
def script (d : DocSet) : String :=
  let index : Text.Json := .object [("pages", .array (d.pages.map entry))]
  s!"var tipuesearch = {index.compact};"

end DocSite.Site.SearchIndex

import DocSite.Files.Path
import DocSite.Naming
import DocSite.Site.Menu
import DocSite.Site.Page
/-! One version of the documentation, and the picker that leads from a page to
the same page of the other versions. -/
namespace DocSite.Site

structure DocSet where
  /-- The name of the version. It is empty for a site without versions. -/
  label : String
  /-- Where the version lies in the source and in the output, ending in `/`. It
  is empty for the current version. -/
  path : String
  pages : List Page := []
  assets : List Asset := []
  menu : List MenuItem := []
  deriving Repr, Inhabited

namespace DocSet

def pageByOutput? (d : DocSet) (output : String) : Option Page :=
  d.pages.find? (·.output == output)

/-- Whether there is a page at an output path or at the index of that directory. -/
def hasPage (d : DocSet) (output : String) : Bool :=
  let trimmed := Files.Path.trimSlashes output
  (d.pageByOutput? trimmed).isSome || (d.pageByOutput? (trimmed ++ "/index.html")).isSome

/-- The way from the root of the doc set up to the root of all output. -/
def up (d : DocSet) : String := if d.path.isEmpty then "" else "../"

/-- The picker entry that leads to `output` in `target`. -/
def versionOption (current : DocSet) (output : String) (target : DocSet) : String :=
  let mark := if target.label = current.label then " selected=\"selected\"" else ""
  let toSiteRoot := Naming.pathToRoot output ++ current.up
  s!"<option value=\"{toSiteRoot}{target.path}{output}\"{mark}>Version {target.label}</option>"

/-- One entry for each version that has the page. A site with one version has no picker. -/
def versionOptions (sets : List DocSet) (current : DocSet) (output : String) : String :=
  if sets.length ≤ 1 then ""
  else "\n".intercalate ((sets.filter (·.hasPage output)).map (versionOption current output))

end DocSet
end DocSite.Site

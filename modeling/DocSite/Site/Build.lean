import DocSite.Site.Rendering
import DocSite.Site.Report
import DocSite.Site.SearchIndex
/-! Building a site: for each doc set its assets are copied, its pages rendered and
written, and its search index is written. -/
namespace DocSite.Site.Build

open Template (Stop)

inductive Error where
  /-- A file could not be read or written. -/
  | file
  | page (path : String) (reason : Stop)

/-- The wording of what stopped a render. -/
def reasonText : Stop → String
  | .failed e => e.text
  | .unfinished => ""

/-- The wording of an error, where it does not depend on the file. -/
def Error.message? : Error → Option String
  | .file => none
  | .page path reason => some s!"failed to render {path}: {reasonText reason}"

/-- Work on files. What it did up to an error stays done. -/
abbrev Work (α : Type) := ExceptT Error (StateM Files) α

/-- Does one thing to the files, which must be possible. -/
def onFiles (change? : Files → Option Files) : Work Unit := fun fs =>
  match change? fs with
  | some next => (.ok (), next)
  | none => (.error .file, fs)

def copyAsset (sourceDir targetDir : String) (a : Asset) : Work Unit := do
  let target := Files.Path.join targetDir a.output
  onFiles (·.createParents? target)
  onFiles (·.copy? (Files.Path.join sourceDir a.source) target)

def writeText (path text : String) : Work Unit := onFiles (·.write? path text.toUTF8)

def finishPage (d : DocSet) (targetDir : String) (keepGoing : Bool) (r : Report) (o : Outcome) :
    Work Report :=
  let path := d.path ++ o.page.output
  match o.html with
  | .ok html => do
    let target := Files.Path.join targetDir o.page.output
    onFiles (·.createParents? target)
    writeText target html
    return { r with stats := r.stats + o.stats, written := r.written ++ [path] }
  | .error reason =>
    if keepGoing then return { r with skipped := r.skipped ++ [(path, reasonText reason)] }
    else throw (.page path reason)

def buildSet (m : Manifest) (source output : String) (keepGoing : Bool) (r : Report)
    (d : DocSet) : Work Report := do
  let targetDir := Files.Path.join output d.path
  onFiles (·.createDirs? targetDir)
  d.assets.forM (copyAsset (Files.Path.join source d.path) targetDir)
  let r := { r with assetsCopied := r.assetsCopied + d.assets.length }
  let fs ← get
  let r ← (d.outcomes m fs source).foldlM (finishPage d targetDir keepGoing) r
  writeText (Files.Path.join targetDir SearchIndex.fileName) (SearchIndex.script d)
  return { r with searchIndexes := r.searchIndexes ++ [d.path ++ SearchIndex.fileName] }

def build (m : Manifest) (source output : String) (keepGoing : Bool) : Work Report :=
  m.docSets.foldlM (buildSet m source output keepGoing) {}

end DocSite.Site.Build

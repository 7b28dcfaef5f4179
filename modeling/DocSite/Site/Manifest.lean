import DocSite.Files.Walk
import DocSite.Site.Config
import DocSite.Site.FrontMatter
import DocSite.Site.Navigation
import DocSite.Site.PageOrder
/-! The manifest of a site: its configuration and what a scan of the source has found
for each version. -/
namespace DocSite.Site

open Files (Found)

structure Manifest where
  config : Config := {}
  /-- The current version, then the others in the order of the configuration. -/
  docSets : List DocSet := []
deriving Inhabited

namespace Manifest

def isVersioned (m : Manifest) : Bool := 1 < m.docSets.length

inductive Error where
  /-- A page is no text. -/
  | page
  /-- The file of the configuration is no text. -/
  | configFile
  | config (error : Config.Error)
  | frontMatter (path : String) (error : FrontMatter.Error)
  | noSource
  | noVersion (dir : String)
deriving DecidableEq, Repr

/-- The wording of an error, where it does not depend on the text that was read. -/
def Error.message? : Error → Option String
  | .config e => e.message?.map ("Config error: " ++ ·)
  | .frontMatter path e => e.message?.map fun m => s!"Front matter error in {path}: {m}"
  | .noVersion dir => some ("Version directory not found: " ++ dir)
  | .page | .configFile | .noSource => none

/-! One doc set -/

/-- Whether an entry names a path. One that ends in `/` names a directory and all below it. -/
def isExcludedBy (path : String) (isDir : Bool) (entry : String) : Bool :=
  if Files.Path.endsWithSlash entry then
    entry.toList.isPrefixOf (if isDir then path ++ "/" else path).toList
  else path == entry

def isExcluded (excludes : List String) (path : String) (isDir : Bool) : Bool :=
  excludes.any (isExcludedBy path isDir)

def isHidden (name : String) : Bool := name.toList.head? == some '.'

/-- What a scan passes over: hidden entries and what is excluded. -/
def isSkipped (excludes names : List String) (isDir : Bool) : Bool :=
  isHidden (names.getLastD "") || isExcluded excludes ("/".intercalate names) isDir

def pathIn (dir : String) (f : Found) : String :=
  if f.names.isEmpty then dir else Files.Path.join dir f.path

def fileName (dir : String) (f : Found) : String :=
  (Files.Path.names (pathIn dir f)).getLastD ""

def isMarkdown (dir : String) (f : Found) : Bool :=
  (Files.Path.splitExtension (fileName dir f)).2 == some "md"

/-- Reads a page. Without a title its name is one. -/
def readPage (dir : String) (f : Found) : Except Error Page :=
  match String.fromUTF8? f.content with
  | none => .error .page
  | some text =>
    match FrontMatter.parse text with
    | .error e => .error (.frontMatter (pathIn dir f) e)
    | .ok (matter, body) =>
      let stem := (Files.Path.splitExtension (fileName dir f)).1
      .ok {
        source := f.path
        output := Naming.pageOutputPath f.path
        title := matter.title.getD (Naming.parse stem).displayTitle
        layout := matter.layout
        inMenu := matter.inMenu
        tags := matter.tags
        extra := matter.extra
        body }

def asset (f : Found) : Asset := ⟨f.path, Naming.assetOutputPath f.path⟩

def scanSet (fs : Files) (dir : String) (excludes : List String) (label path : String) :
    Except Error DocSet :=
  match fs.find? dir with
  | none => .error .noSource
  | some node => do
    let (markdown, others) := (node.walk (isSkipped excludes)).partition (isMarkdown dir)
    let pages := Page.sort (← markdown.mapM (readPage dir))
    return ⟨label, path, pages, others.map asset, MenuItem.ofPages pages⟩

/-! The whole source -/

def readConfig (fs : Files) (source : String) : Except Error Config := do
  let path := Files.Path.join source Config.fileName
  let text? ←
    if fs.contains path then
      match fs.readText path with
      | .ok text => .ok (some text)
      | .error _ => .error .configFile
    else .ok none
  match Config.read text? with
  | .ok c => .ok c
  | .error e => .error (.config e)

/-- Scans a version that is not the current one. -/
def scanVersion (fs : Files) (source : String) (excludes : List String) (version : String) :
    Except Error DocSet :=
  let label := Files.Path.trimSlashes version
  let dir := Files.Path.join source label
  if fs.isDir dir then scanSet fs dir excludes label (label ++ "/") else .error (.noVersion dir)

def scan (fs : Files) (source : String) : Except Error Manifest := do
  let config ← readConfig fs source
  let excludes := config.scanExcludes
  let current ← scanSet fs source excludes config.version ""
  let others ← config.versions.mapM (scanVersion fs source excludes)
  return ⟨config, current :: others⟩

end Manifest
end DocSite.Site

import DocSite.Markdown.Html
import DocSite.Site.Manifest
import DocSite.Template.Family
/-! Rendering the pages of a site. The pages of a doc set share one world, and each has
an engine of its own. -/
namespace DocSite.Site

open Template (Bindings Engine Run Session Stats Stop World)

namespace DocSet

/-- The directories in which a doc set looks up its templates, later ones first. A version
that is not the current one looks in its own directory before that of the site. -/
def templateRoots (d : DocSet) (source : String) : List String :=
  if d.path.isEmpty then [source] else [source, Files.Path.join source d.path]

def searchPaths (roots dirs : List String) : List String :=
  roots.flatMap fun root => dirs.map (Files.Path.join root)

/-- The world of a doc set: its template directories and the snippets of every site. -/
def world (d : DocSet) (fs : Files) (source : String) (c : Config) : World :=
  let roots := d.templateRoots source
  let w : World := Template.Family.withBuiltins { files := fs }
  { w with
    chunks := (searchPaths roots c.templates.chunkDirs).foldl (·.addSearchPath ·) w.chunks
    snippets := (searchPaths roots c.templates.snippetDirs).foldl (·.addSearchPath ·) w.snippets }

/-- The engine that those of the pages are forked from. -/
def engine (d : DocSet) (c : Config) : Engine :=
  { placeholders := Bindings.ofList [("site.name", c.siteName), ("site.copyright", c.copyright),
      ("site.theme", c.theme), ("site.version", d.label)] }

end DocSet

namespace Page

/-- The placeholders that lead from a page up to the roots. -/
def rootValues (p : Page) (d : DocSet) : List (String × String) :=
  let toRoot := Naming.pathToRoot p.output
  [("site.toRoot", toRoot), ("site.themeRoot", d.up ++ toRoot)]

def content (p : Page) : String := Markdown.Link.escapeBrackets (Markdown.toHtml p.body)

/-- What the layout of a page is rendered with. -/
def params (p : Page) (m : Manifest) (d : DocSet) : Template.Params :=
  Bindings.ofList (p.extra.map (fun (key, value) => ("page." ++ key, value)) ++ [
    ("site.mainMenu", MenuItem.menuHtml (Naming.pathToRoot p.output) p.output d.menu),
    ("page.title", p.title),
    ("page.tags", " ".intercalate p.tags),
    ("page.content", p.content),
    ("page.versions", DocSet.versionOptions m.docSets d p.output)])

/-- The HTML of a page: its layout is named by a template, and then rendered. -/
def render (p : Page) (m : Manifest) (d : DocSet) : Run String := do
  Run.onEngine fun e => { e with placeholders := e.placeholders.extend (p.rootValues d) }
  let layout ← Engine.renderString (p.layout.getD m.config.layout) {}
  let layout := Text.trimmed layout
  let _ ← Run.onWorld (·.chunk layout)
  Engine.renderNamedChunk layout (p.params m d)

end Page

structure Outcome where
  page : Page
  html : Except Stop String
  stats : Stats

namespace DocSet

/-- Renders one page in a fork of the engine. -/
def renderPage (d : DocSet) (m : Manifest) (w : World) (p : Page) : Outcome × World :=
  let (html, after) := p.render m d ⟨(d.engine m.config).fork, w⟩
  (⟨p, html, after.engine.stats⟩, after.world)

def renderPages (d : DocSet) (m : Manifest) : World → List Page → List Outcome
  | _, [] => []
  | w, p :: rest =>
    let (outcome, after) := d.renderPage m w p
    outcome :: renderPages d m after rest

def outcomes (d : DocSet) (m : Manifest) (fs : Files) (source : String) : List Outcome :=
  d.renderPages m (d.world fs source m.config) d.pages

end DocSet

/-- Renders a template with the engine of the current version and with `values` for
further placeholders. -/
def Manifest.renderTemplate (m : Manifest) (fs : Files) (source template : String)
    (values : List (String × String)) : Except Stop (String × Stats) :=
  let session : Session := match m.docSets.head? with
    | some d => ⟨d.engine m.config, d.world fs source m.config⟩
    | none => { world := { files := fs } }
  let engine := { session.engine with placeholders := session.engine.placeholders.extend values }
  let (result, after) := Engine.renderString template {} { session with engine }
  result.map (·, after.engine.stats)

end DocSite.Site

import DocSite.Site.Manifest
import DocSite.Text.Json
/-! The manifest as JSON. What is missing or empty in a page or in a section is left out. -/
namespace DocSite.Site

open Text (Json)

/-- A member that is there only with a value. -/
def optionalMember (name : String) (value? : Option Json) : List (String × Json) :=
  (value?.map (name, ·)).toList

def Config.json (c : Config) : Json :=
  .object [
    ("site_name", .string c.siteName), ("copyright", .string c.copyright),
    ("theme", .string c.theme), ("layout", .string c.layout),
    ("exclude", .strings c.exclude), ("version", .string c.version),
    ("versions", .strings c.versions),
    ("templates", .object [
      ("chunk_dirs", .strings c.templates.chunkDirs),
      ("snippet_dirs", .strings c.templates.snippetDirs)]),
    ("processing", .object [
      ("max_processes", (c.processing.maxProcesses.map Json.number).getD .null)])]

def Page.json (p : Page) : Json :=
  .object ([("source", .string p.source), ("output", .string p.output),
      ("title", .string p.title)] ++
    optionalMember "layout" (p.layout.map Json.string) ++ [("in_menu", .bool p.inMenu)] ++
    optionalMember "tags" (if p.tags.isEmpty then none else some (.strings p.tags)) ++
    optionalMember "extra" (if p.extra.isEmpty then none
      else some (.object (p.extra.map fun (key, value) => (key, .string value)))))

def Asset.json (a : Asset) : Json :=
  .object [("source", .string a.source), ("output", .string a.output)]

mutual

def MenuItem.json : MenuItem → Json
  | .page title path =>
    .object [("type", .string "page"), ("title", .string title), ("path", .string path)]
  | .section title name index children =>
    .object ([("type", .string "section"), ("title", .string title), ("name", .string name)] ++
      optionalMember "index" (index.map Json.string) ++
      [("children", .array (MenuItem.jsonAll children))])

def MenuItem.jsonAll : List MenuItem → List Json
  | [] => []
  | item :: rest => item.json :: jsonAll rest

end

def DocSet.json (d : DocSet) : Json :=
  .object [("label", .string d.label), ("path", .string d.path),
    ("pages", .array (d.pages.map Page.json)), ("assets", .array (d.assets.map Asset.json)),
    ("navigation", .array (MenuItem.jsonAll d.menu))]

def Manifest.json (m : Manifest) : Json :=
  .object [("config", m.config.json), ("doc_sets", .array (m.docSets.map DocSet.json))]

end DocSite.Site

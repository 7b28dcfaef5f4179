import DocSite.Files.Path
import DocSite.Text.Blank
import DocSite.Toml.Document
/-! The configuration of a site. A value read from TOML is laid over the defaults,
so it only needs the keys that it changes. -/
namespace DocSite.Site

open Toml (Value)

namespace Config

/-- Where chunks and snippets are looked up, from the root of the source. A
directory comes before those in front of it. -/
structure Templates where
  chunkDirs : List String := ["layouts"]
  snippetDirs : List String := ["layouts"]
deriving DecidableEq, Repr, Inhabited

structure Processing where
  /-- How many pages are rendered at once. Without it, as many as there are processors. -/
  maxProcesses : Option Nat := none
deriving DecidableEq, Repr, Inhabited

end Config

structure Config where
  siteName : String := "Unknown"
  copyright : String := ""
  theme : String := "default"
  /-- The layout of pages that name none. -/
  layout : String := "default"
  /-- Paths that a scan skips. One that ends in `/` stands for a directory. -/
  exclude : List String := []
  /-- The name of the current version. -/
  version : String := ""
  /-- Directories that hold the other versions. -/
  versions : List String := []
  templates : Config.Templates := {}
  processing : Config.Processing := {}
deriving DecidableEq, Repr, Inhabited

namespace Config

/-! Values -/

/-- Text. A date or a time will do for it as it is written. -/
def text? : Value → Option String
  | .string s => some s
  | .dateTime d => some d.text
  | _ => none

def texts? : Value → Option (List String)
  | .array items => items.mapM text?
  | _ => none

def count? : Value → Option Nat
  | .integer n => if 0 ≤ n then some n.toNat else none
  | _ => none

def members? (keys : List String) : Value → Option (List (String × Value))
  | .table entries => if entries.all fun (key, _) => keys.contains key then some entries else none
  | .array items => if items.length ≤ keys.length then some (keys.zip items) else none
  | _ => none

/-- The value of one key. A key that is missing has the default. -/
def field? (read? : Value → Option α) (default : α) (members : List (String × Value))
    (key : String) : Option α :=
  match members.lookup key with
  | some value => read? value
  | none => some default

def Templates.ofValue? (v : Value) : Option Templates := do
  let members ← members? ["chunk_dirs", "snippet_dirs"] v
  return {
    chunkDirs := ← field? texts? ({} : Templates).chunkDirs members "chunk_dirs"
    snippetDirs := ← field? texts? ({} : Templates).snippetDirs members "snippet_dirs" }

def Processing.ofValue? (v : Value) : Option Processing := do
  let members ← members? ["max_processes"] v
  return { maxProcesses := ← field? (fun v => (count? v).map some) none members "max_processes" }

def keys : List String :=
  ["site_name", "copyright", "theme", "layout", "exclude", "version", "versions", "templates",
    "processing"]

/-- The configuration that a value stands for. Keys that it does not know are errors. -/
def ofValue? (v : Value) : Option Config := do
  let members ← members? keys v
  let d : Config := {}
  return {
    siteName := ← field? text? d.siteName members "site_name"
    copyright := ← field? text? d.copyright members "copyright"
    theme := ← field? text? d.theme members "theme"
    layout := ← field? text? d.layout members "layout"
    exclude := ← field? texts? d.exclude members "exclude"
    version := ← field? text? d.version members "version"
    versions := ← field? texts? d.versions members "versions"
    templates := ← field? Templates.ofValue? d.templates members "templates"
    processing := ← field? Processing.ofValue? d.processing members "processing" }

def ofTexts (texts : List String) : Value := .array (texts.map .string)

def toValue (c : Config) : Value :=
  .table [
    ("site_name", .string c.siteName), ("copyright", .string c.copyright),
    ("theme", .string c.theme), ("layout", .string c.layout), ("exclude", ofTexts c.exclude),
    ("version", .string c.version), ("versions", ofTexts c.versions),
    ("templates", .table [
      ("chunk_dirs", ofTexts c.templates.chunkDirs),
      ("snippet_dirs", ofTexts c.templates.snippetDirs)]),
    ("processing", .table
      (c.processing.maxProcesses.map fun n => ("max_processes", Value.integer n)).toList)]

/-! Validity -/

inductive Fault where
  | noLayout
  | noLabel
  | versionDir (dir : String)
  | noTemplateDir
  | noProcesses
deriving DecidableEq, Repr

def Fault.message : Fault → String
  | .noLayout => "layout must not be empty"
  | .noLabel => "versions requires a label for the current version in \x60version\x60"
  | .versionDir dir => s!"versions entry '{dir}' must be a plain subdirectory name"
  | .noTemplateDir => "templates directories must not be empty"
  | .noProcesses => "processing.max_processes must be at least 1"

def isVacant (s : String) : Bool := (Text.trim s.toList).isEmpty

/-- A relative path downwards. Slashes at its end do not count. -/
def isPlainDir (dir : String) : Bool :=
  (Files.Path.splitOn '/' (Files.Path.trimSlashes dir)).all fun name =>
    name != "" && name != "." && name != ".."

def fault? (c : Config) : Option Fault :=
  if isVacant c.layout then some .noLayout
  else if !c.versions.isEmpty && isVacant c.version then some .noLabel
  else
    match c.versions.find? (!isPlainDir ·) with
    | some dir => some (.versionDir dir)
    | none =>
      if (c.templates.chunkDirs ++ c.templates.snippetDirs).any isVacant then some .noTemplateDir
      else if c.processing.maxProcesses == some 0 then some .noProcesses
      else none

inductive Error where
  /-- The text is no TOML, or a key is unknown or has a value of another kind. -/
  | toml
  | invalid (fault : Fault)
deriving DecidableEq, Repr

/-- The wording of an error, where it does not depend on the TOML. -/
def Error.message? : Error → Option String
  | .toml => none
  | .invalid fault => some ("Config validation error: " ++ fault.message)

def check (c : Config) : Except Error Config :=
  match c.fault? with
  | some fault => .error (.invalid fault)
  | none => .ok c

/-- A value that must stand for a valid configuration. -/
def ofValue (v : Value) : Except Error Config :=
  match ofValue? v with
  | some c => c.check
  | none => .error .toml

def defaults : Value := toValue {}

def resolve (overlay? : Option Value) : Except Error Config :=
  ofValue (overlay?.elim defaults (Value.merge defaults))

/-- Reads a configuration. There need not be a text. -/
def read (text? : Option String) : Except Error Config :=
  match text? with
  | none => resolve none
  | some text =>
    match Value.read? text with
    | some v => resolve (some v)
    | none => .error .toml

/-! What follows from a configuration -/

/-- The name of the configuration file in the root of the source. -/
def fileName : String := "config.toml"

def asDir (dir : String) : String := Files.Path.trimSlashes dir ++ "/"

/-- Adds what is not there yet. -/
def addNew (found : List String) (dir : String) : List String :=
  if found.contains dir then found else found ++ [dir]

/-- What a scan skips: the configuration, the template directories, the other versions
and what the configuration names. -/
def scanExcludes (c : Config) : List String :=
  let templates := (c.templates.chunkDirs ++ c.templates.snippetDirs).map asDir
  templates.foldl addNew [fileName] ++ c.versions.map asDir ++ c.exclude

/-- How many pages are rendered at once on a machine with so many processors. -/
def Processing.threads (p : Processing) (processors : Nat) : Nat :=
  p.maxProcesses.elim processors (min processors)

end Config
end DocSite.Site

import DocSite.CommandLine.Request
import DocSite.Shell.Launch
import DocSite.Site.Build
import DocSite.Site.Listing
import DocSite.Site.ManifestJson
import DocSite.Site.StockConfig
/-! Running a command: what it prints, how it ends, and the files afterwards. -/
namespace DocSite.CommandLine

open Site

/-- How a command ends. -/
inductive Status where
  | success
  | failure
  | misuse
deriving DecidableEq, Repr

def Status.code : Status → Nat
  | .success => 0
  | .failure => 1
  | .misuse => 2

structure Outcome where
  status : Status := .success
  stdout : String := ""
  stderr : String := ""
  files : Files

namespace Outcome

def ofLines (lines : List String) : String := String.join (lines.map (· ++ "\n"))

def version : String := "docweave 0.4.0"

def usage : List String := [
  "Usage: docweave [--source DIR] [--output DIR] [-v]... COMMAND",
  "",
  "Commands:",
  "  check [--json]                     Show what would be built",
  "  build [--keep-going]               Generate the site",
  "  render FILE [--set NAME=VALUE]...  Render one template file",
  "  gen-config                         Print a stock config.toml",
  "  help                               Print this help"]

def ofStop (fs : Files) : Stop → Outcome
  | .usage => { status := .misuse, stderr := ofLines usage, files := fs }
  | .help => { stdout := ofLines usage, files := fs }
  | .version => { stdout := ofLines [version], files := fs }

/-- A failure after some lines have been printed. -/
def failed (fs : Files) (lines : List String) (reason : String) : Outcome :=
  { status := .failure, stdout := ofLines lines, stderr := ofLines ["Error: " ++ reason],
    files := fs }

def scanFailed (fs : Files) (lines : List String) (e : Manifest.Error) : Outcome :=
  failed fs lines (e.message?.getD "the source cannot be read")

def check (fs : Files) (source : String) (json : Bool) : Outcome :=
  match Manifest.scan fs source with
  | .error e => scanFailed fs [] e
  | .ok m =>
    if json then { stdout := ofLines [m.json.pretty 0], files := fs }
    else
      { stdout := ofLines
          (["==> Checking " ++ source] ++ Listing.lines fs source m ++ ["==> Content is valid"])
        files := fs }

def build (fs : Files) (source output : String) (keepGoing : Bool) : Outcome :=
  let scanning := ["==> Scanning " ++ source]
  match Manifest.scan fs source with
  | .error e => scanFailed fs scanning e
  | .ok m =>
    let generating := scanning ++ ["==> Generating HTML → " ++ output]
    match Build.build m source output keepGoing fs with
    | (.error e, after) =>
      failed after generating (e.message?.getD "a file cannot be read or written")
    | (.ok report, after) =>
      { stdout := ofLines (generating ++ report.lines ++ ["==> Build complete: " ++ output])
        files := after }

def render (fs : Files) (source file : String) (values : List (String × String)) : Outcome :=
  match Manifest.scan fs source with
  | .error e => scanFailed fs [] e
  | .ok m =>
    match fs.readText file with
    | .error _ => failed fs [] ("cannot read " ++ file)
    | .ok template =>
      match m.renderTemplate fs source template values with
      | .error reason => failed fs [] (Build.reasonText reason)
      | .ok (html, _) => { stdout := html, files := fs }

def ofRequest (fs : Files) (r : Request) : Outcome :=
  match r.command with
  | .check json => check fs r.source json
  | .build keepGoing => build fs r.source r.output keepGoing
  | .render file values => render fs r.source file values
  | .genConfig => { stdout := Config.stockText, files := fs }

/-- Runs the command that the arguments ask for. -/
def ofArguments (fs : Files) (args : List String) : Outcome :=
  match Request.read args with
  | .error stop => ofStop fs stop
  | .ok request => ofRequest fs request

end Outcome
end DocSite.CommandLine

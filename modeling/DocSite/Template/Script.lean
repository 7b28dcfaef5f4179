import DocSite.Files.Tree
import DocSite.Template.Bindings
import DocSite.Template.Error
import DocSite.Text.Blank
import DocSite.Text.Utf8
/-! Snippets kept as script files. Each parameter is an environment variable, and
what the script prints is the output of the snippet. -/
namespace DocSite.Template.Script

def variableName (param : String) : String := "SNIPPET_" ++ param.map Char.toUpper

/-- The variables of a run. Of two parameters with one variable the later counts. -/
def environment (params : Params) : List (String × String) :=
  (Bindings.ofList (params.entries.map fun p => (variableName p.1, p.2))).entries

/-- Runs the script at `path`. Whether it can be started, and what it does, is up to the file
system. -/
def run (files : Files) (path : String) (params : Params) : Except SnippetError String :=
  if params.entries.any fun p => p.1.toList.contains '\x00' || p.2.toList.contains '\x00' then
    .error (.start .nulInParameter)
  else match files.execute path (environment params) with
    | .error reason => .error (.start reason)
    | .ok ended =>
      if ended.status.succeeded then .ok (Text.Utf8.decode ended.output)
      else .error (.script path ended.status (Text.trimmed (Text.Utf8.decode ended.error)))

theorem run_congr {files other : Files} {path : String}
    (same : other.execute path = files.execute path) : run other path = run files path := by
  funext params
  rw [run, run, same]

end DocSite.Template.Script

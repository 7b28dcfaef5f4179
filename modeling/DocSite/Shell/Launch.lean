import DocSite.Files.Tree
import DocSite.Shell.Run
import DocSite.Text.Blank
/-! Starting scripts with the shell: one launcher of all those that a file system may have. -/
namespace DocSite.Shell

def interpreter? (content : ByteArray) : Option String :=
  match content.toList.map fun b => Char.ofNat b.toNat with
  | '#' :: '!' :: rest =>
    some (Text.trimmed (String.ofList (rest.takeWhile (· ≠ '\n'))))
  | _ => none

def interpreters : List String :=
  ["/bin/sh", "/bin/bash", "/bin/dash", "/usr/bin/sh", "/usr/bin/bash", "/usr/bin/env sh",
    "/usr/bin/env bash"]

/-- Starts the script at a path. A path without `/` is looked up among the installed programs, where
no snippet is. -/
def launch : Files.Launch := fun root current path exported =>
  let files : Files := { root, current }
  if !path.toList.contains '/' then .error .notFound
  else match files.find? path with
    | none => .error .notFound
    | some (.dir _) => .error .permissionDenied
    | some (.file content executable) =>
      if !executable then .error .permissionDenied
      else match interpreter? content with
        | none => .error .notExecutable
        | some program =>
          if interpreters.contains program then .ok (run path content exported)
          else .error .notFound

/-- The shell looks at nothing but the file of the script. -/
theorem launch_congr {files other : Files} {path : String}
    (same : other.find? path = files.find? path) :
    launch other.root other.current path = launch files.root files.current path := by
  have same : ({ root := other.root, current := other.current } : Files).find? path =
      ({ root := files.root, current := files.current } : Files).find? path := same
  funext exported
  simp only [launch, same]

end DocSite.Shell

namespace DocSite.Files

/-- An empty file system in which the current directory exists and scripts are started with the
shell. -/
def inDirectory (current : List String) : Files where
  root := current.foldr (fun name inner => .dir [(name, inner)]) (.dir [])
  current
  launch := Shell.launch

end DocSite.Files

import DocSite.CommandLine.Outcome
/-! The program. It reads the directories that a command names, runs the command on them
and writes the files that have changed. -/
namespace DocSite.Program

open CommandLine (Outcome Request)

/-- Whether a file begins with the name of its interpreter. -/
def namesInterpreter (content : ByteArray) : Bool := content.toList.take 2 == [0x23, 0x21]

/-- Adds what is at a path to the files. -/
partial def load (fs : Files) (path : String) : IO Files := do
  let .ok real ← (IO.FS.realPath path).toBaseIO | return fs
  if ← real.isDir then
    let mut fs := (fs.createDirs? path).getD fs
    for entry in ← real.readDir do
      fs ← load fs (Files.Path.join path entry.fileName)
    return fs
  else
    let content ← IO.FS.readBinFile real
    return (fs.writeWithParents? path content (namesInterpreter content)).getD fs

/-- Adds what a request needs: its source with all template directories, its output
and its template. -/
def loadFor (fs : Files) (r : Request) : IO Files := do
  let mut fs ← load fs r.source
  if let .ok config := Site.Manifest.readConfig fs r.source then
    for dir in config.templates.chunkDirs ++ config.templates.snippetDirs do
      fs ← load fs (Files.Path.join r.source dir)
  if let .render file _ := r.command then
    fs ← load fs file
  load fs r.output

/-- Writes the files that are not as they were. -/
def store (before after : Files) : IO Unit := do
  for f in after.root.walk fun _ _ => false do
    let same := match before.root.find? f.names with
      | some (.file content _) => content == f.content
      | _ => false
    if !same then
      IO.FS.createDirAll ("/" ++ "/".intercalate f.names.dropLast)
      IO.FS.writeBinFile ("/" ++ f.path) f.content

def run (args : List String) : IO UInt32 := do
  let here := Files.inDirectory (Files.Path.names (← IO.currentDir).toString)
  let files ← match Request.read args with
    | .ok request => loadFor here request
    | .error _ => pure here
  let outcome := Outcome.ofArguments files args
  store files outcome.files
  IO.print outcome.stdout
  IO.eprint outcome.stderr
  return outcome.status.code.toUInt32

end DocSite.Program

def main (args : List String) : IO UInt32 := DocSite.Program.run args

import ProtoStub.CommandLine

/-!
# The program

Reads the files that a run can see into a workspace, runs `execute` on it, and brings the disk to
the state of the workspace that comes out.
-/

namespace ProtoStub.Disk

/-- The bytes of the file at `path`. -/
def readBytes (path : String) : IO (List UInt8) := do
  return (← IO.FS.readBinFile path).toList

/-- Adds what is at `path`, and all below it, to a workspace. -/
partial def load (w : Workspace) (path : String) : IO Workspace := do
  let cwd ← IO.currentDir
  let place := cwd / path
  if ← place.isDir then
    let mut w := w.plant path .directory
    for entry in ← place.readDir do
      w ← load w (joinPath [path, entry.fileName])
    return w
  else if ← place.pathExists then return w.plant path (.file (← readBytes path))
  else return w

/-- Adds the first file on the way to `path`, if there is one: it keeps directories from being
made. -/
def loadBlocker (w : Workspace) (path : String) : IO Workspace := do
  let cwd ← IO.currentDir
  let mut w := w
  for ancestor in Edit.ancestors (w.absolute path).toList do
    let text := clean (String.ofList ancestor)
    let place := cwd / text
    if (← place.pathExists) && !(← place.isDir) then
      w := w.plant text (.file (← readBytes text))
  return w

/-- The variables that settings come from. -/
def environment : IO Environment := do
  let names := (Environment.family ++ "CONFIG") :: Key.all.map Environment.variableOf
  names.filterMapM fun name => return (← IO.getEnv name).map (name, ·)

/-- The directory that holds the schema files: `path`, or the directory that the file `path` lies
in. -/
def directoryOf (path : String) : IO String := do
  if ← ((← IO.currentDir) / path).isDir then return path else return dirOf path

/-- The number of processors, as far as the system tells. -/
def processors : IO Int := do
  let table ← try IO.FS.readFile "/proc/cpuinfo" catch _ => pure ""
  return max 1 ((Text.split '\n' table).countP (Text.startsWith · "processor"))

/-- The paths that a run with these arguments reads and writes, the schema files first. -/
def pathsOf (processors : Int) (w : Workspace) (e : Environment) (arguments : List String) :
    List String :=
  match Flags.parse processors Flag.all arguments with
  | .error _ => []
  | .ok flags =>
    match Settings.load processors w e flags.config with
    | .error _ => []
    | .ok loaded =>
      let s := flags.applyTo loaded
      (s.proto :: s.roots ++ [s.out, s.compiler]).filter (· != "")

/-- The settings file that the arguments or the environment name. -/
def configOf (processors : Int) (e : Environment) (arguments : List String) : String :=
  match Flags.parse processors Flag.all arguments with
  | .ok flags =>
    if flags.config == "" then e.value (Environment.family ++ "CONFIG") else flags.config
  | .error _ => ""

/-- Writes what the workspace `after` has and `before` has not. -/
def store (before after : Workspace) : IO Unit := do
  for (place, entry) in after.entries do
    if before.entry? place != some entry then
      let path := Workspace.pathOf place
      match entry with
      | .directory => IO.FS.createDirAll path
      | .file content =>
        let temporary := path ++ ".tmp"
        IO.FS.writeBinFile temporary ⟨content.toArray⟩
        IO.FS.rename temporary path

end ProtoStub.Disk

open ProtoStub in
/-- The program. -/
def main (arguments : List String) : IO UInt32 := do
  let e ← Disk.environment
  let processors ← Disk.processors
  let cwd := (← IO.currentDir).toString
  let empty := ({ cwd } : Workspace).plant cwd .directory
  let config := Disk.configOf processors e arguments
  let mut w := empty
  if config != "" then w ← Disk.load w config
  let paths := Disk.pathsOf processors w e arguments
  for path in paths do
    w ← Disk.loadBlocker w path
    w ← Disk.load w path
  for path in paths.take 1 do
    w ← Disk.load w (← Disk.directoryOf path)
  let done := execute processors w e arguments
  Disk.store w done.workspace
  IO.print done.output
  IO.eprint done.diagnostics
  return done.code.toUInt32

import ProtoStub.Workspace

/-!
# Changing a workspace

`Edit α` is a computation on a workspace that may be refused; what it had changed by then stays. The
operations are those of the operating system with its refusals: making directories, writing a file
in place, and writing a file by way of a temporary one.
-/

namespace ProtoStub

open Text

/-- A computation that changes a workspace and may stop with an error. -/
abbrev Edit (α : Type) : Type := ExceptT Error (StateM Workspace) α

namespace Workspace

/-- The workspace with `e` at `place`. -/
def put (w : Workspace) (place : List String) (e : Entry) : Workspace :=
  { w with entries := w.entries.filter (·.1 != place) ++ [(place, e)] }

/-- The workspace without the entry at `place`. -/
def erase (w : Workspace) (place : List String) : Workspace :=
  { w with entries := w.entries.filter (·.1 != place) }

/-- The workspace without `place` and all below it. -/
def eraseAll (w : Workspace) (place : List String) : Workspace :=
  { w with entries := w.entries.filter fun e => !place.isPrefixOf e.1 }

/-- The workspace with a directory at each place on the way to `place`, unless something is
there. -/
def putParents (w : Workspace) (place : List String) : Workspace :=
  (List.range place.length).foldl (fun w n =>
    match w.entry? (place.take n) with
    | some _ => w
    | none => w.put (place.take n) .directory) w

/-- The place beside `place` with a number behind its last name. -/
def numbered (place : List String) (n : Nat) : List String :=
  place.dropLast ++ [place.getLastD "" ++ toString n]

/-- A place where nothing stands: `place`, or a numbered one beside it. -/
def freePlace? (w : Workspace) (place : List String) : Option (List String) :=
  (place :: (List.range (w.entries.length + 1)).map (numbered place)).find? fun p =>
    (w.entry? p).isNone

/-- The workspace with `e` at `path`, and with all directories that lead there. -/
def plant (w : Workspace) (path : String) (e : Entry) : Workspace :=
  let place := (Path.ofText (w.absolute path)).segments
  (w.putParents place).put place e

/-- The workspace without what is at `path`. -/
def uproot (w : Workspace) (path : String) : Workspace :=
  w.eraseAll (Path.ofText (w.absolute path)).segments

end Workspace

namespace Edit

/-- Stops with a refused file operation. -/
def refuse (operation operand : String) (errno : Errno) : Edit α :=
  throw (.refused ⟨operation, operand, errno⟩)

/-- Where a path leads, or the refusal of `operation`. -/
def locate (operation path : String) : Edit Spot := do
  match (← get).locate path with
  | .ok spot => return spot
  | .error e => refuse operation path e

/-- A path without the separators at its end. -/
def dropSeparators (path : String) : String :=
  String.ofList (path.toList.reverse.dropWhile (· == '/')).reverse

/-- Makes one directory. -/
def mkdir (path : String) : Edit Unit := do
  match (← get).locate (dropSeparators path) with
  | .ok (.taken _ _) => refuse "mkdir" path .fileExists
  | .ok (.free place) => modify (·.put place .directory)
  | .error e => refuse "mkdir" path e

/-- The start of a path before its last segment, with the separator. -/
def parentOf (path : List Char) : List Char :=
  ((path.reverse.dropWhile (· == '/')).dropWhile (· != '/')).reverse

/-- The paths of the directories that lead to `path`, from the outside in. -/
def ancestors (path : List Char) : List (List Char) :=
  if _h : (parentOf path).length < path.length then
    if (parentOf path).isEmpty then [] else ancestors (parentOf path) ++ [parentOf path]
  else []
termination_by path.length

/-- Makes the directory `path`, unless it is there. -/
def mkdirOne (path : String) : Edit Unit := do
  match (← get).find path with
  | .ok .directory => return
  | .ok (.file _) => refuse "mkdir" path .notDirectory
  | .error _ => mkdir path

/-- Makes the directory `path` and all that lead to it. Nothing is made when it is there. -/
def mkdirAll (path : String) : Edit Unit := do
  match (← get).find path with
  | .ok .directory => return
  | .ok (.file _) => refuse "mkdir" path .notDirectory
  | .error _ =>
    for parent in ancestors path.toList do
      mkdirOne (String.ofList parent)
    mkdir path

/-- Writes a file where it stands, or makes it. -/
def write (path : String) (content : List UInt8) : Edit Unit := do
  match ← locate "open" path with
  | .taken place (.file _) | .free place => modify (·.put place (.file content))
  | .taken _ .directory => refuse "open" path .isDirectory

/-- The digits that make the name of a temporary file unlike all others. -/
def digitCount : Nat := 10

/-- The path of a temporary file beside the file `name` in `dir`. The star stands for the digits. -/
def temporaryPath (dir name : String) : String :=
  (if endsWith dir "/" then dir else dir ++ "/") ++ "." ++ name ++ ".*"

/-- Makes a temporary file and gives its place. -/
def create (dir name : String) (content : List UInt8) : Edit (List String) := do
  let path := temporaryPath dir name
  if name.toList.contains '/' then
    refuse "createtemp" ("." ++ name ++ ".*") .separatorInPattern
  else
    match ← locate "open" path with
    | .taken place _ | .free place =>
      if name.utf8ByteSize + 2 + digitCount > Workspace.maxName then refuse "open" path .nameTooLong
      else
        match (← get).freePlace? place with
        | none => refuse "open" path .fileExists
        | some place =>
          modify (·.put place (.file content))
          return place

/-- Moves the file at `source`, which the path `temporary` leads to, to `target`. -/
def rename (source : List String) (temporary target : String) (content : List UInt8) :
    Edit Unit := do
  let stop (e : Errno) : Edit Unit := do
    modify (·.erase source)
    refuse "rename" (temporary ++ " " ++ target) e
  match (← get).locate target with
  | .error e => stop e
  | .ok (.taken _ .directory) => stop .fileExists
  | .ok (.free place) =>
    if endsWith target "/" then stop .notDirectory
    else modify fun w => (w.erase source).put place (.file content)
  | .ok (.taken place (.file _)) => modify fun w => (w.erase source).put place (.file content)

/-- Puts `context` in front of the error of an edit. -/
def within (context : String) (e : Edit α) : Edit α :=
  ExceptT.adapt (Error.within context) e

/-- Writes a file by way of a temporary one beside it, so that a refusal never leaves half a
file. -/
def replace (path : String) (content : List UInt8) : Edit Unit := do
  let dir := dirOf path
  within ("create dir " ++ dir) (mkdirAll dir)
  within ("write file " ++ path) do
    let source ← create dir (baseOf path) content
    rename source (temporaryPath dir (baseOf path)) path content

end Edit

end ProtoStub

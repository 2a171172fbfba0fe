import ProtoStub.Schema.Search
import ProtoStub.Definition.Grammar
import ProtoStub.Workspace.Change

/-!
# Import names and the files they stand for

A compiler knows files by the names they are imported by, so every name has to stand for one file.
`resolveImports` follows the imports of some files of a directory, looking for each import beside
the file that has it and then in the roots, and gives the file of every name that is reached; it
fails when a name would stand for two files. How imports are taken from the content of a file is a
parameter, `scan`. Imports that are found nowhere and the imports of files that cannot be read are
left out. `layOut` copies the files to the names they are imported by.
-/

namespace ProtoStub.Schema

open Text

/-- Names with the files they stand for, in the order they were reached. -/
abbrev ImportSet : Type := List (String × String)

/-- The file a name stands for. -/
def ImportSet.path? (s : ImportSet) (name : String) : Option String := s.lookup name

/-- A name that was met, and the file it was found at. -/
structure Mention where
  name : String
  path : String
  /-- The file that imports it; empty for a name that was asked for. -/
  owner : String := ""
  line : Nat := 0
  deriving Repr, DecidableEq, Inhabited

/-- A way to take the imports from the content of a file. -/
abbrev ImportScan : Type := List UInt8 → List Definition.Import

/-- The imports that the file at `path` declares; none when it cannot be read. -/
def declaredImports (scan : ImportScan) (w : Workspace) (path : String) : List Definition.Import :=
  match w.read path with
  | .ok content => scan content
  | .error _ => []

/-- The names that any file of a workspace imports. -/
def importNames (scan : ImportScan) (w : Workspace) : List String :=
  w.entries.flatMap fun (_, e) =>
    match e with
    | .file content => (scan content).map (·.path)
    | .directory => []

/-- The imports of a file that are found, bundled ones left out. -/
def Search.mentions (scan : ImportScan) (s : Search) (path : String) : List Mention :=
  (declaredImports scan s.workspace path).filterMap fun i =>
    if isBundled i.path then none
    else (s.find? (dirOf path) i.path).map fun target => ⟨i.path, target, path, i.line⟩

/-- The error of a name that already stands for another file. -/
def Mention.conflict (m : Mention) (earlier : String) : Error :=
  .parse ⟨if m.owner == "" then m.path else m.owner, m.line, .importConflict m.name m.path earlier⟩

/-- Follows the names in `pending`, first to last and each with its own imports before the next.
`fresh` holds the names that stand for nothing yet. -/
def follow (scan : ImportScan) (s : Search) (fresh : List String) (pending : List Mention)
    (done : ImportSet) : Except Error ImportSet :=
  match pending with
  | [] => .ok done
  | m :: rest =>
    if h : m.name ∈ fresh then
      have : (fresh.filter (· != m.name)).length < fresh.length :=
        List.length_filter_lt_length_iff_exists.2 ⟨m.name, h, by simp⟩
      follow scan s (fresh.filter (· != m.name)) (s.mentions scan m.path ++ rest)
        (done ++ [(m.name, m.path)])
    else
      match done.lookup m.name with
      | none => follow scan s fresh rest done
      | some earlier =>
        if earlier == m.path then follow scan s fresh rest done else .error (m.conflict earlier)
termination_by (fresh.length, pending.length)

/-- The files that the names `names`, which lie in `dir`, and all they import stand for. -/
def resolveImports (scan : ImportScan) (s : Search) (dir : String) (names : List String) :
    Except Error ImportSet :=
  follow scan s (names ++ importNames scan s.workspace)
    (names.map fun n => { name := n, path := joinPath [dir, n] }) []

/-- Copies one file to its name below `root`. -/
def layOutFile (root name path : String) : Edit Unit := do
  if !isLocal name then throw (.parse ⟨path, 0, .leavesImportRoot name⟩)
  match (← get).read path with
  | .error fault => throw (.parse ⟨path, 0, .unreadable fault⟩)
  | .ok content =>
    Edit.within ("lay out " ++ name) do
      let target := joinPath [root, name]
      Edit.mkdirAll (dirOf target)
      Edit.write target content

/-- Copies every file to its name below `root`. -/
def layOut (s : ImportSet) (root : String) : Edit Unit :=
  s.forM fun (name, path) => layOutFile root name path

end ProtoStub.Schema

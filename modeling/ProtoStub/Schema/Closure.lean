import ProtoStub.Schema.Search
import ProtoStub.Schema.Source
import ProtoStub.Program.Visibility

/-!
# Reading files with all they import

`loadFile` reads a schema file and, before it counts as read, everything it imports. A file that is
met again while it is still being read closes an import cycle. The reading ends on every workspace:
each file is entered once on any chain of imports, and `fresh` holds the files not entered yet.
-/

namespace ProtoStub.Schema

open Text

/-- The files of a run in the order of their paths. -/
def FileSet.ofFiles (files : List File) (inputs : List String) : FileSet :=
  ⟨files.mergeSort (decide <| ·.path ≤ ·.path), inputs⟩

/-- Leaving out a member makes a list shorter. -/
theorem length_filter_ne_lt {path : String} {fresh : List String} (h : path ∈ fresh) :
    (fresh.filter (· != path)).length < fresh.length :=
  List.length_filter_lt_length_iff_exists.2 ⟨path, h, by simp⟩

mutual

/-- Adds the file at `path` and all it imports to `done`. `name` is what it is called when it lies
below no root. -/
def loadFile (s : Search) (fresh : List String) (done : List File) (path name : String) :
    Except Error (List File) :=
  if done.any (·.path == path) then .ok done
  else
    match s.workspace.read path with
    | .error fault => .error (.parse ⟨path, 0, .unreadable fault⟩)
    | .ok content =>
      if h : path ∈ fresh then
        match parseSource path (glyphs content) with
        | .error e => .error e
        | .ok parsed =>
          have := length_filter_ne_lt h
          match loadImports s (fresh.filter (· != path)) done path
              (parsed.file.imports.zip parsed.sites) with
          | .error e => .error e
          | .ok (done, imports) =>
            .ok (done ++ [{ parsed.file with name := s.displayName path name, imports }])
      else .error (.parse ⟨path, 0, .importCycle⟩)
termination_by (fresh.length, 0)

/-- Adds the imports of the file at `path` and all they import to `done`, and resolves them. -/
def loadImports (s : Search) (fresh : List String) (done : List File) (path : String) :
    List (Import × ImportSite) → Except Error (List File × List Import)
  | [] => .ok (done, [])
  | (imp, site) :: rest =>
    if isBundled imp.path then
      match loadImports s fresh done path rest with
      | .error e => .error e
      | .ok (done, imports) => .ok (done, imp :: imports)
    else
      match s.find? (dirOf path) imp.path with
      | none => .error (.parse ⟨path, site.line, .importNotFound site.path⟩)
      | some target =>
        match loadFile s fresh done target imp.path with
        | .error e => .error e
        | .ok done =>
          match loadImports s fresh done path rest with
          | .error e => .error e
          | .ok (done, imports) => .ok (done, { imp with resolved := target } :: imports)
termination_by imports => (fresh.length, imports.length + 1)

end

/-- The files at `inputs`, which are paths from the root of the tree, and all they import. -/
def loadAll (s : Search) (inputs : List String) : Except Error FileSet := do
  let files ← (inputs.mergeSort (decide <| · ≤ ·)).foldlM
    (fun done path => loadFile s s.workspace.filePaths done path (baseOf path)) []
  return .ofFiles files inputs

end ProtoStub.Schema

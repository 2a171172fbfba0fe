import ProtoStub.Workspace
import ProtoStub.Type

/-!
# Searching for imports

An import is looked for in the directory of the file that imports it and then in the roots. Bundled
schema files are never looked for.
-/

namespace ProtoStub.Schema

open Text

/-- Where imports are searched. -/
structure Search where
  workspace : Workspace
  roots : List String := []

namespace Search

/-- The first file called `name` in `dir` or in a root, from the root of the tree. -/
def find? (s : Search) (dir name : String) : Option String :=
  (((dir :: s.roots).map fun base => joinPath [base, name]).find? s.workspace.isFile).map
    s.workspace.absolute

/-- The import-style name of the file at `path`, or `fallback`. -/
def displayName (s : Search) (path fallback : String) : String :=
  ProtoStub.displayName s.workspace.cwd s.roots path fallback

end Search

/-- The import names a bundled schema file. -/
def isBundled (name : String) : Bool := startsWith name bundledDirectory

end ProtoStub.Schema

import ProtoStub.Schema

/-!
# Visibility between files

A file may refer to its own declarations, to those of the files it imports, and to those of the
files that these re-export by public imports, however many steps away. `visibleFrom` computes the
visible files; it ends on every import graph because each file is entered once.
-/

namespace ProtoStub.Schema

/-- The files of a run, and the paths that were asked for. -/
structure FileSet where
  files : List File := []
  inputs : List String := []
  deriving Repr, DecidableEq, Inhabited

namespace FileSet

/-- The position of the first file at `path`. -/
def index? (s : FileSet) (path : String) : Option Nat := s.files.findIdx? (·.path == path)

/-- The file at `path` was asked for. -/
def isInput (s : FileSet) (path : String) : Bool := s.inputs.contains path

/-- The files that file `i` imports; imports of bundled files do not count. -/
def importsOf (s : FileSet) (i : Nat) : List Nat :=
  match s.files[i]? with
  | none => []
  | some f => (f.imports.filter (·.resolved != "")).filterMap fun imp => s.index? imp.resolved

/-- The files that file `i` re-exports. -/
def publicImportsOf (s : FileSet) (i : Nat) : List Nat :=
  match s.files[i]? with
  | none => []
  | some f =>
    (f.imports.filter fun imp => imp.isPublic && imp.resolved != "").filterMap fun imp =>
      s.index? imp.resolved

end FileSet

/-- Everything reached from `pending` along `edges` inside `fresh`, in the order it is entered. -/
def spread (edges : Nat → List Nat) (pending fresh : List Nat) : List Nat :=
  match pending with
  | [] => []
  | p :: rest =>
    if h : p ∈ fresh then p :: spread edges (edges p ++ rest) (fresh.erase p)
    else spread edges rest fresh
termination_by (fresh.length, pending.length)
decreasing_by
  · have := List.length_erase_of_mem h
    have := List.length_pos_of_mem h
    apply Prod.Lex.left
    omega
  · apply Prod.Lex.right
    simp

/-- The files whose declarations file `i` may refer to. -/
def FileSet.visibleFrom (s : FileSet) (i : Nat) : List Nat :=
  i :: spread s.publicImportsOf (s.importsOf i) ((List.range s.files.length).erase i)

end ProtoStub.Schema

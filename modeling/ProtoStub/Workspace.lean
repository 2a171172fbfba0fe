import ProtoStub.Error
import ProtoStub.Path

/-!
# Workspaces

A workspace is a tree of directories and files, held as a list of entries under their segments from
the root, and a current directory. `Workspace.locate` follows a path segment by segment the way the
operating system does, with its refusals; reading goes through it. Changes are in
`Workspace.Change`.
-/

namespace ProtoStub

open Text

/-- What stands at a place of a workspace. -/
inductive Entry where
  | directory
  | file (content : List UInt8)
  deriving Repr, DecidableEq, Inhabited

/-- A tree of files. The root is always a directory and has no entry of its own. -/
structure Workspace where
  /-- The current directory, from the root. -/
  cwd : String := "/"
  entries : List (List String × Entry) := []
  deriving Repr, Inhabited

/-- Where a path leads: to an entry, or to a free place in a directory. -/
inductive Spot where
  | taken (place : List String) (entry : Entry)
  | free (place : List String)
  deriving Repr, DecidableEq, Inhabited

namespace Workspace

/-- The entry at a place. -/
def entry? (w : Workspace) (place : List String) : Option Entry :=
  if place.isEmpty then some .directory else w.entries.lookup place

/-- The longest name of an entry, in bytes. -/
def maxName : Nat := 255

/-- The longest path, in bytes. -/
def maxPath : Nat := 4095

/-- Follows `segments` from `place`. Every segment is looked up in a directory, so a file can only
be the end of the way; a free place can be followed by nothing but separators. -/
def follow (w : Workspace) (place : List String) : List String → Except Errno Spot
  | [] =>
    match w.entry? place with
    | some e => .ok (.taken place e)
    | none => .error .notFound
  | s :: rest =>
    match w.entry? place with
    | none => .error .notFound
    | some (.file _) => .error .notDirectory
    | some .directory =>
      if s == "" || s == "." then follow w place rest
      else if s == ".." then follow w place.dropLast rest
      else if s.utf8ByteSize > maxName then .error .nameTooLong
      else
        let next := place ++ [s]
        match w.entry? next with
        | some _ => follow w next rest
        | none => if rest.all (· == "") then .ok (.free next) else .error .notFound

/-- Where the path `s` leads. -/
def locate (w : Workspace) (s : String) : Except Errno Spot :=
  if s == "" then .error .notFound
  else if s.toList.contains '\x00' then .error .invalidArgument
  else if s.utf8ByteSize > maxPath then .error .nameTooLong
  else
    let start := if isAbsolute s then [] else (Path.ofText ("/" ++ w.cwd)).segments
    w.follow start (split '/' s)

/-- The entry a path leads to. -/
def find (w : Workspace) (s : String) : Except Errno Entry := do
  match ← w.locate s with
  | .taken _ e => return e
  | .free _ => .error .notFound

/-- The entry a path leads to, with the refusal of a status query. -/
def stat (w : Workspace) (s : String) : Except FileFault Entry :=
  (w.find s).mapError (⟨"stat", s, ·⟩)

/-- The path leads to a file. -/
def isFile (w : Workspace) (s : String) : Bool :=
  match w.find s with
  | .ok (.file _) => true
  | _ => false

/-- The content of the file a path leads to. -/
def read (w : Workspace) (s : String) : Except FileFault (List UInt8) :=
  match w.find s with
  | .ok (.file content) => .ok content
  | .ok .directory => .error ⟨"read", s, .isDirectory⟩
  | .error e => .error ⟨"open", s, e⟩

/-- The path of a place, from the root. -/
def pathOf (place : List String) : String := Path.toText ⟨true, place⟩

/-- `path` from the root. -/
def absolute (w : Workspace) (path : String) : String := ProtoStub.absolute w.cwd path

/-- The paths of the files. -/
def filePaths (w : Workspace) : List String :=
  w.entries.filterMap fun (place, e) =>
    match e with
    | .file _ => some (pathOf place)
    | .directory => none

/-- The entries below a place, under their segments from there. -/
def below (w : Workspace) (place : List String) : List (List String × Entry) :=
  w.entries.filterMap fun (p, e) =>
    if place.isPrefixOf p && place.length < p.length then some (p.drop place.length, e) else none

end Workspace

end ProtoStub

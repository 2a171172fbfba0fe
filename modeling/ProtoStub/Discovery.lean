import ProtoStub.Workspace
import ProtoStub.Glob

/-!
# Finding schema files

`discover` lists the schema files that a path names: the file itself, or everything below a
directory whose name ends in `.proto` and that no exclude pattern matches. Patterns are matched
against the path from that directory.
-/

namespace ProtoStub

open Text

/-- The ending of a schema file's name. -/
def schemaEnding : String := ".proto"

/-- The path is matched by one of the patterns; a malformed one stops the search. -/
def isExcluded (path : String) : List String → Except Error Bool
  | [] => .ok false
  | pattern :: rest =>
    match Glob.matches? pattern path with
    | .error _ =>
      .error (.other ("match exclude pattern " ++ quoteText pattern ++ ": syntax error in pattern"))
    | .ok true => .ok true
    | .ok false => isExcluded path rest

/-- The members of a list that `keep` accepts; its first error stops. -/
def filterM (keep : α → Except Error Bool) : List α → Except Error (List α)
  | [] => .ok []
  | a :: rest =>
    match keep a with
    | .error e => .error e
    | .ok true => (filterM keep rest).map (a :: ·)
    | .ok false => filterM keep rest

/-- Texts in ascending order. -/
def ascending (texts : List String) : List String := texts.mergeSort (decide <| · ≤ ·)

/-- The paths below the directory at `place` of all that is named like a schema file. -/
def Workspace.schemaPaths (w : Workspace) (place : List String) : List String :=
  (w.below place).filterMap fun (segments, _) =>
    if (segments.getLast?.map (endsWith · schemaEnding)).getD false then some (join "/" segments)
    else none

/-- The schema files that `path` names. -/
def discover (w : Workspace) (path : String) (excludes : List String) :
    Except Error (List String) := do
  if let some bad := excludes.find? (!Glob.isValid ·) then
    throw (.other ("invalid exclude pattern " ++ quoteText bad))
  let start := w.absolute path
  match ← (w.stat start).mapError .refused with
  | .file _ => return [start]
  | .directory =>
    let found ← filterM (fun p => (isExcluded p excludes).map (!·))
      (w.schemaPaths (Path.ofText start).segments)
    if found.isEmpty then
      throw (.other ("no .proto files found under " ++ start))
    return ascending (found.map fun p => joinPath [start, p])

end ProtoStub

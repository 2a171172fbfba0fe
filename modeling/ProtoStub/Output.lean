import ProtoStub.Program.Qualify
import ProtoStub.Name
import ProtoStub.Path
import ProtoStub.Error
import ProtoStub.Table

/-!
# Output units and shared utilities

Each schema file with declarations becomes one unit of output. The request helper that clients need
is the same everywhere; `extract` decides, directory by directory, whether the units there share one
in a utility of their own: when there are several units and at least one client.
-/

namespace ProtoStub

open Text

/-- A file to be written. -/
structure OutputFile where
  path : String
  content : String
  deriving Repr, DecidableEq, Inhabited

/-- What sharing depends on in a unit: where it goes, its namespace, how many clients it has, and
its request helper. Units from elsewhere count clients with machine integers, of which any may stand
here; a unit that is made of a file has as many as the file has services. -/
structure UnitSummary (Count : Type) where
  path : String
  dir : String := ""
  namespaceName : String := ""
  clients : Count
  helper : String := ""
  deriving Repr, DecidableEq, Inhabited

/-- A utility that the units of one directory share. -/
structure SharedUtility where
  name : String
  namespaceName : String := ""
  path : String := ""
  profile : String := ""
  /-- The paths of the units that use it. -/
  users : List String := []
  deriving Repr, DecidableEq, Inhabited

/-- The utility's name as code in the namespace `space` writes it. -/
def SharedUtility.qualifiedName (s : SharedUtility) (space : String) : QualifiedName :=
  if space == s.namespaceName then ⟨s.name, false⟩ else ⟨s.namespaceName ++ "." ++ s.name, true⟩

/-- How utilities are named. -/
structure ExtractOptions where
  /-- The name of the top output directory. -/
  rootName : String := ""
  profile : String := ""
  /-- The extension of output files. -/
  extension : String := ""
  deriving Repr, DecidableEq, Inhabited

/-- The name of the utility of a directory. -/
def utilityName (dirName : String) : String :=
  let name := pascalCase dirName
  (if name.toList.head?.any isLetter then name else "Proto" ++ name) ++ "HttpUtility"

section
variable {Count : Type}

/-- The units with their numbers by directory. Directories ascend; the units of one stand in the
order in which they come. -/
def groupByDir (units : List (UnitSummary Count)) :
    List (String × List (Nat × UnitSummary Count)) :=
  ((List.range units.length).zip units).foldl
    (fun groups u => enter u.2.dir ((groups.lookup u.2.dir).getD [] ++ [u]) groups) []

/-- Units by ascending path. -/
def byPath (units : List (UnitSummary Count)) : List (UnitSummary Count) :=
  units.mergeSort (·.path ≤ ·.path)

/-- What extraction finds: the utilities by ascending directory, and for each unit the one it
uses. -/
structure Sharing where
  utilities : List SharedUtility := []
  uses : List (Option SharedUtility) := []
  deriving Repr, DecidableEq, Inhabited

/-- One more utility, for the units `users`. -/
def Sharing.add (r : Sharing) (s : SharedUtility) (users : List (Nat × UnitSummary Count)) :
    Sharing where
  utilities := r.utilities ++ [s]
  uses := users.foldl (fun uses u => uses.set u.1 (some s)) r.uses

variable [Add Count] [OfNat Count 0] [BEq Count]

/-- How many clients units have together. -/
def clientsOf (units : List (UnitSummary Count)) : Count :=
  units.foldl (fun n u => n + u.clients) 0

/-- The utility of the directory `dir` with the units `units`, if they share one. -/
def utilityFor (options : ExtractOptions) (dir : String) (units : List (UnitSummary Count)) :
    Except Error (Option SharedUtility) :=
  if units.length < 2 || clientsOf units == 0 then .ok none
  else
    match byPath units with
    | [] => .ok none
    | first :: rest =>
      match rest.find? (·.helper != first.helper) with
      | some u => .error (.emit u.path ("request helper differs from " ++ first.path))
      | none =>
        let name := utilityName (if dir == "" then options.rootName else baseOf dir)
        .ok (some { name, namespaceName := first.namespaceName
                    path := joinPath [dir, name ++ options.extension]
                    profile := options.profile, users := (first :: rest).map (·.path) })

/-- Decides about the units of one directory, each with its number. -/
def shareGroup (options : ExtractOptions) (r : Sharing)
    (group : String × List (Nat × UnitSummary Count)) : Except Error Sharing :=
  match utilityFor options group.1 (group.2.map (·.2)) with
  | .error e => .error e
  | .ok none => .ok r
  | .ok (some s) => .ok (r.add s group.2)

/-- The shared utilities of the units. -/
def extract (options : ExtractOptions) (units : List (UnitSummary Count)) : Except Error Sharing :=
  (groupByDir units).foldlM (shareGroup options) { uses := units.map fun _ => none }

end

end ProtoStub

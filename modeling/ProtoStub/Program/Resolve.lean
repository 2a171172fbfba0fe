import ProtoStub.Program.Declare
import ProtoStub.Program
import ProtoStub.Text.Split

/-!
# What a type name stands for

A name with a leading dot is a full name. Any other name is tried inside the scope of the reference,
then inside each enclosing scope, ending with the name as it stands; the first candidate that is a
well-known type or a declaration of a visible file is meant.
-/

namespace ProtoStub.Program

open Text
open Schema (FileSet)

/-- All that is known about names once everything is declared. -/
structure Names where
  set : FileSet
  symbols : SymbolTable

/-- The number that the table gives to a full name; zero for a name that is not declared. -/
def Names.numberOf (n : Names) (fullName : String) : Nat :=
  match n.symbols.find fullName with
  | some e => e.symbol.number
  | none => 0

/-- A list and its tails, longest first. -/
def tails {α : Type} : List α → List (List α)
  | [] => [[]]
  | a :: as => (a :: as) :: tails as

/-- A dotted scope and the scopes around it, innermost first, ending with the empty one. -/
def enclosingScopes (scope : String) : List String :=
  (tails (split '.' scope).reverse).map fun segments => join "." segments.reverse

/-- The full names that `ref` may stand for inside `scope`, in the order they are tried. -/
def candidates (scope ref : String) : List String :=
  match ref.toList with
  | '.' :: name => [String.ofList name]
  | _ => (enclosingScopes scope).map (joinScope · ref)

/-- The longest dotted start of `ref`, other than all of it, under which a name is declared. -/
def knownPackage? (symbols : SymbolTable) (ref : String) : Option String :=
  ((tails (split '.' ref).reverse.tail).filter (!·.isEmpty)).findSome? fun segments =>
    let package := join "." segments.reverse
    match symbols.seek (package ++ ".") with
    | some e => if startsWith e.fullName (package ++ ".") then some package else none
    | none => none

/-- What a candidate turns out to be, seen from a file. -/
inductive Candidate where
  | found (type : TypeRef)
  /-- Declared in a file that is not visible. -/
  | hidden (file : Nat)
  | absent

/-- The type a symbol stands for. -/
def Symbol.type : Symbol → TypeRef
  | .message i => .message i
  | .enum i => .enum i

/-- Looks a full name up from a file that sees the files `visible`. -/
def Names.look (n : Names) (visible : List Nat) (fullName : String) : Candidate :=
  match wellKnown? fullName with
  | some w => .found (.wellKnown w)
  | none =>
    match n.symbols.find fullName with
    | none => .absent
    | some e => if visible.contains e.file then .found e.symbol.type else .hidden e.file

/-- The name of the file with number `i`. -/
def fileName (s : FileSet) (i : Nat) : String := (s.files[i]?.map (·.name)).getD ""

/-- The first candidate that is found, or the hint of the first that is hidden. -/
def Names.firstOf (n : Names) (visible : List Nat) (hint : Hint) :
    List String → Except Hint TypeRef
  | [] => .error hint
  | c :: rest =>
    match n.look visible c with
    | .found t => .ok t
    | .hidden file =>
      n.firstOf visible
        (if hint == .none then .notImported c (fileName n.set file) else hint) rest
    | .absent => n.firstOf visible hint rest

/-- `ref` without a leading dot. -/
def withoutDot (ref : String) : String :=
  match ref.toList with
  | '.' :: name => String.ofList name
  | _ => ref

/-- The type that `ref` stands for inside `scope` of the file with number `file`, which sees the
files `visible`. -/
def Names.resolve (n : Names) (visible : List Nat) (file : Nat) (scope ref : String) :
    Except UnknownType TypeRef :=
  match Scalar.ofWord? ref with
  | some s => .ok (.scalar s)
  | none =>
    match n.firstOf visible .none (candidates scope ref) with
    | .ok t => .ok t
    | .error .none =>
      let hint := match knownPackage? n.symbols (withoutDot ref) with
        | some package => .noSuchType package
        | none => .none
      .error { file := filePath n.set file, type := ref, hint }
    | .error hint => .error { file := filePath n.set file, type := ref, hint }

end ProtoStub.Program

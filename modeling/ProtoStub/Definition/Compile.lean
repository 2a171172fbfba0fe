import ProtoStub.Definition.Use

/-!
# Compiling schema files

`compile` compiles files that are given by name, with all they import. A file is linked after the
files it imports; all full names live in one table, so that no two declarations share one. The
result is the linked files and the warnings met on the way, or the first fault.
-/

namespace ProtoStub.Definition

open Text

/-- The content of a file that can be imported. -/
inductive Source where
  | unreadable
  | content (source : List Glyph)

/-- Why a compilation stops. -/
inductive Fault where
  /-- A fault on a line of the file with a name. -/
  | at_ (name : String) (line : Nat)
  /-- No file has the name. -/
  | missing (name : String)
  /-- The file with the name cannot be read. -/
  | unreadable (name : String)
  deriving Repr, DecidableEq, Inhabited

/-! ## The table of full names -/

/-- Where a full name was declared. -/
structure Entry where
  file : String
  line : Nat
  isPackage : Bool := false

/-- The full names declared so far. -/
abbrev Table : Type := List (String × Entry)

namespace Table

/-- The line to report when a declaration meets an earlier one: of two in one file the later one. -/
def clashLine (e old : Entry) : Nat := if old.file == e.file then max old.line e.line else e.line

/-- Adds a full name. Only packages may be declared again. -/
def add (t : Table) (name : String) (e : Entry) : Except Nat Table :=
  match t.lookup name with
  | some old =>
    if e.isPackage && old.isPackage then return t else throw (clashLine e old)
  | none => return (name, e) :: t

/-- Adds the package of a file with those around it, and its symbols. -/
def addFile (t : Table) (l : Linked) : Except Nat Table := do
  let package := l.file.package
  let t ← (enclosing package.value).reverse.foldlM (fun t name =>
    if name == "" then return t else t.add name ⟨l.path, package.line, true⟩) t
  l.symbols.foldlM (fun t s => t.add s.name ⟨l.path, s.line, false⟩) t

end Table

/-! ## Compilation -/

/-- What is compiled so far. -/
structure Progress where
  files : List Linked := []
  table : Table := []
  /-- The numbers that the extensions of each type have taken. -/
  numbers : List (String × Int) := []
  promises : Promises := []
  warnings : List Warning := []

/-- Links a file whose imports are linked. `asked` tells that the file was asked for by name: only
then are imports that nothing needs worth a warning. -/
def linkInto (p : Progress) (name : String) (asked : Bool) (f : File) : Except Nat Progress := do
  let self := Linked.ofFile name f
  let table ← p.table.addFile self
  let (f, links) ← (linkFile p.files self).run { numbers := p.numbers }
  let self := Linked.ofFile name f
  let known : Known := self :: p.files ++ [Bundled.schema]
  checkOptions known ((sights p.files self).map (·.file)) f
  let ((), gathered) ← (Site.checkUse ⟨known, name, f⟩).run { promises := p.promises }
  let idle := f.imports.filter fun i => asked && !i.isPublic && !links.needed.contains i.path
  return { files := p.files ++ [self], table, numbers := links.numbers
           promises := gathered.promises
           warnings := p.warnings ++ gathered.warnings ++
            idle.map fun i => .unusedImport name i.line i.path }

/-- What to compile: the content of the files that can be imported, and the names asked for. -/
structure Request where
  sources : List (String × Source)
  names : List String

/-- Leaving out a member makes a list shorter. -/
theorem length_without_lt {name : String} {fresh : List String} (h : name ∈ fresh) :
    (fresh.filter (· != name)).length < fresh.length :=
  List.length_filter_lt_length_iff_exists.2 ⟨name, h, by simp⟩

mutual

/-- Compiles the file `name` and all it imports, unless that is done. `fresh` holds the names not
entered yet, and `chain` the files that wait for this one. -/
def compileFile (r : Request) (fresh chain : List String) (name : String) (p : Progress) :
    Except Fault Progress :=
  if p.files.any (·.path == name) then .ok p
  else if h : name ∈ fresh then
    have := length_without_lt h
    let fresh := fresh.filter (· != name)
    match r.sources.lookup name with
    | some .unreadable => .error (.unreadable name)
    | some (.content source) =>
      match define source with
      | .error line => .error (.at_ name line)
      | .ok f =>
        let noted : List Warning := if f.isUnversioned then [.noVersion name f.line] else []
        match f.imports.find? fun i => (name :: chain).contains i.path with
        | some i => .error (.at_ name i.pathLine)
        | none =>
          match compileImports r fresh (name :: chain) name f.imports
              { p with warnings := p.warnings ++ noted } with
          | .error e => .error e
          | .ok p => (linkInto p name (r.names.contains name) f).mapError (.at_ name)
    | none =>
      match Bundled.find? name with
      | none => .error (.missing name)
      | some l =>
        match compileImports r fresh (name :: chain) name l.file.imports p with
        | .error e => .error e
        | .ok p =>
          match p.table.addFile l with
          | .error line => .error (.at_ name line)
          | .ok table => .ok { p with files := p.files ++ [l], table }
  else .error (.missing name)
termination_by (fresh.length, 0)

/-- Compiles the imports of the file `name`. One that is missing is a fault of the import. -/
def compileImports (r : Request) (fresh chain : List String) (name : String)
    (imports : List Import) (p : Progress) : Except Fault Progress :=
  match imports with
  | [] => .ok p
  | i :: rest =>
    match compileFile r fresh chain i.path p with
    | .error (.missing _) => .error (.at_ name i.pathLine)
    | .error e => .error e
    | .ok p => compileImports r fresh chain name rest p
termination_by (fresh.length, imports.length + 1)

end

/-- The files asked for and all they import, each behind its imports, with the warnings of the
compilation. -/
def compile (r : Request) : Except Fault (List Linked × List Warning) := do
  let bundled := Bundled.files.map fun (name, _) => "google/protobuf/" ++ name
  let fresh := r.sources.map (·.1) ++ bundled
  let p ← r.names.foldlM (fun p name => compileFile r fresh [] name p) {}
  return (p.files, p.warnings)

end ProtoStub.Definition

import ProtoStub.Descriptor.Walk
import ProtoStub.Definition.Describe
import ProtoStub.Definition.Stored.Decode
import ProtoStub.Definition.Stored.Family
import ProtoStub.ExternalCompiler
import ProtoStub.Log
import ProtoStub.Discovery

/-!
# Strategies for reading schema files

There are three ways to read schema files: from their text, by compiling them, and by having an
external compiler compile them. All give the same raw model. Compilers read the files of a directory
together, under the names they have there.
-/

namespace ProtoStub

open Text

/-- A way to read schema files. -/
inductive Strategy where
  | descriptor
  | external
  | text
  deriving Repr, DecidableEq, Inhabited

/-- The name of a strategy. -/
def Strategy.name : Strategy → String
  | .descriptor => "descriptor"
  | .external => "protoc"
  | .text => "text"

/-- What reading depends on. -/
structure Surroundings where
  search : Schema.Search
  /-- How long a compiler may take; zero for no limit. -/
  timeout : Duration := ⟨0⟩
  /-- The run was cancelled before it started. -/
  cancelled : Bool := false
  compiler : ExternalCompiler := .program "protoc"

/-- What came of reading: the files, or why not; and warnings either way. -/
structure Reading (α : Type) where
  warnings : List Definition.Warning := []
  result : Except Error α

/-- The error of a cancelled run. -/
def cancelledError : Error := .other "context canceled"

/-- Paths by directory: the directories in ascending order, each with the names in it. -/
def groupByDirectory (paths : List String) : List (String × List String) :=
  (ascending (paths.map dirOf).eraseDups).map fun dir =>
    (dir, (paths.filter (dirOf · == dir)).map baseOf)

/-- The files of `more` that are not in `files` yet, after them. -/
def mergeFiles (files more : List Schema.File) : List Schema.File :=
  files ++ more.filter fun f => !files.any (·.path == f.path)

/-- Reads groups one after another, until one fails. -/
def readGroups (read : String → List String → Reading (List Schema.File))
    (files : List Schema.File) : List (String × List String) → Reading (List Schema.File)
  | [] => ⟨[], .ok files⟩
  | (dir, names) :: rest =>
    let group := read dir names
    match group.result with
    | .error e => ⟨group.warnings, .error e⟩
    | .ok more =>
      let others := readGroups read (mergeFiles files more) rest
      ⟨group.warnings ++ others.warnings, others.result⟩

/-! ## Compiling -/

/-- The contents of the files of an import set. -/
def sourcesOf (w : Workspace) (imports : Schema.ImportSet) : List (String × Definition.Source) :=
  imports.map fun (name, path) =>
    (name, match w.read path with
      | .ok content => .content (glyphs content)
      | .error _ => .unreadable)

/-- The error of a compilation. -/
def compileError (imports : Schema.ImportSet) (dir : String) : Definition.Fault → Error
  | .at_ name line =>
    .parse ⟨(imports.path? name).getD name, line, .diagnostic "cannot be compiled"⟩
  | .missing name | .unreadable name => .parse ⟨dir, 0, .diagnostic (name ++ " cannot be read")⟩

/-- Compiles the files `names` of a directory and walks what they come to. -/
def compileGroup (s : Schema.Search) (dir : String) (names : List String) :
    Reading (List Schema.File) :=
  match Schema.resolveImports Definition.importsOf s dir names with
  | .error e => ⟨[], .error e⟩
  | .ok imports =>
    match Definition.compile ⟨sourcesOf s.workspace imports, names⟩ with
    | .error fault => ⟨[], .error (compileError imports dir fault)⟩
    | .ok (files, warnings) =>
      ⟨warnings, Descriptor.visitAll ⟨files.map (Definition.describe files), s, imports⟩ names⟩

/-! ## Compiling outside -/

/-- Where files are laid out for an external compiler. -/
def temporaryRoot : String := "/tmp/protohttp-0"

/-- Where an external compiler stores definitions. -/
def storePath : String := joinPath [temporaryRoot, ".descriptor_set.pb"]

/-- The error of a compiler that did not end in time. -/
def timeoutError (dir : String) (names : List String) (timeout : Duration) : Error :=
  .parse ⟨joinPath [dir, names.headD ""], 0,
    .diagnostic ("timed out after " ++ timeout.toText ++ ": context deadline exceeded")⟩

/-- The descriptors of the definitions that a compiler stored. -/
def linkStored (files : List Definition.Stored.File) : Except Error (List Descriptor.File) :=
  match Definition.Stored.link files with
  | none => .error (.other "link descriptor set:")
  | some files => .ok files

/-- The descriptors that an external compiler came to, or the error. -/
def outcomeFiles (s : Surroundings) (imports : Schema.ImportSet) (dir : String)
    (names : List String) : Outcome → Except Error (List Descriptor.File)
  | .stored content =>
    match Definition.Stored.decode content with
    | none => .error (.other "decode descriptor set:")
    | some files => linkStored files
  | .compiled files => linkStored files
  | .silent => .error (.within "read descriptor set" (.refused ⟨"open", storePath, .notFound⟩))
  | .failed diagnostics status =>
    .error (.parse
      (diagnose imports temporaryRoot dir diagnostics ("exit status " ++ toString status)))
  | .overtime => .error (timeoutError dir names s.timeout)
  | .missing => .error (.toolchain s.compiler.name (ExternalCompiler.notInstalled s.compiler.name))
  | .refused errno =>
    .error (.parse (diagnose imports temporaryRoot dir ""
      ("fork/exec " ++ s.compiler.name ++ ": " ++ errno.message)))

/-- Has the files `names` of a directory compiled, and walks what they come to. -/
def externalGroup (s : Surroundings) (dir : String) (names : List String) :
    Except Error (List Schema.File) := do
  let imports ← Schema.resolveImports Definition.importsOf s.search dir names
  match Edit.mkdirAll temporaryRoot s.search.workspace with
  | (_, w) =>
    let (laid, w) := Schema.layOut imports temporaryRoot w
    laid
    if s.cancelled then throw cancelledError
    let outcome := s.compiler.run ⟨w, temporaryRoot, s.search.roots, names⟩
    let files ← outcomeFiles s imports dir names outcome
    for name in names do
      if !files.any (·.path == name) then
        throw (.parse ⟨joinPath [dir, name], 0, .diagnostic "proto: not found"⟩)
    Descriptor.visitAll ⟨files, s.search, imports⟩ names

/-! ## Reading -/

/-- Reads the files at `paths` and all they import. -/
def Strategy.read (strategy : Strategy) (s : Surroundings) (paths : List String) :
    Reading Schema.FileSet :=
  let inputs := paths.map s.search.workspace.absolute
  let finish (r : Reading (List Schema.File)) : Reading Schema.FileSet :=
    ⟨r.warnings, r.result.map (Schema.FileSet.ofFiles · inputs)⟩
  match strategy with
  | .text =>
    if s.cancelled && !inputs.isEmpty then ⟨[], .error cancelledError⟩
    else ⟨[], Schema.loadAll s.search inputs⟩
  | .descriptor =>
    if s.cancelled && !inputs.isEmpty then ⟨[], .error cancelledError⟩
    else finish (readGroups (compileGroup s.search) [] (groupByDirectory inputs))
  | .external =>
    finish (readGroups (fun dir names => ⟨[], externalGroup s dir names⟩) []
      (groupByDirectory inputs))

/-- The strategy that a name selects, with what is logged about it. An external compiler that cannot
be used is replaced by reading the text. -/
def Strategy.select (w : Workspace) (compiler : ExternalCompiler) (name : String) :
    Except Error (Strategy × List LogRecord) := do
  let (strategy, notes) ← (match name with
    | "" | "descriptor" => pure (.descriptor, [])
    | "text" => pure (.text, [])
    | "protoc" =>
      match compiler.unavailable? w with
      | none => pure (.external, [])
      | some cause =>
        pure (.text, [⟨.warn, "falling back to text parser with reduced fidelity",
          [("error", .text (Error.toolchain compiler.name cause).message),
            ("missing", .text "cross-file descriptor validation")]⟩])
    | _ => throw (.other ("unknown parser strategy " ++ quoteText name)) :
    Except Error (Strategy × List LogRecord))
  return (strategy, notes ++
    [⟨.info, "selected parser strategy", [("strategy", .text strategy.name)]⟩])

end ProtoStub

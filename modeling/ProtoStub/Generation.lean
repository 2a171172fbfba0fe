import ProtoStub.Strategy
import ProtoStub.Program.Build
import ProtoStub.VisualBasic.Unit
import ProtoStub.JsonSchema.Document

/-!
# Generating clients

A run finds schema files, reads them, and writes a source file for each and the JSON Schema
documents. Nothing is written unless everything before that went well. Files are written in the
order of their paths, each by way of a temporary file; a refusal ends the writing, and what was
written stays.
-/

namespace ProtoStub

open Text

/-- What a run has changed so far: the files, and the log. -/
structure Progress where
  workspace : Workspace
  log : List LogRecord := []

/-- A step of a run. -/
abbrev Run (α : Type) : Type := ExceptT Error (StateM Progress) α

namespace Run

/-- Adds records to the log. -/
def note (records : List LogRecord) : Run Unit :=
  modify fun p => { p with log := p.log ++ records }

/-- Stops with the error of a result. -/
def ofExcept (result : Except Error α) : Run α :=
  match result with
  | .ok a => pure a
  | .error e => throw e

/-- A change of the files as a step. -/
def edit (e : Edit α) : Run α := fun p =>
  match e p.workspace with
  | (result, workspace) => (result, { p with workspace })

/-- Writes one file. -/
def writeFile (o : OutputFile) : Run Unit := do
  edit (Edit.replace o.path (bytesOf o.content))
  note [⟨.debug, "wrote file",
    [("file", .text o.path), ("bytes", .number o.content.utf8ByteSize)]⟩]

/-- Writes files in the order of their paths. -/
def writeFiles (outputs : List OutputFile) : Run Unit :=
  (outputs.mergeSort (decide <| ·.path ≤ ·.path)).forM writeFile

end Run

/-- What a run is asked to do. -/
structure Order where
  /-- A schema file, or a directory with schema files. -/
  proto : String
  /-- The output directory. -/
  out : String
  namespaceName : String := ""
  profile : String
  /-- Where imports are searched after the directory of `proto`. -/
  roots : List String := []
  strategy : String := ""
  compiler : ExternalCompiler := .program "protoc"
  timeout : Duration := ⟨0⟩
  jsonSchema : Bool := false
  excludes : List String := []

namespace Order

/-- The first directory where imports are searched: `proto` itself, or the directory it lies in. -/
def root (o : Order) (w : Workspace) : Except Error String := do
  let start := w.absolute o.proto
  match ← (w.stat start).mapError .refused with
  | .directory => return start
  | .file _ => return dirOf start

/-- The record of a warning. -/
def warningRecord (w : Definition.Warning) : LogRecord :=
  ⟨.warn, "proto warning",
    [("file", .text w.name), ("line", .number w.line), ("warning", .text w.message)]⟩

/-- The files that a program comes to. -/
def outputs (o : Order) (w : Workspace) (p : Program) : Except Error (List OutputFile) := do
  let backend ← VisualBasic.Backend.new o.profile o.out
  let sources ← VisualBasic.generate backend p (baseOf (w.absolute o.out))
  if o.jsonSchema then
    let documents ← (JsonSchema.generate p o.out).mapError (.within JsonSchema.generatorName)
    return sources ++ documents
  return sources

/-- Does what is asked, and gives the paths of the files that were generated. -/
def run (o : Order) : Run (List String) := do
  let w := (← get).workspace
  let inputs ← Run.ofExcept (discover w o.proto o.excludes)
  let root ← Run.ofExcept (o.root w)
  Run.note [⟨.debug, "discovered proto files",
    [("dir", .text root), ("count", .number inputs.length)]⟩]
  let (strategy, notes) ← Run.ofExcept (Strategy.select w o.compiler o.strategy)
  Run.note notes
  let reading := strategy.read
    { search := ⟨w, root :: o.roots⟩, timeout := o.timeout, compiler := o.compiler } inputs
  Run.note (reading.warnings.map warningRecord)
  let files ← Run.ofExcept reading.result
  Run.note [⟨.info, "parsed schema",
    [("strategy", .text strategy.name), ("count", .number files.files.length)]⟩]
  let program ← Run.ofExcept (Program.build files ⟨o.namespaceName, root⟩)
  let outputs ← Run.ofExcept (o.outputs w program)
  Run.writeFiles outputs
  Run.note [⟨.info, "generated files",
    [("dir", .text o.out), ("count", .number outputs.length)]⟩]
  return outputs.map (·.path)

end Order

end ProtoStub

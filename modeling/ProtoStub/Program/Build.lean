import ProtoStub.Program.Resolve
import ProtoStub.Name
import ProtoStub.Path

/-!
# Building programs

`build` turns a set of schema files into a program: it checks the imports, declares everything,
resolves every field and procedure type, and refuses what has no place in the output. Errors are met
in the order of the files; in a file first those of its messages, then those of its services.
-/

namespace ProtoStub.Program

open Text
open Schema (FileSet)

/-- How a program is built. -/
structure BuildOptions where
  /-- The namespace of files without a package. -/
  namespaceOverride : String := ""
  /-- The directory that output paths start from. -/
  root : String := ""
  deriving Repr, DecidableEq, Inhabited

/-- The directory of `path` below `root`; empty when it is `root` itself or elsewhere. -/
def relDir (root path : String) : String :=
  if root == "" then ""
  else
    match below? root (dirOf path) with
    | some rel => if rel == "." then "" else rel
    | none => ""

/-- The name of a schema file without directory and extension. -/
def schemaBaseName (path : String) : String := dropEnding ".proto" (baseOf path)

/-- Every import that was resolved leads to a file of the set. -/
def checkImports (s : FileSet) : Except Error Unit :=
  s.files.forM fun f => f.imports.forM fun imp =>
    if imp.resolved == "" || (s.index? imp.resolved).isSome then .ok ()
    else .error (.parse { file := f.path, cause := .importNotLoaded imp.path })

/-- Resolves the fields of the message `name` with full name `owner` in order; `done` holds those
already resolved. -/
def resolveFields (n : Names) (visible : List Nat) (file : Nat) (owner name : String)
    (done : List Field) : List Schema.Field → Except Error (List Field)
  | [] => .ok done
  | f :: rest =>
    let path := filePath n.set file
    if f.isMap then .error (.unsupported path f.line (.mapField owner f.name))
    else
      match done.find? (·.number == f.number) with
      | some other =>
        .error (.parse ⟨path, f.line, .numberReused owner f.name f.number other.name⟩)
      | none =>
        if done.any (·.name == f.name) then
          .error (.parse ⟨path, f.line, .duplicateField owner f.name⟩)
        else
          match n.resolve visible file owner f.type with
          | .error e => .error (.unknownType { e with owner, member := f.name })
          | .ok type =>
            resolveFields n visible file owner name
              (done ++ [⟨f.name, jsonName name f.name, f.number, f.repeated, type⟩]) rest

mutual

/-- Resolves the fields of a message, then those of the messages nested in it. Each list stands with
the number of its message, which is found again by its full name. -/
def resolveMessage (n : Names) (visible : List Nat) (file : Nat) (scope : String) :
    Schema.Message → Except Error (List (Nat × List Field))
  | ⟨name, _, fields, messages, _⟩ =>
    let fullName := joinScope scope name
    match resolveFields n visible file fullName name [] fields with
    | .error e => .error e
    | .ok own =>
      match resolveMessages n visible file fullName messages with
      | .error e => .error e
      | .ok nested => .ok ((n.numberOf fullName, own) :: nested)

/-- Resolves the fields of messages in order. -/
def resolveMessages (n : Names) (visible : List Nat) (file : Nat) (scope : String) :
    List Schema.Message → Except Error (List (Nat × List Field))
  | [] => .ok []
  | m :: rest =>
    match resolveMessage n visible file scope m with
    | .error e => .error e
    | .ok fields =>
      match resolveMessages n visible file scope rest with
      | .error e => .error e
      | .ok more => .ok (fields ++ more)

end

/-- A type that a procedure can take or give. -/
def isMessageType : TypeRef → Bool
  | .message _ | .wellKnown _ => true
  | _ => false

/-- Resolves a procedure of the service with full name `owner`. -/
def resolveMethod (n : Names) (visible : List Nat) (file : Nat) (scope owner : String)
    (m : Schema.Method) : Except Error Method :=
  let resolve (ref : String) : Except Error TypeRef :=
    match n.resolve visible file scope ref with
    | .error e => .error (.unknownType { e with owner, member := m.name })
    | .ok type => .ok type
  match resolve m.input with
  | .error e => .error e
  | .ok input =>
    match resolve m.output with
    | .error e => .error e
    | .ok output =>
      if isMessageType input && isMessageType output then
        .ok ⟨m.name, input, output, m.clientStreaming, m.serverStreaming⟩
      else
        .error (.unknownType ⟨filePath n.set file, owner, m.name, m.input ++ " -> " ++ m.output,
          .rpcNeedsMessages⟩)

/-- Resolves a service. -/
def resolveService (n : Names) (visible : List Nat) (file : Nat) (scope : String)
    (s : Schema.Service) : Except Error Service :=
  match s.methods.mapM (resolveMethod n visible file scope (joinScope scope s.name)) with
  | .error e => .error e
  | .ok methods => .ok ⟨s.name, methods⟩

/-- What the second pass finds in a file: the fields of its messages, by number of the message, and
its services. -/
structure ResolvedFile where
  fields : List (Nat × List Field)
  services : List Service

/-- Resolves everything in the file with number `file`. -/
def resolveFile (n : Names) (file : Nat × Schema.File) : Except Error ResolvedFile := do
  let visible := n.set.visibleFrom file.1
  let fields ← resolveMessages n visible file.1 file.2.package file.2.messages
  let services ← file.2.services.mapM (resolveService n visible file.1 file.2.package)
  return ⟨fields, services⟩

/-- The fields found for the message with number `i`, in the order they were found. -/
def fieldsOf (found : List (Nat × List Field)) (i : Nat) : List Field :=
  (found.filter (·.1 == i)).flatMap (·.2)

/-- The message with number `i` of the program, whose fields are `fields`. -/
def Declarations.messageOf (d : Declarations) (i : Nat) (m : DeclaredMessage)
    (fields : List Field) : Message :=
  { name := m.raw.name, fullName := m.fullName, file := m.file, parent := m.parent, fields
    messages := (d.membersAt (.inside i)).messages
    enums := (d.membersAt (.inside i)).enums }

/-- The enum of the program that `e` declares. -/
def DeclaredEnum.toEnum (e : DeclaredEnum) : Enum :=
  { name := e.raw.name, fullName := e.fullName, file := e.file, parent := e.parent
    values := e.raw.values.map fun v => ⟨v.name, v.number⟩ }

/-- The file with number `i` of the program, whose services are `services`. -/
def Declarations.fileOf (d : Declarations) (s : FileSet) (options : BuildOptions) (i : Nat)
    (f : Schema.File) (services : List Service) : File :=
  { path := f.path, name := f.name, baseName := schemaBaseName f.path
    relDir := relDir options.root f.path, package := f.package
    namespaceName := namespaceOf f.package options.namespaceOverride (schemaBaseName f.path)
    isInput := s.isInput f.path
    imports := s.importsOf i
    messages := (d.membersAt (.top i)).messages
    enums := (d.membersAt (.top i)).enums
    services }

/-- The program of the declarations `d`, where the second pass found `resolved` in the files. -/
def assemble (s : FileSet) (options : BuildOptions) (d : Declarations)
    (resolved : List ResolvedFile) : Program :=
  let found := resolved.flatMap (·.fields)
  { files := ((numberedFiles s).zip resolved).map fun ((i, f), r) =>
      d.fileOf s options i f r.services
    messages := ((List.range d.messages.length).zip d.messages).map fun (i, m) =>
      d.messageOf i m (fieldsOf found i)
    enums := d.enums.map (·.toEnum) }

/-- The program of a set of schema files. -/
def build (s : FileSet) (options : BuildOptions) : Except Error Program := do
  checkImports s
  let d ← declareAll s
  let resolved ← (numberedFiles s).mapM (resolveFile ⟨s, d.symbols⟩)
  return assemble s options d resolved

end ProtoStub.Program

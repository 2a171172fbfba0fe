import ProtoStub.Descriptor
import ProtoStub.Schema.Closure

/-!
# Schemas from descriptors

`visit` turns the descriptor of a file and of all it imports into the raw model. Bundled files are
left out, the messages for entries of maps are left out, and groups are refused. Every reference is
a full name with a leading dot.
-/

namespace ProtoStub.Descriptor

open Text

/-- The type of a field as it is written in the raw model. -/
def Kind.text : Kind → String
  | .scalar s => ((Scalar.words.find? (·.2 == s)).map (·.1)).getD ""
  | .message n | .enum n | .group n => "." ++ n

/-- The field in the raw model; `owner` is the full name of its message. -/
def Field.toSchema (file owner : String) (f : Field) : Except Error Schema.Field :=
  let plain : Schema.Field :=
    { name := f.name, line := f.line, number := f.number, repeated := f.repeated }
  match f.mapValue, f.kind with
  | some value, _ => .ok { plain with repeated := false, isMap := true, type := value.text }
  | none, .group _ => .error (.unsupported file f.line (.groupField (owner ++ "." ++ f.name)))
  | none, kind => .ok { plain with type := kind.text }

/-- The enum in the raw model. -/
def Enum.toSchema (e : Enum) : Schema.Enum :=
  ⟨e.name, e.line, e.values.map fun (n, v) => ⟨n, v⟩⟩

/-- A name inside a scope. -/
def inside (scope name : String) : String := if scope == "" then name else scope ++ "." ++ name

/-- The message in the raw model, without what is nested in it. -/
def Message.toSchema (file full : String) (m : Message) : Except Error Schema.Message :=
  (m.fields.mapM (Field.toSchema file full)).map fun fields =>
    { name := m.name, line := m.line, fields, enums := m.enums.map (·.toSchema) }

/-- The messages in the raw model, those for entries of maps left out. The fields of a message are
looked at before what is nested in it. -/
def toMessages (file scope : String) : List Message → Except Error (List Schema.Message)
  | [] => .ok []
  | m :: rest =>
    let full := inside scope m.name
    let own : Except Error (List Schema.Message) :=
      if m.isMapEntry then .ok []
      else
        match m.toSchema file full, toMessages file full m.messages with
        | .error e, _ | .ok _, .error e => .error e
        | .ok plain, .ok messages => .ok [{ plain with messages }]
    match own, toMessages file scope rest with
    | .error e, _ | .ok _, .error e => .error e
    | .ok own, .ok more => .ok (own ++ more)
termination_by messages => sizeOf messages
decreasing_by
  · exact m.sizeOf_messages_lt rest
  · decreasing_tactic

/-- The service in the raw model. -/
def Service.toSchema (s : Service) : Schema.Service :=
  ⟨s.name, s.line, s.methods.map fun m =>
    ⟨m.name, m.line, "." ++ m.input, "." ++ m.output, m.clientStreaming, m.serverStreaming⟩⟩

/-- Linked files, the search they were found by, and the file that each import name stands for. -/
structure Family where
  files : List File
  search : Schema.Search
  paths : List (String × String)

/-- The imports of a file in the raw model; a bundled file stands for none on disk. -/
def Family.imports (family : Family) (f : File) : List Schema.Import :=
  f.imports.map fun i =>
    let resolved := if Schema.isBundled i.path then none else family.paths.lookup i.path
    { path := i.path, resolved := resolved.getD "", isPublic := i.isPublic }

mutual

/-- Adds the file that is imported as `name`, and all it imports, to `done`. `fresh` holds the paths
that were not entered yet on the way to it. -/
def visit (family : Family) (fresh : List String) (done : List Schema.File) (name : String) :
    Except Error (List Schema.File) :=
  if Schema.isBundled name then .ok done
  else
    match family.files.find? (·.path == name), family.paths.lookup name with
    | some f, some path =>
      if done.any (·.path == path) then .ok done
      else if h : path ∈ fresh then
        have := Schema.length_filter_ne_lt h
        match visitImports family (fresh.filter (· != path)) done f.imports with
        | .error e => .error e
        | .ok done =>
          match toMessages path f.package f.messages with
          | .error e => .error e
          | .ok messages =>
            .ok (done ++ [{ path, name := family.search.displayName path name, package := f.package
                            imports := family.imports f, messages
                            enums := f.enums.map (·.toSchema)
                            services := f.services.map (·.toSchema) }])
      else .ok done
    | _, _ => .error (.parse ⟨name, 0, .diagnostic "compiled file was not read from disk"⟩)
termination_by (fresh.length, 0)

/-- Adds all files that are imported, and all they import, to `done`. -/
def visitImports (family : Family) (fresh : List String) (done : List Schema.File) :
    List Import → Except Error (List Schema.File)
  | [] => .ok done
  | i :: rest =>
    match visit family fresh done i.path with
    | .error e => .error e
    | .ok done => visitImports family fresh done rest
termination_by imports => (fresh.length, imports.length + 1)

end

/-- The files imported as `names` and all they import. -/
def visitAll (family : Family) (names : List String) : Except Error (List Schema.File) :=
  names.foldlM (visit family (family.paths.map (·.2))) []

end ProtoStub.Descriptor

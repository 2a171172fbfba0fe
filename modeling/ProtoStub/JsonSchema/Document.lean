import ProtoStub.Json
import ProtoStub.Table
import ProtoStub.JsonSchema.Reference
import ProtoStub.Program.Visibility
import ProtoStub.Output

/-!
# JSON Schema documents

Each requested file with messages or enums gets a document that describes their JSON form, and so
does every file that such a document refers to. A document holds one definition per message and enum
of its file, at every depth, under its dotted path; a reference into another document goes by the
relative path between the two.
-/

namespace ProtoStub.JsonSchema

open Text

/-- The dialect of the documents. -/
def dialect : String := "https://json-schema.org/draft/2020-12/schema"

/-- Where documents are anchored while they are checked. -/
def anchor : String := "https://schemas.protohttp.invalid/"

/-- The name of the generator. -/
def generatorName : String := "jsonschema"

/-- What a schema says about a value. Empty parts are not written. -/
structure Node where
  ref : String := ""
  title : String := ""
  type : String := ""
  format : String := ""
  contentEncoding : String := ""
  enum : List Int := []
  /-- The schema of the items of a list. -/
  items : Option Node := none
  properties : List (String × Node) := []
  deriving Repr, Inhabited

/-- One document. -/
structure Document where
  id : String
  title : String
  definitions : List (String × Node)
  deriving Repr, Inhabited

/-- A text member, left out when empty. -/
def textMember (key value : String) : List (String × Json) :=
  if value == "" then [] else [(key, .str value)]

mutual

/-- A schema as JSON. -/
def Node.toJson : Node → Json
  | ⟨ref, title, type, format, contentEncoding, enum, items, properties⟩ =>
    .obj (textMember "$ref" ref ++ textMember "title" title ++ textMember "type" type ++
      textMember "format" format ++ textMember "contentEncoding" contentEncoding ++
      (if enum.isEmpty then [] else [("enum", .arr (enum.map .num))]) ++
      itemsMember items ++
      (if properties.isEmpty then [] else [("properties", .obj (propertyMembers properties))]))

/-- The member for the items of a list. -/
def itemsMember : Option Node → List (String × Json)
  | none => []
  | some n => [("items", n.toJson)]

/-- Schemas under their keys. -/
def propertyMembers : List (String × Node) → List (String × Json)
  | [] => []
  | (k, n) :: rest => (k, n.toJson) :: propertyMembers rest

end

/-- A document as JSON. -/
def Document.toJson (d : Document) : Json :=
  .obj ([("$schema", .str dialect), ("$id", .str d.id), ("title", .str d.title)] ++
    if d.definitions.isEmpty then [] else [("$defs", .obj (propertyMembers d.definitions))])

/-- A document as text. -/
def Document.text (d : Document) : String := d.toJson.pretty ++ "\n"

/-! ## Types -/

/-- The schema of a scalar. -/
def scalarNode : Scalar → Node
  | .bool => { type := "boolean" }
  | .string => { type := "string" }
  | .bytes => { type := "string", contentEncoding := "base64" }
  | .float => { type := "number", format := "float" }
  | .double => { type := "number", format := "double" }
  | .int32 | .sint32 | .sfixed32 => { type := "integer", format := "int32" }
  | .uint32 | .fixed32 => { type := "integer", format := "uint32" }
  | .int64 | .sint64 | .sfixed64 => { type := "integer", format := "int64" }
  | .uint64 | .fixed64 => { type := "integer", format := "uint64" }

/-- The schema of a well-known type. -/
def wellKnownNode (name : String) : Node :=
  if name == "Timestamp" then { type := "string", format := "date-time" }
  else if name == "Duration" || name == "FieldMask" then { type := "string" }
  else if name == "Empty" || name == "Struct" || name == "Any" then { type := "object" }
  else if name == "ListValue" then { type := "array" }
  else if name == "Value" then {}
  else ((wrapped? name).map scalarNode).getD {}

/-- The path of a file's document. A file that was not asked for may lie anywhere, so its document
is placed by the name it is imported by. -/
def docPath (f : Program.File) : String :=
  let name := f.baseName ++ ".json"
  if f.isInput then joinPath [f.relDir, name]
  else
    let dir := dirOf f.name
    joinPath [if isLocal dir then dir else "", name]

/-- A reference from the document of the file `from_` to the definition `key` of the file
`target`. -/
def reference (p : Program) (from_ target : Nat) (key : String) : String :=
  let inside := "#/$defs/" ++ key
  if target == from_ then inside
  else
    let path := docPath (p.file target)
    (relative? ("/" ++ dirOf (docPath (p.file from_))) ("/" ++ path)).getD path ++ inside

/-- The schema of a type, in the document of the file `file`. -/
def typeNode (p : Program) (file : Nat) : TypeRef → Node
  | .message i => { ref := reference p file (p.message i).file (p.messagePath i) }
  | .enum i => { ref := reference p file (p.enum i).file (p.enumPath i) }
  | .wellKnown name => wellKnownNode name
  | .scalar s => scalarNode s
  | .undefined _ => {}

/-- The schema of a field. -/
def fieldNode (p : Program) (file : Nat) (f : Program.Field) : Node :=
  if f.repeated then { type := "array", items := some (typeNode p file f.type) }
  else typeNode p file f.type

/-- The schema of an enum. -/
def enumNode (e : Program.Enum) : Node :=
  { title := e.name, type := "integer", enum := e.values.map (·.number) }

/-- The schema of a message. -/
def messageNode (p : Program) (file : Nat) (m : Program.Message) : Node :=
  { title := m.name, type := "object"
    properties := m.fields.foldl (fun ps f => enter f.jsonName (fieldNode p file f) ps) [] }

/-! ## Documents -/

/-- The messages `indices` and all nested in them, down to `depth` levels, outside in. -/
def subtreeWithin (p : Program) : (depth : Nat) → (indices : List Nat) → List Nat
  | 0, _ => []
  | depth + 1, indices => indices.flatMap fun i => i :: subtreeWithin p depth (p.message i).messages

/-- All messages of a file, at any depth. -/
def messagesOf (p : Program) (f : Program.File) : List Nat :=
  subtreeWithin p p.messages.length f.messages

/-- An enum under its path. -/
def enumDefinition (p : Program) (i : Nat) : String × Node := (p.enumPath i, enumNode (p.enum i))

/-- A message under its path. -/
def messageDefinition (p : Program) (file i : Nat) : String × Node :=
  (p.messagePath i, messageNode p file (p.message i))

/-- The definitions of a file in the order in which they are entered: its enums, then each message
with the enums in it. -/
def definitionsOf (p : Program) (file : Nat) : List (String × Node) :=
  (p.file file).enums.map (enumDefinition p) ++ (messagesOf p (p.file file)).flatMap fun i =>
    messageDefinition p file i :: (p.message i).enums.map (enumDefinition p)

/-- The document of a file. -/
def documentOf (p : Program) (file : Nat) : Document :=
  let f := p.file file
  { id := f.baseName ++ ".json", title := f.namespaceName
    definitions := (definitionsOf p file).foldl (fun ds d => enter d.1 d.2 ds) [] }

/-- The file that declares a type. -/
def declaringFile? (p : Program) : TypeRef → Option Nat
  | .message i => some (p.message i).file
  | .enum i => some (p.enum i).file
  | _ => none

/-- The other files that the document of a file refers to. -/
def referredFiles (p : Program) (file : Nat) : List Nat :=
  ((messagesOf p (p.file file)).flatMap fun i =>
    (p.message i).fields.filterMap fun f => declaringFile? p f.type).filter (· != file)

/-- The files that get a document, ascending. -/
def documentFiles (p : Program) : List Nat :=
  let all := List.range p.files.length
  let inputs := all.filter fun i =>
    let f := p.file i
    f.isInput && !(f.messages.isEmpty && f.enums.isEmpty)
  let reached := Schema.spread (referredFiles p) inputs all
  all.filter reached.contains

/-- All references of a schema. -/
def Node.references (n : Node) : List String :=
  let own (n : Node) : List String := if n.ref == "" then [] else [n.ref]
  own n ++ (n.properties.flatMap fun (_, q) => own q ++ (q.items.map own).getD [])

/-- The document obeys its dialect: its own address and all its references are well formed. -/
def Document.isValid (d : Document) : Bool :=
  isStrictReference d.id && !d.id.toList.contains '#' &&
    d.definitions.all fun (_, n) => n.references.all isStrictReference

/-- Refuses a document whose path is taken or is no address. `owners` maps the paths so far to the
names of their files. -/
def checkPaths (p : Program) (owners : List (String × String)) : List Nat → Except Error PUnit
  | [] => .ok ⟨⟩
  | file :: rest =>
    let f := p.file file
    let path := docPath f
    match owners.lookup path with
    | some other =>
      .error (.emit f.name ("json schema " ++ path ++ " is also generated for " ++ other))
    | none =>
      if isReference (anchor ++ path) then checkPaths p ((path, f.name) :: owners) rest
      else .error (.emit f.name "load json schema:")

/-- The documents of a program, by ascending file. -/
def generate (p : Program) (out : String) : Except Error (List OutputFile) := do
  let files := documentFiles p
  checkPaths p [] files
  files.mapM fun file =>
    let f := p.file file
    let d := documentOf p file
    if d.isValid then
      .ok { path := joinPath [out, "json", docPath f], content := d.text }
    else .error (.emit f.name "invalid json schema:")

end ProtoStub.JsonSchema

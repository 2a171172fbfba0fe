import ProtoStub.Definition.Stored.Link
import ProtoStub.Definition.Use

/-!
# Storing definitions

A compiler writes out what it linked: every type by number and full name, every label, and what the
options come to.
-/

namespace ProtoStub.Definition.Stored

/-- The number of a scalar type. -/
def typeNumber (s : Scalar) : Int := ((scalarTypes.find? (·.2 == s)).map (·.1)).getD 0

/-- The number and the name of a field's type. -/
def typeOfLinked (k : Known) (f : Definition.Field) : Int × String :=
  match k.typeOf f with
  | .scalar s => (typeNumber s, "")
  | .enum _ _ => (enumType, f.type.value)
  | _ => (if f.isGroup then groupType else messageType, f.type.value)

/-- The number of a label. -/
def labelNumber : Option Label → Int
  | some .required => 2
  | some .repeated => 3
  | _ => 1

/-- A field or an extension. Its default was checked when it was compiled, and is not kept. -/
def fieldOfLinked (k : Known) (version : Version) (f : Definition.Field) : Field :=
  let (type, typeName) := typeOfLinked k f
  let label := f.label.map (·.value)
  { name := f.name.value, line := f.line, number := f.number.value
    label := labelNumber label, type, typeName
    extendee := f.extendee.map (·.value), oneof := f.oneof.map (↑·), wireName := f.customName?
    isOptional := version == .proto3 && label == some .optional }

/-- A range. -/
def rangeOfLinked (r : Definition.Range) : Range := ⟨r.first, r.last⟩

/-- An enum. -/
def enumOfLinked (e : Definition.Enum) : Enum where
  name := e.name.value
  line := e.line
  values := e.values.map fun v => ⟨v.name.value, some v.number.value⟩
  reservedRanges := e.reservedRanges.map rangeOfLinked
  reservedNames := e.reservedNames.map (·.value)
  allowsAliases := Definition.isSet e.settings "allow_alias"

/-- Messages. -/
def messagesOfLinked (k : Known) (version : Version) : List Definition.Message → List Message
  | [] => []
  | m :: rest =>
    { name := m.name.value, line := m.line
      fields := m.fields.map (fieldOfLinked k version), oneofs := m.oneofs.map (·.name.value)
      messages := messagesOfLinked k version m.messages, enums := m.enums.map enumOfLinked
      extensions := m.extensions.map (fieldOfLinked k version)
      extensionRanges := m.extensionRanges.map rangeOfLinked
      reservedRanges := m.reservedRanges.map rangeOfLinked
      reservedNames := m.reservedNames.map (·.value)
      isEntry := m.origin == .mapEntry, isSet := m.isSet } :: messagesOfLinked k version rest
termination_by ms => sizeOf ms
decreasing_by
  · exact m.sizeOf_messages_lt rest
  · decreasing_tactic

/-- A file that was linked among others. -/
def ofLinked (k : Known) (l : Linked) : File :=
  let f := l.file
  { name := l.path, package := f.package.value, imports := f.imports.map (·.path)
    publicImports := (f.imports.zipIdx.filter (·.1.isPublic)).map fun (_, i) => (i : Int)
    messages := messagesOfLinked k f.version f.messages, enums := f.enums.map enumOfLinked
    extensions := f.extensions.map (fieldOfLinked k f.version)
    services := f.services.map fun s =>
      ⟨s.name.value, s.line, s.methods.map fun m =>
        ⟨m.name.value, m.line, m.input.value, m.output.value, m.clientStreaming, m.serverStreaming⟩⟩
    version := match f.version with
      | .proto2 => "proto2"
      | .proto3 => "proto3" }

end ProtoStub.Definition.Stored

import ProtoStub.Definition.Known
import ProtoStub.Descriptor

/-!
# Descriptors of compiled files

`describe` gives the descriptor of a file that is linked among others.
-/

namespace ProtoStub.Definition

/-- A full name without its leading dot. -/
def bare (full : String) : String := String.ofList (full.toList.drop 1)

/-- The type of a field in a descriptor. -/
def kindOf (k : Known) (f : Field) : Descriptor.Kind :=
  match k.typeOf f with
  | .scalar s => .scalar s
  | .enum _ _ => .enum (bare f.type.value)
  | _ =>
    match f.shape with
    | .group _ => .group (bare f.type.value)
    | _ => .message (bare f.type.value)

/-- The descriptor of a field. -/
def describeField (k : Known) (f : Field) : Descriptor.Field :=
  let value := match f.shape, k.message? f.type.value with
    | .map, some entry => (entry.fields[1]?).map (kindOf k)
    | _, _ => none
  { name := f.name.value, line := f.line, number := f.number.value, repeated := f.isRepeated
    kind := kindOf k f, mapValue := value }

/-- The descriptor of an enum. -/
def describeEnum (e : Enum) : Descriptor.Enum :=
  ⟨e.name.value, e.line, e.values.map fun v => (v.name.value, v.number.value)⟩

/-- The descriptors of messages. -/
def describeMessages (k : Known) : List Message → List Descriptor.Message
  | [] => []
  | m :: rest =>
    { name := m.name.value, line := m.line, isMapEntry := m.origin == .mapEntry
      fields := m.fields.map (describeField k), messages := describeMessages k m.messages
      enums := m.enums.map describeEnum } :: describeMessages k rest
termination_by ms => sizeOf ms
decreasing_by
  · exact m.sizeOf_messages_lt rest
  · decreasing_tactic

/-- The descriptor of a file. -/
def describe (k : Known) (l : Linked) : Descriptor.File :=
  { path := l.path, package := l.file.package.value
    imports := l.file.imports.map fun i => ⟨i.path, i.isPublic⟩
    messages := describeMessages k l.file.messages
    enums := l.file.enums.map describeEnum
    services := l.file.services.map fun s =>
      ⟨s.name.value, s.line, s.methods.map fun m =>
        ⟨m.name.value, m.line, bare m.input.value, bare m.output.value, m.clientStreaming,
          m.serverStreaming⟩⟩ }

end ProtoStub.Definition

import ProtoStub.Definition.Rules
import ProtoStub.Definition.Bundled
import ProtoStub.Type

/-!
# Linking references

`linkFile` looks up every name that a file refers to: types of fields, requests and responses,
extended types, and extensions that are used as options. It gives the file with all these names in
full, with a leading dot, the imports through which something was seen, and the numbers that
extensions take; or the line of the first name that cannot stand where it stands.
-/

namespace ProtoStub.Definition

open Text

/-- What linking collects: the imports that were needed, and the numbers that the extensions of each
type have taken. -/
structure Links where
  needed : List String := []
  numbers : List (String × Int) := []

/-- A step of linking: collects, or stops with a line. -/
abbrev Link (α : Type) : Type := StateT Links (Except Nat) α

/-- What a name means in a scope; the imports that showed something count as needed. -/
def find (s : Scope) (onlyTypes : Bool) (name : String) : Link (Option Found) := do
  let (found, needed) := (s.resolve onlyTypes name).run (← get).needed
  modify fun l => { l with needed }
  return found

/-- The full form of an extension's name. -/
def linkExtensionName (s : Scope) (name : String) (line : Nat) : Link String := do
  match ← find s false name with
  | some (.symbol ⟨full, _, .extension _⟩ _) => return "." ++ full
  | _ => throw line

/-! ## Options -/

mutual

/-- A value with the names of extensions in full. They are looked up from the file. -/
def linkValue (s : Scope) (v : Value) : Link Value := do
  match v with
  | .list items => return .list (← linkItems s items)
  | .literal fields => return .literal (← linkLiteral s fields)
  | v => return v
termination_by sizeOf v

/-- The members of a list with the names of extensions in full. -/
def linkItems (s : Scope) (items : List (At Value)) : Link (List (At Value)) := do
  match items with
  | [] => return []
  | ⟨v, line⟩ :: rest => return ⟨← linkValue s v, line⟩ :: (← linkItems s rest)
termination_by sizeOf items

/-- The fields of a message literal with the names of extensions in full. -/
def linkLiteral (s : Scope) (fields : List (Assignment Value)) :
    Link (List (Assignment Value)) := do
  match fields with
  | [] => return []
  | ⟨name, line, innerLine, colon, ⟨v, valueLine⟩⟩ :: rest =>
    let name ← match name with
      | .extension n => pure (LiteralName.extension (← linkExtensionName s n innerLine))
      | name => pure name
    return ⟨name, line, innerLine, colon, ⟨← linkValue s v, valueLine⟩⟩ :: (← linkLiteral s rest)
termination_by sizeOf fields

end

/-- An option with the names of extensions in full. -/
def linkSetting (s : Scope) (o : Setting) : Link Setting := do
  let name ← o.name.mapM fun p => do
    if p.isExtension then return { p with name := ← linkExtensionName s p.name p.line }
    else return p
  return { o with name, value := ← linkValue { s with nested := [] } o.value }

/-- Options with the names of extensions in full. -/
def linkSettings (s : Scope) (settings : List Setting) : Link (List Setting) :=
  settings.mapM (linkSetting s)

/-! ## Fields -/

/-- The messages that hold options, which may be extended in any version. -/
def optionMessages : List String :=
  ["FileOptions", "MessageOptions", "FieldOptions", "OneofOptions", "ExtensionRangeOptions",
    "EnumOptions", "EnumValueOptions", "ServiceOptions", "MethodOptions"].map
    fun n => ".google.protobuf." ++ n

/-- The extended type in full. The number has to be open for extensions and not taken. -/
def linkExtendee (s : Scope) (f : Field) : Link Field := do
  match f.extendee with
  | none => return f
  | some extendee =>
    match ← find s false extendee.value with
    | some (.symbol ⟨full, _, .message m⟩ _) =>
      if !inRanges m.extensionRanges f.number.value then throw f.number.line
      let key := (full, f.number.value)
      if (← get).numbers.contains key then throw f.number.line
      modify fun l => { l with numbers := key :: l.numbers }
      return { f with extendee := some ⟨"." ++ full, extendee.line⟩ }
    | _ => throw extendee.line

/-- The type of a field in full. An entry of a map cannot be named. -/
def linkType (s : Scope) (f : Field) : Link Field := do
  if (Scalar.ofWord? f.type.value).isSome then return f
  match ← find s true f.type.value with
  | some (.symbol ⟨full, _, .message m⟩ _) =>
    if m.origin == .mapEntry && f.shape != .map then throw f.type.line
    return { f with type := ⟨"." ++ full, f.type.line⟩ }
  | some (.symbol ⟨full, _, .enum _⟩ _) => return { f with type := ⟨"." ++ full, f.type.line⟩ }
  | _ => throw f.type.line

/-- A field or extension with all its names in full. -/
def linkField (s : Scope) (f : Field) : Link Field := do
  let settings ← linkSettings s f.settings
  let f ← linkType s (← linkExtendee s { f with settings })
  if let some extendee := f.extendee then
    if s.self.file.version == .proto3 && !optionMessages.contains extendee.value then
      throw extendee.line
  return f

/-! ## Declarations -/

/-- An enum with the names in its options in full. -/
def linkEnum (s : Scope) (e : Enum) : Link Enum := do
  let settings ← linkSettings s e.settings
  let values ← e.values.mapM fun v => return { v with settings := ← linkSettings s v.settings }
  return { e with settings, values }

/-- Messages with all names in full. The options of a message are read in the scope around it. -/
def linkMessages (s : Scope) (scope : String) (messages : List Message) : Link (List Message) := do
  match messages with
  | [] => return []
  | m :: rest =>
    let settings ← linkSettings s m.settings
    let full := qualified scope m.name.value
    let inner := { s with nested := full :: s.nested }
    let extensionRanges ← m.extensionRanges.mapM fun r =>
      return { r with settings := ← linkSettings inner r.settings }
    let fields ← m.fields.mapM (linkField inner)
    let oneofs ← m.oneofs.mapM fun o =>
      return { o with settings := ← linkSettings inner o.settings }
    let messages ← linkMessages inner full m.messages
    let enums ← m.enums.mapM (linkEnum inner)
    let extensions ← m.extensions.mapM (linkField inner)
    let linked :=
      { m with settings, extensionRanges, oneofs, fields, messages, enums, extensions }
    return linked :: (← linkMessages s scope rest)
termination_by sizeOf messages
decreasing_by
  · exact m.sizeOf_messages_lt rest
  · decreasing_tactic

/-- The type of a request or a response in full: a message. -/
def linkMessageType (s : Scope) (type : At String) : Link (At String) := do
  match ← find s false type.value with
  | some (.symbol ⟨full, _, .message _⟩ _) => return ⟨"." ++ full, type.line⟩
  | _ => throw type.line

/-- A service with all names in full. -/
def linkService (s : Scope) (service : Service) : Link Service := do
  let settings ← linkSettings s service.settings
  let full := qualified s.self.file.package.value service.name.value
  let inner := { s with nested := full :: s.nested }
  let methods ← service.methods.mapM fun m => do
    let settings ← linkSettings inner m.settings
    let input ← linkMessageType inner m.input
    let output ← linkMessageType inner m.output
    return { m with settings, input, output }
  return { service with settings, methods }

/-- A file with all names in full, seen together with the files it imports. -/
def linkFile (files : List Linked) (self : Linked) : Link File := do
  let s : Scope := { seen := sights files self, self }
  let f := self.file
  let settings ← linkSettings s f.settings
  let messages ← linkMessages s f.package.value f.messages
  let enums ← f.enums.mapM (linkEnum s)
  let extensions ← f.extensions.mapM (linkField s)
  let services ← f.services.mapM (linkService s)
  return { f with settings, messages, enums, extensions, services }

end ProtoStub.Definition

import ProtoStub.Definition.Content

/-!
# What options may be set to

The options of a declaration are the fields of a message of the bundled description of schemas,
which can be extended. `checkOptions` checks that every option of a file names such a field and that
its value fits the field's type. Plain options are checked in the whole file before those that start
with an extension.
-/

namespace ProtoStub.Definition

open Text

/-- The option starts with an extension. -/
def Setting.isCustom (s : Setting) : Bool := (s.name.head?.map (·.isExtension)).getD false

/-- The option is the one that holds options that could not be read, which is not for use. -/
def Setting.isUninterpreted (s : Setting) : Bool :=
  (s.name.head?.map fun p => !p.isExtension && p.name == "uninterpreted_option").getD false

/-- The kinds of declarations that have options. -/
inductive Holder where
  | file
  | message
  | field
  | oneof
  | extensionRange
  | enum
  | enumValue
  | service
  | method
  deriving Repr, DecidableEq, Inhabited

/-- The bundled message that holds the options of a kind of declaration. -/
def Holder.options : Holder → String
  | .file => "FileOptions"
  | .message => "MessageOptions"
  | .field => "FieldOptions"
  | .oneof => "OneofOptions"
  | .extensionRange => "ExtensionRangeOptions"
  | .enum => "EnumOptions"
  | .enumValue => "EnumValueOptions"
  | .service => "ServiceOptions"
  | .method => "MethodOptions"

/-- The name of a kind of declaration where options tell what they are made for. -/
def Holder.target : Holder → String
  | .file => "TARGET_TYPE_FILE"
  | .message => "TARGET_TYPE_MESSAGE"
  | .field => "TARGET_TYPE_FIELD"
  | .oneof => "TARGET_TYPE_ONEOF"
  | .extensionRange => "TARGET_TYPE_EXTENSION_RANGE"
  | .enum => "TARGET_TYPE_ENUM"
  | .enumValue => "TARGET_TYPE_ENUM_ENTRY"
  | .service => "TARGET_TYPE_SERVICE"
  | .method => "TARGET_TYPE_METHOD"

/-- A pass over the options of a file: the plain ones, or those that start with an extension. -/
structure Pass where
  known : Known
  /-- The files that the file at hand sees. -/
  visible : Known
  custom : Bool

namespace Pass

/-- The options of a declaration that starts on the line `line`. Together they make up a message
that has all fields it requires. -/
def settings (p : Pass) (h : Holder) (line : Nat) (all : List Setting) : Check := do
  let c : Context := ⟨p.known, p.visible, h.target⟩
  let full := Bundled.known h.options
  let set ← (all.filter (·.isCustom == p.custom)).foldlM (fun fields s => do
    refuse s.isUninterpreted s.line
    c.setAt s.value s.valueLine full fields s.name) []
  refuse (!(Content.message full set).isComplete p.known) line

/-- The name in wire form that a field sets for itself. An extension may only repeat its own or set
none. -/
def wireNameSetting (f : Field) : Check := do
  if let some s ← findSetting f.settings "json_name" then
    match s.value with
    | .text bytes =>
      let name := textOf bytes
      refuse (f.extendee.isSome && name != "" && name != wireName f.name.value) s.line
      refuse (startsWith name "[" && endsWith name "]") s.valueLine
    | _ => throw s.valueLine

/-- The default of a field: a value of its type, unless it is repeated or a message. -/
def defaultSetting (p : Pass) (f : Field) : Check := do
  if let some s ← findSetting f.settings "default" then
    refuse (f.isRepeated || (p.known.typeOf f).isMessage) s.line
    let _ ← Context.content ⟨p.known, p.visible, Holder.field.target⟩ f false s.value s.valueLine

/-- The options of a field or an extension. -/
def field (p : Pass) (f : Field) : Check := do
  if !p.custom then
    wireNameSetting f
    p.defaultSetting f
  p.settings .field f.line
    (f.settings.filter fun s => !s.isNamed "json_name" && !s.isNamed "default")

/-- The options of an enum and its values. -/
def enum (p : Pass) (e : Enum) : Check := do
  p.settings .enum e.line e.settings
  e.values.forM fun v => p.settings .enumValue v.line v.settings

/-- The options of messages and of all declared in them. -/
def messages (p : Pass) : List Message → Check
  | [] => return
  | m :: rest => do
    p.settings .message m.line m.settings
    m.fields.forM p.field
    m.oneofs.forM fun o => p.settings .oneof o.line o.settings
    m.extensions.forM p.field
    m.extensionRanges.forM fun r => p.settings .extensionRange r.line r.settings
    messages p m.messages
    m.enums.forM p.enum
    messages p rest
termination_by ms => sizeOf ms
decreasing_by
  · exact m.sizeOf_messages_lt rest
  · decreasing_tactic

/-- The options of a file. -/
def file (p : Pass) (f : File) : Check := do
  p.settings .file f.line f.settings
  p.messages f.messages
  f.extensions.forM p.field
  f.enums.forM p.enum
  f.services.forM fun s => do
    p.settings .service s.line s.settings
    s.methods.forM fun m => p.settings .method m.line m.settings

end Pass

/-- Every option of a file whose names are in full is known and has a value that fits. -/
def checkOptions (known visible : Known) (f : File) : Check := do
  Pass.file ⟨known, visible, false⟩ f
  Pass.file ⟨known, visible, true⟩ f

end ProtoStub.Definition

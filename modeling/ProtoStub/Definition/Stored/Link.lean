import ProtoStub.Definition.Stored
import ProtoStub.Definition.Rules
import ProtoStub.Descriptor

/-!
# Links between stored files

Every declaration of a stored file has a full name. A reference without a leading dot is looked up
from the innermost scope outwards, the whole of it in every scope, first in the file itself and then
in the files it sees. `Site.use?` says what a field comes to: its label, its type and whether it can
be absent.
-/

namespace ProtoStub.Definition.Stored

open Text

/-! ## Symbols -/

/-- What a symbol stands for. -/
inductive Declared where
  | message (m : Message) (features : Features)
  | enum (e : Enum) (isOpen : Bool)
  | other
  deriving Inhabited

/-- A declaration under its full name, with the name it has in its scope. -/
structure Symbol where
  name : String
  inner : String
  what : Declared
  deriving Inhabited

/-- The symbol of a declaration in a scope. -/
def symbolIn (scope inner : String) (what : Declared := .other) : Symbol :=
  ⟨qualified scope inner, inner, what⟩

/-- The symbols of an enum; its values stand beside it. -/
def Enum.symbols (scope : String) (features : Features) (e : Enum) : List Symbol :=
  symbolIn scope e.name (.enum e (features.with e.choices).isOpen) ::
    e.values.map fun v => symbolIn scope v.name

/-- The symbols of messages and of all declared in them. -/
def messageSymbols (scope : String) (features : Features) : List Message → List Symbol
  | [] => []
  | m :: rest =>
    let inner := qualified scope m.name
    let own := features.with m.choices
    symbolIn scope m.name (.message m own) :: (m.fields.map fun f => symbolIn inner f.name) ++
      (m.oneofs.map fun name => symbolIn inner name) ++ m.enums.flatMap (·.symbols inner own) ++
      messageSymbols inner own m.messages ++ (m.extensions.map fun f => symbolIn inner f.name) ++
      messageSymbols scope features rest
termination_by ms => sizeOf ms
decreasing_by
  · exact m.sizeOf_messages_lt rest
  · decreasing_tactic

/-- The symbols of a service. -/
def Service.symbols (scope : String) (s : Service) : List Symbol :=
  symbolIn scope s.name :: s.methods.map fun m => symbolIn (qualified scope s.name) m.name

/-- A file with its edition, the features it starts with, and its symbols. -/
structure Indexed where
  file : File
  edition : Int
  features : Features
  symbols : List Symbol
  deriving Inhabited

/-- A file of a known version with its symbols. -/
def File.indexed? (f : File) : Option Indexed := do
  let edition ← f.edition?
  let features := (Features.ofEdition edition).with f.choices
  return { file := f, edition, features
           symbols := messageSymbols f.package features f.messages ++
            f.enums.flatMap (·.symbols f.package features) ++
            (f.extensions.map fun x => symbolIn f.package x.name) ++
            f.services.flatMap (·.symbols f.package) }

/-! ## References -/

/-- Where a file is linked: the file, and the files it sees. -/
structure Site where
  self : Indexed
  seen : List Indexed

/-- What a full name stands for. -/
def Site.find? (s : Site) (name : String) : Option Symbol :=
  (s.self :: s.seen).findSome? fun u => u.symbols.find? (·.name == name)

/-- What a reference stands for in a scope. -/
def Site.resolve (s : Site) (scope ref : String) : Option Symbol :=
  let isFull := startsWith ref "."
  let name := if isFull then String.ofList (ref.toList.drop 1) else ref
  if !(split '.' name).all isName then none
  else if isFull then s.find? name
  else (enclosing scope).findSome? fun outer => s.find? (qualified outer name)

/-- The full name of the message that a reference stands for. -/
def Site.messageName? (s : Site) (scope ref : String) : Option String :=
  match s.resolve scope ref with
  | some ⟨name, _, .message _ _⟩ => some name
  | _ => none

/-- The scalars by the number of their type. -/
def scalarTypes : List (Int × Scalar) :=
  [(1, .double), (2, .float), (3, .int64), (4, .uint64), (5, .int32), (6, .fixed64), (7, .fixed32),
    (8, .bool), (9, .string), (12, .bytes), (13, .uint32), (15, .sfixed32), (16, .sfixed64),
    (17, .sint32), (18, .sint64)]

/-- The number of the type of groups. -/
def groupType : Int := 10

/-- The number of the type of messages. -/
def messageType : Int := 11

/-- The number of the type of enums. -/
def enumType : Int := 14

/-- Where a field is declared: the full name of what is around it, whether that is a message for the
entries of a map, and its features. -/
structure Place where
  scope : String
  inEntry : Bool := false
  features : Features

/-- The type of a field. A message is a group if its type or the features say so, but the entries of
maps and what is in them are never groups. A type without number is an enum or a message. -/
def Site.kind? (s : Site) (p : Place) (f : Field) : Option Descriptor.Kind :=
  if f.type == 0 || f.type == groupType || f.type == messageType || f.type == enumType then
    match s.resolve p.scope f.typeName with
    | some ⟨name, _, .enum _ _⟩ =>
      if f.type == 0 || f.type == enumType then some (.enum name) else none
    | some ⟨name, _, .message m _⟩ =>
      let isDelimited := (p.features.with f.choices).isDelimited
      let isGroup := f.type == groupType || (f.type == messageType && isDelimited)
      if f.type == enumType then none
      else if isGroup && !p.inEntry && !m.isEntry then some (.group name)
      else some (.message name)
    | _ => none
  else if f.typeName != "" then none
  else (scalarTypes.lookup f.type).map .scalar

/-- How often a field occurs. -/
inductive Occurrence where
  | optional
  | required
  | repeated
  deriving Repr, DecidableEq, Inhabited

/-- The occurrences by the number of their label. -/
def Occurrence.ofLabel? : Int → Option Occurrence
  | 1 => some .optional
  | 2 => some .required
  | 3 => some .repeated
  | _ => none

/-- What a field comes to. -/
structure Use where
  /-- How often it occurs; nothing when the label is not known. -/
  occurs : Option Occurrence
  kind : Descriptor.Kind
  /-- The field can be absent and zero, and the two are different. -/
  hasPresence : Bool

/-- The type is a message or a group. -/
def isMessageKind : Descriptor.Kind → Bool
  | .message _ | .group _ => true
  | _ => false

/-- What a field comes to. Features can require a field of a message. -/
def Site.use? (s : Site) (p : Place) (f : Field) : Option Use := do
  let features := p.features.with f.choices
  let kind ← s.kind? p f
  let occurs := if features.isRequired then some .required else Occurrence.ofLabel? f.label
  return { occurs, kind
           hasPresence := occurs != some .repeated &&
            (features.hasPresence || isMessageKind kind || f.oneof.isSome) }

/-- What an extension comes to. -/
def Site.extensionUse? (s : Site) (p : Place) (f : Field) : Option Use := do
  let occurs := Occurrence.ofLabel? f.label
  return { occurs, kind := ← s.kind? p f, hasPresence := occurs != some .repeated }

/-- The message for the entries of a map that is the type of a field, with its features. -/
def Site.entry? (s : Site) : Descriptor.Kind → Option (Message × Features)
  | .message name =>
    match s.find? name with
    | some ⟨_, _, .message m features⟩ => if m.isEntry then some (m, features) else none
    | _ => none
  | _ => none

/-- The enum that is the type of a field, and whether it knows all numbers. -/
def Site.enum? (s : Site) : Descriptor.Kind → Option (Enum × Bool)
  | .enum name =>
    match s.find? name with
    | some ⟨_, _, .enum e isOpen⟩ => some (e, isOpen)
    | _ => none
  | _ => none

end ProtoStub.Definition.Stored

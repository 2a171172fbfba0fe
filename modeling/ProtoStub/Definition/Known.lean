import ProtoStub.Definition.Link

/-!
# Looking up linked names

Once a file is linked, every name in it is in full and can be looked up among the linked files.
`Slot` is a field as the place of a value: what type the value has, whether a zero counts as a
value, and which fields it shares a choice with.
-/

namespace ProtoStub.Definition

open Text

/-- The files in which names in full are looked up. -/
abbrev Known : Type := List Linked

/-- What a full name, written with a leading dot, stands for. -/
def Known.find? (k : Known) (full : String) : Option (Symbol × Linked) :=
  let name := String.ofList (full.toList.drop 1)
  k.findSome? fun l => (l.symbols.find? (·.name == name)).map (·, l)

/-- The message with a full name, and the version of its file. -/
def Known.owner? (k : Known) (full : String) : Option (Message × Version) :=
  match k.find? full with
  | some (⟨_, _, .message m⟩, l) => some (m, l.file.version)
  | _ => none

/-- The message with a full name. -/
def Known.message? (k : Known) (full : String) : Option Message := (k.owner? full).map (·.1)

/-- What the type of a field is. -/
inductive TypeOf where
  | scalar (s : Scalar)
  | message (full : String) (m : Message)
  | enum (e : Enum) (closed : Bool)
  | unknown

/-- The type of a field whose names are in full. -/
def Known.typeOf (k : Known) (f : Field) : TypeOf :=
  match Scalar.ofWord? f.type.value with
  | some s => .scalar s
  | none =>
    match k.find? f.type.value with
    | some (⟨_, _, .message m⟩, _) => .message f.type.value m
    | some (⟨_, _, .enum e⟩, l) => .enum e (l.file.version == .proto2)
    | _ => .unknown

/-- The type of a field is a message or a group. -/
def TypeOf.isMessage : TypeOf → Bool
  | .message _ _ => true
  | _ => false

/-- The field occurs any number of times. -/
def Field.isRepeated (f : Field) : Bool := f.label.map (·.value) == some .repeated

/-- The field is a group. -/
def Field.isGroup (f : Field) : Bool :=
  match f.shape with
  | .group _ => true
  | _ => false

/-- The field can be absent and zero, and the two are different. -/
def Field.hasPresence (version : Version) (isMessage : Bool) (f : Field) : Bool :=
  !f.isRepeated && (f.extendee.isSome || version == .proto2 || f.oneof.isSome || isMessage)

/-- A field of a message as the place of a value. -/
structure Slot where
  field : Field
  /-- Being zero is the same as being absent. -/
  isImplicit : Bool := false
  /-- The numbers of the other fields of its choice. -/
  rivals : List Int := []

/-- The place of a field of the message `m`. -/
def Known.slot (k : Known) (m : Message) (version : Version) (f : Field) : Slot where
  field := f
  isImplicit := !f.isRepeated && !f.hasPresence version (k.typeOf f).isMessage
  rivals :=
    if f.oneof.isNone then []
    else (m.fields.filter fun g => g.oneof == f.oneof && g.number.value != f.number.value).map
      (·.number.value)

/-- The place of the extension `name` of the message `full`. -/
def Known.extensionSlot? (k : Known) (full name : String) : Option Slot :=
  match k.find? name with
  | some (⟨_, _, .extension f⟩, _) =>
    if f.extendee.map (·.value) == some full then some { field := f } else none
  | _ => none

/-- The place of the field `name` of the message `full`. -/
def Known.fieldSlot? (k : Known) (full name : String) : Option Slot := do
  let (m, version) ← k.owner? full
  return k.slot m version (← m.fields.find? (·.name.value == name))

/-- The place of the group that brings along a message of the name `name`. -/
def Known.groupSlot? (k : Known) (full name : String) : Option Slot := do
  let (m, version) ← k.owner? full
  return k.slot m version
    (← m.fields.find? fun f => f.isGroup && endsWith f.type.value ("." ++ name))

end ProtoStub.Definition

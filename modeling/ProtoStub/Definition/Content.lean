import ProtoStub.Definition.Known

/-!
# What options set

The options of a declaration make up a message. `Content` holds what is set in it: scalars only
count as set, messages keep their fields by number. `Context.setAt` follows the name of an option
into such a message and sets the field it ends at; a field that occurs once is set once, and of a
choice one field is set.
-/

namespace ProtoStub.Definition

open Text

/-- A value that is set. -/
inductive Content where
  | scalar
  | message (type : String) (fields : List (Int × Content))
  | items (all : List Content)
  deriving Repr, Inhabited

/-- The fields of a message that are set, by number. -/
abbrev Contents : Type := List (Int × Content)

/-- Sets a field: in its place, or behind the others. -/
def Contents.put (number : Int) (c : Content) : Contents → Contents
  | [] => [(number, c)]
  | (n, d) :: rest =>
    if n == number then (number, c) :: rest else (n, d) :: Contents.put number c rest

/-- Adds values to a field that occurs any number of times. -/
def Contents.push (cs : Contents) (number : Int) (more : List Content) : Contents :=
  match cs.lookup number with
  | some (.items all) => cs.put number (.items (all ++ more))
  | _ => cs.put number (.items more)

mutual

/-- Every message has the fields it requires. -/
def Content.isComplete (k : Known) : Content → Bool
  | .scalar => true
  | .items all => areComplete k all
  | .message type fields =>
    (((k.message? type).map (·.fields)).getD []).all (fun f =>
      f.label.map (·.value) != some .required || (fields.lookup f.number.value).isSome) &&
      fieldsComplete k fields

/-- All values are complete. -/
def areComplete (k : Known) : List Content → Bool
  | [] => true
  | c :: rest => c.isComplete k && areComplete k rest

/-- The values of all fields are complete. -/
def fieldsComplete (k : Known) : List (Int × Content) → Bool
  | [] => true
  | (_, c) :: rest => c.isComplete k && fieldsComplete k rest

end

/-! ## Values -/

/-- An integer value. -/
def Value.integer? : Value → Option Int
  | .natural n => some n
  | .negative n => some n
  | _ => none

/-- The value is an integer from `least` to `largest`. -/
def Value.isBetween (v : Value) (least largest : Int) : Bool :=
  match v.integer? with
  | some n => least ≤ n && n ≤ largest
  | none => false

/-- The spellings of a truth value. Inside a message literal there are more. -/
def truthWords (inLiteral truth : Bool) : List String :=
  match inLiteral, truth with
  | false, true => ["true"]
  | false, false => ["false"]
  | true, true => ["true", "True", "t"]
  | true, false => ["false", "False", "f"]

/-- The value fits a scalar type. -/
def Value.fits (v : Value) (inLiteral : Bool) : Scalar → Bool
  | .bool =>
    match v with
    | .word w => (truthWords inLiteral true ++ truthWords inLiteral false).contains w
    | _ => false
  | .string | .bytes =>
    match v with
    | .text _ => true
    | _ => false
  | .int32 | .sint32 | .sfixed32 => v.isBetween (-0x80000000) 0x7FFFFFFF
  | .uint32 | .fixed32 => v.isBetween 0 0xFFFFFFFF
  | .int64 | .sint64 | .sfixed64 => v.isBetween (-0x8000000000000000) 0x7FFFFFFFFFFFFFFF
  | .uint64 | .fixed64 => v.isBetween 0 0xFFFFFFFFFFFFFFFF
  | .float | .double =>
    match v with
    | .real _ | .natural _ | .negative _ => true
    | .word w => w == "inf" || w == "nan"
    | _ => false

/-- The number of the enum value that a value names; inside a message literal its number will do. -/
def Value.inEnum? (v : Value) (inLiteral closed : Bool) (e : Enum) : Option Int :=
  match v with
  | .word w => (e.values.find? (·.name.value == w)).map (·.number.value)
  | v =>
    if inLiteral && v.isBetween (-0x80000000) 0x7FFFFFFF &&
        (!closed || e.values.any fun x => v.integer? == some x.number.value) then v.integer?
    else none

/-- The value is the zero of its scalar type. -/
def Value.isZero : Value → Bool
  | .text bytes => bytes.isEmpty
  | .natural n => n == 0
  | .negative n => n == 0
  | .real isZero => isZero
  | .word w => (truthWords true false).contains w
  | .list _ | .literal _ => false

/-- The message that may hold a value of any type. -/
def anyMessage : String := ".google.protobuf.Any"

/-- The hosts that know every type. -/
def typeHosts : List String := ["type.googleapis.com", "type.googleprod.com"]

/-- Where options are set: the linked files, those that the file at hand sees, and the kind of
declaration. -/
structure Context where
  known : Known
  visible : Known
  target : String

namespace Context

/-- The field may be set on the kind of declaration. A field can list the kinds it is made for, and
a message set is made for none. -/
def checkTarget (c : Context) (s : Slot) (line : Nat) : Check := do
  let owner := s.field.extendee.bind fun e => c.known.message? e.value
  refuse ((owner.map (·.isSet)).getD false) line
  let targets := (s.field.settings.filter (·.isNamed "targets")).filterMap fun s =>
    match s.value with
    | .word w => some w
    | _ => none
  refuse (!targets.isEmpty && !targets.contains c.target) line

/-- Puts a value into its place, which the name on the line `line` means. `isZero` tells that the
value is a zero. -/
def place (fields : Contents) (s : Slot) (line : Nat) (content : Content) (isZero : Bool) :
    Except Nat Contents := do
  let number := s.field.number.value
  refuse (s.rivals.any fun n => (fields.lookup n).isSome) line
  if s.field.isRepeated then return fields.push number [content]
  refuse (fields.lookup number).isSome line
  return if s.isImplicit && isZero then fields else fields.put number content

/-- The place that a name inside a literal of the message `full` means. -/
def literalSlot? (c : Context) (full : String) : LiteralName → Option Slot
  | .field name => c.known.fieldSlot? full name <|> c.known.groupSlot? full name
  | .extension name => c.known.extensionSlot? full name
  | .address _ _ => none

mutual

/-- A single value as the content of a field, and whether it is a zero. -/
def content (c : Context) (f : Field) (inLiteral : Bool) (v : Value) (line : Nat) :
    Except Nat (Content × Bool) := do
  match v with
  | .list _ => throw line
  | .literal fields =>
    match c.known.typeOf f with
    | .message full _ =>
      return (.message full (← literal c full (fields.length == 1) [] fields), false)
    | _ => throw line
  | v =>
    match c.known.typeOf f with
    | .scalar s =>
      refuse (!v.fits inLiteral s) line
      return (.scalar, v.isZero)
    | .enum e closed =>
      match v.inEnum? inLiteral closed e with
      | some n => return (.scalar, n == 0)
      | none => throw line
    | _ => throw line
termination_by sizeOf v

/-- The members of a list as the contents of a field. -/
def contents (c : Context) (f : Field) (items : List (At Value)) : Except Nat (List Content) := do
  match items with
  | [] => return []
  | ⟨v, line⟩ :: rest => return (← content c f true v line).1 :: (← contents c f rest)
termination_by sizeOf items

/-- Sets a field to a value. -/
def set (c : Context) (fields : Contents) (s : Slot) (nameLine : Nat) (inLiteral : Bool) (v : Value)
    (line : Nat) : Except Nat Contents := do
  match v with
  | .list items =>
    refuse (!s.field.isRepeated) line
    return fields.push s.field.number.value (← contents c s.field items)
  | v =>
    let (content, isZero) ← content c s.field inLiteral v line
    place fields s nameLine content isZero
termination_by sizeOf v + 1

/-- Sets the fields of a literal of the message `full`, one after another. A literal for a value of
any type says which by an address; it has no other fields, so that it is `alone`. -/
def literal (c : Context) (full : String) (alone : Bool) (fields : Contents)
    (assignments : List (Assignment Value)) : Except Nat Contents := do
  match assignments with
  | [] => return fields
  | ⟨name, line, innerLine, colon, ⟨v, valueLine⟩⟩ :: rest =>
    match name with
    | .address host type =>
      refuse (!alone || full != anyMessage || !typeHosts.contains host) innerLine
      match v with
      | .literal inner =>
        match c.visible.message? ("." ++ type) with
        | none => throw innerLine
        | some _ =>
          let held ← literal c ("." ++ type) (inner.length == 1) [] inner
          refuse (!(Content.message ("." ++ type) held).isComplete c.known) valueLine
          literal c full alone ((fields.put 1 .scalar).put 2 .scalar) rest
      | _ => throw valueLine
    | name =>
      match c.literalSlot? full name with
      | none => throw line
      | some s =>
        c.checkTarget s line
        refuse (!colon && !(c.known.typeOf s.field).isMessage) valueLine
        literal c full alone (← set c fields s line true v valueLine) rest
termination_by sizeOf assignments

end

/-! ## Names -/

/-- The place that a part of an option's name means in the message `full`. -/
def partSlot (c : Context) (full : String) (p : NamePart) : Except Nat Slot :=
  let found := if p.isExtension then c.known.extensionSlot? full p.name
    else c.known.fieldSlot? full p.name
  match found with
  | some s => return s
  | none => throw p.line

/-- Follows the name of an option from the message `full`, whose fields are `fields`, to the field
it sets. -/
def setAt (c : Context) (v : Value) (line : Nat) (full : String) (fields : Contents) :
    List NamePart → Except Nat Contents
  | [] => return fields
  | [p] => do
    let s ← c.partSlot full p
    c.checkTarget s p.line
    c.set fields s p.line false v line
  | p :: q :: rest => do
    let s ← c.partSlot full p
    c.checkTarget s p.line
    match c.known.typeOf s.field with
    | .message inner _ =>
      refuse s.field.isRepeated q.line
      match fields.lookup s.field.number.value with
      | some (.message _ below) =>
        return fields.put s.field.number.value
          (.message inner (← setAt c v line inner below (q :: rest)))
      | _ =>
        refuse (s.rivals.any fun n => (fields.lookup n).isSome) p.line
        return fields.put s.field.number.value
          (.message inner (← setAt c v line inner [] (q :: rest)))
    | _ => throw q.line

end Context

end ProtoStub.Definition

import ProtoStub.Definition.Stored.Default
import ProtoStub.Definition.Stored.Link
import ProtoStub.Definition.Use

/-!
# Rules for stored files

What holds of every stored file that can be used, beyond its links. Source text that compiles comes
to stored files that mostly keep these rules, but here nothing is known about the compiler; a
message set, for one, can be compiled and not used.
-/

namespace ProtoStub.Definition.Stored

open Text

/-- No two members are the same. -/
def isDistinct [BEq α] (xs : List α) : Bool := xs.eraseDups.length == xs.length

/-! ## Ranges -/

/-- A number is in the range. -/
def Range.has (r : Range) (n : Int) : Bool := r.first ≤ n && n ≤ r.last

/-- Two ranges have a number in common. -/
def Range.meets (r s : Range) : Bool := r.first ≤ s.last && s.first ≤ r.last

/-- The numbers that fields can have. -/
def isFieldNumber (n : Int) : Bool := 1 ≤ n && n ≤ maxNumber

/-- No range ends before it starts, and no two of them meet. -/
def areApart : List Range → Bool
  | [] => true
  | r :: rest => r.first ≤ r.last && !rest.any r.meets && areApart rest

/-- Ranges of numbers of fields. -/
def fieldRangesFit (ranges : List Range) : Bool :=
  ranges.all (fun r => isFieldNumber r.first && isFieldNumber r.last) && areApart ranges

/-! ## Enums -/

/-- Values with different numbers keep different plain names. The last value of each name counts. -/
def plainNamesFit (enumName : String) : List (String × Option Int) → List EnumValue → Bool
  | _, [] => true
  | seen, v :: rest =>
    let name := plainValueName enumName v.name
    (seen.lookup name).all (· == v.number) &&
      plainNamesFit enumName ((name, v.number) :: seen) rest

/-- The rules of an enum. Numbers occur twice if and only if the enum allows it; one that knows all
numbers starts with zero. -/
def Enum.fits (features : Features) (e : Enum) : Bool :=
  let numbers := e.values.map fun v => v.number.getD 0
  isDistinct e.reservedNames && areApart e.reservedRanges && !e.values.isEmpty &&
    isDistinct numbers == !e.allowsAliases &&
    (!(features.with e.choices).isOpen ||
      (numbers.head? == some 0 && plainNamesFit e.name [] e.values)) &&
    e.values.all fun v =>
      v.number.isSome && !e.reservedNames.contains v.name &&
        !e.reservedRanges.any (·.has (v.number.getD 0))

/-! ## Fields -/

/-- The default of a field is one of its type, which is a scalar or an enum, and the field can be
absent. -/
def Site.defaultFits (s : Site) (u : Use) (f : Field) : Bool :=
  match f.default with
  | none => true
  | some bytes =>
    u.hasPresence &&
      match u.kind with
      | .scalar t => hasDefault t bytes
      | .enum _ => (s.enum? u.kind).any fun (e, _) => e.values.any (·.name == textOf bytes)
      | _ => false

/-- The scope of a full name. -/
def scopeOf (name : String) : String := (beforeLast? '.' name).getD ""

/-- The last part of a full name. -/
def lastPart (name : String) : String := (split '.' name).getLastD ""

/-- A group is not used in the newer version. Before there were editions, its message stands beside
it and has its name, with a capital. -/
def Site.groupFits (s : Site) (scope : String) (u : Use) (f : Field) : Bool :=
  match u.kind with
  | .group name =>
    s.self.edition != proto3Edition &&
      (edition2023 ≤ s.self.edition ||
        (scopeOf name == scope && (lastPart name).toList.head?.any Char.isUpper &&
          f.name == String.ofList ((lastPart name).toList.map Char.toLower)))
  | _ => true

/-- The keys that a map can have. -/
def isKeyKind : Descriptor.Kind → Bool
  | .scalar .float | .scalar .double | .scalar .bytes => false
  | .scalar _ => true
  | _ => false

/-- A field of a message for entries has its name and its number, and nothing that is special. -/
def Site.entryFieldUse? (s : Site) (p : Place) (name : String) (number : Int) (f : Field) :
    Option Use := do
  let u ← s.use? p f
  if f.name == name && f.number == number && u.occurs == some .optional && f.oneof.isNone &&
    f.default.isNone then return u else none

/-- The field of a map is repeated. The message for its entries stands beside it, has its name, and
holds a key and a value and nothing else; an enum as value starts with zero. -/
def Site.mapFits (s : Site) (scope : String) (u : Use) (f : Field) : Bool :=
  match u.kind, s.entry? u.kind with
  | .message name, some (m, features) =>
    let place : Place := ⟨name, true, features⟩
    scopeOf name == scope && m.name == entryName f.name && u.occurs == some .repeated &&
      m.extensionRanges.isEmpty && m.enums.isEmpty && m.messages.isEmpty && m.extensions.isEmpty &&
      match m.fields with
      | [k, v] =>
        match s.entryFieldUse? place "key" 1 k, s.entryFieldUse? place "value" 2 v with
        | some key, some value =>
          isKeyKind key.kind &&
            (s.enum? value.kind).all fun (e, _) => e.values.head?.all (·.number.getD 0 == 0)
        | _, _ => false
      | _ => false
  | _, _ => true

/-- The fields of the choice at a position. -/
def Message.choice (m : Message) (i : Int) : List Field := m.fields.filter (·.oneof == some i)

/-- An optional field of the newer version has a choice of its own, if any. -/
def Site.optionalFits (s : Site) (u : Use) (f : Field) : Bool :=
  !f.isOptional || (s.self.edition == proto3Edition && u.occurs == some .optional)

/-- An enum that does not know all numbers is no type of a field in the newer version, nor of one in
which zero is the same as absent. -/
def Site.enumFits (s : Site) (u : Use) : Bool :=
  match s.enum? u.kind with
  | some (_, false) =>
    s.self.edition != proto3Edition && (u.hasPresence || u.occurs != some .optional)
  | _ => true

/-- The rules of a field of the message `m`. -/
def Site.fieldFits (s : Site) (p : Place) (m : Message) (f : Field) : Bool :=
  match s.use? p f with
  | none => false
  | some u =>
    u.occurs.isSome && s.defaultFits u f && isFieldNumber f.number && f.extendee.isNone &&
      !m.reservedNames.contains f.name &&
      !(m.reservedRanges ++ m.extensionRanges).any (·.has f.number) &&
      f.oneof.all (fun i => 0 ≤ i && i < (m.oneofs.length : Int)) &&
      s.optionalFits u f &&
      (!f.isOptional || f.oneof.isNone || (m.choice (f.oneof.getD 0)).length == 1) &&
      s.groupFits p.scope u f && s.mapFits p.scope u f && s.enumFits u &&
      !(s.self.edition == proto3Edition && u.occurs == some .required)

/-! ## Extensions -/

/-- The messages that every file can extend. -/
def optionMessages : List String :=
  ["FileOptions", "EnumOptions", "EnumValueOptions", "MessageOptions", "FieldOptions",
    "OneofOptions", "ExtensionRangeOptions", "ServiceOptions", "MethodOptions"].map
    ("google.protobuf." ++ ·)

/-- The rules of an extension. In the newer version it extends options only. -/
def Site.extensionFits (s : Site) (p : Place) (f : Field) : Bool :=
  match s.extensionUse? p f, s.resolve p.scope (f.extendee.getD "") with
  | some u, some ⟨name, _, .message m _⟩ =>
    (u.occurs == some .optional || u.occurs == some .repeated) && s.defaultFits u f &&
      isFieldNumber f.number && !isReservedNumber f.number && f.oneof.isNone &&
      f.wireName.all (· == wireName f.name) &&
      m.extensionRanges.any (·.has f.number) && s.optionalFits u f &&
      s.groupFits p.scope u f && (s.entry? u.kind).isNone &&
      (s.self.edition != proto3Edition || optionMessages.contains name)
  | _, _ => false

/-! ## Messages -/

/-- The places of fields follow one another. -/
def isConsecutive : List Nat → Bool
  | a :: b :: rest => a + 1 == b && isConsecutive (b :: rest)
  | _ => true

/-- The rules of the choices of a message: each has fields that stand together and are optional. The
choice that an optional field has for itself stands behind the others, as `behind` tells. -/
def choicesFit (features : Features) (m : Message) (behind : Bool) : List Nat → Bool
  | [] => true
  | i :: rest =>
    let fields := m.choice i
    let places := (m.fields.zipIdx.filter (·.1.oneof == some (i : Int))).map (·.2)
    let isOwn := match fields with
      | [f] => f.isOptional
      | _ => false
    let isOptional (f : Field) : Bool := f.label == 1 && !(features.with f.choices).isRequired
    !fields.isEmpty && isConsecutive places && (isOwn || (!behind && fields.all isOptional)) &&
      choicesFit features m (behind || isOwn) rest

/-- The rules of messages and of all declared in them. -/
def Site.messagesFit (s : Site) (scope : String) (features : Features) : List Message → Bool
  | [] => true
  | m :: rest =>
    let own := features.with m.choices
    let place : Place := ⟨qualified scope m.name, m.isEntry, own⟩
    !m.isSet && isDistinct m.reservedNames && fieldRangesFit m.reservedRanges &&
      fieldRangesFit m.extensionRanges &&
      !m.reservedRanges.any (fun r => m.extensionRanges.any r.meets) &&
      isDistinct (m.fields.map (·.number)) &&
      (s.self.edition != proto3Edition || m.extensionRanges.isEmpty) &&
      m.fields.all (s.fieldFits place m) && choicesFit own m false (List.range m.oneofs.length) &&
      m.enums.all (·.fits own) && s.messagesFit place.scope own m.messages &&
      m.extensions.all (s.extensionFits ⟨place.scope, false, own⟩) &&
      s.messagesFit scope features rest
termination_by ms => sizeOf ms
decreasing_by
  · exact m.sizeOf_messages_lt rest
  · decreasing_tactic

/-! ## Files -/

/-- The types of a service's procedures are messages. -/
def Site.serviceFits (s : Site) (scope : String) (service : Service) : Bool :=
  let inner := qualified scope service.name
  service.methods.all fun m =>
    (s.messageName? inner m.input).isSome && (s.messageName? inner m.output).isSome

/-- Names are names, and none is declared twice. -/
def Indexed.namesFit (u : Indexed) : Bool :=
  (u.file.package == "" || (split '.' u.file.package).all isName) &&
    u.symbols.all (fun s => isName s.inner) && isDistinct (u.symbols.map (·.name))

/-- The imports of a file are different files, and those passed on are among them. -/
def File.importsFit (f : File) : Bool :=
  isDistinct f.imports && isDistinct f.publicImports &&
    f.publicImports.all fun i => 0 ≤ i && i < (f.imports.length : Int)

/-- The rules of a file. -/
def Site.fits (s : Site) : Bool :=
  let f := s.self.file
  let features := s.self.features
  f.name != "" && f.spansFit && f.importsFit && s.self.namesFit &&
    s.messagesFit f.package features f.messages && f.enums.all (·.fits features) &&
    f.extensions.all (s.extensionFits ⟨f.package, false, features⟩) &&
    f.services.all (s.serviceFits f.package)

end ProtoStub.Definition.Stored

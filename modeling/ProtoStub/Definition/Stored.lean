import ProtoStub.Definition.Scope

/-!
# Stored definitions

The definitions of schema files as a compiler stores them: everything is written out, types and
labels are numbers, options are kept as far as they change the meaning of a definition. A
declaration has the line that the stored source information gives it, or zero.

Features say what fields and enums mean. A file starts with those of its edition, and every
declaration changes them for itself and for all declared in it.
-/

namespace ProtoStub.Definition.Stored

/-! ## Features -/

/-- The features that a declaration sets, by number. -/
structure Choices where
  presence : Option Int := none
  enumType : Option Int := none
  encoding : Option Int := none
  deriving Repr, DecidableEq, Inhabited

/-- The features of a declaration. -/
structure Features where
  /-- A field can be absent and zero, and the two are different. -/
  hasPresence : Bool
  isRequired : Bool := false
  /-- An enum knows all numbers. -/
  isOpen : Bool
  /-- A message is delimited like a group. -/
  isDelimited : Bool := false
  deriving Repr, DecidableEq, Inhabited

/-- The features of a declaration among those around it. -/
def Features.with (f : Features) (c : Choices) : Features where
  hasPresence := (c.presence.map fun n => n == 1 || n == 3).getD f.hasPresence
  isRequired := (c.presence.map (· == 3)).getD f.isRequired
  isOpen := (c.enumType.map (· == 1)).getD f.isOpen
  isDelimited := (c.encoding.map (· == 2)).getD f.isDelimited

/-- The edition of the older version. -/
def proto2Edition : Int := 998

/-- The edition of the newer version. -/
def proto3Edition : Int := 999

/-- The first edition that is no version, and the latest one that is known. -/
def edition2023 : Int := 1000

/-- The features that an edition starts with. -/
def Features.ofEdition (edition : Int) : Features where
  hasPresence := edition != proto3Edition
  isOpen := edition != proto2Edition

/-! ## Declarations -/

/-- A field or an extension. -/
structure Field where
  name : String
  line : Int := 0
  number : Int := 0
  /-- One for optional, two for required, three for repeated. -/
  label : Int := 1
  /-- The number of the type; zero when it has to be found by its name. -/
  type : Int := 0
  typeName : String := ""
  extendee : Option String := none
  /-- The default, as text. -/
  default : Option (List UInt8) := none
  oneof : Option Int := none
  wireName : Option String := none
  /-- Optional by its label, in the newer version. -/
  isOptional : Bool := false
  choices : Choices := {}
  deriving Repr, Inhabited

/-- A value of an enum. -/
structure EnumValue where
  name : String
  number : Option Int
  deriving Repr, DecidableEq, Inhabited

/-- Numbers from `first` to `last`, both included. -/
structure Range where
  first : Int
  last : Int
  deriving Repr, DecidableEq, Inhabited

/-- An enum. -/
structure Enum where
  name : String
  line : Int := 0
  values : List EnumValue := []
  reservedRanges : List Range := []
  reservedNames : List String := []
  allowsAliases : Bool := false
  choices : Choices := {}
  deriving Repr, Inhabited

/-- A message. -/
structure Message where
  name : String
  line : Int := 0
  fields : List Field := []
  oneofs : List String := []
  messages : List Message := []
  enums : List Enum := []
  extensions : List Field := []
  extensionRanges : List Range := []
  reservedRanges : List Range := []
  reservedNames : List String := []
  /-- The message is for the entries of a map. -/
  isEntry : Bool := false
  /-- The message is a set of extensions. -/
  isSet : Bool := false
  choices : Choices := {}
  deriving Repr, Inhabited

/-- The messages inside the first of some messages are less than all of them. -/
theorem Message.sizeOf_messages_lt (m : Message) (rest : List Message) :
    sizeOf m.messages < sizeOf (m :: rest) := by
  cases m
  simp only [List.cons.sizeOf_spec, mk.sizeOf_spec]
  omega

/-- A remote procedure. -/
structure Method where
  name : String
  line : Int := 0
  input : String
  output : String
  clientStreaming : Bool := false
  serverStreaming : Bool := false
  deriving Repr, Inhabited

/-- A service. -/
structure Service where
  name : String
  line : Int := 0
  methods : List Method := []
  deriving Repr, Inhabited

/-- A file. -/
structure File where
  name : String
  package : String := ""
  imports : List String := []
  /-- The positions of imports that are passed on. -/
  publicImports : List Int := []
  messages : List Message := []
  enums : List Enum := []
  extensions : List Field := []
  services : List Service := []
  /-- The version by name. -/
  version : String := ""
  /-- The edition; it counts only if the version is left to it. -/
  edition : Int := 0
  choices : Choices := {}
  /-- The spans of the source information have three or four numbers. -/
  spansFit : Bool := true
  deriving Repr, Inhabited

/-- The edition of a file; nothing when its version is not known. -/
def File.edition? (f : File) : Option Int :=
  match f.version with
  | "" | "proto2" => some proto2Edition
  | "proto3" => some proto3Edition
  | "editions" =>
    if proto2Edition ≤ f.edition && f.edition ≤ edition2023 then some f.edition else none
  | _ => none

end ProtoStub.Definition.Stored

import ProtoStub.Definition.Bundled
import ProtoStub.Definition.Stored
import ProtoStub.Wire

/-!
# Reading stored definitions

A compiler stores definitions in the wire format, as messages of the bundled description of schemas.
`decode` reads them back. Everything that the description knows has to be readable, also where
nothing of it is kept.
-/

namespace ProtoStub.Definition.Stored

open Text

/-! ## What is readable -/

/-- The message of the description of schemas with a full name that has a leading dot. -/
def describing? (full : String) : Option Definition.Message :=
  Bundled.schema.symbols.findSome? fun s =>
    match s.what with
    | .message m => if "." ++ s.name == full then some m else none
    | _ => none

/-- The features of a target language that are known: a message of plain numbers. -/
def isLanguageFeature (full : String) (number : Nat) : Bool :=
  full == Bundled.known "FeatureSet" && number == 1002

/-- The field can be written as bytes that hold one number after another. -/
def canPack (f : Definition.Field) : Bool :=
  f.label.map (·.value) == some .repeated && f.type.value != "string"

/-- The field `f` is among fields that were read, in the right form. -/
def isThere (f : Definition.Field) (fs : Wire.Fields) : Bool :=
  if f.type.value == "string" then !(fs.parts f.number.value.toNat).isEmpty
  else (fs.int? f.number.value.toNat).isSome

/-- Bytes are readable as the message `full` of the description of schemas: so is every message in
it, numbers that stand together can be told apart, and nothing that is required is missing. `fuel`
bounds how deep messages are nested. -/
def isReadable : (fuel : Nat) → (full : String) → List UInt8 → Bool
  | 0, _, _ => false
  | fuel + 1, full, bytes =>
    match Wire.read bytes, describing? full with
    | some fs, some m =>
      (fs.all fun (number, value) =>
        match value with
        | .bytes content =>
          match m.fields.find? (·.number.value == (number : Int)) with
          | some f =>
            if (describing? f.type.value).isSome then isReadable fuel f.type.value content
            else !canPack f || (Wire.Fields.unpack content.length content).isSome
          | none => !isLanguageFeature full number || (Wire.read content).isSome
        | _ => true) &&
      m.fields.all fun f => f.label.map (·.value) != some .required || isThere f fs
    | _, _ => false

/-! ## Declarations -/

/-- The lines of declarations, by the way to each of them: field numbers and positions. -/
abbrev Lines : Type := List (List Int × Int)

/-- The line of a declaration; zero when it is not known. -/
def Lines.at (l : Lines) (way : List Int) : Int := (l.lookup way).getD 0

/-- The line on which a span starts, counted from one. -/
def startLine (span : List Int) : Int := span.headD 0 + 1

/-- A location of the source information: a way and a span. -/
def decodeLocation (bytes : List UInt8) : Option (List Int × List Int) := do
  let fs ← Wire.read bytes
  return (← fs.ints 1, ← fs.ints 2)

/-- A list with positions, each element decoded. -/
def decodeEach (bytes : List (List UInt8)) (f : Int → List UInt8 → Option α) : Option (List α) :=
  bytes.zipIdx.mapM fun (b, i) => f i b

/-- The features in the field `number` of some options. -/
def decodeChoices (options : Wire.Fields) (number : Nat) : Option Choices := do
  let fs ← Wire.read (options.merged number)
  return ⟨fs.int? 1, fs.int? 2, fs.int? 5⟩

/-- A range whose end is `beyond` past the last number. -/
def decodeRange (beyond : Int) (bytes : List UInt8) : Option Range := do
  let fs ← Wire.read bytes
  return ⟨fs.int 1, fs.int 2 - beyond⟩

/-- A value of an enum. -/
def decodeEnumValue (bytes : List UInt8) : Option EnumValue := do
  let fs ← Wire.read bytes
  return ⟨fs.text 1, fs.int? 2⟩

/-- An enum. -/
def decodeEnum (lines : Lines) (way : List Int) (bytes : List UInt8) : Option Enum := do
  let fs ← Wire.read bytes
  let options ← Wire.read (fs.merged 3)
  return { name := fs.text 1, line := lines.at way
           values := ← (fs.parts 2).mapM decodeEnumValue
           reservedRanges := ← (fs.parts 4).mapM (decodeRange 0)
           reservedNames := fs.texts 5, allowsAliases := options.flag 2
           choices := ← decodeChoices options 7 }

/-- A field or an extension. -/
def decodeField (lines : Lines) (way : List Int) (bytes : List UInt8) : Option Field := do
  let fs ← Wire.read bytes
  let options ← Wire.read (fs.merged 8)
  return { name := fs.text 1, line := lines.at way, number := fs.int 3
           label := (fs.int? 4).getD 1, type := fs.int 5, typeName := fs.text 6
           extendee := fs.text? 2, default := (fs.parts 7).getLast?, oneof := fs.int? 9
           wireName := fs.text? 10, isOptional := fs.flag 17
           choices := ← decodeChoices options 21 }

/-- A message. `fuel` bounds how deep messages are nested. -/
def decodeMessage (lines : Lines) : (fuel : Nat) → (way : List Int) → List UInt8 → Option Message
  | 0, _, _ => none
  | fuel + 1, way, bytes => do
    let fs ← Wire.read bytes
    let options ← Wire.read (fs.merged 7)
    let oneofs ← (fs.parts 8).mapM Wire.read
    return { name := fs.text 1, line := lines.at way
             fields := ← decodeEach (fs.parts 2) fun i => decodeField lines (way ++ [2, i])
             oneofs := oneofs.map (·.text 1)
             messages := ← decodeEach (fs.parts 3) fun i => decodeMessage lines fuel (way ++ [3, i])
             enums := ← decodeEach (fs.parts 4) fun i => decodeEnum lines (way ++ [4, i])
             extensions := ← decodeEach (fs.parts 6) fun i => decodeField lines (way ++ [6, i])
             extensionRanges := ← (fs.parts 5).mapM (decodeRange 1)
             reservedRanges := ← (fs.parts 9).mapM (decodeRange 1)
             reservedNames := fs.texts 10, isEntry := options.flag 7, isSet := options.flag 1
             choices := ← decodeChoices options 12 }

/-- A remote procedure. -/
def decodeMethod (lines : Lines) (way : List Int) (bytes : List UInt8) : Option Method := do
  let fs ← Wire.read bytes
  return { name := fs.text 1, line := lines.at way, input := fs.text 2, output := fs.text 3
           clientStreaming := fs.flag 5, serverStreaming := fs.flag 6 }

/-- A service. -/
def decodeService (lines : Lines) (way : List Int) (bytes : List UInt8) : Option Service := do
  let fs ← Wire.read bytes
  return { name := fs.text 1, line := lines.at way
           methods := ← decodeEach (fs.parts 2) fun i => decodeMethod lines (way ++ [2, i]) }

/-- A file. Of several locations of one declaration the first counts. -/
def decodeFile (bytes : List UInt8) : Option File := do
  let fs ← Wire.read bytes
  let options ← Wire.read (fs.merged 8)
  let info ← Wire.read (fs.merged 9)
  let locations ← (info.parts 1).mapM decodeLocation
  let lines : Lines := locations.map fun (way, span) => (way, startLine span)
  return { name := fs.text 1, package := fs.text 2, imports := fs.texts 3
           publicImports := ← fs.ints 10
           messages := ← decodeEach (fs.parts 4) fun i =>
            decodeMessage lines (bytes.length + 1) [4, i]
           enums := ← decodeEach (fs.parts 5) fun i => decodeEnum lines [5, i]
           services := ← decodeEach (fs.parts 6) fun i => decodeService lines [6, i]
           extensions := ← decodeEach (fs.parts 7) fun i => decodeField lines [7, i]
           version := fs.text 12, edition := fs.int 14, choices := ← decodeChoices options 50
           spansFit := locations.all fun (_, span) => span.length == 3 || span.length == 4 }

/-- The stored files. -/
def decode (bytes : List UInt8) : Option (List File) := do
  if !isReadable (bytes.length + 1) (Bundled.known "FileDescriptorSet") bytes then none
  else (← Wire.read bytes).parts 1 |>.mapM decodeFile

end ProtoStub.Definition.Stored

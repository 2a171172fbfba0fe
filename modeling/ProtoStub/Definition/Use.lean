import ProtoStub.Definition.Declaration
import ProtoStub.Definition.Warning

/-!
# Rules that depend on options

Once options are known to be right, some of them restrict what they stand on: packed and lazy
fields, message sets, declared extensions, files for the small runtime. The names of fields and enum
values in other formats must not clash either; in the older version that is only worth a warning.
-/

namespace ProtoStub.Definition

open Text

/-- What is gathered about a file: warnings, and the extensions that are declared. -/
structure Gathered where
  warnings : List Warning := []
  promises : Promises := []

/-- A check that gathers on the way. -/
abbrev Survey : Type := StateT Gathered (Except Nat) Unit

/-- Gathers a warning. -/
def warn (w : Warning) : Survey := modify fun g => { g with warnings := g.warnings ++ [w] }

/-- Where a file is checked: the linked files, and the name and the version of the file. -/
structure Site where
  known : Known
  name : String
  file : File

/-- The value of the option `name` as a word. -/
def wordOf? (settings : List Setting) (name : String) : Option String :=
  (settings.find? (·.isNamed name)).bind fun s =>
    match s.value with
    | .word w => some w
    | _ => none

/-- The option `name` is set to true. -/
def isSet (settings : List Setting) (name : String) : Bool := wordOf? settings name == some "true"

/-- The file is made for the small runtime. -/
def File.isLite (f : File) : Bool := wordOf? f.settings "optimize_for" == some "LITE_RUNTIME"

/-! ## Fields -/

/-- The line of an option, or of the field. -/
def Field.optionLine (f : Field) (name : String) : Nat :=
  ((f.settings.find? (·.isNamed name)).map (·.line)).getD f.line

/-- The line of a field's label, or of the field. -/
def Field.labelLine (f : Field) : Nat := (f.label.map (·.line)).getD f.line

/-- The line of a field's type: for a group that of the keyword. -/
def Field.typeLine (f : Field) : Nat :=
  match f.shape with
  | .group line => line
  | _ => f.type.line

/-- The extension `full` has a number, a type and a label that its message allows, and its file may
extend it. -/
def Site.checkExtension (s : Site) (full : String) (f : Field) : Check := do
  match f.extendee.bind fun e => s.known.find? e.value with
  | some (⟨_, _, .message m⟩, l) =>
    if m.isSet then
      refuse (!(s.known.typeOf f).isMessage || f.isGroup) f.typeLine
      refuse f.isRepeated f.labelLine
    else refuse (f.number.value > maxNumber) f.number.line
    refuse (s.file.isLite && !l.file.isLite) f.line
    checkDeclared m.extensionRanges full f
  | _ => return

/-- Packed, lazy and number-as-text options stand on fields they are made for, and a field in which
zero is the same as absent has no enum that need not know zero. -/
def Site.checkField (s : Site) (scope : String) (f : Field) : Check := do
  let type := s.known.typeOf f
  s.checkExtension (qualified scope f.name.value) f
  if isSet f.settings "packed" then
    refuse (!f.isRepeated) f.labelLine
    match type with
    | .scalar .string | .scalar .bytes | .message _ _ => throw f.typeLine
    | _ => pure ()
  if let .enum _ true := type then
    refuse (!f.isRepeated && !f.hasPresence s.file.version false) f.type.line
  for name in ["lazy", "unverified_lazy"] do
    refuse (isSet f.settings name && (!type.isMessage || f.isGroup)) (f.optionLine name)
  let jsType := (wordOf? f.settings "jstype").getD "JS_NORMAL"
  if jsType != "JS_NORMAL" then
    match type with
    | .scalar .int64 | .scalar .uint64 | .scalar .sint64 | .scalar .fixed64 | .scalar .sfixed64 =>
      pure ()
    | _ => throw (f.optionLine "jstype")

/-! ## Names in other formats -/

/-- The name in wire form that a field sets for itself. -/
def Field.customName? (f : Field) : Option String :=
  (f.settings.find? (·.isNamed "json_name")).bind fun s =>
    match s.value with
    | .text bytes => some (textOf bytes)
    | _ => none

/-- No two fields of the message `owner` have one name in wire form. Names that fields set for
themselves count when `custom` holds, and then only clashes with one of them; otherwise the usual
names are compared. `seen` holds the fields by name, with whether they set it. -/
def Site.checkWireNames (s : Site) (owner : String) (custom : Bool) :
    List (String × Bool × Field) → List Field → Survey
  | _, [] => return
  | seen, f :: rest => do
    let own := if custom then f.customName? else none
    let name := own.getD (wireName f.name.value)
    match seen.lookup name with
    | none => s.checkWireNames owner custom ((name, own.isSome, f) :: seen) rest
    | some (byChoice, g) =>
      if custom then
        refuse (own.isSome || byChoice) f.line
      else
        refuse (s.file.version == .proto3) f.line
        warn (.sameWireName s.name f.line (qualified owner f.name.value) name g.name.value
          ⟨g.line, g.column⟩)
      s.checkWireNames owner custom seen rest

/-- `s` without the start that spells `start`, both read without underscores and in any case; all of
`s` when that would leave nothing or `s` does not start so. -/
def dropStart (s start : String) : String :=
  let rec go : List Char → List Char → Option (List Char)
    | [], _ => none
    | '_' :: cs, start => go cs start
    | c :: cs, start =>
      match start.dropWhile (· == '_') with
      | [] => some (c :: cs)
      | p :: ps => if c.toLower == p.toLower then go cs ps else none
  match go s.toList start.toList with
  | some rest => String.ofList rest
  | none => s

/-- A name in Pascal case, all other letters small. -/
def pascalName (name : String) : String :=
  let rec go (raise : Bool) : List Char → List Char
    | [] => []
    | '_' :: cs => go true cs
    | c :: cs => (if raise then c.toUpper else c.toLower) :: go false cs
  String.ofList (go true name.toList)

/-- The name of an enum value in Pascal case, without the name of its enum. -/
def plainValueName (enumName valueName : String) : String :=
  pascalName (dropStart valueName enumName)

/-- No two values with different numbers have one plain name. -/
def Site.checkPlainNames (s : Site) (e : Enum) : List (String × EnumValue) → List EnumValue → Survey
  | _, [] => return
  | seen, v :: rest => do
    let name := plainValueName e.name.value v.name.value
    match seen.lookup name with
    | some w =>
      if w.number.value != v.number.value then
        refuse (s.file.version == .proto3) v.line
        warn (.samePlainName s.name v.line (qualified e.name.value v.name.value) name w.name.value
          ⟨w.line, w.column⟩)
        s.checkPlainNames e seen rest
      else s.checkPlainNames e ((name, v) :: seen) rest
    | none => s.checkPlainNames e ((name, v) :: seen) rest

/-- The rules of an enum. -/
def Site.checkEnum (s : Site) (e : Enum) : Survey := s.checkPlainNames e [] e.values

/-! ## Messages and files -/

/-- The extensions that a message declares. -/
def gatherDeclarations (full : String) (m : Message) : Survey := do
  let promises ← checkDeclarations full (← get).promises m.extensionRanges
  modify fun g => { g with promises }

/-- The rules of messages and of all declared in them. -/
def Site.checkMessages (s : Site) (scope : String) : List Message → Survey
  | [] => return
  | m :: rest => do
    let full := qualified scope m.name.value
    s.checkWireNames m.name.value false [] m.fields
    s.checkWireNames m.name.value true [] m.fields
    gatherDeclarations full m
    m.fields.forM fun f => s.checkField full f
    s.checkMessages full m.messages
    m.enums.forM s.checkEnum
    m.extensions.forM fun f => s.checkField full f
    s.checkMessages scope rest
termination_by ms => sizeOf ms
decreasing_by
  · exact m.sizeOf_messages_lt rest
  · decreasing_tactic

/-- The rules of a file. One for the full runtime imports none for the small one. -/
def Site.checkUse (s : Site) : Survey := do
  let f := s.file
  let isLite (path : String) : Bool :=
    ((List.find? (·.path == path) s.known).map (·.file.isLite)).getD false
  if !f.isLite then
    f.imports.forM fun i => (refuse (isLite i.path) i.pathLine : Check)
  s.checkMessages f.package.value f.messages
  f.enums.forM s.checkEnum
  f.extensions.forM fun x => s.checkField f.package.value x

end ProtoStub.Definition

import ProtoStub.Definition.Reader
import ProtoStub.Text.Split

/-!
# Reading declarations

The statements of the full schema language. `read` gives the declarations of a file, or the line of
the first token that does not fit. With the declarations come the lines of the faults that single
declarations have, in the order in which they are met; a message set is checked as a whole, so that
its option counts in all of its body.
-/

namespace ProtoStub.Definition

open Text

/-- The name of a field in wire form: an underscore goes, and the letter behind it is capital. -/
def wireName (name : String) : String :=
  let rec go (raise : Bool) : List Char → List Char
    | [] => []
    | '_' :: cs => go true cs
    | c :: cs => (if raise then c.toUpper else c) :: go false cs
  String.ofList (go false name.toList)

/-- The name of the message for the entries of a map field. -/
def entryName (field : String) : String :=
  match (wireName field).toList with
  | [] => "Entry"
  | c :: cs => String.ofList (c.toUpper :: cs) ++ "Entry"

/-- The types a map may have as keys. -/
def keyTypes : List String :=
  ["int32", "int64", "uint32", "uint64", "sint32", "sint64", "fixed32", "fixed64", "sfixed32",
    "sfixed64", "bool", "string"]

/-- The largest field number. -/
def maxNumber : Int := 0x1FFFFFFF

/-- The largest number of an extension of a message set. -/
def maxSetNumber : Int := 0x7FFFFFFE

/-- The numbers that no field may have. -/
def isReservedNumber (n : Int) : Bool := 19000 ≤ n && n ≤ 19999

/-- The option `name`, which may be set once. -/
def findSetting (settings : List Setting) (name : String) : Except Nat (Option Setting) :=
  match settings.filter (·.isNamed name) with
  | [] => return none
  | [s] => return some s
  | _ :: second :: _ => throw second.line

/-- The option `name` as a truth value, and nothing when it is not set. -/
def findFlag (settings : List Setting) (name : String) : Except Nat (Option (Bool × Setting)) := do
  match ← findSetting settings name with
  | none => return none
  | some s =>
    match s.value with
    | .word "true" => return some (true, s)
    | .word "false" => return some (false, s)
    | _ => throw s.valueLine

/-- The message is a set of extensions; a fault in the option counts as none here. -/
def Message.isSet (m : Message) : Bool :=
  match findFlag m.settings "message_set_wire_format" with
  | .ok (some (b, _)) => b
  | _ => false

/-! ## Faults of numbers -/

/-- The faults of a number from `least` to `largest`, where `usual` is the largest one outside
message sets. -/
def boundNotes (least usual largest : Int) (n : At Int) : List Note :=
  if n.value < least || n.value > largest then [.fault n.line]
  else if n.value > usual then [.large n.line]
  else []

/-- The faults of the number of a field. An extension does not know yet what it extends. -/
def numberNotes (isExtension : Bool) (n : At Int) : List Note :=
  if isReservedNumber n.value then [.fault n.line]
  else boundNotes 1 (if isExtension then maxSetNumber else maxNumber) maxSetNumber n

/-- The faults of a range; `last` is nothing when it is a single number or open. -/
def rangeNotes (least usual largest : Int) (first : At Int) (last : Option (At Int)) : List Note :=
  let fits (n : At Int) : Bool := least ≤ n.value && n.value ≤ largest
  boundNotes least usual largest first ++
    match last with
    | none => []
    | some last =>
      boundNotes least usual largest last ++
        (if fits first && fits last && first.value > last.value then [.fault first.line] else [])

/-- The faults of a message that is a set: it belongs to the older version, has no fields and some
extension range. The first list comes before the faults of its declarations. -/
def setNotes (version : Version) (m : Message) : List Note × List Note :=
  match findFlag m.settings "message_set_wire_format" with
  | .error line => ([.fault line], [])
  | .ok (some (true, s)) =>
    (if version == .proto3 then [.fault s.start] else [],
      (m.fields.take 1).map (.fault ·.line) ++
        (if m.extensionRanges.isEmpty then [.fault s.start] else []))
  | .ok _ => ([], [])

/-- The faults of names that were reserved before. -/
def repeatNotes (before : List (At String)) : List (At String) → List Note
  | [] => []
  | n :: rest =>
    (if before.any (·.value == n.value) then [.fault n.line] else []) ++
      repeatNotes (n :: before) rest

/-! ## Choices of one field -/

/-- A name like `base` that is not used yet, with as many letters in front as it takes. -/
def freshName (used : List String) : Nat → String → String
  | 0, base => base
  | fuel + 1, base => if used.contains base then freshName used fuel ("X" ++ base) else base

/-- The message with a choice of its own for every field that is optional by its label, which the
newer version reads as a choice of one field. -/
def Message.withChoices (m : Message) : Message :=
  let names := m.fields.map (·.name.value) ++ m.oneofs.map (·.name.value) ++
    m.extensions.map (·.name.value) ++ m.messages.map (·.name.value) ++
    m.enums.flatMap fun e => e.name.value :: e.values.map (·.name.value)
  let step (acc : List Field × List Oneof) (f : Field) : List Field × List Oneof :=
    if f.label.map (·.value) == some .optional then
      let used := names ++ acc.2.map (·.name.value)
      let plain := if startsWith f.name.value "_" then f.name.value else "_" ++ f.name.value
      let name := freshName used (used.length + 1) plain
      (acc.1 ++ [{ f with oneof := some acc.2.length }],
        acc.2 ++ [{ name := ⟨name, f.name.line⟩, line := f.line }])
    else (acc.1 ++ [f], acc.2)
  let (fields, oneofs) := m.fields.foldl step ([], m.oneofs)
  { m with fields, oneofs }

namespace Reader

/-! ## Fields -/

/-- The label a word stands for. -/
def labelOf? (word : String) : Option Label :=
  match word with
  | "optional" => some .optional
  | "required" => some .required
  | "repeated" => some .repeated
  | _ => none

/-- Takes a label, if one comes next. -/
def label? : Reader (Option (At Label)) := do
  let t ← next
  match t.lexeme with
  | .name s =>
    match labelOf? s with
    | some l =>
      skip
      return some ⟨l, t.line⟩
    | none => return none
  | _ => return none

/-- Takes the name and the number of a field that starts on the line `line`. The number can be left
out, which is for the rules to tell. -/
def numbered (line : Nat) (isExtension : Bool) : Reader (At String × At Int) := do
  let n ← name
  if ← accept '=' then
    let number ← natural
    let number : At Int := ⟨number.value, number.line⟩
    noteAll (numberNotes isExtension number)
    return (n, number)
  return (n, ⟨0, line⟩)

/-- Takes a field of a plain type behind its label. -/
def plainField (start : Token) (label : Option (At Label)) (isExtension : Bool := false) :
    Reader Field := do
  let type ← typeName
  let (name, number) ← numbered start.line isExtension
  let settings ← settings
  mark ';'
  return { name, line := start.line, column := start.column, label, type, number, settings }

/-- Takes a map field: the field and the message for its entries. -/
def mapField : Reader (Field × Message) := do
  let start ← next
  let line := start.line
  keyword "map"
  mark '<'
  let key ← next
  let keyType ← name
  if !keyTypes.contains keyType.value then throw key.line
  mark ','
  let type ← typeName
  mark '>'
  let (name, number) ← numbered line false
  let settings ← settings
  mark ';'
  let member (s : String) (n : Int) (t : At String) : Field :=
    { name := ⟨s, name.line⟩, line, column := start.column, label := some ⟨.optional, line⟩
      type := t, number := ⟨n, number.line⟩ }
  let entry : Message :=
    { name := ⟨entryName name.value, name.line⟩, line, origin := .mapEntry
      fields := [member "key" 1 keyType, member "value" 2 type] }
  return ({ name, line, column := start.column, label := some ⟨.repeated, line⟩
            type := ⟨entryName name.value, line⟩, shape := .map, number, settings }, entry)

/-- Reads the body of a message. The line is the one to report when it stands too deep. -/
abbrev Inside : Type := Nat → Message → Reader Message

/-- Takes a group behind its label, with its body read by `inside`. -/
def group (inside : Inside) (start : Token) (label : Option (At Label))
    (isExtension : Bool := false) : Reader (Field × Message) := do
  let line := start.line
  let keywordLine := (← next).line
  keyword "group"
  let (name, number) ← numbered line isExtension
  let settings ← settings
  note (!((name.value.toList.head?.map Char.isUpper).getD false)) name.line
  let message ← inside keywordLine { name, line, origin := .group }
  return ({ name := ⟨String.ofList (name.value.toList.map Char.toLower), name.line⟩, line
            column := start.column, label, type := name, shape := .group keywordLine
            number, settings },
    message)

/-! ## Ranges and reserved names -/

/-- The numbers that ranges are made of: how one is written, and which there are. -/
structure Numbers where
  number : Reader (At Int)
  least : Int
  /-- The largest number outside message sets. -/
  usual : Int
  largest : Int

/-- Field numbers. -/
def fieldNumbers : Numbers where
  number := do
    let n ← natural
    return ⟨n.value, n.line⟩
  least := 1
  usual := maxNumber
  largest := maxSetNumber

/-- The numbers of enum values. -/
def valueNumbers : Numbers := ⟨integer, -0x80000000, 0x7FFFFFFF, 0x7FFFFFFF⟩

/-- Takes a range of numbers that ends at a number or at `max`. -/
def range (n : Numbers) : Reader Range := do
  let first ← n.number
  if ← acceptWord "to" then
    if ← acceptWord "max" then
      noteAll (rangeNotes n.least n.usual n.largest first none)
      return { first := first.value, last := n.usual, line := first.line, isOpen := true }
    let last ← n.number
    noteAll (rangeNotes n.least n.usual n.largest first (some last))
    return { first := first.value, last := last.value, line := first.line }
  noteAll (rangeNotes n.least n.usual n.largest first none)
  return { first := first.value, last := first.value, line := first.line }

/-- Takes a reserved statement behind its keyword: ranges, or names. Names have to be strings; a
bare word is a fault. `before` holds the names that are reserved already. -/
def reserved (n : Numbers) (before : List (At String)) :
    Reader (List Range × List (At String)) := do
  match (← next).lexeme with
  | .text _ =>
    let names ← commaList text (← remaining)
    mark ';'
    let names := names.map fun n => ⟨textOf n.value, n.line⟩
    noteAll (repeatNotes before names)
    return ([], names)
  | .name _ =>
    let names ← commaList name (← remaining)
    mark ';'
    noteAll ((names.take 1).map (.fault ·.line))
    return ([], [])
  | _ =>
    let ranges ← commaList (range n) (← remaining)
    mark ';'
    return (ranges, [])

/-! ## Enums -/

/-- Takes a statement of an enum. -/
def enumElement (e : Enum) : Reader Enum := do
  let start ← next
  if ← accept ';' then return e
  else if ← acceptWord "option" then
    let s ← optionStatement start.line
    return { e with settings := e.settings ++ [s] }
  else if ← acceptWord "reserved" then
    let (ranges, names) ← reserved valueNumbers e.reservedNames
    return { e with
      reservedRanges := e.reservedRanges ++ ranges, reservedNames := e.reservedNames ++ names }
  else
    let name ← name
    mark '='
    let number ← integer
    noteAll (boundNotes (-0x80000000) 0x7FFFFFFF 0x7FFFFFFF number)
    let settings ← settings
    mark ';'
    let v : EnumValue := { name, line := name.line, column := start.column, number, settings }
    return { e with values := e.values ++ [v] }

/-- Takes an enum. -/
def enum : Reader Enum := do
  let line := (← next).line
  keyword "enum"
  body enumElement { name := ← name, line }

/-! ## Choices and extensions -/

/-- Takes a statement of a choice; the fields go to the message. -/
def oneofElement (inside : Inside) (index : Nat) (acc : Oneof × Message) :
    Reader (Oneof × Message) := do
  let (o, m) := acc
  let start ← next
  if ← acceptWord "option" then
    let s ← optionStatement start.line
    return ({ o with settings := o.settings ++ [s] }, m)
  else if (← label?).isSome then throw start.line
  else if ← seesWord "group" then
    let (f, g) ← group inside start none
    return (o, { m with
      fields := m.fields ++ [{ f with oneof := some index }], messages := m.messages ++ [g] })
  else
    let f ← plainField start none
    return (o, { m with fields := m.fields ++ [{ f with oneof := some index }] })

/-- Takes a choice between fields. One without fields is a fault. -/
def oneof (inside : Inside) (m : Message) : Reader Message := do
  let line := (← next).line
  keyword "oneof"
  let name ← name
  let (o, m') ← body (oneofElement inside m.oneofs.length) ({ name, line }, m)
  note (m'.fields.length == m.fields.length) line
  return { m' with oneofs := m'.oneofs ++ [o] }

/-- Takes an extension; a group brings a message along. -/
def extension (inside : Inside) (extendee : At String) (acc : List Field × List Message) :
    Reader (List Field × List Message) := do
  let start ← next
  let label ← label?
  if label.isSome && (← seesWord "group") then
    let (f, g) ← group inside start label true
    return (acc.1 ++ [{ f with extendee := some extendee }], acc.2 ++ [g])
  let f ← plainField start label true
  return (acc.1 ++ [{ f with extendee := some extendee }], acc.2)

/-- Takes the extensions of a type. No extension at all is a fault. -/
def extend (inside : Inside) : Reader (List Field × List Message) := do
  let line := (← next).line
  keyword "extend"
  let extendee ← typeName
  let found ← body (extension inside extendee) ([], [])
  note found.1.isEmpty line
  return found

/-! ## Messages -/

/-- The depth from which on nested messages are a fault. -/
def maxDepth : Nat := 32

/-- Takes a statement of a message. `inside` reads the body of a nested one, which stands `depth`
levels deep. -/
def messageElement (inside : Inside) (depth : Nat) (m : Message) : Reader Message := do
  let t ← next
  let word := match t.lexeme with
    | .name s => s
    | _ => ""
  match word with
  | "message" =>
    skip
    let nested ← inside t.line { name := ← name, line := t.line }
    return { m with messages := m.messages ++ [nested] }
  | "enum" => return { m with enums := m.enums ++ [← enum] }
  | "oneof" => oneof inside m
  | "extend" =>
    let (fields, messages) ← extend inside
    return { m with extensions := m.extensions ++ fields, messages := m.messages ++ messages }
  | "option" =>
    skip
    return { m with settings := m.settings ++ [← optionStatement t.line] }
  | "reserved" =>
    skip
    let (ranges, names) ← reserved fieldNumbers m.reservedNames
    return { m with
      reservedRanges := m.reservedRanges ++ ranges, reservedNames := m.reservedNames ++ names }
  | "extensions" =>
    skip
    let ranges ← commaList (range fieldNumbers) (← remaining)
    let settings ← settings
    mark ';'
    return { m with
      extensionRanges := m.extensionRanges ++ ranges.map fun r => { r with settings } }
  | _ =>
    if ← accept ';' then return m
    else if (word == "map") && (← ahead 1).lexeme == .mark '<' then
      let (f, entry) ← mapField
      note (depth ≥ maxDepth) f.line
      return { m with fields := m.fields ++ [f], messages := m.messages ++ [entry] }
    else
      let label ← label?
      if label.isSome && (← seesWord "group") then
        let (f, g) ← group inside t label
        return { m with fields := m.fields ++ [f], messages := m.messages ++ [g] }
      let f ← plainField t label
      return { m with fields := m.fields ++ [f] }

/-- The range, whose end is the largest number of a message set if it is open. -/
def openRange (r : Range) : Range := if r.isOpen then { r with last := maxSetNumber } else r

/-- Takes the body of a message that stands `depth` levels deep. Large numbers are faults unless the
message turns out to be a set. -/
def messageBody (version : Version) : Nat → Nat → Inside
  | 0, _, _, _ => stop
  | fuel + 1, depth, line, m => do
    note (depth ≥ maxDepth) line
    let inside := messageBody version fuel (depth + 1)
    let (m, notes) ← collect (body (messageElement inside (depth + 1)) m)
    let (early, late) := setNotes version m
    let notes := if m.isSet then notes.filter fun n => n == .fault n.line else notes
    noteAll (early ++ notes.map (fun n => .fault n.line) ++ late)
    let m := if version == .proto3 then m.withChoices else m
    if m.isSet then
      return { m with reservedRanges := m.reservedRanges.map openRange
                      extensionRanges := m.extensionRanges.map openRange }
    return m

/-! ## Services -/

/-- Takes the type of a request or a response: whether it is a stream, and the type. A type that is
no stream and has no leading dot does not use the word. -/
def methodType : Reader (Bool × At String) := do
  mark '('
  if ← acceptWord "stream" then
    let type ← typeName
    mark ')'
    return (true, type)
  let line := (← next).line
  let type ← typeName
  if (split '.' type.value).contains "stream" && !startsWith type.value "." then throw line
  mark ')'
  return (false, type)

/-- Takes a statement in the body of a procedure. -/
def methodElement (settings : List Setting) : Reader (List Setting) := do
  if ← accept ';' then return settings
  let start := (← next).line
  keyword "option"
  return settings ++ [← optionStatement start]

/-- Takes a procedure. -/
def method : Reader Method := do
  let line := (← next).line
  keyword "rpc"
  let name ← name
  let (clientStreaming, input) ← methodType
  keyword "returns"
  let (serverStreaming, output) ← methodType
  let m : Method := { name, line, input, output, clientStreaming, serverStreaming }
  if ← accept ';' then return m
  return { m with settings := ← body methodElement [] }

/-- Takes a statement of a service. -/
def serviceElement (s : Service) : Reader Service := do
  let start := (← next).line
  if ← accept ';' then return s
  else if ← acceptWord "option" then
    return { s with settings := s.settings ++ [← optionStatement start] }
  else return { s with methods := s.methods ++ [← method] }

/-- Takes a service. -/
def service : Reader Service := do
  let line := (← next).line
  keyword "service"
  body serviceElement { name := ← name, line }

/-- Takes an import behind its keyword. -/
def importStatement (line : Nat) : Reader Import := do
  let isPublic ← acceptWord "public"
  if !isPublic then
    let _ ← acceptWord "weak"
  let path ← text
  mark ';'
  return ⟨textOf path.value, isPublic, line, path.line⟩

/-! ## Files -/

/-- The longest package name is one character shorter. -/
def packageLimit : Nat := 512

/-- The most dots of a package name. -/
def packageDots : Nat := 100

/-- Takes the package behind its keyword. A second one and one that is too long are faults. -/
def package (line : Nat) (f : File) : Reader File := do
  let name ← dotted
  mark ';'
  note (f.package.value != "") line
  note (name.value.length ≥ packageLimit || name.value.toList.count '.' > packageDots) name.line
  return { f with package := name }

/-- Takes a statement of a file. -/
def fileElement (f : File) : Reader File := do
  let t ← next
  let inside (line : Nat) (m : Message) : Reader Message := do
    messageBody f.version (← remaining) 1 line m
  match t.lexeme with
  | .name "import" =>
    skip
    return { f with imports := f.imports ++ [← importStatement t.line] }
  | .name "package" =>
    skip
    package t.line f
  | .name "option" =>
    skip
    return { f with settings := f.settings ++ [← optionStatement t.line] }
  | .name "message" =>
    skip
    let m ← inside t.line { name := ← name, line := t.line }
    return { f with messages := f.messages ++ [m] }
  | .name "enum" => return { f with enums := f.enums ++ [← enum] }
  | .name "extend" =>
    let (fields, messages) ← extend inside
    return { f with extensions := f.extensions ++ fields, messages := f.messages ++ messages }
  | .name "service" => return { f with services := f.services ++ [← service] }
  | _ => stop

/-- Takes empty statements. -/
def semicolons : Nat → Reader Unit
  | 0 => return
  | fuel + 1 => do
    if ← accept ';' then semicolons fuel

/-- Takes statements of a file, each with the empty ones behind it, up to its end. -/
def fileElements : Nat → File → Reader File
  | 0, _ => stop
  | fuel + 1, f => do
    if (← next).lexeme == .finish then return f
    let f ← fileElement f
    semicolons (← remaining)
    fileElements fuel f

/-- Takes the statements of a file up to its end. Empty ones in front need one that is not empty. -/
def fileBody (f : File) : Reader File := do
  if ← sees ';' then
    semicolons (← remaining)
    let f ← fileElement f
    semicolons (← remaining)
    fileElements ((← remaining) + 1) f
  else fileElements ((← remaining) + 1) f

/-- Takes the statement that names the version, if the file starts with it. Only two versions are
known; editions are not. -/
def version : Reader File := do
  let t ← next
  let named ← acceptWord "syntax"
  if named || (← acceptWord "edition") then
    mark '='
    let value ← text
    mark ';'
    match named, textOf value.value with
    | true, "proto3" => return { version := .proto3, line := t.line }
    | true, "proto2" => return { version := .proto2, line := t.line }
    | _, _ =>
      note true value.line
      return { version := .proto3, line := t.line }
  return { isUnversioned := true, line := t.line }

/-- Takes a whole file. -/
def file : Reader File := do fileBody (← version)

end Reader

/-- The declarations of a file and the lines of the faults noted on the way, in their order; or the
line where the reading stopped. -/
def read (source : List Glyph) : Except Nat (File × List Nat) := do
  let (f, c) ← Reader.file.run { tokens := tokenize source }
  return (f, c.notes.map (·.line))

/-- The imports in the content of a file; none when it cannot be read. -/
def importsOf (content : List UInt8) : List Import :=
  match read (glyphs content) with
  | .ok (f, _) => f.imports
  | .error _ => []

end ProtoStub.Definition

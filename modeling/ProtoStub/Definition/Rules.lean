import ProtoStub.Definition.Grammar

/-!
# Rules that one file can be checked for

Rules about numbers, ranges, labels and reserved names need no other file. `define` reads a file and
checks them. The faults that were noted while reading come first; then the declarations are checked
one after another, each in front of what is declared in it, and the first fault stops.
-/

namespace ProtoStub.Definition

open Text

/-- A check: passes, or stops with a line. -/
abbrev Check : Type := Except Nat Unit

/-- Stops with `line` when `bad` holds. -/
def refuse (bad : Bool) (line : Nat) : Check := if bad then throw line else return

/-! ## Ranges and names -/

/-- Ranges in the order of their starts. -/
def sorted (ranges : List Range) : List Range :=
  ranges.mergeSort fun a b => a.first < b.first || (a.first == b.first && a.last ≤ b.last)

/-- No two neighbours of sorted ranges overlap. -/
def checkOverlap : List Range → Check
  | a :: b :: rest => do
    refuse (b.first ≤ a.last) b.line
    checkOverlap (b :: rest)
  | _ => return

/-- No reserved range meets an extension range, both sorted. -/
def checkDisjoint : Nat → List Range → List Range → Check
  | fuel + 1, r :: rs, e :: es => do
    let inside (a b : Range) : Bool := b.first ≤ a.first && a.first ≤ b.last
    refuse (inside r e) r.line
    refuse (inside e r) e.line
    if r.first < e.first then checkDisjoint fuel rs (e :: es) else checkDisjoint fuel (r :: rs) es
  | _, _, _ => return

/-- A number is in one of the ranges. -/
def inRanges (ranges : List Range) (n : Int) : Bool := ranges.any fun r => r.first ≤ n && n ≤ r.last

/-- The text is a name. -/
def isName (s : String) : Bool :=
  match s.toList with
  | [] => false
  | c :: cs => startsName c && cs.all continuesName

/-- Reserved names have to be names. -/
def checkReservedNames (names : List (At String)) : Check :=
  names.forM fun n => refuse (!isName n.value) n.line

/-- Options that only later versions of the language know are not used. -/
def checkFeatures (settings : List Setting) : Check :=
  let isFeature (s : Setting) : Bool :=
    (s.name.head?.map fun p => !p.isExtension && p.name == "features").getD false
  match settings.find? isFeature with
  | some s => throw s.line
  | none => return

/-! ## Declarations -/

/-- The fields use neither a reserved name, a number twice, nor a number of a range. -/
def checkFields (reservedNames : List String) (ranges : List Range) : List Int → List Field → Check
  | _, [] => return
  | used, f :: rest => do
    refuse (reservedNames.contains f.name.value) f.name.line
    refuse (used.contains f.number.value) f.number.line
    refuse (inRanges ranges f.number.value) f.number.line
    checkFields reservedNames ranges (f.number.value :: used) rest

/-- The rules of one message. -/
def Message.check (version : Version) (m : Message) : Check := do
  if version == .proto3 then
    if let some r := m.extensionRanges.head? then throw r.line
  match ← findFlag m.settings "map_entry" with
  | some (true, s) => throw s.valueLine
  | _ => pure ()
  checkFeatures m.settings
  let reserved := sorted m.reservedRanges
  let extensions := sorted m.extensionRanges
  checkOverlap reserved
  m.extensionRanges.forM fun r => checkFeatures r.settings
  checkOverlap extensions
  checkDisjoint (reserved.length + extensions.length) reserved extensions
  checkReservedNames m.reservedNames
  checkFields (m.reservedNames.map (·.value)) (reserved ++ extensions) [] m.fields

/-- The rules of one field or extension. -/
def Field.check (version : Version) (f : Field) : Check := do
  refuse (f.number.value == 0) f.line
  match version with
  | .proto3 =>
    match f.shape, f.label with
    | .group line, _ => throw line
    | _, some ⟨.required, line⟩ => throw line
    | _, _ => pure ()
    if let some s ← findSetting f.settings "default" then throw s.line
  | .proto2 =>
    refuse (f.label.isNone && f.oneof.isNone) f.name.line
    match f.extendee, f.label with
    | some _, some ⟨.required, line⟩ => throw line
    | _, _ => pure ()
  checkFeatures f.settings

/-- No two values share a number, unless the option allows it; tells whether some do. -/
def checkAliases (allowed : Bool) : List Int → List EnumValue → Except Nat Bool
  | _, [] => return false
  | used, v :: rest => do
    let again := used.contains v.number.value
    refuse (again && !allowed) v.number.line
    return (← checkAliases allowed (v.number.value :: used) rest) || again

/-- The rules of one enum; those of its values come after all others. -/
def Enum.check (version : Version) (e : Enum) : Check := do
  refuse e.values.isEmpty e.line
  checkFeatures e.settings
  let flag ← findFlag e.settings "allow_alias"
  if version == .proto3 then
    if let some v := e.values.head? then refuse (v.number.value != 0) v.number.line
  let allowed := (flag.map (·.1)).getD false
  let aliased ← checkAliases allowed [] e.values
  if let some (true, s) := flag then refuse (!aliased) s.valueLine
  checkOverlap (sorted e.reservedRanges)
  checkReservedNames e.reservedNames
  for v in e.values do
    refuse (e.reservedNames.any (·.value == v.name.value)) v.name.line
    refuse (inRanges e.reservedRanges v.number.value) v.number.line
  e.values.forM fun v => checkFeatures v.settings

/-- The rules of messages, each with all that is declared in it. -/
def checkMessages (version : Version) : List Message → Check
  | [] => return
  | m :: rest => do
    m.check version
    m.fields.forM (·.check version)
    m.oneofs.forM fun o => checkFeatures o.settings
    checkMessages version m.messages
    m.enums.forM (·.check version)
    m.extensions.forM (·.check version)
    checkMessages version rest
termination_by ms => sizeOf ms
decreasing_by
  · exact m.sizeOf_messages_lt rest
  · decreasing_tactic

/-- No file is imported twice. -/
def checkImports : List String → List Import → Check
  | _, [] => return
  | seen, i :: rest => do
    refuse (seen.contains i.path) i.line
    checkImports (i.path :: seen) rest

/-- The rules of one file. -/
def File.check (f : File) : Check := do
  checkImports [] f.imports
  checkFeatures f.settings
  checkMessages f.version f.messages
  f.enums.forM (·.check f.version)
  f.extensions.forM (·.check f.version)
  f.services.forM fun s => do
    checkFeatures s.settings
    s.methods.forM fun m => checkFeatures m.settings

/-- The declarations of a file that keeps the rules, or the line of its first fault. -/
def define (source : List Glyph) : Except Nat File := do
  let (f, noted) ← read source
  if let some line := noted.head? then throw line
  f.check
  return f

end ProtoStub.Definition

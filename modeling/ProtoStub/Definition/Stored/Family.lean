import ProtoStub.Definition.Stored.Rules

/-!
# Stored files together

Stored files know nothing that is not stored with them: a file can be used if all it imports are
there and can be used, none of them in a circle, and if its names are not those of other files.
`link` gives the descriptors of the files.
-/

namespace ProtoStub.Definition.Stored

open Text

/-! ## Descriptors -/

/-- The descriptor of a field. -/
def Site.describeField? (s : Site) (p : Place) (f : Field) : Option Descriptor.Field := do
  let u ← s.use? p f
  let mapValue := match u.kind, s.entry? u.kind with
    | .message name, some (m, features) =>
      (m.fields.find? (·.number == 2)).bind (s.kind? ⟨name, true, features⟩)
    | _, _ => none
  return { name := f.name, line := f.line, number := f.number
           repeated := u.occurs == some .repeated
           kind := u.kind, mapValue }

/-- The descriptor of an enum. -/
def Enum.describe (e : Enum) : Descriptor.Enum :=
  ⟨e.name, e.line, e.values.map fun v => (v.name, v.number.getD 0)⟩

/-- The descriptors of messages. -/
def Site.describeMessages (s : Site) (scope : String) (features : Features) :
    List Message → List Descriptor.Message
  | [] => []
  | m :: rest =>
    let own := features.with m.choices
    let inner := qualified scope m.name
    { name := m.name, line := m.line, isMapEntry := m.isEntry
      fields := m.fields.filterMap (s.describeField? ⟨inner, m.isEntry, own⟩)
      messages := s.describeMessages inner own m.messages
      enums := m.enums.map (·.describe) } :: s.describeMessages scope features rest
termination_by ms => sizeOf ms
decreasing_by
  · exact m.sizeOf_messages_lt rest
  · decreasing_tactic

/-- The descriptor of a service. -/
def Site.describeService (s : Site) (scope : String) (service : Service) : Descriptor.Service :=
  let full (ref : String) : String := (s.messageName? (qualified scope service.name) ref).getD ""
  ⟨service.name, service.line, service.methods.map fun m =>
    ⟨m.name, m.line, full m.input, full m.output, m.clientStreaming, m.serverStreaming⟩⟩

/-- The descriptor of a file. -/
def Site.describe (s : Site) : Descriptor.File :=
  let f := s.self.file
  { path := f.name, package := f.package
    imports := f.imports.zipIdx.map fun (path, i) => ⟨path, f.publicImports.contains (i : Int)⟩
    messages := s.describeMessages f.package s.self.features f.messages
    enums := f.enums.map (·.describe)
    services := f.services.map (s.describeService f.package) }

/-! ## Linking -/

/-- A linked file, with the files it passes on to those that import it, itself first. -/
structure Member where
  passedOn : List Indexed
  site : Site

/-- The path of a linked file. -/
def Member.path (m : Member) : String := m.site.self.file.name

/-- The files that a file sees through the imports at the positions that `p` selects. -/
def passedBy (linked : List Member) (f : File) (p : Int → Bool) : List Indexed :=
  (f.imports.zipIdx.filter fun (_, i) => p i).flatMap fun (path, _) =>
    ((linked.find? (·.path == path)).map (·.passedOn)).getD []

/-- No file declares a name that is a name or a package of the other. -/
def areCompatible (a b : Indexed) : Bool :=
  let takes (u : Indexed) (name : String) : Bool := u.symbols.any (·.name == name)
  !(a.symbols.any fun s => takes b s.name) && !(enclosing a.file.package).any (takes b) &&
    !(enclosing b.file.package).any (takes a)

/-- A file among those it imports. -/
def linkOne (linked : List Member) (f : File) : Option Member := do
  let self ← f.indexed?
  let site : Site := ⟨self, passedBy linked f fun _ => true⟩
  if site.fits && linked.all fun m => areCompatible self m.site.self then
    return ⟨self :: passedBy linked f f.publicImports.contains, site⟩
  else none

/-- Links files one after another, always the first whose imports are all linked; `pending`
waits. -/
def linkReady : (fuel : Nat) → (pending : List File) → List Member → Option (List Member)
  | _, [], linked => some linked
  | 0, _, _ => none
  | fuel + 1, pending, linked => do
    let i ← pending.findIdx? fun f => f.imports.all fun path => linked.any (·.path == path)
    let f ← pending[i]?
    linkReady fuel (pending.eraseIdx i) (linked ++ [← linkOne linked f])

/-- The descriptors of stored files; nothing when they do not fit together. -/
def link (files : List File) : Option (List Descriptor.File) := do
  if !isDistinct (files.map (·.name)) then none
  else return (← linkReady files.length files []).map (·.site.describe)

end ProtoStub.Definition.Stored

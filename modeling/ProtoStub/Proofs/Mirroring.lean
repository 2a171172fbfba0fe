import ProtoStub.Descriptor.Walk
import ProtoStub.Proofs.Respelling

/-!
# What descriptors say about files

A compiler describes a file by what it declares, in the same order and under the same names, with
every reference replaced by the full name it is linked to and with a message for the entries of
every map. `File.Mirrors` states this of a file as it was read; which full names a reference may be
linked to is a parameter. In the other direction a descriptor is turned into a file again. The two
come to the same file apart from lines, with types spelled as they are linked
(`File.Mirrors.exists_respelling`).
-/

namespace ProtoStub.Schema

/-- How a type that is written as `ref` is spelled once it is linked: the scalar type of a field as
it is, and any other type by a dot and the full name that `L` links it to. -/
inductive Spelled (L : String → String → Prop) : TypeUse → String → String → Prop
  | scalar {ref : String} {w : Scalar} (hw : Scalar.ofWord? ref = some w) : Spelled L .field ref ref
  | field {ref name : String} (hw : Scalar.ofWord? ref = none) (hl : L ref name) :
    Spelled L .field ref ("." ++ name)
  | procedure {ref name : String} (hl : L ref name) : Spelled L .procedure ref ("." ++ name)

end ProtoStub.Schema

namespace ProtoStub.Descriptor

open Program (joinScope mapM_eq_ok_iff)
open Schema (Spelled TypeUse)

/-! ## The relation -/

/-- The type of a field that is written as `ref`: the scalar of that name, or the message or enum
that `L` links it to. -/
inductive Kind.Mirrors (L : String → String → Prop) (ref : String) : Kind → Prop
  | scalar {w : Scalar} (hw : Scalar.ofWord? ref = some w) : Mirrors L ref (.scalar w)
  | message {name : String} (hw : Scalar.ofWord? ref = none) (hl : L ref name) :
    Mirrors L ref (.message name)
  | enum {name : String} (hw : Scalar.ofWord? ref = none) (hl : L ref name) :
    Mirrors L ref (.enum name)

/-- The type and the label of a field. A map field has no label of its own. -/
inductive Field.MirrorsType (L : String → String → Prop) (f : Schema.Field) (d : Field) : Prop
  | plain (hmap : f.isMap = false) (hvalue : d.mapValue = none) (hlabel : d.repeated = f.repeated)
    (hkind : d.kind.Mirrors L f.type)
  | map (hmap : f.isMap = true) (hlabel : f.repeated = false) {value : Kind}
    (hvalue : d.mapValue = some value) (hkind : value.Mirrors L f.type)

/-- The descriptor of a field. -/
structure Field.Mirrors (L : String → String → Prop) (f : Schema.Field) (d : Field) : Prop where
  name : d.name = f.name
  number : d.number = f.number
  type : Field.MirrorsType L f d

/-- The descriptor of an enum. -/
structure Enum.Mirrors (e : Schema.Enum) (d : Enum) : Prop where
  name : d.name = e.name
  values : d.values = e.values.map fun v => (v.name, v.number)

/-- The descriptors of the messages in the scope `scope`, with messages for entries of maps anywhere
between them. -/
inductive Message.AllMirror (L : String → String → String → Prop) :
    String → List Schema.Message → List Message → Prop
  | nil {scope : String} : AllMirror L scope [] []
  | entry {scope : String} {ms : List Schema.Message} {d : Message} {ds : List Message}
    (hentry : d.isMapEntry = true) (hrest : AllMirror L scope ms ds) :
    AllMirror L scope ms (d :: ds)
  | cons {scope : String} {m : Schema.Message} {ms : List Schema.Message} {d : Message}
    {ds : List Message} (hentry : d.isMapEntry = false) (hname : d.name = m.name)
    (hfields : List.Forall₂ (Field.Mirrors (L (joinScope scope m.name))) m.fields d.fields)
    (henums : List.Forall₂ Enum.Mirrors m.enums d.enums)
    (hnested : AllMirror L (joinScope scope m.name) m.messages d.messages)
    (hrest : AllMirror L scope ms ds) : AllMirror L scope (m :: ms) (d :: ds)

/-- The descriptor of a procedure. -/
structure Method.Mirrors (L : String → String → Prop) (m : Schema.Method) (d : Method) : Prop where
  name : d.name = m.name
  input : L m.input d.input
  output : L m.output d.output
  clientStreaming : d.clientStreaming = m.clientStreaming
  serverStreaming : d.serverStreaming = m.serverStreaming

/-- The descriptor of a service. -/
structure Service.Mirrors (L : String → String → Prop) (s : Schema.Service) (d : Service) :
    Prop where
  name : d.name = s.name
  methods : List.Forall₂ (Method.Mirrors L) s.methods d.methods

/-- An import as the compiler describes it, by name only. -/
def Import.ofSchema (imp : Schema.Import) : Import := ⟨imp.path, imp.isPublic⟩

/-- The descriptor of a file, under whatever name. -/
structure File.Mirrors (L : String → String → String → Prop) (f : Schema.File) (d : File) :
    Prop where
  package : d.package = f.package
  imports : d.imports = f.imports.map Import.ofSchema
  messages : Message.AllMirror L f.package f.messages d.messages
  enums : List.Forall₂ Enum.Mirrors f.enums d.enums
  services : List.Forall₂ (Service.Mirrors (L f.package)) f.services d.services

/-! ## Files from their descriptors -/

section
variable {L : String → String → Prop}

/-- A scalar is spelled by the word that names it. -/
theorem Kind.text_scalar {ref : String} {w : Scalar} (hw : Scalar.ofWord? ref = some w) :
    (Kind.scalar w).text = ref := by
  have hwords : ∀ x ∈ Scalar.words, (Kind.scalar x.2).text = x.1 := by decide
  obtain ⟨before, after, heq, -⟩ := List.lookup_eq_some_iff.1 hw
  exact hwords (ref, w) (by simp [heq])

/-- The type is spelled as a scalar, or as the full name it is linked to. -/
theorem Kind.Mirrors.spelled {ref : String} {kind : Kind} (h : kind.Mirrors L ref) :
    Spelled L .field ref kind.text := by
  cases h with
  | scalar hw =>
    rw [Kind.text_scalar hw]
    exact .scalar hw
  | message hw hl => exact .field hw hl
  | enum hw hl => exact .field hw hl

/-- The field of a descriptor is turned into one of the file, with its type respelled. -/
theorem Field.Mirrors.exists_toSchema {f : Schema.Field} {d : Field} (h : d.Mirrors L f)
    (file owner : String) :
    ∃ f', d.toSchema file owner = .ok f' ∧ f.Respells (Spelled L .field) f' := by
  cases h.type with
  | plain hmap hvalue hlabel hkind =>
    refine ⟨⟨d.name, d.line, d.number, d.repeated, false, d.kind.text⟩, ?_, h.name, h.number,
      hlabel, hmap.symm, hkind.spelled⟩
    obtain ⟨name, line, number, repeated, kind, mapValue⟩ := d
    rw [Field.toSchema, hvalue]
    cases hkind <;> rfl
  | @map hmap hlabel value hvalue hkind =>
    refine ⟨⟨d.name, d.line, d.number, false, true, value.text⟩, ?_, h.name, h.number,
      hlabel.symm, hmap.symm, hkind.spelled⟩
    rw [Field.toSchema, hvalue]

theorem Enum.Mirrors.respells {e : Schema.Enum} {d : Enum} (h : d.Mirrors e) :
    e.Respells d.toSchema := by
  refine ⟨h.name, ?_⟩
  rw [Enum.toSchema, h.values]
  simp [Function.comp_def]

theorem Enum.respells_map {es : List Schema.Enum} {ds : List Enum}
    (h : List.Forall₂ Enum.Mirrors es ds) :
    List.Forall₂ Schema.Enum.Respells es (ds.map (·.toSchema)) :=
  List.forall₂_map_right_iff.2 (h.imp fun _ _ he => he.respells)

/-- The service of a descriptor has the same procedures, with their types respelled. -/
theorem Service.Mirrors.respells {s : Schema.Service} {d : Service} (h : d.Mirrors L s) :
    s.Respells (Spelled L .procedure) d.toSchema := by
  refine ⟨h.name, List.forall₂_map_right_iff.2 (h.methods.imp fun m dm hm => ?_)⟩
  exact ⟨hm.name, .procedure hm.input, .procedure hm.output, hm.clientStreaming,
    hm.serverStreaming⟩

end

section
variable {L : String → String → String → Prop}

/-- Items that can be turned into others, one by one, can be turned so together. -/
theorem exists_mapM_of_forall₂ {α β γ ε : Type} {P : α → β → Prop} {Q : α → γ → Prop}
    {g : β → Except ε γ} {xs : List α} {ys : List β} (h : List.Forall₂ P xs ys)
    (hg : ∀ x y, P x y → ∃ z, g y = .ok z ∧ Q x z) :
    ∃ zs, ys.mapM g = .ok zs ∧ List.Forall₂ Q xs zs := by
  induction h with
  | nil => exact ⟨[], rfl, .nil⟩
  | @cons x y xs ys hxy _ ih =>
    obtain ⟨z, hz, hxz⟩ := hg x y hxy
    obtain ⟨zs, hzs, hall⟩ := ih
    exact ⟨z :: zs, mapM_eq_ok_iff.2 (.cons hz (mapM_eq_ok_iff.1 hzs)), .cons hxz hall⟩

/-- The messages of a file from their descriptors. Where errors are reported, which is all that
`inner` is for, does not matter here. -/
theorem Message.AllMirror.exists_toMessages {scope : String} {ms : List Schema.Message}
    {ds : List Message} (h : Message.AllMirror L scope ms ds) (file inner : String) :
    ∃ ms', toMessages file inner ds = .ok ms' ∧
      Schema.Message.AllRespell (fun scope => Spelled (L scope) .field) scope ms ms' := by
  induction h generalizing inner with
  | nil => exact ⟨[], by rw [toMessages], .nil⟩
  | entry hentry _ ih =>
    obtain ⟨ms', hms', hall⟩ := ih inner
    exact ⟨ms', by simp [toMessages, hentry, hms'], hall⟩
  | @cons scope m ms d ds hentry hname hfields henums _ _ ihnested ihrest =>
    obtain ⟨nested, hnested, hallNested⟩ := ihnested (inside inner d.name)
    obtain ⟨rest, hrest, hallRest⟩ := ihrest inner
    obtain ⟨fields, hfs, hallFields⟩ := exists_mapM_of_forall₂ hfields
      fun f fd hf => hf.exists_toSchema file (inside inner d.name)
    refine ⟨⟨d.name, d.line, fields, nested, d.enums.map (·.toSchema)⟩ :: rest, ?_,
      .cons hname hallFields (Enum.respells_map henums) hallNested hallRest⟩
    simp [toMessages, hentry, Message.toSchema, hfs, hnested, hrest, Except.map]

/-- A file from its descriptor, under the path and the name of the file that it describes and with
the same imports. -/
theorem File.Mirrors.exists_respelling {f : Schema.File} {d : File} (h : d.Mirrors L f)
    (inner : String) :
    ∃ messages, toMessages f.path inner d.messages = .ok messages ∧
      f.Respells (fun use scope => Spelled (L scope) use)
        { path := f.path, name := f.name, package := d.package, imports := f.imports, messages
          enums := d.enums.map (·.toSchema), services := d.services.map (·.toSchema) } := by
  obtain ⟨messages, hmessages, hall⟩ := h.messages.exists_toMessages f.path inner
  exact ⟨messages, hmessages, rfl, rfl, h.package, rfl, hall, Enum.respells_map h.enums,
    List.forall₂_map_right_iff.2 (h.services.imp fun _ _ hs => hs.respells)⟩

end

end ProtoStub.Descriptor

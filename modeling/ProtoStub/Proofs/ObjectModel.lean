import ProtoStub.Proofs.ClassTrees
import Mathlib.Tactic.IntervalCases

/-!
# Which source files import the JSON object model

The values of a few well-known types are read into the library's JSON object model, and a source
file that writes such a type has to import it. The flag for that is set where a type is written and
handed up through properties, classes and clients. Each step hands up neither more nor less than it
was given (`linq_of_typeName`, `linq_of_propertyLines`, `linq_of_classWithin`,
`linq_of_clientMethods`). The classes of a file are those of its messages at every depth, so the
flag of a unit says whether some field of the file or some procedure that is no stream has such a
type (`imports_objectModel_iff`).
-/

namespace ProtoStub

/-- The well-known types that are read into the JSON object model. -/
def objectModelTypes : List String := ["Struct", "Any", "Value", "ListValue"]

/-- The type is read into the JSON object model. -/
def TypeRef.InObjectModel (t : TypeRef) : Prop := ∃ name ∈ objectModelTypes, t = .wellKnown name

instance (t : TypeRef) : Decidable t.InObjectModel :=
  inferInstanceAs (Decidable (∃ name ∈ objectModelTypes, t = .wellKnown name))

/-- Some field of the message is read into the JSON object model. -/
def Program.Message.UsesObjectModel (m : Program.Message) : Prop :=
  ∃ f ∈ m.fields, f.type.InObjectModel

instance (m : Program.Message) : Decidable m.UsesObjectModel :=
  inferInstanceAs (Decidable (∃ f ∈ m.fields, f.type.InObjectModel))

/-- The procedure is no stream, and its request or its response is read into the JSON object
model. -/
def Program.Method.UsesObjectModel (m : Program.Method) : Prop :=
  m.clientStreaming = false ∧ m.serverStreaming = false ∧
    (m.input.InObjectModel ∨ m.output.InObjectModel)

instance (m : Program.Method) : Decidable m.UsesObjectModel :=
  inferInstanceAs (Decidable (_ ∧ _ ∧ _))

end ProtoStub

namespace ProtoStub.VisualBasic

open Program (Built BuildOptions build exists_built bind_eq_ok_iff mapM_eq_ok_iff)
open Schema (FileSet)
open JsonSchema (subtreeWithin messagesOf)

/-! ## Types -/

theorem linq_of_wellKnownType {name : String} {t : TypeText} (h : wellKnownType? name = some t) :
    t.linq = true ↔ name ∈ objectModelTypes := by
  simp only [wellKnownType?, beq_iff_eq, Bool.or_eq_true] at h
  simp only [objectModelTypes, List.mem_cons, List.not_mem_nil, or_false]
  grind [Option.map_eq_some_iff]

section
variable {p : Program} {file index : Nat}

/-- Writing a type asks for the object model exactly for the types in it. -/
theorem linq_of_typeName {fromMessage : Option Nat} {ref : TypeRef} {t : TypeText}
    (h : typeName p file fromMessage ref = .ok t) : t.linq = true ↔ ref.InObjectModel := by
  unfold typeName at h
  dsimp only at h
  split at h
  · cases h
    simp [TypeRef.InObjectModel]
  · rename_i name
    split at h
    · rename_i type htype
      cases h
      rw [linq_of_wellKnownType htype]
      simp [TypeRef.InObjectModel]
    · cases h
  · rename_i hscalar hwellKnown
    have hnot : ¬ ref.InObjectModel := fun ⟨name, _, he⟩ => hwellKnown name he
    repeat' split at h
    all_goals cases h
    all_goals simpa using hnot

/-! ## Properties and classes -/

theorem linq_of_propertyLines {margin : String} {seen : List (String × String)}
    {fields : List Program.Field} {code : Code}
    (h : propertyLines p file index margin seen fields = .ok code) :
    code.linq = true ↔ ∃ f ∈ fields, f.type.InObjectModel := by
  fun_induction propertyLines p file index margin seen fields generalizing code with
  | case1 =>
    cases h
    simp
  | case2 | case3 | case4 => cases h
  | case5 seen f rest m name _ type htype more hmore text =>
    rename_i ih
    cases h
    rw [Bool.or_eq_true, linq_of_typeName htype, ih hmore, List.exists_mem_cons_iff]

/-- What a list is found to have is what the items have that it was made from. -/
theorem any_iff_of_forall₂ {α β : Type} {R : α → β → Prop} {test : β → Bool} {P : α → Prop}
    {xs : List α} {ys : List β} (h : List.Forall₂ R xs ys)
    (hR : ∀ x y, R x y → (test y = true ↔ P x)) : ys.any test = true ↔ ∃ x ∈ xs, P x := by
  induction h with
  | nil => simp
  | cons hxy _ ih =>
    rw [List.any_cons, Bool.or_eq_true, hR _ _ hxy, ih, List.exists_mem_cons_iff]

/-- What is found below messages is found below one of them. -/
theorem exists_mem_subtreeWithin {P : Nat → Prop} {depth : Nat} {indices : List Nat} :
    (∃ i ∈ subtreeWithin p depth indices, P i) ↔
      ∃ r ∈ indices, ∃ i ∈ subtreeWithin p depth [r], P i := by
  cases depth with
  | zero => simp [subtreeWithin]
  | succ depth =>
    simp only [subtreeWithin, List.flatMap_singleton, List.mem_flatMap]
    constructor
    · rintro ⟨i, ⟨r, hr, hi⟩, hP⟩
      exact ⟨r, hr, i, hi, hP⟩
    · rintro ⟨r, hr, i, hi, hP⟩
      exact ⟨i, ⟨r, hr, hi⟩, hP⟩

/-- A class asks for the object model when a field of its message, or of one nested in it, does. -/
theorem linq_of_classWithin {depth : Nat} {margin : String} {code : Code}
    (h : classWithin p file depth margin index = .ok code) :
    code.linq = true ↔ ∃ i ∈ subtreeWithin p depth [index], (p.message i).UsesObjectModel := by
  induction depth generalizing margin index code with
  | zero => simp [classWithin] at h
  | succ depth ih =>
    obtain ⟨properties, nested, hproperties, hnested, rfl⟩ := classWithin_eq_ok_iff.1 h
    have hbelow : nested.any (·.linq) = true ↔
        ∃ i ∈ subtreeWithin p depth (p.message index).messages, (p.message i).UsesObjectModel := by
      rw [exists_mem_subtreeWithin]
      exact any_iff_of_forall₂ hnested fun i c hc => ih hc
    rw [Bool.or_eq_true, linq_of_propertyLines hproperties, hbelow, subtreeWithin,
      List.flatMap_singleton, List.exists_mem_cons_iff]
    rfl

/-! ## Clients -/

theorem linq_of_clientMethods {profile : Profile} {baseName : String} {ms : List Program.Method}
    {methods : List ClientMethod} {linq : Bool}
    (h : clientMethods p file profile baseName ms = .ok (methods, linq)) :
    linq = true ↔ ∃ m ∈ ms, m.input.InObjectModel ∨ m.output.InObjectModel := by
  fun_induction clientMethods p file profile baseName ms generalizing methods linq with
  | case1 =>
    cases h
    simp
  | case2 | case3 | case4 => cases h
  | case5 m rest request hrequest response hresponse more rest' hmore ih =>
    cases h
    rw [Bool.or_eq_true, Bool.or_eq_true, linq_of_typeName hrequest, linq_of_typeName hresponse,
      ih hmore, List.exists_mem_cons_iff]

/-- Procedures that are streams have no part in the client. -/
theorem linq_of_clientOf {profile : Profile} {s : Program.Service} {c : Client × Bool}
    (h : clientOf p file profile s = .ok c) :
    c.2 = true ↔ ∃ m ∈ s.methods, m.UsesObjectModel := by
  rw [clientOf] at h
  split at h
  · cases h
  rename_i methods linq hmethods
  cases h
  rw [linq_of_clientMethods hmethods]
  simp only [Program.Service.unaryMethods, Program.Method.isUnary, List.mem_filter,
    Bool.and_eq_true, Bool.not_eq_true', Program.Method.UsesObjectModel, and_assoc]

end

/-! ## Units -/

theorem mem_importNames_iff {profile : Profile} {linq : Bool} :
    "Newtonsoft.Json.Linq" ∈ importNames profile linq ↔ linq = true := by
  cases profile <;> cases linq <;> simp [importNames]

/-- A unit imports the JSON object model exactly when a field of a message of its file, at any
depth, or the request or response of a procedure of its file that is no stream has a type in it. -/
theorem imports_objectModel_iff {s : FileSet} {options : BuildOptions} {p : Program}
    (h : build s options = .ok p) {b : Backend} {k : Nat} {u : Unit}
    (hu : emit b p k = .ok (some u)) : ∃ body, u.body = some body ∧
      ("Newtonsoft.Json.Linq" ∈ body.imports ↔
        (∃ i, p.IsDeclared (.message i) ∧ (p.message i).file = k ∧
          (p.message i).UsesObjectModel) ∨
        ∃ svc ∈ (p.file k).services, ∃ m ∈ svc.methods, m.UsesObjectModel) := by
  obtain ⟨d, hb⟩ := exists_built h
  rw [emit] at hu
  dsimp only at hu
  split at hu
  · cases hu
  obtain ⟨classes, hclasses, hu⟩ := bind_eq_ok_iff.1 hu
  obtain ⟨clients, hclients, hu⟩ := bind_eq_ok_iff.1 hu
  cases hu
  refine ⟨_, rfl, ?_⟩
  have hfields : classes.any (·.linq) = true ↔
      ∃ i ∈ messagesOf p (p.file k), (p.message i).UsesObjectModel := by
    rw [messagesOf, exists_mem_subtreeWithin]
    exact any_iff_of_forall₂ (mapM_eq_ok_iff.1 hclasses) fun i c hc => linq_of_classWithin hc
  have hmethods : clients.any (·.2) = true ↔
      ∃ svc ∈ (p.file k).services, ∃ m ∈ svc.methods, m.UsesObjectModel :=
    any_iff_of_forall₂ (mapM_eq_ok_iff.1 hclients) fun svc c hc => linq_of_clientOf hc
  rw [mem_importNames_iff, Bool.or_eq_true, hfields, hmethods]
  simp only [JsonSchema.mem_messagesOf hb, JsonSchema.mem_messagesIn, and_assoc]
  rfl

/-- A message whose nested message has a list of values, a file that uses it beside a stream of
values, and a procedure that answers with any value. -/
def watchedSample : FileSet where
  files := [
    { path := "/p/a.proto", name := "a.proto", package := "a"
      messages := [
        { name := "Tree"
          messages := [
            { name := "Node"
              fields :=
                [{ name := "rest", number := 1, type := "google.protobuf.ListValue" }] }] }] },
    { path := "/p/b.proto", name := "b.proto", package := "b"
      imports := [⟨"a.proto", "/p/a.proto", false⟩]
      messages := [
        { name := "Holder", fields := [{ name := "tree", number := 1, type := "a.Tree" }] }]
      services := [⟨"Store", 0, [
        ⟨"Put", 0, "Holder", "google.protobuf.Empty", false, false⟩,
        ⟨"Watch", 0, "google.protobuf.Struct", "google.protobuf.Value", false, true⟩]⟩] },
    { path := "/p/c.proto", name := "c.proto", package := "c"
      services := [⟨"Finder", 0, [
        ⟨"Find", 0, "google.protobuf.Duration", "google.protobuf.Any", false, false⟩]⟩] }]

/-- The program of the sample. -/
def watchedProgram : Program where
  files := [
    { path := "/p/a.proto", name := "a.proto", baseName := "a", package := "a"
      namespaceName := "A", messages := [0] },
    { path := "/p/b.proto", name := "b.proto", baseName := "b", package := "b"
      namespaceName := "B", imports := [0], messages := [2]
      services := [⟨"Store", [⟨"Put", .message 2, .wellKnown "Empty", false, false⟩,
        ⟨"Watch", .wellKnown "Struct", .wellKnown "Value", false, true⟩]⟩] },
    { path := "/p/c.proto", name := "c.proto", baseName := "c", package := "c"
      namespaceName := "C"
      services := [⟨"Finder", [
        ⟨"Find", .wellKnown "Duration", .wellKnown "Any", false, false⟩]⟩] }]
  messages := [
    { name := "Tree", fullName := "a.Tree", messages := [1] },
    { name := "Node", fullName := "a.Tree.Node", parent := some 0
      fields := [⟨"rest", "rest", 1, false, .wellKnown "ListValue"⟩] },
    { name := "Holder", fullName := "b.Holder", file := 1
      fields := [⟨"tree", "tree", 1, false, .message 0⟩] }]

theorem build_watchedSample : build watchedSample {} = .ok watchedProgram := by
  cbv

/-- A file of the sample is emitted. -/
theorem exists_emit_watchedProgram {k : Nat} (hk : k < 3) :
    ∃ u, emit { profile := .async } watchedProgram k = .ok (some u) := by
  have hproperties : ∀ i < watchedProgram.messages.length, ∀ margin, ∃ code,
      propertyLines watchedProgram k i margin [] (watchedProgram.message i).fields = .ok code := by
    intro i hi margin
    replace hi : i < 3 := hi
    interval_cases k <;> interval_cases i <;> exact ⟨_, rfl⟩
  have hclients : ∀ s ∈ (watchedProgram.file k).services, ∃ c,
      clientOf watchedProgram k .async s = .ok c := by
    intro s hs
    interval_cases k
    · cases hs
    · cases List.mem_singleton.1 hs
      exact ⟨_, rfl⟩
    · cases List.mem_singleton.1 hs
      exact ⟨_, rfl⟩
  refine exists_emit (by interval_cases k <;> rfl) (fun i hi => ?_) hclients
  have hlt : i < watchedProgram.messages.length := by interval_cases k <;> revert i <;> decide
  exact exists_classOf (by decide) hproperties hlt indent

/-- The list of values in a nested message and the answer of a procedure ask for the object model; a
stream and the fields of another file do not. -/
theorem watchedSample_imports : build watchedSample {} = .ok watchedProgram ∧ ∃ a b c,
    emit { profile := .async } watchedProgram 0 = .ok (some a) ∧
    emit { profile := .async } watchedProgram 1 = .ok (some b) ∧
    emit { profile := .async } watchedProgram 2 = .ok (some c) ∧
    (∃ body, a.body = some body ∧ "Newtonsoft.Json.Linq" ∈ body.imports) ∧
    (∃ body, b.body = some body ∧ "Newtonsoft.Json.Linq" ∉ body.imports) ∧
    ∃ body, c.body = some body ∧ "Newtonsoft.Json.Linq" ∈ body.imports := by
  obtain ⟨a, ha⟩ := exists_emit_watchedProgram (k := 0) (by decide)
  obtain ⟨b, hb⟩ := exists_emit_watchedProgram (k := 1) (by decide)
  obtain ⟨c, hc⟩ := exists_emit_watchedProgram (k := 2) (by decide)
  obtain ⟨bodyA, hbodyA, hiffA⟩ := imports_objectModel_iff build_watchedSample ha
  obtain ⟨bodyB, hbodyB, hiffB⟩ := imports_objectModel_iff build_watchedSample hb
  obtain ⟨bodyC, hbodyC, hiffC⟩ := imports_objectModel_iff build_watchedSample hc
  refine ⟨build_watchedSample, a, b, c, ha, hb, hc, ⟨bodyA, hbodyA, hiffA.2 (.inl ?_)⟩,
    ⟨bodyB, hbodyB, fun hmem => ?_⟩, ⟨bodyC, hbodyC, hiffC.2 (.inr ?_)⟩⟩
  · exact ⟨1, show 1 < 3 by decide, rfl, by decide⟩
  · rcases hiffB.1 hmem with ⟨i, hi, hfile, huses⟩ | huses
    · replace hi : i < 3 := hi
      interval_cases i
      · cases hfile
      · cases hfile
      · exact absurd huses (by decide)
    · exact absurd huses (by decide)
  · decide

end ProtoStub.VisualBasic

import ProtoStub.Proofs.Properties
import ProtoStub.Proofs.References

/-!
# The schemas of fields

The definition of a message has a property for each wire name of its fields. Properties are entered
one after another, and a later one replaces an earlier one under the same name, so of the fields
that share a wire name only the last has its schema in the definition (`lookup_properties`). Nothing
refuses such fields: building a program compares the declared names, and different names can be the
same in camel case. `Node.Complete` says that no field is lost, and `properties_complete_iff` that
this holds exactly where the camel cases of the declared names are distinct, or declared names are
kept. Elsewhere a field is lost without a word (`field_lost`).
-/

namespace ProtoStub.Program

open Schema (FileSet)

/-- The fields of a message have distinct names. -/
theorem Built.nodup_fieldNames {s : FileSet} {options : BuildOptions} {d : Declarations}
    {p : Program} (h : Built s options d p) (i : Nat) :
    ((p.message i).fields.map (·.name)).Nodup := by
  cases hm : p.messages[i]? with
  | none =>
    rw [message_of_getElem?_none hm]
    exact .nil
  | some m =>
    obtain ⟨x, fields, -, rfl, hr⟩ := h.getElem?_message hm
    obtain ⟨-, -, hnames, new, hnew, hfields⟩ := resolveFields_eq_ok_iff.1 hr
    rw [List.nil_append] at hfields
    subst hfields
    have hsame : x.raw.fields.map (·.name) = fields.map (·.name) :=
      map_eq_of_forall₂ hnew fun f r hfr => by rw [hfr.2]
    rw [message_of_getElem? hm]
    exact hsame ▸ hnames

/-- The wire names of the fields of a message are distinct when it is the header, or no two of its
fields have names with one camel case. -/
theorem Built.nodup_jsonNames_iff {s : FileSet} {options : BuildOptions} {d : Declarations}
    {p : Program} (h : Built s options d p) (i : Nat) :
    ((p.message i).fields.map (·.jsonName)).Nodup ↔ (p.message i).name = headerMessage ∨
      ∀ f ∈ (p.message i).fields, ∀ g ∈ (p.message i).fields,
        camelCase f.name = camelCase g.name → f.name = g.name := by
  have hjson : (p.message i).fields.map (·.jsonName) =
      ((p.message i).fields.map (·.name)).map (jsonName (p.message i).name) := by
    rw [List.map_map]
    exact List.map_congr_left fun f hf => (h.jsonName_eq hf).2
  rw [hjson, List.nodup_map_iff_inj_on (h.nodup_fieldNames i)]
  by_cases hheader : (p.message i).name = headerMessage
  · simp [jsonName, hheader]
  · simp [jsonName, hheader]

end ProtoStub.Program

namespace ProtoStub.JsonSchema

open Program (Built Declarations BuildOptions)
open Schema (FileSet)

/-! ## The properties of a message -/

/-- The schemas of fields, each under its wire name. -/
def fieldEntries (p : Program) (k : Nat) (fields : List Program.Field) : List (String × Node) :=
  fields.map fun f => (f.jsonName, fieldNode p k f)

/-- No field is lost in the properties of a schema: there are as many properties as fields, and the
schema of each field stands under its wire name. -/
structure Node.Complete (p : Program) (k : Nat) (fields : List Program.Field) (n : Node) :
    Prop where
  length_eq : n.properties.length = fields.length
  lookup_eq : ∀ f ∈ fields, n.properties.lookup f.jsonName = some (fieldNode p k f)

section
variable {p : Program} {k : Nat} {m : Program.Message}

theorem properties_messageNode : (messageNode p k m).properties =
    (fieldEntries p k m.fields).foldl (fun ds d => enter d.1 d.2 ds) [] := by
  rw [fieldEntries, List.foldl_map]
  rfl

@[simp] theorem map_fst_fieldEntries (fields : List Program.Field) :
    (fieldEntries p k fields).map (·.1) = fields.map (·.jsonName) := by
  simp [fieldEntries]

/-- The properties ascend by name. -/
theorem pairwise_properties (p : Program) (k : Nat) (m : Program.Message) :
    ((messageNode p k m).properties.map (·.1)).Pairwise (· < ·) := by
  rw [properties_messageNode]
  exact pairwise_foldl_enter .nil

/-- After some fields have been entered, the schema of the last one with a wire name stands under
that name, or else what stood there before. -/
theorem lookup_foldl_fields (p : Program) (k : Nat) (key : String) (fields : List Program.Field)
    (ds : List (String × Node)) :
    (fields.foldl (fun ps f => enter f.jsonName (fieldNode p k f) ps) ds).lookup key =
      ((fields.reverse.find? (·.jsonName == key)).map (fieldNode p k)).or (ds.lookup key) := by
  induction fields generalizing ds with
  | nil => rfl
  | cons f fields ih =>
    rw [List.foldl_cons, ih, lookup_enter, List.reverse_cons, List.find?_append]
    cases fields.reverse.find? (·.jsonName == key) with
    | some g => rfl
    | none =>
      by_cases hkey : key = f.jsonName
      · simp [hkey]
      · simp [List.lookup_cons, beq_false_of_ne hkey, Ne.symm hkey]

/-- Under a wire name stands the schema of the last field that has it. -/
theorem lookup_properties (p : Program) (k : Nat) (m : Program.Message) (key : String) :
    (messageNode p k m).properties.lookup key =
      (m.fields.reverse.find? (·.jsonName == key)).map (fieldNode p k) := by
  rw [messageNode, lookup_foldl_fields, List.lookup_nil, Option.or_none]

/-- The properties are complete exactly when the wire names are distinct. -/
theorem complete_messageNode_iff :
    (messageNode p k m).Complete p k m.fields ↔ (m.fields.map (·.jsonName)).Nodup := by
  have hkeys : ((messageNode p k m).properties.map (·.1)).Nodup :=
    (pairwise_properties p k m).imp fun h => h.ne
  constructor
  · intro h
    -- The names of the properties are wire names; being distinct and as many, they are all of them.
    have hsub : (messageNode p k m).properties.map (·.1) ⊆ m.fields.map (·.jsonName) := by
      intro key hkey
      obtain ⟨x, hx, rfl⟩ := List.mem_map.1 hkey
      rw [properties_messageNode] at hx
      rw [← map_fst_fieldEntries (p := p) (k := k)]
      exact List.mem_map_of_mem ((mem_foldl_enter hx).resolve_right (by simp))
    have hperm := (List.subperm_of_subset hkeys hsub).perm_of_length_le (by simp [h.length_eq])
    exact hperm.nodup_iff.1 hkeys
  · intro h
    have hperm : (messageNode p k m).properties.Perm (fieldEntries p k m.fields) := by
      rw [properties_messageNode]
      exact (perm_foldl_enter (by simpa using h)).trans (by simp)
    refine ⟨by rw [hperm.length_eq, fieldEntries, List.length_map], fun f hf => ?_⟩
    refine lookup_eq_of_mem hkeys (hperm.mem_iff.2 ?_)
    exact List.mem_map_of_mem hf

end

/-- The definition of a message stands under its path. -/
theorem lookup_definitions {s : FileSet} {options : BuildOptions} {d : Declarations} {p : Program}
    (h : Built s options d p) (hne : ∀ m ∈ p.messages, m.fullName ≠ "") {i k : Nat}
    (hi : i ∈ messagesIn p k) :
    (documentOf p k).definitions.lookup (p.messagePath i) =
      some (messageNode p k (p.message i)) := by
  have hperm := perm_definitions h hne k
  refine lookup_eq_of_mem ((hperm.map (·.1)).nodup_iff.2 (nodup_definitionsIn h hne k))
    (hperm.mem_iff.2 ?_)
  exact List.mem_append_left _ (List.mem_map.2 ⟨i, hi, rfl⟩)

/-- In the document of every file that gets one, as long as no message has an empty full name, each
message of the file has its definition, with a property for each wire name that describes the last
field of that name. The definition is complete exactly when the message is the header, or no two of
its fields have names with one camel case. -/
theorem properties_complete_iff {s : FileSet} {options : BuildOptions} {p : Program}
    (h : Program.build s options = .ok p) (hne : ∀ m ∈ p.messages, m.fullName ≠ "")
    {out : String} {outputs : List OutputFile} (hok : generate p out = .ok outputs) :
    outputs = (documentFiles p).map (outputOf p out) ∧
    ∀ k ∈ documentFiles p, ∀ i ∈ messagesIn p k, ∃ n,
      (documentOf p k).definitions.lookup (p.messagePath i) = some n ∧
      (n.properties.map (·.1)).Pairwise (· < ·) ∧
      (∀ key, n.properties.lookup key =
        ((p.message i).fields.reverse.find? (·.jsonName == key)).map (fieldNode p k)) ∧
      (n.Complete p k (p.message i).fields ↔ (p.message i).name = headerMessage ∨
        ∀ f ∈ (p.message i).fields, ∀ g ∈ (p.message i).fields,
          camelCase f.name = camelCase g.name → f.name = g.name) := by
  obtain ⟨d, hb⟩ := Program.exists_built h
  refine ⟨(generate_eq_ok_iff.1 hok).2.2.symm, fun k _ i hi => ?_⟩
  refine ⟨_, lookup_definitions hb hne hi, pairwise_properties p k _, lookup_properties p k _, ?_⟩
  rw [complete_messageNode_iff, hb.nodup_jsonNames_iff]

/-- A requested file refers to a message of a file that is only imported. Two fields of that message
have one camel case. -/
def lossySample : FileSet where
  files := [
    { path := "/p/a.proto", name := "a.proto", package := "a"
      imports := [⟨"b.proto", "/p/b.proto", false⟩]
      messages := [
        { name := "A", fields := [{ name := "user_ref", number := 1, type := "b.B" }] }] },
    { path := "/p/b.proto", name := "b.proto", package := "b"
      messages := [
        { name := "B"
          fields := [{ name := "user_id", number := 1, type := "int32" },
            { name := "userId", number := 2, type := "string" }] }] }]
  inputs := ["/p/a.proto"]

/-- The program of the sample. -/
def lossyProgram : Program where
  files := [
    { path := "/p/a.proto", name := "a.proto", baseName := "a", package := "a"
      namespaceName := "A", isInput := true, imports := [1], messages := [0] },
    { path := "/p/b.proto", name := "b.proto", baseName := "b", package := "b"
      namespaceName := "B", messages := [1] }]
  messages := [
    { name := "A", fullName := "a.A"
      fields := [⟨"user_ref", "userRef", 1, false, .message 1⟩] },
    { name := "B", fullName := "b.B", file := 1
      fields := [⟨"user_id", "userId", 1, false, .scalar .int32⟩,
        ⟨"userId", "userId", 2, false, .scalar .string⟩] }]

theorem build_lossySample : Program.build lossySample { root := "/p" } = .ok lossyProgram := by
  cbv

/-- Both files of the sample get their document. -/
theorem documentFiles_lossyProgram : documentFiles lossyProgram = [0, 1] := by
  cbv

theorem exists_generate_lossyProgram : ∃ outputs, generate lossyProgram "/o" = .ok outputs := by
  refine ⟨_, generate_eq_ok_iff.2 ⟨?_, ?_, rfl⟩⟩
  · rw [documentFiles_lossyProgram]
    decide +kernel
  · rw [documentFiles_lossyProgram]
    decide +kernel

/-- In the sample the definition of the requested message is complete, and that of the imported one
is not. -/
theorem lossySample_complete : ∃ p outputs,
    Program.build lossySample { root := "/p" } = .ok p ∧ (∀ m ∈ p.messages, m.fullName ≠ "") ∧
      generate p "/o" = .ok outputs ∧ outputs.length = 2 ∧
      (∃ n, (documentOf p 0).definitions.lookup "A" = some n ∧
        n.Complete p 0 (p.message 0).fields) ∧
      ∃ n, (documentOf p 1).definitions.lookup "B" = some n ∧
        ¬ n.Complete p 1 (p.message 1).fields := by
  obtain ⟨outputs, hok⟩ := exists_generate_lossyProgram
  have hne : ∀ m ∈ lossyProgram.messages, m.fullName ≠ "" := by decide
  obtain ⟨houtputs, hall⟩ := properties_complete_iff build_lossySample hne hok
  rw [documentFiles_lossyProgram] at houtputs hall
  obtain ⟨n, hn, -, -, hcomplete⟩ := hall 0 (by decide) 0 (by decide)
  obtain ⟨n', hn', -, -, hcomplete'⟩ := hall 1 (by decide) 1 (by decide)
  refine ⟨lossyProgram, outputs, build_lossySample, hne, hok, by simp [houtputs],
    ⟨n, hn, hcomplete.2 (.inr (by decide +kernel))⟩, n', hn', fun h => ?_⟩
  exact absurd (hcomplete'.1 h) (by decide +kernel)

/-- The documents of the sample are generated, but the definition of the imported message has one
property for its two fields: the schema of the first is lost. -/
theorem field_lost : ∃ p outputs n,
    Program.build lossySample { root := "/p" } = .ok p ∧ generate p "/o" = .ok outputs ∧
      1 ∈ documentFiles p ∧ 1 ∈ messagesIn p 1 ∧
      (p.message 1).fields.map (·.name) = ["user_id", "userId"] ∧
      (documentOf p 1).definitions.lookup (p.messagePath 1) = some n ∧
      n.properties.length = 1 ∧
      ∃ f ∈ (p.message 1).fields, n.properties.lookup f.jsonName ≠ some (fieldNode p 1 f) := by
  obtain ⟨outputs, hok⟩ := exists_generate_lossyProgram
  obtain ⟨d, hb⟩ := Program.exists_built build_lossySample
  refine ⟨lossyProgram, outputs, _, build_lossySample, hok, by simp [documentFiles_lossyProgram],
    by decide, by decide, lookup_definitions hb (by decide) (by decide), by decide, ?_⟩
  refine ⟨⟨"user_id", "userId", 1, false, .scalar .int32⟩, by decide, ?_⟩
  rw [lookup_properties]
  intro he
  have htype := congrArg (Option.map (·.type)) he
  revert htype
  decide

end ProtoStub.JsonSchema

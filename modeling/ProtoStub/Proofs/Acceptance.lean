import ProtoStub.Proofs.Scoping

/-!
# Which sets of files are accepted

`Acceptable` is what a set of files has to fulfil, said about the files alone: which imports there
are, which full names, which fields, and what the type names in them stand for. `build_accepts_iff`
says that a program is built exactly for these sets. Each check of the two passes is one condition
of `Acceptable`, and the proof goes check by check: a name that resolves against the declarations is
a name that stands for something in the files (`Declared.exists_resolve_iff`), fields and procedures
are resolved when their types are, and files when their messages and services are.
-/

namespace ProtoStub.Schema.FileSet

open Program (joinScope StandsFor)

/-- The file `i` sees a message with this full name. -/
def SeesMessage (s : FileSet) (i : Nat) (name : String) : Prop :=
  ∃ j f, s.Visible i j ∧ s.files[j]? = some f ∧ name ∈ f.messageNames

/-- The file `i` sees an enum with this full name. -/
def SeesEnum (s : FileSet) (i : Nat) (name : String) : Prop :=
  ∃ j f, s.Visible i j ∧ s.files[j]? = some f ∧ name ∈ f.enumNames

/-- To the file `i`, this is the full name of a type other than a scalar. -/
def SeesType (s : FileSet) (i : Nat) (name : String) : Prop :=
  (wellKnown? name).isSome ∨ s.SeesMessage i name ∨ s.SeesEnum i name

/-- In the scope `scope` of the file `i`, `ref` is a type. -/
def TypeKnown (s : FileSet) (i : Nat) (scope ref : String) : Prop :=
  (Scalar.ofWord? ref).isSome ∨ ∃ name, StandsFor (s.SeesType i) scope ref name

/-- In the scope `scope` of the file `i`, `ref` is a message or a well-known type. -/
def MessageKnown (s : FileSet) (i : Nat) (scope ref : String) : Prop :=
  Scalar.ofWord? ref = none ∧ ∃ name, StandsFor (s.SeesType i) scope ref name ∧
    ((wellKnown? name).isSome ∨ s.SeesMessage i name)

/-- The message `m` of the file `i`, with this full name, has no map, no number and no name twice,
and only known types. -/
structure FieldsAcceptable (s : FileSet) (i : Nat) (fullName : String) (m : Message) : Prop where
  noMap : ∀ f ∈ m.fields, f.isMap = false
  numbers : (m.fields.map (·.number)).Nodup
  names : (m.fields.map (·.name)).Nodup
  types : ∀ f ∈ m.fields, s.TypeKnown i fullName f.type

/-- What a set of files has to fulfil. -/
structure Acceptable (s : FileSet) : Prop where
  imports : ∀ f ∈ s.files, ∀ imp ∈ f.imports, imp.resolved ≠ "" →
    ∃ g ∈ s.files, g.path = imp.resolved
  names : s.fullNames.Nodup
  messages : ∀ i f, s.files[i]? = some f → ∀ x ∈ f.allMessages,
    s.FieldsAcceptable i (joinScope x.1 x.2.name) x.2
  methods : ∀ i f, s.files[i]? = some f → ∀ svc ∈ f.services, ∀ m ∈ svc.methods,
    s.MessageKnown i f.package m.input ∧ s.MessageKnown i f.package m.output

end ProtoStub.Schema.FileSet

namespace ProtoStub.Program

open Schema (FileSet)

/-! ## Names -/

section
variable {s : FileSet} {d : Declarations} {i : Nat} {scope ref name : String}

/-- The types of the declarations are the types of the files. -/
theorem Declared.seesType_eq (h : Declared s d) :
    (fun x => ∃ t, VisibleType d (s.Visible i) x t) = s.SeesType i := by
  funext x
  rw [exists_visibleType_iff, h.exists_message_iff, h.exists_enum_iff]
  rfl

/-- A full name has a message or well-known type when it is the name of one. -/
theorem Declared.exists_messageType_iff (h : Declared s d) :
    (∃ t, VisibleType d (s.Visible i) name t ∧ isMessageType t = true) ↔
      (wellKnown? name).isSome ∨ s.SeesMessage i name := by
  rw [FileSet.SeesMessage, ← h.exists_message_iff]
  constructor
  · rintro ⟨t, ht, hmt⟩
    cases ht with
    | wellKnown hw => exact .inl (hw ▸ rfl)
    | message _ hm hname hs => exact .inr ⟨_, List.mem_of_getElem? hm, hname, hs⟩
    | enum => cases hmt
  · cases hw : wellKnown? name with
    | some w => exact fun _ => ⟨_, .wellKnown hw, rfl⟩
    | none =>
      rintro (hs | ⟨m, hm, hname, hs⟩)
      · cases hs
      · obtain ⟨j, hj⟩ := List.mem_iff_getElem?.1 hm
        exact ⟨_, .message hw hj hname hs, rfl⟩

/-- A type name resolves when it is a type. -/
theorem Declared.exists_resolve_iff (h : Declared s d) :
    (∃ t, Names.resolve ⟨s, d.symbols⟩ (s.visibleFrom i) i scope ref = .ok t) ↔
      s.TypeKnown i scope ref := by
  simp only [h.indexed.resolve_eq_ok_iff_standsFor, FileSet.TypeKnown, h.seesType_eq]
  cases Scalar.ofWord? ref with
  | some w => simp
  | none =>
    simp only [Option.isSome_none, Bool.false_eq_true, false_or]
    constructor
    · rintro ⟨t, name, hname, -⟩
      exact ⟨name, hname⟩
    · rintro ⟨name, hname⟩
      have ht : s.SeesType i name := by
        cases hname with
        | rooted _ ht => exact ht
        | within _ _ ht _ => exact ht
      rw [← h.seesType_eq] at ht
      obtain ⟨t, ht⟩ := ht
      exact ⟨t, name, hname, ht⟩

/-- A type name resolves to a message or well-known type when it is one. -/
theorem Declared.exists_resolve_message_iff (h : Declared s d) :
    (∃ t, Names.resolve ⟨s, d.symbols⟩ (s.visibleFrom i) i scope ref = .ok t ∧
        isMessageType t = true) ↔
      s.MessageKnown i scope ref := by
  simp only [h.indexed.resolve_eq_ok_iff_standsFor, FileSet.MessageKnown, h.seesType_eq,
    ← h.exists_messageType_iff]
  cases Scalar.ofWord? ref with
  | some w => simp [isMessageType]
  | none =>
    simp only [true_and]
    constructor
    · rintro ⟨t, ⟨name, hname, ht⟩, hmt⟩
      exact ⟨name, hname, t, ht, hmt⟩
    · rintro ⟨name, hname, t, ht, hmt⟩
      exact ⟨t, ⟨name, hname, ht⟩, hmt⟩

/-! ## Fields, procedures and files -/

/-- A message of the outline is resolved when its fields are acceptable. -/
theorem Declared.exists_resolveOutlined_iff (h : Declared s d) {x : String × Schema.Message} :
    (∃ y, resolveOutlined ⟨s, d.symbols⟩ (s.visibleFrom i) i x = .ok y) ↔
      s.FieldsAcceptable i (joinScope x.1 x.2.name) x.2 := by
  obtain ⟨outer, m⟩ := x
  have hfields : (∃ y, resolveOutlined ⟨s, d.symbols⟩ (s.visibleFrom i) i (outer, m) = .ok y) ↔
      ∃ own, resolveFields ⟨s, d.symbols⟩ (s.visibleFrom i) i (joinScope outer m.name) m.name []
        m.fields = .ok own := by
    rw [resolveOutlined]
    cases resolveFields ⟨s, d.symbols⟩ (s.visibleFrom i) i (joinScope outer m.name) m.name []
      m.fields with
    | error e => simp
    | ok own => simp
  have htypes : (∃ new, List.Forall₂ (FieldResolves ⟨s, d.symbols⟩ (s.visibleFrom i) i
        (joinScope outer m.name) m.name) m.fields new) ↔
      ∀ f ∈ m.fields, s.TypeKnown i (joinScope outer m.name) f.type := by
    rw [exists_forall₂_iff]
    refine forall₂_congr fun f _ => ?_
    rw [← h.exists_resolve_iff]
    constructor
    · rintro ⟨r, hr, -⟩
      exact ⟨r.type, hr⟩
    · rintro ⟨t, ht⟩
      exact ⟨⟨f.name, jsonName m.name f.name, f.number, f.repeated, t⟩, ht, rfl⟩
  rw [hfields]
  constructor
  · rintro ⟨own, ho⟩
    obtain ⟨hmap, hnumbers, hnames, new, hnew, -⟩ := resolveFields_eq_ok_iff.1 ho
    exact ⟨fun f hf => (hmap f hf).1, hnumbers, hnames, htypes.1 ⟨new, hnew⟩⟩
  · rintro ⟨hmap, hnumbers, hnames, ht⟩
    obtain ⟨new, hnew⟩ := htypes.2 ht
    refine ⟨new, resolveFields_eq_ok_iff.2 ⟨fun f hf => ?_, hnumbers, hnames, new, hnew, rfl⟩⟩
    exact ⟨hmap f hf, List.not_mem_nil, List.not_mem_nil⟩

/-- A service is resolved when the requests and responses of its procedures are messages or
well-known types. -/
theorem Declared.exists_resolveService_iff (h : Declared s d) {svc : Schema.Service} :
    (∃ r, resolveService ⟨s, d.symbols⟩ (s.visibleFrom i) i scope svc = .ok r) ↔
      ∀ m ∈ svc.methods, s.MessageKnown i scope m.input ∧ s.MessageKnown i scope m.output := by
  have hmethod : ∀ m, (∃ r, resolveMethod ⟨s, d.symbols⟩ (s.visibleFrom i) i scope
        (joinScope scope svc.name) m = .ok r) ↔
      s.MessageKnown i scope m.input ∧ s.MessageKnown i scope m.output := by
    intro m
    simp only [resolveMethod_eq_ok_iff, ← h.exists_resolve_message_iff]
    constructor
    · rintro ⟨r, hi, ho, hmi, hmo, -⟩
      exact ⟨⟨_, hi, hmi⟩, _, ho, hmo⟩
    · rintro ⟨⟨input, hi, hmi⟩, output, ho, hmo⟩
      exact ⟨⟨m.name, input, output, m.clientStreaming, m.serverStreaming⟩, hi, ho, hmi, hmo, rfl⟩
  simp only [← hmethod, ← exists_forall₂_iff, resolveService_eq_ok_iff]
  constructor
  · rintro ⟨r, hr, -⟩
    exact ⟨r.methods, hr⟩
  · rintro ⟨methods, hm⟩
    exact ⟨⟨svc.name, methods⟩, hm, rfl⟩

/-- A file is resolved when its messages and its services are acceptable. -/
theorem Declared.exists_resolveFile_iff (h : Declared s d) {f : Schema.File} :
    (∃ r, resolveFile ⟨s, d.symbols⟩ (i, f) = .ok r) ↔
      (∀ x ∈ f.allMessages, s.FieldsAcceptable i (joinScope x.1 x.2.name) x.2) ∧
        ∀ svc ∈ f.services, ∀ m ∈ svc.methods,
          s.MessageKnown i f.package m.input ∧ s.MessageKnown i f.package m.output := by
  simp only [← h.exists_resolveOutlined_iff, ← h.exists_resolveService_iff, ← exists_forall₂_iff,
    resolveFile_eq_ok_iff]
  constructor
  · rintro ⟨r, hf, hs⟩
    exact ⟨⟨_, hf⟩, _, hs⟩
  · rintro ⟨⟨fields, hf⟩, services, hs⟩
    exact ⟨⟨fields, services⟩, hf, hs⟩

end

/-! ## Programs -/

/-- A program is built from the acceptable sets of files, and from no other set there is one. -/
theorem build_accepts_iff (s : FileSet) (options : BuildOptions) :
    ((∃ p, build s options = .ok p) ↔ s.Acceptable) ∧
      ((∃ e, build s options = .error e) ↔ ¬ s.Acceptable) := by
  have hfiles : ∀ {d}, Declared s d →
      ((∃ resolved, List.Forall₂ (fun file r => resolveFile ⟨s, d.symbols⟩ file = .ok r)
          (numberedFiles s) resolved) ↔
        (∀ i f, s.files[i]? = some f → ∀ x ∈ f.allMessages,
          s.FieldsAcceptable i (joinScope x.1 x.2.name) x.2) ∧
        ∀ i f, s.files[i]? = some f → ∀ svc ∈ f.services, ∀ m ∈ svc.methods,
          s.MessageKnown i f.package m.input ∧ s.MessageKnown i f.package m.output) := by
    intro d h
    rw [exists_forall₂_iff]
    constructor
    · intro hall
      have hf := fun i f hi => h.exists_resolveFile_iff.1 (hall (i, f) (mem_numberedFiles.2 hi))
      exact ⟨fun i f hi => (hf i f hi).1, fun i f hi => (hf i f hi).2⟩
    · rintro ⟨hm, hs⟩ ⟨i, f⟩ hif
      have hi := mem_numberedFiles.1 hif
      exact h.exists_resolveFile_iff.2 ⟨hm i f hi, hs i f hi⟩
  have hok : (∃ p, build s options = .ok p) ↔ s.Acceptable := by
    simp only [build_eq_ok_iff, checkImports_eq_ok_iff]
    constructor
    · rintro ⟨p, himports, d, hd, resolved, hr, -⟩
      have hnames := (stepsOf_names_perm s).nodup_iff.1 (declareAll_isOk_iff.1 ⟨d, hd⟩)
      obtain ⟨hm, hs⟩ := (hfiles (declared_of_declareAll hd)).1 ⟨resolved, hr⟩
      exact ⟨himports, hnames, hm, hs⟩
    · rintro ⟨himports, hnames, hm, hs⟩
      obtain ⟨d, hd⟩ := declareAll_isOk_iff.2 ((stepsOf_names_perm s).nodup_iff.2 hnames)
      obtain ⟨resolved, hr⟩ := (hfiles (declared_of_declareAll hd)).2 ⟨hm, hs⟩
      exact ⟨_, himports, d, hd, resolved, hr, rfl⟩
  refine ⟨hok, ?_⟩
  rw [← hok]
  cases build s options with
  | error e => simp
  | ok p => simp

end ProtoStub.Program

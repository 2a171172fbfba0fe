import ProtoStub.Proofs.Resolution

/-!
# Other spellings of types

Programs do not depend on lines, and on type names only by what these stand for. `FileSet.Respells`
relates two sets that are the same apart from lines and the spellings of types; which spellings may
replace which is a parameter. Both sets declare the same names in the same order
(`declareAll_respells`), so where every reference resolves as its replacement does, the same program
is built from both or from neither (`build_respells`).
-/

namespace ProtoStub.Schema

open Program (joinScope numberedFiles)

/-! ## The relation -/

/-- The same field on any line, its type spelled as `R` allows. -/
structure Field.Respells (R : String → String → Prop) (f f' : Field) : Prop where
  name : f'.name = f.name
  number : f'.number = f.number
  repeated : f'.repeated = f.repeated
  isMap : f'.isMap = f.isMap
  type : R f.type f'.type

/-- The same enum on any line. -/
structure Enum.Respells (e e' : Enum) : Prop where
  name : e'.name = e.name
  values : e'.values = e.values

/-- The same messages in the scope `scope` on any lines, with the types of their fields spelled as
`R` allows in the scope of each message. -/
inductive Message.AllRespell (R : String → String → String → Prop) :
    String → List Message → List Message → Prop
  | nil {scope : String} : AllRespell R scope [] []
  | cons {scope : String} {m m' : Message} {ms ms' : List Message} (hname : m'.name = m.name)
    (hfields : List.Forall₂ (Field.Respells (R (joinScope scope m.name))) m.fields m'.fields)
    (henums : List.Forall₂ Enum.Respells m.enums m'.enums)
    (hnested : AllRespell R (joinScope scope m.name) m.messages m'.messages)
    (hrest : AllRespell R scope ms ms') : AllRespell R scope (m :: ms) (m' :: ms')

/-- The same procedure on any line, its types spelled as `R` allows. -/
structure Method.Respells (R : String → String → Prop) (m m' : Method) : Prop where
  name : m'.name = m.name
  input : R m.input m'.input
  output : R m.output m'.output
  clientStreaming : m'.clientStreaming = m.clientStreaming
  serverStreaming : m'.serverStreaming = m.serverStreaming

/-- The same service on any line. -/
structure Service.Respells (R : String → String → Prop) (s s' : Service) : Prop where
  name : s'.name = s.name
  methods : List.Forall₂ (Method.Respells R) s.methods s'.methods

/-- What a type name is the type of. -/
inductive TypeUse where
  | field
  | procedure
  deriving DecidableEq

/-- The same file apart from lines and spellings of types, which `R` allows by what they are the
types of and by scope. -/
structure File.Respells (R : TypeUse → String → String → String → Prop) (f f' : File) : Prop where
  path : f'.path = f.path
  name : f'.name = f.name
  package : f'.package = f.package
  imports : f'.imports = f.imports
  messages : Message.AllRespell (R .field) f.package f.messages f'.messages
  enums : List.Forall₂ Enum.Respells f.enums f'.enums
  services : List.Forall₂ (Service.Respells (R .procedure f.package)) f.services f'.services

/-- The same files in the same order apart from lines and spellings of types, which `R` allows by
the number of the file. -/
structure FileSet.Respells (R : Nat → TypeUse → String → String → String → Prop) (s t : FileSet) :
    Prop where
  inputs : t.inputs = s.inputs
  length : t.files.length = s.files.length
  files : ∀ k f f', s.files[k]? = some f → t.files[k]? = some f' → File.Respells (R k) f f'

/-- In the scope `scope` of the file, `ref` is the type of a field or of a procedure. -/
inductive File.Refers (f : File) : TypeUse → String → String → Prop
  | field {x : String × Message} {fd : Field} (hx : x ∈ f.allMessages) (hfd : fd ∈ x.2.fields) :
    Refers f .field (joinScope x.1 x.2.name) fd.type
  | input {svc : Service} {m : Method} (hs : svc ∈ f.services) (hm : m ∈ svc.methods) :
    Refers f .procedure f.package m.input
  | output {svc : Service} {m : Method} (hs : svc ∈ f.services) (hm : m ∈ svc.methods) :
    Refers f .procedure f.package m.output

/-- The references of a file, listed. -/
def File.references (f : File) : List (TypeUse × String × String) :=
  (f.allMessages.flatMap fun x =>
    x.2.fields.map fun fd => (.field, joinScope x.1 x.2.name, fd.type)) ++
  f.services.flatMap fun svc => svc.methods.flatMap fun m =>
    [(.procedure, f.package, m.input), (.procedure, f.package, m.output)]

theorem File.Refers.mem_references {f : File} {use : TypeUse} {scope ref : String}
    (h : f.Refers use scope ref) : (use, scope, ref) ∈ f.references := by
  rw [File.references]
  cases h with
  | field hx hfd =>
    exact List.mem_append_left _ (List.mem_flatMap.2 ⟨_, hx, List.mem_map.2 ⟨_, hfd, rfl⟩⟩)
  | input hs hm =>
    exact List.mem_append_right _
      (List.mem_flatMap.2 ⟨_, hs, List.mem_flatMap.2 ⟨_, hm, by simp⟩⟩)
  | output hs hm =>
    exact List.mem_append_right _
      (List.mem_flatMap.2 ⟨_, hs, List.mem_flatMap.2 ⟨_, hm, by simp⟩⟩)

/-- Messages that are respelled have an outline of respelled messages. -/
theorem Message.AllRespell.outline {R : String → String → String → Prop} {scope : String}
    {ms ms' : List Message} (h : Message.AllRespell R scope ms ms') :
    List.Forall₂ (fun x x' => x'.1 = x.1 ∧ x'.2.name = x.2.name ∧
        List.Forall₂ (Field.Respells (R (joinScope x.1 x.2.name))) x.2.fields x'.2.fields)
      (Message.allWithNested scope ms) (Message.allWithNested scope ms') := by
  induction h with
  | nil => exact .nil
  | @cons scope m m' ms ms' hname hfields henums hnested hrest ihnested ihrest =>
    obtain ⟨name, line, fields, messages, enums⟩ := m
    obtain ⟨name', line', fields', messages', enums'⟩ := m'
    cases hname
    rw [Message.allWithNested, Message.allWithNested, Message.withNested, Message.withNested]
    exact List.rel_append (.cons ⟨rfl, rfl, hfields⟩ ihnested) ihrest

namespace FileSet.Respells

variable {R : Nat → TypeUse → String → String → String → Prop} {s t : FileSet}

/-- A file and its respelling stand at the same number. -/
theorem numbered (h : s.Respells R t) :
    List.Forall₂ (fun x x' => x'.1 = x.1 ∧ File.Respells (R x.1) x.2 x'.2) (numberedFiles s)
      (numberedFiles t) := by
  refine List.forall₂_iff_get.2 ⟨by simp [numberedFiles, h.length], fun k hk hk' => ?_⟩
  have hks : k < s.files.length := by simpa [numberedFiles] using hk
  have hkt : k < t.files.length := h.length ▸ hks
  simp only [numberedFiles, List.get_eq_getElem, List.getElem_zip, List.getElem_range, true_and]
  exact h.files k _ _ (List.getElem?_eq_getElem hks) (List.getElem?_eq_getElem hkt)

/-- What files keep is the same in both sets. -/
theorem map_eq {α : Type} {g : File → α}
    (hg : ∀ {R : TypeUse → String → String → String → Prop} {f f' : File},
      File.Respells R f f' → g f' = g f)
    (h : s.Respells R t) : t.files.map g = s.files.map g := by
  refine List.ext_getElem (by simp [h.length]) fun k hk hk' => ?_
  rw [List.length_map] at hk hk'
  rw [List.getElem_map, List.getElem_map]
  exact hg (h.files k _ _ (List.getElem?_eq_getElem hk') (List.getElem?_eq_getElem hk))

theorem index?_eq (h : s.Respells R t) (path : String) : t.index? path = s.index? path := by
  have hfind : ∀ u : FileSet, u.index? path = (u.files.map (·.path)).findIdx? (· == path) :=
    fun u => by rw [index?, List.findIdx?_map]; rfl
  rw [hfind, hfind, h.map_eq (·.path)]

theorem imports_eq (h : s.Respells R t) (k : Nat) :
    t.files[k]?.map (·.imports) = s.files[k]?.map (·.imports) := by
  rw [← List.getElem?_map, ← List.getElem?_map, h.map_eq (·.imports)]

theorem importsOf_eq (h : s.Respells R t) (k : Nat) : t.importsOf k = s.importsOf k := by
  have himports := h.imports_eq k
  rw [importsOf, importsOf]
  simp only [h.index?_eq]
  cases hs : s.files[k]? <;> cases ht : t.files[k]? <;> simp_all

theorem publicImportsOf_eq (h : s.Respells R t) (k : Nat) :
    t.publicImportsOf k = s.publicImportsOf k := by
  have himports := h.imports_eq k
  rw [publicImportsOf, publicImportsOf]
  simp only [h.index?_eq]
  cases hs : s.files[k]? <;> cases ht : t.files[k]? <;> simp_all

/-- The same files are seen in both sets. -/
theorem visibleFrom_eq (h : s.Respells R t) (k : Nat) : t.visibleFrom k = s.visibleFrom k := by
  rw [visibleFrom, visibleFrom, h.importsOf_eq, h.length, funext h.publicImportsOf_eq]

end FileSet.Respells

end ProtoStub.Schema

namespace ProtoStub.Program

open Schema (FileSet TypeUse)

variable {R : Nat → TypeUse → String → String → String → Prop} {s t : FileSet}

/-- The imports of both sets lead to their files or not. -/
theorem checkImports_respells (h : s.Respells R t) :
    checkImports t = .ok () ↔ checkImports s = .ok () := by
  have hpaths : ∀ path, (∃ g ∈ t.files, g.path = path) ↔ ∃ g ∈ s.files, g.path = path := by
    intro path
    rw [← List.mem_map, ← List.mem_map, h.map_eq (·.path)]
  have hall : ∀ u : FileSet, (∀ f ∈ u.files, ∀ imp ∈ f.imports, imp.resolved ≠ "" →
      ∃ g ∈ u.files, g.path = imp.resolved) ↔
      ∀ imps ∈ u.files.map (·.imports), ∀ imp ∈ imps, imp.resolved ≠ "" →
        ∃ g ∈ u.files, g.path = imp.resolved := fun u => by simp
  rw [checkImports_eq_ok_iff, checkImports_eq_ok_iff, hall, hall, h.map_eq (·.imports)]
  simp only [hpaths]

/-! ## Declarations -/

/-- The same message, as far as programs depend on it. -/
def DeclaredMessage.Respells (m m' : DeclaredMessage) : Prop :=
  m'.fullName = m.fullName ∧ m'.file = m.file ∧ m'.parent = m.parent ∧ m'.raw.name = m.raw.name

/-- The same enum, as far as programs depend on it. -/
def DeclaredEnum.Respells (e e' : DeclaredEnum) : Prop :=
  e'.fullName = e.fullName ∧ e'.file = e.file ∧ e'.parent = e.parent ∧
    e'.raw.name = e.raw.name ∧ e'.raw.values = e.raw.values

/-- The steps declare the same. -/
inductive Step.Respells : Step → Step → Prop
  | message {m m' : DeclaredMessage} (h : m.Respells m') : Respells (.message m) (.message m')
  | enum {e e' : DeclaredEnum} (h : e.Respells e') : Respells (.enum e) (.enum e')

/-- The same declarations and the same table. -/
structure Declarations.Respells (d d' : Declarations) : Prop where
  messages : List.Forall₂ DeclaredMessage.Respells d.messages d'.messages
  enums : List.Forall₂ DeclaredEnum.Respells d.enums d'.enums
  symbols : d'.symbols = d.symbols
  nested : d'.nested = d.nested
  tops : d'.tops = d.tops

theorem Step.Respells.fullName_eq {st st' : Step} (h : st.Respells st') :
    st'.fullName = st.fullName := by
  cases h with
  | message h => exact h.1
  | enum h => exact h.1

/-- Steps that declare the same declare equally many messages. -/
theorem length_messagesOf {steps steps' : List Step}
    (h : List.Forall₂ Step.Respells steps steps') :
    (messagesOf steps').length = (messagesOf steps).length := by
  induction h with
  | nil => rfl
  | cons hst _ ih =>
    cases hst with
    | message => simp [ih]
    | enum => simpa using ih

theorem enumEntries_respells {file : Nat} {parent : Option Nat} {scope : String}
    {es es' : List Schema.Enum} (h : List.Forall₂ Schema.Enum.Respells es es') :
    List.Forall₂ Step.Respells ((enumEntries file parent scope es).map .enum)
      ((enumEntries file parent scope es').map .enum) := by
  induction h with
  | nil => exact .nil
  | cons he _ ih =>
    refine .cons (.enum ⟨?_, rfl, rfl, he.name, he.values⟩) ih
    simp only [he.name]

theorem messagesSteps_respells {R : String → String → String → Prop} {scope : String}
    {ms ms' : List Schema.Message} (h : Schema.Message.AllRespell R scope ms ms') (file : Nat)
    (parent : Option Nat) (base : Nat) :
    List.Forall₂ Step.Respells (messagesSteps file parent scope base ms)
      (messagesSteps file parent scope base ms') := by
  induction h generalizing parent base with
  | nil => exact .nil
  | @cons scope m m' ms ms' hname hfields henums hnested hrest ihnested ihrest =>
    obtain ⟨name, line, fields, messages, enums⟩ := m
    obtain ⟨name', line', fields', messages', enums'⟩ := m'
    cases hname
    have hown : List.Forall₂ Step.Respells
        (messageSteps file parent scope base ⟨name, line, fields, messages, enums⟩)
        (messageSteps file parent scope base ⟨name, line', fields', messages', enums'⟩) := by
      rw [messageSteps, messageSteps]
      exact .cons (.message ⟨rfl, rfl, rfl, rfl⟩)
        (List.rel_append (ihnested _ _) (enumEntries_respells henums))
    rw [messagesSteps, messagesSteps, length_messagesOf hown]
    exact List.rel_append hown (ihrest _ _)

theorem filesSteps_respells {files files' : List (Nat × Schema.File)}
    (h : List.Forall₂ (fun x x' => x'.1 = x.1 ∧ Schema.File.Respells (R x.1) x.2 x'.2) files
      files') (base : Nat) :
    List.Forall₂ Step.Respells (filesSteps base files) (filesSteps base files') := by
  induction h generalizing base with
  | nil => exact .nil
  | @cons x x' files files' hx _ ih =>
    obtain ⟨k, f⟩ := x
    obtain ⟨k', f'⟩ := x'
    obtain ⟨rfl, hf⟩ := hx
    have hown : List.Forall₂ Step.Respells (fileSteps base (k', f)) (fileSteps base (k', f')) := by
      rw [fileSteps, fileSteps, hf.package]
      exact List.rel_append (messagesSteps_respells hf.messages _ _ _)
        (enumEntries_respells hf.enums)
    rw [filesSteps, filesSteps, length_messagesOf hown]
    exact List.rel_append hown (ih _)

/-- One more message that is the same in both. -/
theorem Declarations.Respells.addMessage {d d' : Declarations} (hd : d.Respells d')
    {m m' : DeclaredMessage} (hm : m.Respells m') :
    (d.add (.message m)).Respells (d'.add (.message m')) := by
  obtain ⟨hfull, hfile, hparent, hname⟩ := hm
  obtain ⟨hmessages, henums, hsymbols, hnested, htops⟩ := hd
  have hlen := hmessages.length_eq
  refine ⟨?_, ?_, ?_, ?_, ?_⟩
  · simpa using List.rel_append hmessages (.cons ⟨hfull, hfile, hparent, hname⟩ .nil)
  · simpa using henums
  · simp only [add_message_symbols, hfull, hfile, hsymbols, hlen]
  all_goals
    simp only [add, appendMessage, modifyAt, hfile, hparent, hnested, htops, hlen]
    cases Place.of m.file m.parent <;> rfl

/-- One more enum that is the same in both. -/
theorem Declarations.Respells.addEnum {d d' : Declarations} (hd : d.Respells d')
    {e e' : DeclaredEnum} (he : e.Respells e') :
    (d.add (.enum e)).Respells (d'.add (.enum e')) := by
  obtain ⟨hfull, hfile, hparent, hname⟩ := he
  obtain ⟨hmessages, henums, hsymbols, hnested, htops⟩ := hd
  have hlen := henums.length_eq
  refine ⟨?_, ?_, ?_, ?_, ?_⟩
  · simpa using hmessages
  · simpa using List.rel_append henums (.cons ⟨hfull, hfile, hparent, hname⟩ .nil)
  · simp only [add_enum_symbols, hfull, hfile, hsymbols, hlen]
  all_goals
    simp only [add, appendEnum, modifyAt, hfile, hparent, hnested, htops, hlen]
    cases Place.of e.file e.parent <;> rfl

/-- Running steps that declare the same gives the same declarations. -/
theorem run_respells {steps steps' : List Step} (h : List.Forall₂ Step.Respells steps steps')
    {d d' e : Declarations} (hd : d.Respells d') (hr : steps.foldlM (Step.run s) d = .ok e) :
    ∃ e', steps'.foldlM (Step.run t) d' = .ok e' ∧ e.Respells e' := by
  induction h generalizing d d' with
  | nil =>
    cases hr
    exact ⟨d', rfl, hd⟩
  | @cons st st' steps steps' hst _ ih =>
    rw [List.foldlM_cons] at hr ⊢
    obtain ⟨d₁, hrun, hrest⟩ := bind_eq_ok_iff.1 hr
    obtain ⟨hnone, rfl⟩ := Step.run_eq_ok_iff.1 hrun
    have hrun' : st'.run t d' = .ok (d'.add st') :=
      Step.run_eq_ok_iff.2 ⟨by rw [hst.fullName_eq, hd.symbols]; exact hnone, rfl⟩
    have hadd : (d.add st).Respells (d'.add st') := by
      cases hst with
      | message hm => exact hd.addMessage hm
      | enum he => exact hd.addEnum he
    obtain ⟨e', hrest', he⟩ := ih hadd hrest
    exact ⟨e', bind_eq_ok_iff.2 ⟨_, hrun', hrest'⟩, he⟩

/-- Both sets declare the same. -/
theorem declareAll_respells (h : s.Respells R t) {d : Declarations} (hd : declareAll s = .ok d) :
    ∃ d', declareAll t = .ok d' ∧ d.Respells d' := by
  rw [declareAll_eq_foldlM] at hd ⊢
  have hstart : (Declarations.start s).Respells (.start t) :=
    ⟨.nil, .nil, rfl, rfl, h.map_eq (g := fun _ => ({} : Members)) fun _ => rfl⟩
  exact run_respells (filesSteps_respells h.numbered 0) hstart hd

/-- Both sets declare no name twice, or neither. -/
theorem exists_declareAll_respells (h : s.Respells R t) {d' : Declarations}
    (hd' : declareAll t = .ok d') : ∃ d, declareAll s = .ok d ∧ d.Respells d' := by
  have hnames : (stepsOf s).map Step.fullName = (stepsOf t).map Step.fullName :=
    map_eq_of_forall₂ (filesSteps_respells h.numbered 0) fun _ _ hst => hst.fullName_eq.symm
  obtain ⟨d, hd⟩ := declareAll_isOk_iff.2 (hnames.symm ▸ declareAll_isOk_iff.1 ⟨d', hd'⟩)
  obtain ⟨d'', hd'', hdd⟩ := declareAll_respells h hd
  cases hd'.symm.trans hd''
  exact ⟨d, hd, hdd⟩

/-! ## Resolution -/

/-- In the scope `scope` of the file `k`, the two spellings resolve to the same types. -/
def ResolveAlike (s : FileSet) (d : Declarations) (k : Nat) (scope ref ref' : String) : Prop :=
  ∀ type, Names.resolve ⟨s, d.symbols⟩ (s.visibleFrom k) k scope ref = .ok type ↔
    Names.resolve ⟨s, d.symbols⟩ (s.visibleFrom k) k scope ref' = .ok type

/-- Items that come to the same can be exchanged. -/
theorem forall₂_congr_left {α α' β : Type} {P : α → β → Prop} {P' : α' → β → Prop} {xs : List α}
    {xs' : List α'} {ys : List β} (h : List.Forall₂ (fun x x' => ∀ y, P x y ↔ P' x' y) xs xs') :
    List.Forall₂ P xs ys ↔ List.Forall₂ P' xs' ys := by
  induction h generalizing ys with
  | nil => simp
  | cons hx _ ih => cases ys <;> simp [hx, ih]

/-- Related lists stay so beside another list. -/
theorem forall₂_zip {α α' β : Type} {P : α → α' → Prop} {xs : List α} {xs' : List α'}
    (h : List.Forall₂ P xs xs') (ys : List β) :
    List.Forall₂ (fun x x' => P x.1 x'.1 ∧ x'.2 = x.2) (xs.zip ys) (xs'.zip ys) := by
  induction h generalizing ys with
  | nil => exact .nil
  | cons hx _ ih =>
    cases ys with
    | nil => exact .nil
    | cons y ys => exact .cons ⟨hx, rfl⟩ (ih ys)

/-- Related lists are related by their items. -/
theorem forall₂_of_mem {α β : Type} {P : α → β → Prop} {xs : List α} {ys : List β}
    (h : List.Forall₂ P xs ys) : List.Forall₂ (fun x y => x ∈ xs ∧ P x y) xs ys :=
  (List.forall₂_and_left _ _).2 ⟨fun _ hx => hx, h⟩

section
variable {d : Declarations} {k : Nat} {scope owner name : String}

/-- Which types a reference resolves to does not depend on the files that are read, only on what
they declare. -/
theorem Declarations.Indexed.resolve_set (hd : d.Indexed) {visible : List Nat} {ref : String}
    {type : TypeRef} :
    Names.resolve ⟨t, d.symbols⟩ visible k scope ref = .ok type ↔
      Names.resolve ⟨s, d.symbols⟩ visible k scope ref = .ok type := by
  rw [hd.resolve_eq_ok_iff, hd.resolve_eq_ok_iff]

/-- Fields whose types resolve alike are resolved alike. -/
theorem resolveFields_respells (hd : d.Indexed) {fs fs' : List Schema.Field}
    (h : List.Forall₂ (Schema.Field.Respells (ResolveAlike s d k owner)) fs fs')
    {done out : List Field} :
    resolveFields ⟨t, d.symbols⟩ (s.visibleFrom k) k owner name done fs' = .ok out ↔
      resolveFields ⟨s, d.symbols⟩ (s.visibleFrom k) k owner name done fs = .ok out := by
  induction h generalizing done with
  | nil => exact Iff.rfl
  | cons hf _ ih =>
    rw [resolveFields_cons_eq_ok_iff, resolveFields_cons_eq_ok_iff]
    simp only [FieldResolves, hf.name, hf.number, hf.repeated, hf.isMap, ih,
      hd.resolve_set (s := s)]
    simp only [← hf.type _]

/-- A procedure whose types resolve alike is resolved alike. -/
theorem resolveMethod_respells (hd : d.Indexed) {m m' : Schema.Method}
    (h : Schema.Method.Respells (ResolveAlike s d k scope) m m') {r : Method} :
    resolveMethod ⟨t, d.symbols⟩ (s.visibleFrom k) k scope owner m' = .ok r ↔
      resolveMethod ⟨s, d.symbols⟩ (s.visibleFrom k) k scope owner m = .ok r := by
  rw [resolveMethod_eq_ok_iff, resolveMethod_eq_ok_iff]
  simp only [hd.resolve_set (s := s), h.name, h.clientStreaming, h.serverStreaming]
  rw [← h.input, ← h.output]

/-- A service whose types resolve alike is resolved alike. -/
theorem resolveService_respells (hd : d.Indexed) {svc svc' : Schema.Service}
    (h : Schema.Service.Respells (ResolveAlike s d k scope) svc svc') {r : Service} :
    resolveService ⟨t, d.symbols⟩ (s.visibleFrom k) k scope svc' = .ok r ↔
      resolveService ⟨s, d.symbols⟩ (s.visibleFrom k) k scope svc = .ok r := by
  rw [resolveService_eq_ok_iff, resolveService_eq_ok_iff, h.name]
  refine and_congr_left fun _ => (forall₂_congr_left ?_).symm
  exact h.methods.imp fun m m' hm r => (resolveMethod_respells hd hm).symm

/-- A file whose types resolve alike is resolved alike. -/
theorem resolveFile_respells (hd : d.Indexed) (h : s.Respells R t) {f f' : Schema.File}
    (hf : Schema.File.Respells (R k) f f')
    (hR : ∀ use scope ref ref', f.Refers use scope ref → R k use scope ref ref' →
      ResolveAlike s d k scope ref ref') {r : ResolvedFile} :
    resolveFile ⟨t, d.symbols⟩ (k, f') = .ok r ↔ resolveFile ⟨s, d.symbols⟩ (k, f) = .ok r := by
  rw [resolveFile_eq_ok_iff, resolveFile_eq_ok_iff]
  dsimp only
  rw [h.visibleFrom_eq, hf.package]
  refine and_congr (forall₂_congr_left ?_).symm (forall₂_congr_left ?_).symm
  · have hpackage : f'.allMessages = Schema.Message.allWithNested f.package f'.messages := by
      rw [Schema.File.allMessages, hf.package]
    rw [hpackage]
    refine (forall₂_of_mem hf.messages.outline).imp fun x x' hx y => ?_
    obtain ⟨hx, hscope, hname, hfields⟩ := hx
    have halike : List.Forall₂
        (Schema.Field.Respells (ResolveAlike s d k (joinScope x.1 x.2.name))) x.2.fields
        x'.2.fields :=
      (forall₂_of_mem hfields).imp fun fd fd' hfd =>
        { hfd.2 with type := hR _ _ _ _ (.field hx hfd.1) hfd.2.type }
    rw [resolveOutlined_eq_ok_iff, resolveOutlined_eq_ok_iff, hscope, hname]
    exact exists_congr fun own => and_congr (resolveFields_respells hd halike).symm Iff.rfl
  · refine (forall₂_of_mem hf.services).imp fun svc svc' hsvc r => ?_
    have halike : Schema.Service.Respells (ResolveAlike s d k f.package) svc svc' :=
      ⟨hsvc.2.name, (forall₂_of_mem hsvc.2.methods).imp fun m m' hm =>
        { hm.2 with
          input := hR _ _ _ _ (.input hsvc.1 hm.1) hm.2.input
          output := hR _ _ _ _ (.output hsvc.1 hm.1) hm.2.output }⟩
    exact (resolveService_respells hd halike).symm

end

/-! ## Programs -/

section
variable {d d' : Declarations}

theorem Declarations.Respells.membersAt_eq (hd : d.Respells d') (place : Place) :
    d'.membersAt place = d.membersAt place := by
  cases place with
  | top k => rw [membersAt, membersAt, hd.tops]
  | inside j => rw [membersAt, membersAt, hd.nested]

theorem fileOf_respells (h : s.Respells R t) (hd : d.Respells d') (options : BuildOptions) {k : Nat}
    {f f' : Schema.File} (hf : Schema.File.Respells (R k) f f') (services : List Service) :
    d'.fileOf t options k f' services = d.fileOf s options k f services := by
  simp only [Declarations.fileOf, hf.path, hf.name, hf.package, h.importsOf_eq, FileSet.isInput,
    h.inputs, hd.membersAt_eq]

theorem messageOf_respells (hd : d.Respells d') (i : Nat) {m m' : DeclaredMessage}
    (hm : m.Respells m') (fields : List Field) :
    d'.messageOf i m' fields = d.messageOf i m fields := by
  obtain ⟨hfull, hfile, hparent, hname⟩ := hm
  simp only [Declarations.messageOf, hfull, hfile, hparent, hname, hd.membersAt_eq]

/-- The same program is put together from both sets. -/
theorem assemble_respells (h : s.Respells R t) (hd : d.Respells d') (options : BuildOptions)
    (resolved : List ResolvedFile) :
    assemble t options d' resolved = assemble s options d resolved := by
  have hfiles : (assemble t options d' resolved).files = (assemble s options d resolved).files := by
    refine (map_eq_of_forall₂ (forall₂_zip h.numbered resolved) fun x x' hx => ?_).symm
    obtain ⟨⟨k, f⟩, r⟩ := x
    obtain ⟨⟨k', f'⟩, r'⟩ := x'
    obtain ⟨⟨rfl, hf⟩, rfl⟩ := hx
    exact (fileOf_respells h hd options hf r'.services).symm
  have hmessages : (assemble t options d' resolved).messages =
      (assemble s options d resolved).messages := by
    refine List.ext_getElem (by simp [assemble, hd.messages.length_eq]) fun i hi hi' => ?_
    simp only [assemble, List.getElem_map, List.getElem_zip, List.getElem_range]
    have hlt : i < d.messages.length := by simpa [assemble] using hi'
    exact messageOf_respells hd i (hd.messages.get hlt (hd.messages.length_eq ▸ hlt)) _
  have henums : (assemble t options d' resolved).enums = (assemble s options d resolved).enums := by
    refine (map_eq_of_forall₂ hd.enums fun e e' he => ?_).symm
    obtain ⟨hfull, hfile, hparent, hname, hvalues⟩ := he
    simp only [DeclaredEnum.toEnum, hfull, hfile, hparent, hname, hvalues]
  exact (Program.mk.injEq ..).mpr ⟨hfiles, hmessages, henums⟩

end

/-- When every reference resolves as its other spelling does, the same program is built from both
sets, or from neither. -/
theorem build_respells (h : s.Respells R t)
    (hR : ∀ d, Declared s d → ∀ k f, s.files[k]? = some f → ∀ use scope ref ref',
      f.Refers use scope ref → R k use scope ref ref' → ResolveAlike s d k scope ref ref')
    {options : BuildOptions} {p : Program} :
    build t options = .ok p ↔ build s options = .ok p := by
  have hfiles : ∀ {d d' : Declarations}, Declared s d → d.Respells d' →
      ∀ resolved, List.Forall₂ (fun file r => resolveFile ⟨t, d'.symbols⟩ file = .ok r)
        (numberedFiles t) resolved ↔
      List.Forall₂ (fun file r => resolveFile ⟨s, d.symbols⟩ file = .ok r)
        (numberedFiles s) resolved := by
    intro d d' hd hdd resolved
    refine (forall₂_congr_left ?_).symm
    refine (forall₂_of_mem h.numbered).imp fun x x' hx r => ?_
    obtain ⟨k, f⟩ := x
    obtain ⟨k', f'⟩ := x'
    obtain ⟨hx, rfl, hf⟩ := hx
    rw [hdd.symbols]
    exact (resolveFile_respells hd.indexed h hf (hR d hd _ f (mem_numberedFiles.1 hx))).symm
  rw [build_eq_ok_iff, build_eq_ok_iff, checkImports_respells h]
  refine and_congr_right fun _ => ?_
  constructor
  · rintro ⟨d', hd', resolved, hresolved, rfl⟩
    obtain ⟨d, hd, hdd⟩ := exists_declareAll_respells h hd'
    exact ⟨d, hd, resolved, (hfiles (declared_of_declareAll hd) hdd resolved).1 hresolved,
      assemble_respells h hdd options resolved⟩
  · rintro ⟨d, hd, resolved, hresolved, rfl⟩
    obtain ⟨d', hd', hdd⟩ := declareAll_respells h hd
    exact ⟨d', hd', resolved, (hfiles (declared_of_declareAll hd) hdd resolved).2 hresolved,
      (assemble_respells h hdd options resolved).symm⟩

end ProtoStub.Program

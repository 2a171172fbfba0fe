import ProtoStub.Proofs.Acceptance
import ProtoStub.Proofs.Modularity

/-!
# The order of the files does not matter

A set of files with distinct paths may list them in any order. The numbers of files, messages and
enums follow that order, and so does the first error that is found; whether there is a program, and
what its types refer to, does not. `Isomorphic` says of two programs that they differ in numbers
only, without a relation of numbers given from outside: files are the same when they have the same
path, messages and enums when they have the same full name. In two orders of a set every file sees
the same files (`Reordered.shared`), so the same type names are known in it
(`Shared.fieldsAcceptable`, `Shared.messageKnown`) and one order is accepted when the other is
(`Reordered.exists_build`). A full name leads from the messages of one program to those of the other
along the places in their files (`Reordered.messageIn`), which carries over what is known there
about related messages. `build_reordered` puts both together.
-/

namespace ProtoStub.Schema.FileSet

/-! ## The same names are known -/

namespace Shared

variable {s t : FileSet} {i j : Nat} {scope ref name : String}

/-- A file sees the same files in both sets, whatever is asked of them. -/
theorem exists_visible_iff (h : s.Shared t i j) {P : File → Prop} :
    (∃ k f, s.Visible i k ∧ s.files[k]? = some f ∧ P f) ↔
      ∃ l f, t.Visible j l ∧ t.files[l]? = some f ∧ P f := by
  have honly : ∀ {s t : FileSet} {i j : Nat}, s.Shared t i j →
      (∃ k f, s.Visible i k ∧ s.files[k]? = some f ∧ P f) →
      ∃ l f, t.Visible j l ∧ t.files[l]? = some f ∧ P f := by
    rintro s t i j h ⟨k, f, hv, hk, hP⟩
    obtain ⟨l, hl, f', hk', hl'⟩ := h.right hv
    cases hk.symm.trans hk'
    exact ⟨l, f, hl, hl', hP⟩
  exact ⟨honly h, honly h.symm⟩

theorem seesMessage (h : s.Shared t i j) : s.SeesMessage i name ↔ t.SeesMessage j name :=
  h.exists_visible_iff

theorem seesEnum (h : s.Shared t i j) : s.SeesEnum i name ↔ t.SeesEnum j name :=
  h.exists_visible_iff

theorem seesType_eq (h : s.Shared t i j) : s.SeesType i = t.SeesType j := by
  funext name
  rw [SeesType, SeesType, h.seesMessage, h.seesEnum]

theorem typeKnown (h : s.Shared t i j) : s.TypeKnown i scope ref ↔ t.TypeKnown j scope ref := by
  rw [TypeKnown, TypeKnown, h.seesType_eq]

/-- The same type names stand for messages. -/
theorem messageKnown (h : s.Shared t i j) :
    s.MessageKnown i scope ref ↔ t.MessageKnown j scope ref := by
  simp only [MessageKnown, h.seesType_eq, h.seesMessage]

/-- The same messages have acceptable fields. -/
theorem fieldsAcceptable (h : s.Shared t i j) {m : Message} :
    s.FieldsAcceptable i name m ↔ t.FieldsAcceptable j name m := by
  constructor
  · rintro ⟨hmap, hnumbers, hnames, htypes⟩
    exact ⟨hmap, hnumbers, hnames, fun f hf => h.typeKnown.1 (htypes f hf)⟩
  · rintro ⟨hmap, hnumbers, hnames, htypes⟩
    exact ⟨hmap, hnumbers, hnames, fun f hf => h.typeKnown.2 (htypes f hf)⟩

end Shared

end ProtoStub.Schema.FileSet

namespace ProtoStub.Program

open Schema (FileSet)

/-! ## Sets in another order -/

/-- The files of `t` are those of `s`, which have distinct paths, in some order. -/
structure Reordered (s t : FileSet) : Prop where
  files : s.files.Perm t.files
  inputs : s.inputs = t.inputs
  left_paths : s.DistinctPaths

namespace Reordered

variable {s t : FileSet} {i j : Nat}

theorem right_paths (h : Reordered s t) : t.DistinctPaths :=
  (h.files.map _).nodup_iff.1 h.left_paths

theorem symm (h : Reordered s t) : Reordered t s where
  files := h.files.symm
  inputs := h.inputs.symm
  left_paths := h.right_paths

/-- Every file has a place in the other order. -/
theorem exists_alike (h : Reordered s t) {f : Schema.File} (hi : s.files[i]? = some f) :
    ∃ j, t.files[j]? = some f ∧ s.Alike t i j := by
  obtain ⟨j, hj⟩ := List.mem_iff_getElem?.1 (h.files.mem_iff.1 (List.mem_of_getElem? hi))
  exact ⟨j, hj, f, hi, hj⟩

/-- A file sees the same files in both orders. -/
theorem shared (h : Reordered s t) (hij : s.Alike t i j)
    (hloaded : ∀ f ∈ s.files, ∀ imp ∈ f.imports, imp.resolved ≠ "" →
      ∃ g ∈ s.files, g.path = imp.resolved) : s.Shared t i j :=
  FileSet.shared_of_visible h.left_paths h.right_paths hij hloaded fun _ _ _ hk =>
    h.files.mem_iff.1 (List.mem_of_getElem? hk)

/-- A path leads to the same file in both orders. -/
theorem alike_index? (h : Reordered s t) {path : String} :
    Option.Rel (s.Alike t) (s.index? path) (t.index? path) := by
  have hmem : ∀ {k f}, s.files[k]? = some f → f ∈ t.files := fun hk =>
    h.files.mem_iff.1 (List.mem_of_getElem? hk)
  cases hs : s.index? path with
  | some k =>
    obtain ⟨l, hl, ha⟩ := FileSet.exists_index? h.right_paths hs fun f hf => hmem hf
    rw [hl]
    exact .some ha
  | none =>
    have ht : t.index? path = none := by
      rw [FileSet.index?, List.findIdx?_eq_none_iff] at hs ⊢
      exact fun f hf => hs f (h.files.mem_iff.2 hf)
    rw [ht]
    exact .none

/-- A file imports the same files in both orders. -/
theorem alike_importsOf (h : Reordered s t) (hij : s.Alike t i j) :
    List.Forall₂ (s.Alike t) (s.importsOf i) (t.importsOf j) := by
  obtain ⟨f, hi, hj⟩ := hij
  rw [FileSet.importsOf, FileSet.importsOf, hi, hj]
  dsimp only
  induction f.imports.filter (·.resolved != "") with
  | nil => exact .nil
  | cons imp rest ih =>
    rw [List.filterMap_cons, List.filterMap_cons]
    have hrel : Option.Rel (s.Alike t) (s.index? imp.resolved) (t.index? imp.resolved) :=
      h.alike_index?
    generalize s.index? imp.resolved = a at hrel
    generalize t.index? imp.resolved = b at hrel
    cases hrel with
    | none => exact ih
    | some hab => exact .cons hab ih

end Reordered

/-! ## Either order is accepted -/

/-- A set is accepted in one order when it is in another. -/
theorem Reordered.exists_build {s t : FileSet} (h : Reordered s t) {options : BuildOptions}
    (hs : ∃ p, build s options = .ok p) : ∃ q, build t options = .ok q := by
  obtain ⟨p, hp⟩ := hs
  obtain ⟨himports, d, hd, resolved, hr, -⟩ := build_eq_ok_iff.1 hp
  have hloaded := checkImports_eq_ok_iff.1 himports
  have himports' : checkImports t = .ok () := by
    rw [checkImports_eq_ok_iff]
    intro f hf imp himp hne
    obtain ⟨g, hg, hpath⟩ := hloaded f (h.files.mem_iff.2 hf) imp himp hne
    exact ⟨g, h.files.mem_iff.1 hg, hpath⟩
  have hnames : ((stepsOf t).map Step.fullName).Nodup := by
    have hperm : s.fullNames.Perm t.fullNames := h.files.flatMap_right _
    rw [(stepsOf_names_perm t).nodup_iff, ← hperm.nodup_iff, ← (stepsOf_names_perm s).nodup_iff]
    exact declareAll_isOk_iff.1 ⟨d, hd⟩
  obtain ⟨e, he⟩ := declareAll_isOk_iff.2 hnames
  have hfiles : ∀ file ∈ numberedFiles t, ∃ r, resolveFile ⟨t, e.symbols⟩ file = .ok r := by
    rintro ⟨j, f⟩ hjf
    obtain ⟨i, hi, ha⟩ := h.symm.exists_alike (mem_numberedFiles.1 hjf)
    have hshared := h.shared ha.symm hloaded
    obtain ⟨hm, hsvc⟩ := (declared_of_declareAll hd).exists_resolveFile_iff.1
      (exists_forall₂_iff.1 ⟨resolved, hr⟩ (i, f) (mem_numberedFiles.2 hi))
    refine (declared_of_declareAll he).exists_resolveFile_iff.2 ⟨fun x hx => ?_, ?_⟩
    · exact hshared.fieldsAcceptable.1 (hm x hx)
    · intro svc hin m hmem
      obtain ⟨hinput, houtput⟩ := hsvc svc hin m hmem
      exact ⟨hshared.messageKnown.1 hinput, hshared.messageKnown.1 houtput⟩
  obtain ⟨resolved', hr'⟩ := exists_forall₂_iff.2 hfiles
  exact ⟨_, build_eq_ok_iff.2 ⟨himports', e, he, resolved', hr', rfl⟩⟩

/-! ## Programs up to numbers -/

/-- The file `k` of `p` and the file `l` of `q` have the same path. -/
def SamePath (p q : Program) (k l : Nat) : Prop :=
  ∃ f g, p.files[k]? = some f ∧ q.files[l]? = some g ∧ f.path = g.path

/-- The message `i` of `p` and the message `j` of `q` have the same full name. -/
def SameMessageName (p q : Program) (i j : Nat) : Prop :=
  ∃ m n, p.messages[i]? = some m ∧ q.messages[j]? = some n ∧ m.fullName = n.fullName

/-- The enum `i` of `p` and the enum `j` of `q` have the same full name. -/
def SameEnumName (p q : Program) (i j : Nat) : Prop :=
  ∃ e g, p.enums[i]? = some e ∧ q.enums[j]? = some g ∧ e.fullName = g.fullName

/-- The same file up to numbers: what it imports has the same paths, and what it declares the same
full names. -/
structure SameRecord (p q : Program) (f g : File) : Prop where
  path : f.path = g.path
  name : f.name = g.name
  baseName : f.baseName = g.baseName
  relDir : f.relDir = g.relDir
  package : f.package = g.package
  namespaceName : f.namespaceName = g.namespaceName
  isInput : f.isInput = g.isInput
  imports : List.Forall₂ (SamePath p q) f.imports g.imports
  messages : List.Forall₂ (SameMessageName p q) f.messages g.messages
  enums : List.Forall₂ (SameEnumName p q) f.enums g.enums
  services :
    List.Forall₂ (SameService (SameMessageName p q) (SameEnumName p q)) f.services g.services

/-- The programs differ in the numbers of files, messages and enums only. Paths and full names occur
once, so they tell which ones belong together. -/
structure Isomorphic (p q : Program) : Prop where
  /-- The files have the same paths, each once. -/
  paths : (p.files.map (·.path)).Perm (q.files.map (·.path)) ∧ (p.files.map (·.path)).Nodup
  /-- The messages have the same full names. -/
  messageNames : (p.messages.map (·.fullName)).Perm (q.messages.map (·.fullName))
  /-- The enums have the same full names. -/
  enumNames : (p.enums.map (·.fullName)).Perm (q.enums.map (·.fullName))
  /-- No full name occurs twice. -/
  names_nodup : (p.messages.map (·.fullName) ++ p.enums.map (·.fullName)).Nodup
  /-- Files with the same path are the same. -/
  file : ∀ {k l}, SamePath p q k l → SameRecord p q (p.file k) (q.file l)
  /-- Messages with the same full name have the same name, parent, file and nested types. -/
  message : ∀ {i j}, SameMessageName p q i j →
    SameMessage (SamePath p q) (SameMessageName p q) (SameEnumName p q) (p.message i) (q.message j)
  /-- Messages with the same full name have the same fields, whose types have the same names. -/
  fields : ∀ {i j}, SameMessageName p q i j →
    List.Forall₂ (SameField (SameMessageName p q) (SameEnumName p q))
      (p.message i).fields (q.message j).fields
  /-- Enums with the same full name have the same name, parent, file and values. -/
  enum : ∀ {i j}, SameEnumName p q i j →
    SameEnum (SamePath p q) (SameMessageName p q) (p.enum i) (q.enum j)

/-! ## Relations of numbers -/

section
variable {F F' M M' E E' : Nat → Nat → Prop}

theorem SameType.imp (hM : ∀ i j, M i j → M' i j) (hE : ∀ i j, E i j → E' i j) {a b : TypeRef}
    (h : SameType M E a b) : SameType M' E' a b := by
  cases h with
  | scalar w => exact .scalar w
  | wellKnown w => exact .wellKnown w
  | message h => exact .message (hM _ _ h)
  | enum h => exact .enum (hE _ _ h)

theorem SameField.imp (hM : ∀ i j, M i j → M' i j) (hE : ∀ i j, E i j → E' i j) {a b : Field}
    (h : SameField M E a b) : SameField M' E' a b :=
  ⟨h.type.imp hM hE, h.rest⟩

theorem SameMethod.imp (hM : ∀ i j, M i j → M' i j) (hE : ∀ i j, E i j → E' i j) {a b : Method}
    (h : SameMethod M E a b) : SameMethod M' E' a b :=
  ⟨h.input.imp hM hE, h.output.imp hM hE, h.rest⟩

theorem SameService.imp (hM : ∀ i j, M i j → M' i j) (hE : ∀ i j, E i j → E' i j) {a b : Service}
    (h : SameService M E a b) : SameService M' E' a b :=
  ⟨h.name, List.Forall₂.imp (fun _ _ hm => SameMethod.imp hM hE hm) h.methods⟩

theorem optionRel_imp (hM : ∀ i j, M i j → M' i j) {a b : Option Nat} (h : Option.Rel M a b) :
    Option.Rel M' a b := by
  cases h with
  | none => exact .none
  | some h => exact .some (hM _ _ h)

theorem SameMessage.imp (hF : ∀ k l, F k l → F' k l) (hM : ∀ i j, M i j → M' i j)
    (hE : ∀ i j, E i j → E' i j) {a b : Message} (h : SameMessage F M E a b) :
    SameMessage F' M' E' a b where
  name := h.name
  fullName := h.fullName
  file := hF _ _ h.file
  parent := optionRel_imp hM h.parent
  messages := h.messages.imp hM
  enums := h.enums.imp hE

theorem SameEnum.imp (hF : ∀ k l, F k l → F' k l) (hM : ∀ i j, M i j → M' i j) {a b : Enum}
    (h : SameEnum F M a b) : SameEnum F' M' a b where
  name := h.name
  values := h.values
  file := hF _ _ h.file
  parent := optionRel_imp hM h.parent

end

/-! ## From places to names and back -/

section
variable {R : Nat → Nat → Prop} {s t : FileSet} {options : BuildOptions} {d e : Declarations}
  {p q : Program}

/-- Messages at the same place of a file have the same full name. -/
theorem MessageIn.sameName (hs : Built s options d p) (ht : Built t options e q) (a b : Nat)
    (h : MessageIn R s t a b) : SameMessageName p q a b := by
  obtain ⟨k, l, f, r, m, -, hk, hl, hm, rfl, rfl⟩ := h
  obtain ⟨_, hp, -⟩ := hs.message (hs.declared.getElem?_own hk hm)
  obtain ⟨_, hq, -⟩ := ht.message (ht.declared.getElem?_own hl hm)
  exact ⟨_, _, hp, hq, rfl⟩

/-- Enums at the same place of a file have the same full name. -/
theorem EnumIn.sameName (hs : Built s options d p) (ht : Built t options e q) (a b : Nat)
    (h : EnumIn R s t a b) : SameEnumName p q a b := by
  obtain ⟨k, l, f, r, x, -, hk, hl, hx, rfl, rfl⟩ := h
  have hget : ∀ {s d p} {k b : Nat}, Built s options d p →
      d.enums[b]? = some (x.moved k (messageBase s k)) →
      p.enums[b]? = some (x.moved k (messageBase s k)).toEnum := by
    intro s d p k b h hb
    rw [h.enums, List.getElem?_map, hb]
    rfl
  exact ⟨_, _, hget hs (hs.declared.getElem?_ownEnum hk hx),
    hget ht (ht.declared.getElem?_ownEnum hl hx), rfl⟩

/-- The same file has the same path. -/
theorem samePath_of_alike (hs : Built s options d p) (ht : Built t options e q) (k l : Nat)
    (h : s.Alike t k l) : SamePath p q k l := by
  obtain ⟨f, hk, hl⟩ := h
  obtain ⟨_, hp, -⟩ := hs.file hk
  obtain ⟨_, hq, -⟩ := ht.file hl
  exact ⟨_, _, hp, hq, rfl⟩

/-- Full names occur once in a program. -/
theorem Built.names_nodup (h : Built s options d p) :
    (p.messages.map (·.fullName) ++ p.enums.map (·.fullName)).Nodup :=
  h.fullNames_eq ▸ h.declared.nodup

/-- The paths of a program are those of the files. -/
theorem Built.paths_eq (h : Built s options d p) :
    p.files.map (·.path) = s.files.map (·.path) := by
  refine List.ext_getElem? fun k => ?_
  rw [List.getElem?_map, List.getElem?_map]
  cases hf : s.files[k]? with
  | none =>
    rw [List.getElem?_eq_none (h.files_length ▸ List.getElem?_eq_none_iff.1 hf)]
    rfl
  | some f =>
    obtain ⟨_, hp, -⟩ := h.file hf
    rw [hp]
    rfl

/-- An item is found at one place only, when a list has distinct keys. -/
theorem eq_of_key_eq {α : Type} {key : α → String} {xs : List α} (hnd : (xs.map key).Nodup)
    {i j : Nat} {x y : α} (hi : xs[i]? = some x) (hj : xs[j]? = some y) (h : key x = key y) :
    i = j := by
  have hlt := (List.getElem?_eq_some_iff.1 hi).1
  have hget : (xs.map key)[i]? = (xs.map key)[j]? := by
    rw [List.getElem?_map, List.getElem?_map, hi, hj, Option.map_some, Option.map_some, h]
  exact (List.getElem?_inj (by simpa using hlt) hnd).1 hget

/-- Lists with distinct keys have the same keys when each item has a partner in the other list. -/
theorem perm_of_keys {α : Type} {key : α → String} {xs ys : List α} (hx : (xs.map key).Nodup)
    (hy : (ys.map key).Nodup)
    (hxy : ∀ (i : Nat) (x : α), xs[i]? = some x →
      ∃ (j : Nat) (a b : α), xs[i]? = some a ∧ ys[j]? = some b ∧ key a = key b)
    (hyx : ∀ (j : Nat) (y : α), ys[j]? = some y →
      ∃ (i : Nat) (a b : α), ys[j]? = some a ∧ xs[i]? = some b ∧ key a = key b) :
    (xs.map key).Perm (ys.map key) := by
  have honly : ∀ {xs ys : List α}, (∀ (i : Nat) (x : α), xs[i]? = some x →
      ∃ (j : Nat) (a b : α), xs[i]? = some a ∧ ys[j]? = some b ∧ key a = key b) →
      ∀ k ∈ xs.map key, k ∈ ys.map key := by
    intro xs ys h k hk
    obtain ⟨x, hx, rfl⟩ := List.mem_map.1 hk
    obtain ⟨i, hi⟩ := List.mem_iff_getElem?.1 hx
    obtain ⟨j, a, b, ha, hb, he⟩ := h i x hi
    cases hi.symm.trans ha
    exact List.mem_map.2 ⟨b, List.mem_of_getElem? hb, he.symm⟩
  exact (List.perm_ext_iff_of_nodup hx hy).2 fun k => ⟨honly hxy k, honly hyx k⟩

namespace Reordered

/-- Files with the same path are the same. -/
theorem alike (h : Reordered s t) (hs : Built s options d p) (ht : Built t options e q) {k l : Nat}
    (hkl : SamePath p q k l) : s.Alike t k l := by
  obtain ⟨f, g, hf, hg, hpath⟩ := hkl
  obtain ⟨f', _, hk, rfl, -⟩ := hs.getElem?_file hf
  obtain ⟨g', _, hl, rfl, -⟩ := ht.getElem?_file hg
  obtain ⟨l', hl', ha⟩ := h.exists_alike hk
  cases eq_of_key_eq h.right_paths hl' hl hpath
  exact ha

/-- Every message stands at the same place of its file in the other program. -/
theorem exists_messageIn (h : Reordered s t) (hs : Built s options d p) {a : Nat} {m : Message}
    (ha : p.messages[a]? = some m) : ∃ b, MessageIn (s.Alike t) s t a b := by
  obtain ⟨x, _, hx, -⟩ := hs.getElem?_message ha
  obtain ⟨f, hk, -⟩ := hs.declared.mem_allMessages (List.mem_of_getElem? hx)
  obtain ⟨l, hl, hkl⟩ := h.exists_alike hk
  obtain ⟨r, own, rfl, hr, -⟩ := hs.declared.exists_own hk hx rfl
  exact ⟨messageBase t l + r, _, l, f, r, own, hkl, hk, hl, hr, rfl, rfl⟩

/-- Every enum stands at the same place of its file in the other program. -/
theorem exists_enumIn (h : Reordered s t) (hs : Built s options d p) {a : Nat} {x : Enum}
    (ha : p.enums[a]? = some x) : ∃ b, EnumIn (s.Alike t) s t a b := by
  obtain ⟨x, hx, -⟩ := hs.getElem?_enum ha
  obtain ⟨f, hk, -⟩ := hs.declared.mem_allEnums (List.mem_of_getElem? hx)
  obtain ⟨l, hl, hkl⟩ := h.exists_alike hk
  obtain ⟨r, own, rfl, hr, -⟩ := hs.declared.exists_ownEnum hk hx rfl
  exact ⟨enumBase t l + r, _, l, f, r, own, hkl, hk, hl, hr, rfl, rfl⟩

/-- Messages with the same full name stand at the same place of a file. -/
theorem messageIn (h : Reordered s t) (hs : Built s options d p) (ht : Built t options e q)
    {a b : Nat} (hab : SameMessageName p q a b) : MessageIn (s.Alike t) s t a b := by
  obtain ⟨m, n, hm, hn, hname⟩ := hab
  obtain ⟨b', hb'⟩ := exists_messageIn h hs hm
  obtain ⟨m', n', hm', hn', hname'⟩ := hb'.sameName hs ht
  cases hm.symm.trans hm'
  cases eq_of_key_eq (List.nodup_append.1 ht.names_nodup).1 hn' hn (hname'.symm.trans hname)
  exact hb'

/-- Enums with the same full name stand at the same place of a file. -/
theorem enumIn (h : Reordered s t) (hs : Built s options d p) (ht : Built t options e q)
    {a b : Nat} (hab : SameEnumName p q a b) : EnumIn (s.Alike t) s t a b := by
  obtain ⟨m, n, hm, hn, hname⟩ := hab
  obtain ⟨b', hb'⟩ := exists_enumIn h hs hm
  obtain ⟨m', n', hm', hn', hname'⟩ := hb'.sameName hs ht
  cases hm.symm.trans hm'
  cases eq_of_key_eq (List.nodup_append.1 ht.names_nodup).2.1 hn' hn (hname'.symm.trans hname)
  exact hb'

/-- The messages of both programs have the same full names. -/
theorem messageNames_perm (h : Reordered s t) (hs : Built s options d p)
    (ht : Built t options e q) :
    (p.messages.map (·.fullName)).Perm (q.messages.map (·.fullName)) := by
  refine perm_of_keys (List.nodup_append.1 hs.names_nodup).1 (List.nodup_append.1 ht.names_nodup).1
    (fun a m ha => ?_) fun b n hb => ?_
  · obtain ⟨b, hb⟩ := h.exists_messageIn hs ha
    exact ⟨b, hb.sameName hs ht⟩
  · obtain ⟨a, ha⟩ := h.symm.exists_messageIn ht hb
    exact ⟨a, ha.sameName ht hs⟩

/-- The enums of both programs have the same full names. -/
theorem enumNames_perm (h : Reordered s t) (hs : Built s options d p)
    (ht : Built t options e q) :
    (p.enums.map (·.fullName)).Perm (q.enums.map (·.fullName)) := by
  refine perm_of_keys (List.nodup_append.1 hs.names_nodup).2.1
    (List.nodup_append.1 ht.names_nodup).2.1 (fun a x ha => ?_) fun b y hb => ?_
  · obtain ⟨b, hb⟩ := h.exists_enumIn hs ha
    exact ⟨b, hb.sameName hs ht⟩
  · obtain ⟨a, ha⟩ := h.symm.exists_enumIn ht hb
    exact ⟨a, ha.sameName ht hs⟩

/-! ## The same program -/

/-- Files with the same path are the same up to numbers. -/
theorem sameRecord (h : Reordered s t) (hs : Built s options d p) (ht : Built t options e q)
    {k l : Nat} (hkl : SamePath p q k l) : SameRecord p q (p.file k) (q.file l) := by
  have halike := h.alike hs ht hkl
  have hshared := h.shared halike (checkImports_eq_ok_iff.1 hs.imports)
  have hfile := sameFile hshared hs ht
  have himports := (h.alike_importsOf halike).imp (samePath_of_alike hs ht)
  obtain ⟨f, hk, hl⟩ := halike
  obtain ⟨services, hp⟩ := hs.file_eq hk
  obtain ⟨services', hq⟩ := ht.file_eq hl
  have hservices := hfile.services.imp fun _ _ hsvc =>
    SameService.imp (MessageIn.sameName hs ht) (EnumIn.sameName hs ht) hsvc
  have hmessages := hfile.messages.imp (MessageIn.sameName hs ht)
  have henums := hfile.enums.imp (EnumIn.sameName hs ht)
  rw [hp, hq] at hservices hmessages henums ⊢
  exact ⟨rfl, rfl, rfl, rfl, rfl, rfl, congrArg (·.contains f.path) h.inputs, himports, hmessages,
    henums, hservices⟩

/-- Messages with the same full name have the same fields up to numbers. -/
theorem sameFields (h : Reordered s t) (hs : Built s options d p) (ht : Built t options e q)
    {a b : Nat} (hab : SameMessageName p q a b) :
    List.Forall₂ (SameField (SameMessageName p q) (SameEnumName p q))
      (p.message a).fields (q.message b).fields := by
  obtain ⟨k, l, f, r, m, hkl, hplace⟩ := h.messageIn hs ht hab
  have hshared := h.shared hkl (checkImports_eq_ok_iff.1 hs.imports)
  exact (Program.sameFields hshared hs ht ⟨k, l, f, r, m, ⟨rfl, rfl⟩, hplace⟩).imp fun _ _ hf =>
    SameField.imp (MessageIn.sameName hs ht) (EnumIn.sameName hs ht) hf

/-- Programs of the same files in two orders are the same up to numbers. -/
theorem isomorphic (h : Reordered s t) (hs : Built s options d p) (ht : Built t options e q) :
    Isomorphic p q where
  paths := by
    rw [hs.paths_eq, ht.paths_eq]
    exact ⟨h.files.map _, h.left_paths⟩
  messageNames := h.messageNames_perm hs ht
  enumNames := h.enumNames_perm hs ht
  names_nodup := hs.names_nodup
  file := h.sameRecord hs ht
  message hab := ((h.messageIn hs ht hab).sameMessage hs ht).imp (samePath_of_alike hs ht)
    (MessageIn.sameName hs ht) (EnumIn.sameName hs ht)
  fields := h.sameFields hs ht
  enum hab := ((h.enumIn hs ht hab).sameEnum hs ht).imp (samePath_of_alike hs ht)
    (MessageIn.sameName hs ht)

end Reordered

end

/-- Files with distinct paths make a program in every order or in none, and always the same one up
to numbers. -/
theorem build_reordered {s t : FileSet} (hpaths : s.DistinctPaths) (hfiles : s.files.Perm t.files)
    (hinputs : s.inputs = t.inputs) (options : BuildOptions) :
    ((∃ p, build s options = .ok p) ↔ ∃ q, build t options = .ok q) ∧
      ∀ p q, build s options = .ok p → build t options = .ok q → Isomorphic p q := by
  have h : Reordered s t := ⟨hfiles, hinputs, hpaths⟩
  refine ⟨⟨h.exists_build, h.symm.exists_build⟩, fun p q hp hq => ?_⟩
  obtain ⟨d, hs⟩ := exists_built hp
  obtain ⟨e, ht⟩ := exists_built hq
  exact h.isomorphic hs ht

/-- The sample files, the last one first. -/
def reversedOrderSet : FileSet where
  files := orderSet.files.reverse

/-- The sample files make the same program from last to first, although every number changes. -/
theorem orderSet_reordered : ∃ p q, build orderSet {} = .ok p ∧ build reversedOrderSet {} = .ok q ∧
    p ≠ q ∧ Isomorphic p q := by
  have hpaths : orderSet.DistinctPaths := by unfold FileSet.DistinctPaths; decide
  have hfiles : orderSet.files.Perm reversedOrderSet.files := (List.reverse_perm _).symm
  obtain ⟨hiff, hiso⟩ := build_reordered hpaths hfiles rfl {}
  have hfirst : (build orderSet {}).toOption.map (fun p => (p.file 0).path) =
      some "/p/o.proto" := by
    cbv
  have hlast : (build reversedOrderSet {}).toOption.map (fun p => (p.file 0).path) =
      some "/p/c.proto" := by
    cbv
  cases hp : build orderSet {} with
  | error err => rw [hp] at hfirst; cases hfirst
  | ok p =>
    obtain ⟨q, hq⟩ := hiff.1 ⟨p, hp⟩
    refine ⟨p, q, rfl, hq, ?_, hiso p q hp hq⟩
    rintro rfl
    rw [hp] at hfirst
    rw [hq] at hlast
    exact absurd (hfirst.symm.trans hlast) (by decide)

end ProtoStub.Program

import ProtoStub.Proofs.Correspondence
import ProtoStub.Proofs.Layout
import ProtoStub.Proofs.Scoping

/-!
# Output is modular

What is written for a file depends only on the files it sees. Two sets that both hold a file and all
that it sees may differ in everything else: in other files, in the order, and so in the numbers of
messages and enums. `emit_modular` says that the output for the file is the same. Imports lead to
the same visible files in both sets (`shared_of_visible`). Each of these declares the same messages
at the same distance from the start of its stretch, which gives the relation of numbers
(`MessageIn`). A name resolves to related types (`sameType_of_resolve`), since the name of a type
that is seen on one side is the name of a related type on the other (`exists_sameType`); what is
declared elsewhere under the same name is seen on neither. The rest is `SameFile.emit_eq`.
-/

namespace ProtoStub.Schema.FileSet

open Relation (ReflTransGen)

/-! ## Visible files in two sets -/

/-- No two files have the same path. -/
def DistinctPaths (s : FileSet) : Prop := (s.files.map (·.path)).Nodup

/-- The file `k` of `s` is the file `l` of `t`. -/
def Alike (s t : FileSet) (k l : Nat) : Prop := ∃ f, s.files[k]? = some f ∧ t.files[l]? = some f

/-- The files that the file `i` of `s` sees are those that the file `j` of `t` sees. -/
structure Shared (s t : FileSet) (i j : Nat) : Prop where
  left_paths : s.DistinctPaths
  right_paths : t.DistinctPaths
  same : s.Alike t i j
  right : ∀ {k}, s.Visible i k → ∃ l, t.Visible j l ∧ s.Alike t k l
  left : ∀ {l}, t.Visible j l → ∃ k, s.Visible i k ∧ s.Alike t k l

section
variable {s t : FileSet} {i j k l : Nat} {f : File}

theorem Alike.symm (h : s.Alike t k l) : t.Alike s l k := by
  obtain ⟨f, hs, ht⟩ := h
  exact ⟨f, ht, hs⟩

theorem Shared.symm (h : s.Shared t i j) : t.Shared s j i where
  left_paths := h.right_paths
  right_paths := h.left_paths
  same := h.same.symm
  right hl := by
    obtain ⟨k, hk, ha⟩ := h.left hl
    exact ⟨k, hk, ha.symm⟩
  left hk := by
    obtain ⟨l, hl, ha⟩ := h.right hk
    exact ⟨l, hl, ha.symm⟩

/-- A file stands at one place when paths are distinct. -/
theorem DistinctPaths.eq_of_file (h : s.DistinctPaths) (hk : s.files[k]? = some f)
    (hl : s.files[l]? = some f) : k = l := by
  obtain ⟨hlt, hfk⟩ := List.getElem?_eq_some_iff.1 hk
  have hpath : (s.files.map (·.path))[k]? = (s.files.map (·.path))[l]? := by
    rw [List.getElem?_map, List.getElem?_map, hk, hl]
  exact (List.getElem?_inj (by simpa using hlt) h).1 hpath

/-- A path is found where its file stands. -/
theorem DistinctPaths.index?_eq (h : s.DistinctPaths) (hk : s.files[k]? = some f) :
    s.index? f.path = some k := by
  cases hi : s.index? f.path with
  | none =>
    have hnone := List.findIdx?_eq_none_iff.1 hi f (List.mem_of_getElem? hk)
    simp at hnone
  | some l =>
    obtain ⟨hlt, hp, -⟩ := List.findIdx?_eq_some_iff_getElem.1 hi
    have hpath : (s.files.map (·.path))[l]? = (s.files.map (·.path))[k]? := by
      rw [List.getElem?_map, List.getElem?_map, hk, List.getElem?_eq_getElem hlt]
      exact congrArg some (beq_iff_eq.1 hp)
    exact congrArg some ((List.getElem?_inj (by simpa using hlt) h).1 hpath)

/-- A path leads to the same file in both sets, when the file it leads to in one is in the other. -/
theorem exists_index? (ht : t.DistinctPaths) {path : String} (hk : s.index? path = some k)
    (hmem : ∀ f, s.files[k]? = some f → f ∈ t.files) :
    ∃ l, t.index? path = some l ∧ s.Alike t k l := by
  obtain ⟨hlt, hp, -⟩ := List.findIdx?_eq_some_iff_getElem.1 hk
  have hf : s.files[k]? = some s.files[k] := List.getElem?_eq_getElem hlt
  obtain ⟨l, hl⟩ := List.mem_iff_getElem?.1 (hmem _ hf)
  have hpath : s.files[k].path = path := beq_iff_eq.1 hp
  exact ⟨l, hpath ▸ ht.index?_eq hl, _, hf, hl⟩

end

/-- The file `k` is imported by the file `i` of `s`, or re-exported by an imported one. -/
def Reached (s : FileSet) (i k : Nat) : Prop :=
  ∃ k₀, s.Imports i k₀ ∧ ReflTransGen s.Reexports k₀ k

section
variable {s t : FileSet} {i j : Nat}

/-- A relation that goes along imports and re-exports goes along all that is reached. -/
theorem Reached.transfer {R : Nat → Nat → Prop}
    (himports : ∀ k, s.Imports i k → ∃ l, t.Imports j l ∧ R k l)
    (hreexports : ∀ k l k', R k l → s.Reexports k k' → ∃ l', t.Reexports l l' ∧ R k' l') {k : Nat}
    (h : s.Reached i k) : ∃ l, t.Reached j l ∧ R k l := by
  obtain ⟨k₀, hk₀, hre⟩ := h
  obtain ⟨l₀, hl₀, hr₀⟩ := himports k₀ hk₀
  induction hre with
  | refl => exact ⟨l₀, ⟨l₀, hl₀, .refl⟩, hr₀⟩
  | tail _ hyz ih =>
    obtain ⟨l, ⟨l₁, hl₁, hl⟩, hr⟩ := ih
    obtain ⟨l', hl', hr'⟩ := hreexports _ _ _ hr hyz
    exact ⟨l', ⟨l₁, hl₁, hl.tail hl'⟩, hr'⟩

/-- What the file reaches in one set it reaches in the other. -/
theorem exists_reached_right (ht : t.DistinctPaths) (hij : s.Alike t i j)
    (hshared : ∀ k f, s.Reached i k → s.files[k]? = some f → f ∈ t.files) {k : Nat}
    (h : s.Reached i k) : ∃ l, t.Reached j l ∧ s.Alike t k l := by
  suffices hboth : ∃ l, t.Reached j l ∧ s.Alike t k l ∧ s.Reached i k by
    obtain ⟨l, hl, ha, -⟩ := hboth
    exact ⟨l, hl, ha⟩
  -- Only files that are reached are known to be in `t`, so the relation has to keep that they are.
  refine Reached.transfer (R := fun k l => s.Alike t k l ∧ s.Reached i k) ?_ ?_ h
  · intro k₀ himports
    have hk₀ : s.Reached i k₀ := ⟨k₀, himports, .refl⟩
    obtain ⟨f, hfi, hfj⟩ := hij
    obtain ⟨f', hf', imp, himp, hne, hidx⟩ := himports
    cases hfi.symm.trans hf'
    obtain ⟨l, hl, ha⟩ := exists_index? ht hidx fun g hg => hshared k₀ g hk₀ hg
    exact ⟨l, ⟨f, hfj, imp, himp, hne, hl⟩, ha, hk₀⟩
  · rintro k l k' ⟨⟨f, hfk, hfl⟩, k₀, hk₀, hk⟩ hreexports
    have hk' : s.Reached i k' := ⟨k₀, hk₀, hk.tail hreexports⟩
    obtain ⟨f', hf', imp, himp, hpub, hne, hidx⟩ := hreexports
    cases hfk.symm.trans hf'
    obtain ⟨l', hl', ha⟩ := exists_index? ht hidx fun g hg => hshared k' g hk' hg
    exact ⟨l', ⟨f, hfl, imp, himp, hpub, hne, hl'⟩, ha, hk'⟩

/-- What the file reaches in the other set it reaches in the first, if every import leads to a file
there. -/
theorem exists_reached_left (ht : t.DistinctPaths) (hij : s.Alike t i j)
    (hloaded : ∀ f ∈ s.files, ∀ imp ∈ f.imports, imp.resolved ≠ "" →
      ∃ g ∈ s.files, g.path = imp.resolved)
    (hshared : ∀ k f, s.Reached i k → s.files[k]? = some f → f ∈ t.files) {l : Nat}
    (h : t.Reached j l) : ∃ k, s.Reached i k ∧ s.Alike t k l := by
  suffices hboth : ∃ k, s.Reached i k ∧ s.Alike t k l ∧ s.Reached i k by
    obtain ⟨k, hk, ha, -⟩ := hboth
    exact ⟨k, hk, ha⟩
  have hfound : ∀ {k : Nat} {f : File} {imp : Import}, s.files[k]? = some f → imp ∈ f.imports →
      imp.resolved ≠ "" → ∃ k', s.index? imp.resolved = some k' := by
    intro k f imp hf himp hne
    obtain ⟨g, hg, hpath⟩ := hloaded f (List.mem_of_getElem? hf) imp himp hne
    refine Option.isSome_iff_exists.1 ?_
    rw [index?, List.findIdx?_isSome, List.any_eq_true]
    exact ⟨g, hg, by simpa using hpath⟩
  refine Reached.transfer (R := fun l k => s.Alike t k l ∧ s.Reached i k) ?_ ?_ h
  · intro l₀ himports
    obtain ⟨f, hfi, hfj⟩ := hij
    obtain ⟨f', hf', imp, himp, hne, hidx⟩ := himports
    cases hfj.symm.trans hf'
    obtain ⟨k, hk⟩ := hfound hfi himp hne
    have hi : s.Imports i k := ⟨f, hfi, imp, himp, hne, hk⟩
    have hr : s.Reached i k := ⟨k, hi, .refl⟩
    obtain ⟨l, hl, ha⟩ := exists_index? ht hk fun g hg => hshared k g hr hg
    cases hl.symm.trans hidx
    exact ⟨k, hi, ha, hr⟩
  · rintro l k l' ⟨⟨f, hfk, hfl⟩, k₀, hk₀, hk⟩ ⟨f', hf', imp, himp, hpub, hne, hidx⟩
    cases hfl.symm.trans hf'
    obtain ⟨k', hk'⟩ := hfound hfk himp hne
    have hre : s.Reexports k k' := ⟨f, hfk, imp, himp, hpub, hne, hk'⟩
    have hr : s.Reached i k' := ⟨k₀, hk₀, hk.tail hre⟩
    obtain ⟨l₁, hl₁, ha⟩ := exists_index? ht hk' fun g hg => hshared k' g hr hg
    cases hl₁.symm.trans hidx
    exact ⟨k', hre, ha, hr⟩

/-- When all that a file sees is in both sets, it sees the same files in both. -/
theorem shared_of_visible (hs : s.DistinctPaths) (ht : t.DistinctPaths) (hij : s.Alike t i j)
    (hloaded : ∀ f ∈ s.files, ∀ imp ∈ f.imports, imp.resolved ≠ "" →
      ∃ g ∈ s.files, g.path = imp.resolved)
    (hshared : ∀ k f, s.Visible i k → s.files[k]? = some f → f ∈ t.files) : s.Shared t i j where
  left_paths := hs
  right_paths := ht
  same := hij
  right := by
    rintro k (rfl | hk)
    · exact ⟨j, .inl rfl, hij⟩
    · obtain ⟨l, hl, ha⟩ := exists_reached_right ht hij (fun k f hk => hshared k f (.inr hk)) hk
      exact ⟨l, .inr hl, ha⟩
  left := by
    rintro l (rfl | hl)
    · exact ⟨i, .inl rfl, hij⟩
    · obtain ⟨k, hk, ha⟩ :=
        exists_reached_left ht hij hloaded (fun k f hk => hshared k f (.inr hk)) hl
      exact ⟨k, .inr hk, ha⟩

end

end ProtoStub.Schema.FileSet

namespace ProtoStub.Program

open Schema (FileSet)
open VisualBasic (Backend emit)

/-! ## Related numbers -/

/-- The messages `a` of `s` and `b` of `t` stand at the same place of one file, which `R` relates to
itself in the other set. -/
def MessageIn (R : Nat → Nat → Prop) (s t : FileSet) (a b : Nat) : Prop :=
  ∃ k l f r m, R k l ∧ s.files[k]? = some f ∧ t.files[l]? = some f ∧ (ownMessages f)[r]? = some m ∧
    a = messageBase s k + r ∧ b = messageBase t l + r

/-- The enums `a` of `s` and `b` of `t` stand at the same place of one file, which `R` relates to
itself in the other set. -/
def EnumIn (R : Nat → Nat → Prop) (s t : FileSet) (a b : Nat) : Prop :=
  ∃ k l f r e, R k l ∧ s.files[k]? = some f ∧ t.files[l]? = some f ∧ (ownEnums f)[r]? = some e ∧
    a = enumBase s k + r ∧ b = enumBase t l + r

/-- The file `k` of `s`, which the file `i` sees, is the file `l` of `t`. -/
def SharedFile (s t : FileSet) (i k l : Nat) : Prop := s.Visible i k ∧ s.Alike t k l

section
variable {R R' : Nat → Nat → Prop} {s t : FileSet} {a b a' b' : Nat}

theorem MessageIn.mono (h : MessageIn R s t a b) (hR : ∀ k l, R k l → R' k l) :
    MessageIn R' s t a b := by
  obtain ⟨k, l, f, r, m, hkl, h⟩ := h
  exact ⟨k, l, f, r, m, hR k l hkl, h⟩

theorem MessageIn.symm (h : MessageIn R s t a b) : MessageIn (fun l k => R k l) t s b a := by
  obtain ⟨k, l, f, r, m, hkl, hs, ht, hm, ha, hb⟩ := h
  exact ⟨l, k, f, r, m, hkl, ht, hs, hm, hb, ha⟩

/-- A message is related to one message only, when a file is related to one file only. -/
theorem MessageIn.right_unique {d : Declarations} (h : MessageIn R s t a b)
    (h' : MessageIn R s t a b') (hd : Declared s d) (hR : ∀ {k l l'}, R k l → R k l' → l = l') :
    b = b' := by
  obtain ⟨k, l, f, r, m, hkl, hs, -, hm, rfl, rfl⟩ := h
  obtain ⟨k', l', f', r', m', hkl', hs', -, hm', ha, rfl⟩ := h'
  have hget := hd.getElem?_own hs hm
  rw [ha, hd.getElem?_own hs' hm'] at hget
  have hk : k' = k := congrArg DeclaredMessage.file (Option.some.inj hget)
  subst hk
  cases hR hkl hkl'
  omega

/-- Numbers that are moved in two ways are related when each is related to itself. -/
theorem forall₂_map_add {M : Nat → Nat → Prop} {rs : List Nat} {x y : Nat}
    (h : ∀ r ∈ rs, M (x + r) (y + r)) : List.Forall₂ M (rs.map (x + ·)) (rs.map (y + ·)) := by
  rw [List.forall₂_map_left_iff, List.forall₂_map_right_iff]
  exact List.forall₂_same.2 h

end

/-! ## Related messages and enums -/

section
variable {R : Nat → Nat → Prop} {s t : FileSet} {options : BuildOptions} {d e : Declarations}
  {p q : Program}

/-- Related messages are the same up to numbers. -/
theorem MessageIn.sameMessage (hs : Built s options d p) (ht : Built t options e q) {a b : Nat}
    (h : MessageIn R s t a b) :
    SameMessage R (MessageIn R s t) (EnumIn R s t) (p.message a) (q.message b) := by
  obtain ⟨k, l, f, r, m, hkl, hk, hl, hm, rfl, rfl⟩ := h
  have hlt := (List.getElem?_eq_some_iff.1 hm).1
  obtain ⟨fields, hp⟩ := hs.message_eq (hs.declared.getElem?_own hk hm)
  obtain ⟨fields', hq⟩ := ht.message_eq (ht.declared.getElem?_own hl hm)
  rw [hp, hq]
  refine ⟨rfl, rfl, hkl, ?_, ?_, ?_⟩
  · show Option.Rel _ (m.parent.map _) (m.parent.map _)
    cases hparent : m.parent with
    | none => exact .none
    | some r' =>
      have hr' : r' < (ownMessages f).length := (hs.declared.own_parent_lt hk hm hparent).trans hlt
      exact .some ⟨k, l, f, r', _, hkl, hk, hl, List.getElem?_eq_getElem hr', rfl, rfl⟩
  · simp only [Declarations.messageOf, hs.declared.nested_messages hk hlt,
      ht.declared.nested_messages hl hlt]
    refine forall₂_map_add fun r' hr' => ?_
    obtain ⟨m', hm', -⟩ := mem_positions.1 hr'
    exact ⟨k, l, f, r', m', hkl, hk, hl, hm', rfl, rfl⟩
  · simp only [Declarations.messageOf, hs.declared.nested_enums hk hlt,
      ht.declared.nested_enums hl hlt]
    refine forall₂_map_add fun r' hr' => ?_
    obtain ⟨e', he', -⟩ := mem_positions.1 hr'
    exact ⟨k, l, f, r', e', hkl, hk, hl, he', rfl, rfl⟩

/-- Related enums are the same up to numbers. -/
theorem EnumIn.sameEnum (hs : Built s options d p) (ht : Built t options e q) {a b : Nat}
    (h : EnumIn R s t a b) : SameEnum R (MessageIn R s t) (p.enum a) (q.enum b) := by
  obtain ⟨k, l, f, r, x, hkl, hk, hl, hx, rfl, rfl⟩ := h
  rw [hs.enum_eq (hs.declared.getElem?_ownEnum hk hx),
    ht.enum_eq (ht.declared.getElem?_ownEnum hl hx)]
  refine ⟨rfl, rfl, hkl, ?_⟩
  show Option.Rel _ (x.parent.map _) (x.parent.map _)
  cases hparent : x.parent with
  | none => exact .none
  | some r' =>
    obtain ⟨m, hm⟩ := hs.declared.own_enum_parent hk hx hparent
    exact .some ⟨k, l, f, r', m, hkl, hk, hl, hm, rfl, rfl⟩

/-- The relation of numbers is a correspondence, when related files are the same and only these. -/
theorem corresponds (hs : Built s options d p) (ht : Built t options e q)
    (halike : ∀ {k l}, R k l → s.Alike t k l) (hright : ∀ {k l l'}, R k l → R k l' → l = l')
    (hleft : ∀ {k k' l}, R k l → R k' l → k = k') :
    Corresponds R (MessageIn R s t) (EnumIn R s t) p q where
  parent_left := hs.parent_lt
  parent_right := ht.parent_lt
  namespaceName := by
    intro k l hkl
    obtain ⟨f, hk, hl⟩ := halike hkl
    obtain ⟨services, hp⟩ := hs.file_eq hk
    obtain ⟨services', hq⟩ := ht.file_eq hl
    rw [hp, hq]
    rfl
  message_lt := by
    rintro a b ⟨k, l, f, r, m, -, hk, hl, hm, rfl, rfl⟩
    obtain ⟨_, hp, -⟩ := hs.message (hs.declared.getElem?_own hk hm)
    obtain ⟨_, hq, -⟩ := ht.message (ht.declared.getElem?_own hl hm)
    exact ⟨(List.getElem?_eq_some_iff.1 hp).1, (List.getElem?_eq_some_iff.1 hq).1⟩
  message_iff := by
    intro a b a' b' h h'
    constructor
    · rintro rfl
      exact h.right_unique h' hs.declared hright
    · rintro rfl
      exact h.symm.right_unique h'.symm ht.declared fun hk hk' => hleft hk hk'
  message h := h.sameMessage hs ht
  enum h := h.sameEnum hs ht

end

/-! ## Related types -/

namespace SharedFile

open Schema.FileSet (Shared)

variable {s t : FileSet} {i j k l l' : Nat}

/-- A file is the same as one file of the other set only. -/
theorem right_unique (h : s.Shared t i j) (hl : SharedFile s t i k l)
    (hl' : SharedFile s t i k l') : l = l' := by
  obtain ⟨-, f, hk, hl⟩ := hl
  obtain ⟨-, f', hk', hl'⟩ := hl'
  cases hk.symm.trans hk'
  exact h.right_paths.eq_of_file hl hl'

/-- A file of the other set is the same as one file only. -/
theorem left_unique (h : s.Shared t i j) {k' : Nat} (hk : SharedFile s t i k l)
    (hk' : SharedFile s t i k' l) : k = k' := by
  obtain ⟨-, f, hk, hl⟩ := hk
  obtain ⟨-, f', hk', hl'⟩ := hk'
  cases hl.symm.trans hl'
  exact h.left_paths.eq_of_file hk hk'

end SharedFile

section
variable {s t : FileSet} {i j : Nat} {d e : Declarations}

/-- A full name of a type that the file sees is the full name of a related type in the other set. -/
theorem exists_sameType (h : s.Shared t i j) (hd : Declared s d) (he : Declared t e) {name : String}
    {a : TypeRef} (ha : VisibleType d (s.Visible i) name a) :
    ∃ b, VisibleType e (t.Visible j) name b ∧
      SameType (MessageIn (SharedFile s t i) s t) (EnumIn (SharedFile s t i) s t) a b := by
  cases ha with
  | wellKnown hw => exact ⟨_, .wellKnown hw, .wellKnown _⟩
  | message hw hm hname hv =>
    obtain ⟨l, hl, f, hfk, hfl⟩ := h.right hv
    obtain ⟨r, own, rfl, hr, hown⟩ := hd.exists_own hfk hm rfl
    refine ⟨.message (messageBase t l + r), .message hw (he.getElem?_own hfl hr) ?_ hl, .message ?_⟩
    · rw [← hname, hown]
      rfl
    · exact ⟨_, l, f, r, own, ⟨hv, f, hfk, hfl⟩, hfk, hfl, hr, rfl, rfl⟩
  | enum hw hx hname hv =>
    obtain ⟨l, hl, f, hfk, hfl⟩ := h.right hv
    obtain ⟨r, own, rfl, hr, hown⟩ := hd.exists_ownEnum hfk hx rfl
    refine ⟨.enum (enumBase t l + r), .enum hw (he.getElem?_ownEnum hfl hr) ?_ hl, .enum ?_⟩
    · rw [← hname, hown]
      rfl
    · exact ⟨_, l, f, r, own, ⟨hv, f, hfk, hfl⟩, hfk, hfl, hr, rfl, rfl⟩

/-- A type name of the file resolves to related types. -/
theorem sameType_of_resolve (h : s.Shared t i j) (hd : Declared s d) (he : Declared t e)
    {scope ref : String} {a b : TypeRef}
    (ha : Names.resolve ⟨s, d.symbols⟩ (s.visibleFrom i) i scope ref = .ok a)
    (hb : Names.resolve ⟨t, e.symbols⟩ (t.visibleFrom j) j scope ref = .ok b) :
    SameType (MessageIn (SharedFile s t i) s t) (EnumIn (SharedFile s t i) s t) a b := by
  have htypes : (fun x => ∃ a, VisibleType d (s.Visible i) x a) =
      fun x => ∃ b, VisibleType e (t.Visible j) x b := by
    funext x
    refine propext ⟨fun ⟨a, ha⟩ => ?_, fun ⟨b, hb⟩ => ?_⟩
    · obtain ⟨b, hb, -⟩ := exists_sameType h hd he ha
      exact ⟨b, hb⟩
    · obtain ⟨a, ha, -⟩ := exists_sameType h.symm he hd hb
      exact ⟨a, ha⟩
  rw [hd.indexed.resolve_eq_ok_iff_standsFor] at ha
  cases hscalar : Scalar.ofWord? ref with
  | some w =>
    rw [he.indexed.resolve_eq_ok_iff_standsFor, hscalar] at hb
    rw [hscalar] at ha
    cases ha
    cases hb
    exact .scalar w
  | none =>
    rw [hscalar] at ha
    obtain ⟨name, hname, ha⟩ := ha
    -- The name stands for the same full name in `t`, where this is the name of a related type.
    obtain ⟨b', hb', hsame⟩ := exists_sameType h hd he ha
    have hresolve : Names.resolve ⟨t, e.symbols⟩ (t.visibleFrom j) j scope ref = .ok b' := by
      rw [he.indexed.resolve_eq_ok_iff_standsFor, hscalar]
      exact ⟨name, htypes ▸ hname, hb'⟩
    cases hb.symm.trans hresolve
    exact hsame

end

/-! ## The output of a file -/

/-- Lists that are related to one list are related to each other. -/
theorem forall₂_of_common {α β γ : Type} {P : α → β → Prop} {Q : α → γ → Prop} {R : β → γ → Prop}
    {xs : List α} {ys : List β} {zs : List γ} (hy : List.Forall₂ P xs ys)
    (hz : List.Forall₂ Q xs zs) (h : ∀ x y z, P x y → Q x z → R y z) : List.Forall₂ R ys zs := by
  induction hy generalizing zs with
  | nil =>
    cases hz
    exact .nil
  | cons hxy _ ih =>
    cases hz with
    | cons hxz hz => exact .cons (h _ _ _ hxy hxz) (ih hz)

section
variable {s t : FileSet} {i j : Nat} {options : BuildOptions} {d e : Declarations} {p q : Program}

/-- The messages of the file itself have related fields. -/
theorem sameFields (h : s.Shared t i j) (hs : Built s options d p) (ht : Built t options e q)
    {a b : Nat} (hab : MessageIn (fun k l => k = i ∧ l = j) s t a b) :
    List.Forall₂ (SameField (MessageIn (SharedFile s t i) s t) (EnumIn (SharedFile s t i) s t))
      (p.message a).fields (q.message b).fields := by
  obtain ⟨k, l, f, r, m, ⟨rfl, rfl⟩, hk, hl, hm, rfl, rfl⟩ := hab
  obtain ⟨fields, hp, hfields⟩ := hs.message (hs.declared.getElem?_own hk hm)
  obtain ⟨fields', hq, hfields'⟩ := ht.message (ht.declared.getElem?_own hl hm)
  rw [message_of_getElem? hp, message_of_getElem? hq]
  obtain ⟨-, -, -, new, hnew, rfl⟩ := resolveFields_eq_ok_iff.1 hfields
  obtain ⟨-, -, -, new', hnew', rfl⟩ := resolveFields_eq_ok_iff.1 hfields'
  refine forall₂_of_common hnew hnew' ?_
  rintro raw x y ⟨hx, hxe⟩ ⟨hy, hye⟩
  refine ⟨sameType_of_resolve h hs.declared ht.declared hx hy, ?_⟩
  rw [hye, hxe]
  rfl

/-- The services of the file are related. -/
theorem sameServices (h : s.Shared t i j) (hs : Built s options d p) (ht : Built t options e q) :
    List.Forall₂ (SameService (MessageIn (SharedFile s t i) s t) (EnumIn (SharedFile s t i) s t))
      (p.file i).services (q.file j).services := by
  obtain ⟨f, hi, hj⟩ := h.same
  obtain ⟨services, hp, hservices⟩ := hs.file hi
  obtain ⟨services', hq, hservices'⟩ := ht.file hj
  rw [file_of_getElem? hp, file_of_getElem? hq]
  refine forall₂_of_common hservices hservices' ?_
  intro raw x y hx hy
  obtain ⟨hxm, hxn⟩ := resolveService_eq_ok_iff.1 hx
  obtain ⟨hym, hyn⟩ := resolveService_eq_ok_iff.1 hy
  refine ⟨hxn.trans hyn.symm, forall₂_of_common hxm hym ?_⟩
  intro m v w hv hw
  obtain ⟨hvi, hvo, -, -, hve⟩ := resolveMethod_eq_ok_iff.1 hv
  obtain ⟨hwi, hwo, -, -, hwe⟩ := resolveMethod_eq_ok_iff.1 hw
  refine ⟨sameType_of_resolve h hs.declared ht.declared hvi hwi,
    sameType_of_resolve h hs.declared ht.declared hvo hwo, ?_⟩
  rw [hwe, hve]

/-- A file that sees the same files in both sets is the same file in both programs. -/
theorem sameFile (h : s.Shared t i j) (hs : Built s options d p) (ht : Built t options e q) :
    SameFile (SharedFile s t i) (MessageIn (SharedFile s t i) s t) (EnumIn (SharedFile s t i) s t)
      (MessageIn (fun k l => k = i ∧ l = j) s t) p q i j := by
  have hcorr := corresponds hs ht (R := SharedFile s t i) (fun hkl => hkl.2)
    (SharedFile.right_unique h) (SharedFile.left_unique h)
  have hself : ∀ k l, k = i ∧ l = j → SharedFile s t i k l := by
    rintro k l ⟨rfl, rfl⟩
    exact ⟨.inl rfl, h.same⟩
  obtain ⟨f, hi, hj⟩ := h.same
  obtain ⟨services, hp⟩ := hs.file_eq hi
  obtain ⟨services', hq⟩ := ht.file_eq hj
  refine { hcorr with
    name := by rw [hp, hq]; rfl
    baseName := by rw [hp, hq]; rfl
    relDir := by rw [hp, hq]; rfl
    space := by rw [hp, hq]; rfl
    messages := ?_
    enums := ?_
    services := sameServices h hs ht
    own := fun hab => hab.mono hself
    fields := fun hab => sameFields h hs ht hab
    children := ?_ }
  · rw [hp, hq]
    simp only [Declarations.fileOf, hs.declared.top_messages hi, ht.declared.top_messages hj]
    refine forall₂_map_add fun r hr => ?_
    obtain ⟨m, hm, -⟩ := mem_positions.1 hr
    exact ⟨i, j, f, r, m, ⟨rfl, rfl⟩, hi, hj, hm, rfl, rfl⟩
  · rw [hp, hq]
    simp only [Declarations.fileOf, hs.declared.top_enums hi, ht.declared.top_enums hj]
    refine forall₂_map_add fun r hr => ?_
    obtain ⟨x, hx, -⟩ := mem_positions.1 hr
    exact ⟨i, j, f, r, x, hself i j ⟨rfl, rfl⟩, hi, hj, hx, rfl, rfl⟩
  · rintro a b ⟨k, l, f', r, m, ⟨rfl, rfl⟩, hk, hl, hm, rfl, rfl⟩
    have hlt := (List.getElem?_eq_some_iff.1 hm).1
    obtain ⟨fields, hpm⟩ := hs.message_eq (hs.declared.getElem?_own hk hm)
    obtain ⟨fields', hqm⟩ := ht.message_eq (ht.declared.getElem?_own hl hm)
    rw [hpm, hqm]
    simp only [Declarations.messageOf, hs.declared.nested_messages hk hlt,
      ht.declared.nested_messages hl hlt]
    refine forall₂_map_add fun r' hr' => ?_
    obtain ⟨m', hm', hparent⟩ := mem_positions.1 hr'
    have hrr' := hs.declared.own_parent_lt hk hm' (beq_iff_eq.1 hparent)
    exact ⟨⟨k, l, f', r', m', ⟨rfl, rfl⟩, hk, hl, hm', rfl, rfl⟩, by omega, by omega⟩

end

/-- A file whose visible files are the same in two sets has the same output in both. -/
theorem emit_modular {s t : FileSet} (hs : s.DistinctPaths) (ht : t.DistinctPaths)
    {options : BuildOptions} {p q : Program} (hp : build s options = .ok p)
    (hq : build t options = .ok q) {i j : Nat} {f : Schema.File} (hi : s.files[i]? = some f)
    (hj : t.files[j]? = some f)
    (hshared : ∀ k g, s.Visible i k → s.files[k]? = some g → g ∈ t.files) (b : Backend) :
    emit b p i = emit b q j := by
  obtain ⟨d, hsd⟩ := exists_built hp
  obtain ⟨e, hte⟩ := exists_built hq
  have hloaded := checkImports_eq_ok_iff.1 hsd.imports
  have h := FileSet.shared_of_visible hs ht ⟨f, hi, hj⟩ hloaded hshared
  exact (sameFile h hsd hte).emit_eq b

/-- A file with a service that uses types of two other files, one imported and one re-exported. -/
def orderFile : Schema.File where
  path := "/p/o.proto"
  name := "o.proto"
  package := "s"
  imports := [⟨"m.proto", "/p/m.proto", false⟩]
  messages := [
    { name := "Order"
      fields := [{ name := "p", number := 1, type := "Money" },
        { name := "l", number := 2, repeated := true, type := "Line" },
        { name := "c", number := 3, type := "Currency" }]
      messages := [{ name := "Line", fields := [{ name := "t", number := 1, type := "Money" }] }] }]
  services := [{ name := "S", methods := [{ name := "M", input := "Order", output := "Money" }] }]

/-- The imported file. -/
def moneyFile : Schema.File where
  path := "/p/m.proto"
  name := "m.proto"
  package := "s"
  imports := [⟨"c.proto", "/p/c.proto", true⟩]
  messages := [{ name := "Money", fields := [{ name := "c", number := 1, type := "Currency" }] }]

/-- The re-exported file. -/
def currencyFile : Schema.File where
  path := "/p/c.proto"
  name := "c.proto"
  package := "s"
  enums := [{ name := "Currency", values := [⟨"EUR", 0⟩] }]

/-- A file that `orderFile` does not see, with a type that would be met first. -/
def strangerFile : Schema.File where
  path := "/p/x.proto"
  name := "x.proto"
  package := "s.Order"
  messages := [{ name := "Money" }]

/-- The sample files, and one that nothing refers to. -/
def orderSet : FileSet where
  files := [orderFile, { path := "/p/e.proto" }, moneyFile, currencyFile]

/-- The sample files in another order, after the stranger. -/
def strangerSet : FileSet where
  files := [strangerFile, currencyFile, moneyFile, orderFile]

/-- The sample file has the same output in both sets, although everything has another number. -/
theorem orderFile_emit : ∃ p q, build orderSet {} = .ok p ∧ build strangerSet {} = .ok q ∧
    ∀ b : Backend, emit b p 0 = emit b q 3 := by
  have hp : (build orderSet {}).toOption.isSome = true := by cbv
  have hq : (build strangerSet {}).toOption.isSome = true := by cbv
  have hvisible : orderSet.visibleFrom 0 = [0, 2, 3] := by cbv
  have hshared : ∀ k g, orderSet.Visible 0 k → orderSet.files[k]? = some g →
      g ∈ strangerSet.files := by
    intro k g hk hg
    rw [← FileSet.mem_visibleFrom, hvisible] at hk
    simp only [List.mem_cons, List.not_mem_nil, or_false] at hk
    rcases hk with rfl | rfl | rfl
    · cases hg
      exact .tail _ (.tail _ (.tail _ (.head _)))
    · cases hg
      exact .tail _ (.tail _ (.head _))
    · cases hg
      exact .tail _ (.head _)
  cases hbp : build orderSet {} with
  | error err => rw [hbp] at hp; cases hp
  | ok p =>
    cases hbq : build strangerSet {} with
    | error err => rw [hbq] at hq; cases hq
    | ok q =>
      exact ⟨p, q, rfl, rfl, emit_modular (by unfold FileSet.DistinctPaths; decide)
        (by unfold FileSet.DistinctPaths; decide) hbp hbq rfl rfl hshared⟩

end ProtoStub.Program

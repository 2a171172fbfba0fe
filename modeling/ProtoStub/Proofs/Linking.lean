import ProtoStub.Proofs.Acceptance
import ProtoStub.Proofs.Respelling

/-!
# What references are linked to

A compiler links every reference to the full name that the rule of the language gives: the first
segment of the name selects the innermost scope that binds it, and the whole name is a type there.
`FileSet.LinksTo` states the rule over the files of a set. Beside what these declare, a file may see
types of bundled files; which ones is a parameter. The program knows of those the well-known types
only, and it knows these everywhere. So a reference resolves as the full name does that it is linked
to (`resolveAlike_of_linksTo`) unless a well-known name stands in between, or the type it is linked
to is unknown to the program while another scope has one that it knows. `FileSet.Clear` excludes
both.
-/

namespace ProtoStub.Program

open Schema (FileSet)

/-! ## The rule -/

/-- Two scopes around the same scope are around each other, one way or the other. -/
theorem Encloses.total {p q scope : String} (hp : Encloses p scope) (hq : Encloses q scope) :
    Encloses p q ∨ Encloses q p := by
  rcases hp with rfl | hp
  · exact .inl (.inl rfl)
  rcases hq with rfl | hq
  · exact .inr (.inl rfl)
  rw [dottedPrefix_iff] at hp hq
  rcases List.prefix_or_prefix_of_prefix hp hq with h | h
  · exact .inl (.inr (dottedPrefix_iff.2 h))
  · exact .inr (.inr (dottedPrefix_iff.2 h))

end ProtoStub.Program

namespace ProtoStub.Schema.FileSet

open Program (joinScope Encloses DottedPrefix enclosingScopes firstSegment)

variable (s : FileSet) (bundled : Nat → String → Prop) (k : Nat)

/-- To the file `k` this is the full name of a type: one that a file it sees declares, or one of the
types `bundled k` that bundled files give it. -/
def HasType (name : String) : Prop :=
  s.SeesMessage k name ∨ s.SeesEnum k name ∨ bundled k name

/-- In the scope `p`, the first segment of `ref` means something to the file `k`: it is a type or,
when `ref` goes on after a dot, a part of the package of a file that it sees, or what stands before
a dot of a type of a bundled file. -/
def Binds (ref p : String) : Prop :=
  s.HasType bundled k (joinScope p (firstSegment ref)) ∨
    '.' ∈ ref.toList ∧
      ((∃ j f, s.Visible k j ∧ s.files[j]? = some f ∧
        DottedPrefix (joinScope p (firstSegment ref)) f.package) ∨
      ∃ name, bundled k name ∧ DottedPrefix (joinScope p (firstSegment ref)) name)

/-- The name `ref`, in the scope `scope` of the file `k`, is meant in the scope `p`: this is the
innermost scope that binds its first segment, and there `ref` is a type. -/
structure LinkScope (scope ref p : String) : Prop where
  relative : ref.toList.head? ≠ some '.'
  encloses : Encloses p scope
  binds : s.Binds bundled k ref p
  innermost : ∀ q, Encloses q scope → Encloses p q → q ≠ p → ¬ s.Binds bundled k ref q
  type : s.HasType bundled k (joinScope p ref)

/-- The full name that `ref` is linked to in the scope `scope` of the file `k`. -/
inductive LinksTo (scope ref : String) : String → Prop
  | rooted {name : String} (href : ref = "." ++ name) (ht : s.HasType bundled k name) :
    LinksTo scope ref name
  | within {p : String} (hp : s.LinkScope bundled k scope ref p) :
    LinksTo scope ref (joinScope p ref)

/-- No scope but the one that `ref` is meant in comes before the program with a type of its own:
none inside has a well-known type under that name and, when the program does not know what `ref` is
linked to, none outside has a type that it knows. -/
structure Clear (scope ref : String) : Prop where
  inner : ∀ p, s.LinkScope bundled k scope ref p → ∀ q, Encloses q scope → Encloses p q → q ≠ p →
    wellKnown? (joinScope q ref) = none
  outer : ∀ p, s.LinkScope bundled k scope ref p → ¬ s.SeesType k (joinScope p ref) →
    ∀ q, Encloses q p → q ≠ p → ¬ s.SeesType k (joinScope q ref)

/-- All references of the set are clear, fields with scalars apart. No procedure has a type that is
written like a scalar. -/
def AllClear : Prop :=
  ∀ k f, s.files[k]? = some f → ∀ use scope ref, f.Refers use scope ref →
    use = .field ∧ (Scalar.ofWord? ref).isSome ∨
      Scalar.ofWord? ref = none ∧ s.Clear bundled k scope ref

/-! ### The rule on lists of names -/

/-- The names that matter to the links of a file: the types that the files it sees declare, the
types of bundled files, and the packages of the files it sees. -/
structure Vocabulary where
  declared : List String
  bundled : List String
  packages : List String

namespace Vocabulary

/-- `Binds` over listed names. -/
def Binds (v : Vocabulary) (ref p : String) : Prop :=
  joinScope p (firstSegment ref) ∈ v.declared ++ v.bundled ∨
    '.' ∈ ref.toList ∧
      ∃ name ∈ v.packages ++ v.bundled, DottedPrefix (joinScope p (firstSegment ref)) name

instance (v : Vocabulary) (ref p : String) : Decidable (v.Binds ref p) :=
  inferInstanceAs (Decidable (_ ∨ _ ∧ _))

/-- `LinkScope` over listed names. -/
def LinkScope (v : Vocabulary) (scope ref p : String) : Prop :=
  ref.toList.head? ≠ some '.' ∧ p ∈ enclosingScopes scope ∧ v.Binds ref p ∧
    (∀ q ∈ enclosingScopes scope, Encloses p q → q ≠ p → ¬ v.Binds ref q) ∧
    joinScope p ref ∈ v.declared ++ v.bundled

instance (v : Vocabulary) (scope ref p : String) : Decidable (v.LinkScope scope ref p) :=
  inferInstanceAs (Decidable (_ ∧ _ ∧ _ ∧ _ ∧ _))

/-- `SeesType` over listed names. -/
def SeesType (v : Vocabulary) (name : String) : Prop :=
  (wellKnown? name).isSome ∨ name ∈ v.declared

instance (v : Vocabulary) (name : String) : Decidable (v.SeesType name) :=
  inferInstanceAs (Decidable (_ ∨ _))

/-- `Clear` over listed names. -/
def Clear (v : Vocabulary) (scope ref : String) : Prop :=
  ∀ p ∈ enclosingScopes scope, v.LinkScope scope ref p →
    (∀ q ∈ enclosingScopes scope, Encloses p q → q ≠ p → wellKnown? (joinScope q ref) = none) ∧
    (¬ v.SeesType (joinScope p ref) →
      ∀ q ∈ enclosingScopes p, q ≠ p → ¬ v.SeesType (joinScope q ref))

instance (v : Vocabulary) (scope ref : String) : Decidable (v.Clear scope ref) :=
  inferInstanceAs (Decidable (∀ p ∈ enclosingScopes scope, _))

end Vocabulary

/-- The names that matter to the links of the file `k`. -/
def vocabulary (s : FileSet) (bundled : Nat → List String) (k : Nat) : Vocabulary :=
  let files := (s.visibleFrom k).filterMap (s.files[·]?)
  ⟨files.flatMap fun f => f.messageNames ++ f.enumNames, bundled k, files.map (·.package)⟩

section
variable {s : FileSet} {names : Nat → List String} {k : Nat} {scope ref p name : String}

theorem mem_declared : name ∈ (s.vocabulary names k).declared ↔
    s.SeesMessage k name ∨ s.SeesEnum k name := by
  simp only [vocabulary, List.mem_flatMap, List.mem_filterMap, mem_visibleFrom, List.mem_append,
    SeesMessage, SeesEnum]
  constructor
  · rintro ⟨f, ⟨j, hj, hf⟩, hm | he⟩
    · exact .inl ⟨j, f, hj, hf, hm⟩
    · exact .inr ⟨j, f, hj, hf, he⟩
  · rintro (⟨j, f, hj, hf, hm⟩ | ⟨j, f, hj, hf, he⟩)
    · exact ⟨f, ⟨j, hj, hf⟩, .inl hm⟩
    · exact ⟨f, ⟨j, hj, hf⟩, .inr he⟩

theorem mem_packages : name ∈ (s.vocabulary names k).packages ↔
    ∃ j f, s.Visible k j ∧ s.files[j]? = some f ∧ f.package = name := by
  simp only [vocabulary, List.mem_map, List.mem_filterMap, mem_visibleFrom]
  constructor
  · rintro ⟨f, ⟨j, hj, hf⟩, rfl⟩
    exact ⟨j, f, hj, hf, rfl⟩
  · rintro ⟨j, f, hj, hf, rfl⟩
    exact ⟨f, ⟨j, hj, hf⟩, rfl⟩

theorem hasType_iff : s.HasType (fun k name => name ∈ names k) k name ↔
    name ∈ (s.vocabulary names k).declared ++ (s.vocabulary names k).bundled := by
  rw [HasType, List.mem_append, mem_declared, or_assoc]
  rfl

/-- A scope binds a name by the lists exactly when it does by the files. -/
theorem binds_iff : s.Binds (fun k name => name ∈ names k) k ref p ↔
    (s.vocabulary names k).Binds ref p := by
  rw [Binds, Vocabulary.Binds, hasType_iff]
  refine or_congr_right (and_congr_right fun _ => ?_)
  simp only [List.mem_append, or_and_right, exists_or, mem_packages]
  refine or_congr_left ?_
  constructor
  · rintro ⟨j, f, hj, hf, hp⟩
    exact ⟨f.package, ⟨j, f, hj, hf, rfl⟩, hp⟩
  · rintro ⟨_, ⟨j, f, hj, hf, rfl⟩, hp⟩
    exact ⟨j, f, hj, hf, hp⟩

/-- The scope that is selected is the same for both. -/
theorem linkScope_iff : s.LinkScope (fun k name => name ∈ names k) k scope ref p ↔
    (s.vocabulary names k).LinkScope scope ref p := by
  simp only [Vocabulary.LinkScope, Program.mem_enclosingScopes, ← binds_iff, ← hasType_iff]
  exact ⟨fun h => ⟨h.relative, h.encloses, h.binds, h.innermost, h.type⟩,
    fun h => ⟨h.1, h.2.1, h.2.2.1, h.2.2.2.1, h.2.2.2.2⟩⟩

/-- A reference is linked in the scope that the listed names give. -/
theorem linksTo_of_vocabulary {v : Vocabulary} (hv : s.vocabulary names k = v)
    (h : v.LinkScope scope ref p) (hname : joinScope p ref = name) :
    s.LinksTo (fun k name => name ∈ names k) k scope ref name :=
  hname ▸ .within (linkScope_iff.2 (hv ▸ h))

theorem seesType_iff : s.SeesType k name ↔ (s.vocabulary names k).SeesType name := by
  rw [SeesType, Vocabulary.SeesType, mem_declared]

/-- A reference is clear by the lists exactly when it is by the files. -/
theorem clear_iff : s.Clear (fun k name => name ∈ names k) k scope ref ↔
    (s.vocabulary names k).Clear scope ref := by
  simp only [Vocabulary.Clear, Program.mem_enclosingScopes, ← linkScope_iff, ← seesType_iff]
  exact ⟨fun h p _ hp => ⟨h.inner p hp, h.outer p hp⟩,
    fun h => ⟨fun p hp => (h p hp.encloses hp).1, fun p hp => (h p hp.encloses hp).2⟩⟩

end

end ProtoStub.Schema.FileSet

namespace ProtoStub.Program

open Schema (FileSet)

/-! ## Resolution follows the rule -/

section
variable {s : FileSet} {bundled : Nat → String → Prop} {d : Declarations} {k : Nat}
  {scope ref p name : String}

/-- What stands before a dot of the full name of a declaration binds there. -/
theorem Declared.binds_of_scopeIn (h : Declared s d) {j : Nat} (hdot : '.' ∈ ref.toList)
    (hj : s.Visible k j) (hin : ScopeIn s d j (joinScope p (firstSegment ref))) :
    s.Binds bundled k ref p := by
  rcases hin with ⟨f, hf, hq⟩ | ⟨i, m, hm, hname, rfl⟩
  · exact .inr ⟨hdot, .inl ⟨j, f, hj, hf, hq⟩⟩
  · exact .inl (.inl (h.exists_message_iff.1 ⟨m, List.mem_of_getElem? hm, hname, hj⟩))

/-- A scope in which the whole name is declared binds its first segment. -/
theorem Declared.binds_of_declared (h : Declared s d)
    (hdots : ∀ name ∈ s.declaredNames, '.' ∉ name.toList)
    (ht : s.SeesMessage k (joinScope p ref) ∨ s.SeesEnum k (joinScope p ref)) :
    s.Binds bundled k ref p := by
  by_cases hdot : '.' ∈ ref.toList
  case neg =>
    refine .inl ?_
    rw [firstSegment_eq hdot]
    exact ht.imp_right .inl
  have hpre : DottedPrefix (joinScope p (firstSegment ref)) (joinScope p ref) :=
    .inr (joinScope_firstSegment hdot)
  rcases ht with ht | ht
  · obtain ⟨m, hm, hname, hs⟩ := h.exists_message_iff.2 ht
    obtain ⟨i, hi⟩ := List.mem_iff_getElem?.1 hm
    exact h.binds_of_scopeIn hdot hs (h.message_prefix hdots hi (hname.symm ▸ hpre))
  · obtain ⟨e, he, hname, hs⟩ := h.exists_enum_iff.2 ht
    rcases h.enum_prefix hdots he (hname.symm ▸ hpre) with hq | hq
    · exact .inl (.inr (.inl (hq.trans hname ▸ ht)))
    · exact h.binds_of_scopeIn hdot hs hq

/-- Inside the scope that a clear reference is meant in, the program knows no type under its
name. -/
theorem Declared.not_seesType_inside (h : Declared s d)
    (hdots : ∀ name ∈ s.declaredNames, '.' ∉ name.toList)
    (hp : s.LinkScope bundled k scope ref p) (hclear : s.Clear bundled k scope ref) {q : String}
    (hq : Encloses q scope) (hpq : Encloses p q) (hne : q ≠ p) :
    ¬ s.SeesType k (joinScope q ref) := by
  rintro (hw | ht)
  · rw [hclear.inner p hp q hq hpq hne] at hw
    cases hw
  · exact hp.innermost q hq hpq hne (h.binds_of_declared hdots ht)

/-- A clear reference stands for what it is linked to, if the program knows that, and else for
nothing. -/
theorem Declared.standsFor_iff (h : Declared s d)
    (hdots : ∀ name ∈ s.declaredNames, '.' ∉ name.toList)
    (hlink : s.LinksTo bundled k scope ref name) (hclear : s.Clear bundled k scope ref)
    {x : String} :
    StandsFor (s.SeesType k) scope ref x ↔ x = name ∧ s.SeesType k name := by
  cases hlink with
  | rooted href _ =>
    constructor
    · intro hx
      cases hx with
      | rooted href' ht =>
        have hname : x = name := (String.append_right_inj ".").1 (href'.symm.trans href)
        exact ⟨hname, hname ▸ ht⟩
      | within hrel => exact absurd (by simp [href]) hrel
    · rintro ⟨rfl, ht⟩
      exact .rooted href ht
  | @within p hp =>
    constructor
    · intro hx
      cases hx with
      | rooted href _ => exact absurd (by simp [href]) hp.relative
      | @within p' hrel hp' ht hin =>
        by_cases heq : p' = p
        · exact ⟨by rw [heq], heq ▸ ht⟩
        rcases hp.encloses.total hp' with hpp | hpp
        · exact absurd ht (h.not_seesType_inside hdots hp hclear hp' hpp heq)
        · -- The scope of the link lies inside the one found, so the program knows no type there.
          have hunknown := hin p hp.encloses hpp (Ne.symm heq)
          exact absurd ht (hclear.outer p hp hunknown p' hpp heq)
    · rintro ⟨rfl, ht⟩
      exact .within hp.relative hp.encloses ht fun q hq hpq hne =>
        h.not_seesType_inside hdots hp hclear hq hpq hne

/-- A name with a leading dot is no scalar. -/
theorem ofWord?_rooted (name : String) : Scalar.ofWord? ("." ++ name) = none := by
  have hwords : ∀ x ∈ Scalar.words, x.1.toList.head? ≠ some '.' := by decide
  refine List.lookup_eq_none_iff.2 fun x hx => bne_iff_ne.2 ?_
  intro he
  exact hwords x hx (by simp [← he])

/-- A clear reference resolves as the full name does that it is linked to. -/
theorem Declared.resolveAlike_of_linksTo (h : Declared s d)
    (hdots : ∀ name ∈ s.declaredNames, '.' ∉ name.toList) (hscalar : Scalar.ofWord? ref = none)
    (hlink : s.LinksTo bundled k scope ref name) (hclear : s.Clear bundled k scope ref) :
    ResolveAlike s d k scope ref ("." ++ name) := by
  have hscalar' := ofWord?_rooted name
  intro type
  simp only [h.indexed.resolve_eq_ok_iff_standsFor, hscalar, hscalar', h.seesType_eq]
  refine exists_congr fun x => and_congr_left fun _ => ?_
  rw [h.standsFor_iff hdots hlink hclear]
  constructor
  · rintro ⟨rfl, ht⟩
    exact .rooted rfl ht
  · intro hx
    cases hx with
    | rooted href ht =>
      have hname : name = x := (String.append_right_inj ".").1 href
      exact ⟨hname.symm, hname ▸ ht⟩
    | within hrel => exact absurd (by simp) hrel

end

end ProtoStub.Program

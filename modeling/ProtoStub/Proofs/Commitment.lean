import ProtoStub.Proofs.Linking

/-!
# Names that outlive their scope

The first segment of a dotted name commits the name to the innermost scope that binds it
(`FileSet.CommitsTo`): when the rest of the name leads nowhere there, the rule of the language
refuses it. The program does not commit. It tries the whole name in every scope, so it refuses such
a name only if no scope at all completes it (`Declared.exists_resolve_dotted_iff`). Inside the scope
of the commitment nothing but a well-known name can do so, because a declared name would bind the
first segment there (`Declared.wellKnown_inside`). What is left are the scopes further out
(`resolve_refuses_iff`), and there the program does find types that the rule does not allow
(`outer_type_found`).
-/

namespace ProtoStub.Schema.FileSet

open Program (joinScope Encloses enclosingScopes mem_enclosingScopes)

/-- The first segment of `ref`, in the scope `scope` of the file `k`, commits the name to the scope
`p`: this is the innermost one in which the segment is a message or an enum that the file sees or,
as `ref` goes on after a dot, a part of the package of a file that it sees. -/
structure CommitsTo (s : FileSet) (k : Nat) (scope ref p : String) : Prop where
  encloses : Encloses p scope
  binds : s.Binds (fun _ _ => False) k ref p
  innermost : ∀ q, Encloses q scope → Encloses p q → q ≠ p → ¬ s.Binds (fun _ _ => False) k ref q

/-- `CommitsTo` over listed names. -/
theorem commitsTo_iff {s : FileSet} {k : Nat} {scope ref p : String} {v : Vocabulary}
    (hv : s.vocabulary (fun _ => []) k = v) :
    s.CommitsTo k scope ref p ↔ p ∈ enclosingScopes scope ∧ v.Binds ref p ∧
      ∀ q ∈ enclosingScopes scope, Encloses p q → q ≠ p → ¬ v.Binds ref q := by
  have hbinds : ∀ q, s.Binds (fun _ _ => False) k ref q ↔ v.Binds ref q := by
    intro q
    rw [← hv, ← binds_iff]
    simp
  simp only [mem_enclosingScopes, ← hbinds]
  exact ⟨fun h => ⟨h.encloses, h.binds, h.innermost⟩, fun h => ⟨h.1, h.2.1, h.2.2⟩⟩

end ProtoStub.Schema.FileSet

namespace ProtoStub.Program

open Schema (FileSet)

/-! ## Names in all scopes -/

/-- Some name of a list is the first that stands for a type as soon as one of them does. -/
theorem exists_firstVisible_iff {d : Declarations} {sees : Nat → Prop} {names : List String} :
    (∃ t, FirstVisible d sees names t) ↔ ∃ name ∈ names, ∃ t, VisibleType d sees name t := by
  constructor
  · rintro ⟨t, before, name, after, rfl, ht, -⟩
    exact ⟨name, List.mem_append_right _ List.mem_cons_self, t, ht⟩
  · rintro ⟨name, hname, ht⟩
    induction names with
    | nil => cases hname
    | cons c rest ih =>
      by_cases hc : ∃ t, VisibleType d sees c t
      · obtain ⟨t, hc⟩ := hc
        exact ⟨t, [], c, rest, rfl, hc, by simp⟩
      · have hrest : name ∈ rest := by
          refine (List.mem_cons.1 hname).resolve_left ?_
          rintro rfl
          exact hc ht
        obtain ⟨t, before, x, after, rfl, hx, hbefore⟩ := ih hrest
        refine ⟨t, c :: before, x, after, rfl, hx, fun earlier he => ?_⟩
        rcases List.mem_cons.1 he with rfl | he
        · exact not_exists.1 hc
        · exact hbefore earlier he

/-- A scope around a scope around another one is around that one. -/
theorem Encloses.trans {p q r : String} (hpq : Encloses p q) (hqr : Encloses q r) :
    Encloses p r := by
  rcases hqr with rfl | hqr
  · exact .inl (hpq.antisymm (.inl rfl))
  rcases hpq with rfl | hpq
  · exact .inl rfl
  · rw [dottedPrefix_iff] at hpq hqr
    exact .inr (dottedPrefix_iff.2 (hpq.trans hqr))

/-- A name with a dot is no scalar. -/
theorem ofWord?_dotted {ref : String} (h : '.' ∈ ref.toList) : Scalar.ofWord? ref = none := by
  have hwords : ∀ x ∈ Scalar.words, '.' ∉ x.1.toList := by decide
  refine List.lookup_eq_none_iff.2 fun x hx => bne_iff_ne.2 ?_
  rintro rfl
  exact hwords x hx h

/-- A name that stands for nothing is no well-known one. -/
theorem wellKnown?_of_not_seesType {s : FileSet} {k : Nat} {name : String}
    (h : ¬ s.SeesType k name) : wellKnown? name = none :=
  Option.not_isSome_iff_eq_none.1 fun hw => h (.inl hw)

/-- A name that is refused is refused under its own spelling, in the file where it stands. -/
theorem resolve_error {n : Names} {visible : List Nat} {k : Nat} {scope ref : String}
    {e : UnknownType} (h : n.resolve visible k scope ref = .error e) :
    e.file = filePath n.set k ∧ e.type = ref := by
  rw [Names.resolve] at h
  split at h
  · cases h
  · split at h
    · cases h
    · cases h
      exact ⟨rfl, rfl⟩
    · cases h
      exact ⟨rfl, rfl⟩

section
variable {s : FileSet} {d : Declarations} {k : Nat} {scope ref p q : String}

/-- A dotted name resolves when it is a type in one of its scopes, whatever its first segment is
there. -/
theorem Declared.exists_resolve_dotted_iff (h : Declared s d) (hrel : ref.toList.head? ≠ some '.')
    (hdot : '.' ∈ ref.toList) :
    (∃ t, Names.resolve ⟨s, d.symbols⟩ (s.visibleFrom k) k scope ref = .ok t) ↔
      ∃ q, Encloses q scope ∧ s.SeesType k (joinScope q ref) := by
  simp only [h.indexed.resolve_eq_ok_iff, ofWord?_dotted hdot, exists_firstVisible_iff,
    candidates_of_relative hrel, List.mem_map, mem_enclosingScopes, FileSet.mem_visibleFrom,
    ← h.seesType_eq, exists_exists_and_eq_and]

/-! ## Names that commit to a scope -/

/-- Inside the scope that a name commits to, only a well-known name completes it. -/
theorem Declared.wellKnown_inside (h : Declared s d)
    (hdots : ∀ name ∈ s.declaredNames, '.' ∉ name.toList) (hp : s.CommitsTo k scope ref p)
    (hq : Encloses q scope) (hpq : Encloses p q) (hne : q ≠ p)
    (ht : s.SeesType k (joinScope q ref)) : (wellKnown? (joinScope q ref)).isSome :=
  ht.resolve_right fun ht => hp.innermost q hq hpq hne (h.binds_of_declared hdots ht)

/-- What completes a name that its own scope does not complete is a scope further out, or a
well-known name further in. -/
theorem Declared.completes_elsewhere (h : Declared s d)
    (hdots : ∀ name ∈ s.declaredNames, '.' ∉ name.toList) (hp : s.CommitsTo k scope ref p)
    (hnone : ¬ s.SeesType k (joinScope p ref)) (hq : Encloses q scope)
    (ht : s.SeesType k (joinScope q ref)) :
    q ≠ p ∧ (Encloses q p ∨ Encloses p q ∧ (wellKnown? (joinScope q ref)).isSome) := by
  have hne : q ≠ p := by
    rintro rfl
    exact hnone ht
  refine ⟨hne, ?_⟩
  rcases hp.encloses.total hq with hpq | hqp
  · exact .inr ⟨hpq, h.wellKnown_inside hdots hp hq hpq hne ht⟩
  · exact .inl hqp

/-- What a name stands for that its own scope does not complete is found in another scope. -/
theorem Declared.resolved_elsewhere (h : Declared s d)
    (hdots : ∀ name ∈ s.declaredNames, '.' ∉ name.toList) (hrel : ref.toList.head? ≠ some '.')
    (hdot : '.' ∈ ref.toList) (hp : s.CommitsTo k scope ref p)
    (hnone : ¬ s.SeesType k (joinScope p ref)) {t : TypeRef}
    (hr : Names.resolve ⟨s, d.symbols⟩ (s.visibleFrom k) k scope ref = .ok t) :
    ∃ q, Encloses q scope ∧ q ≠ p ∧ VisibleType d (s.Visible k) (joinScope q ref) t ∧
      (Encloses q p ∨ ∃ w, t = .wellKnown w) := by
  rw [h.indexed.resolve_eq_ok_iff_standsFor, ofWord?_dotted hdot] at hr
  obtain ⟨name, hname, ht⟩ := hr
  cases hname with
  | rooted href => exact absurd (by simp [href]) hrel
  | @within q _ hq =>
    have hsees : s.SeesType k (joinScope q ref) := by
      rw [← h.seesType_eq]
      exact ⟨t, ht⟩
    obtain ⟨hne, hqp | ⟨-, hw⟩⟩ := h.completes_elsewhere hdots hp hnone hq hsees
    · exact ⟨q, hq, hne, ht, .inl hqp⟩
    · refine ⟨q, hq, hne, ht, .inr ?_⟩
      cases ht with
      | wellKnown => exact ⟨_, rfl⟩
      | message hw' | enum hw' =>
        rw [hw'] at hw
        cases hw

end

/-- A dotted name that is no type in the scope it commits to is refused exactly when it is no type
in any scope further out and no well-known name in any scope further in. Otherwise it stands for a
type that one of these has. -/
theorem resolve_refuses_iff {s : FileSet} {d : Declarations} (hd : declareAll s = .ok d)
    (hdots : ∀ name ∈ s.declaredNames, '.' ∉ name.toList) {k : Nat} {scope ref p : String}
    (hrel : ref.toList.head? ≠ some '.') (hdot : '.' ∈ ref.toList)
    (hp : s.CommitsTo k scope ref p) (hnone : ¬ s.SeesType k (joinScope p ref)) :
    ((∃ e, Names.resolve ⟨s, d.symbols⟩ (s.visibleFrom k) k scope ref = .error e ∧
        e.file = filePath s k ∧ e.type = ref) ↔
      (∀ q, Encloses q p → q ≠ p → ¬ s.SeesType k (joinScope q ref)) ∧
        ∀ q, Encloses q scope → Encloses p q → wellKnown? (joinScope q ref) = none) ∧
    ∀ t, Names.resolve ⟨s, d.symbols⟩ (s.visibleFrom k) k scope ref = .ok t →
      ∃ q, Encloses q scope ∧ q ≠ p ∧ VisibleType d (s.Visible k) (joinScope q ref) t ∧
        (Encloses q p ∨ ∃ w, t = .wellKnown w) := by
  have h := declared_of_declareAll hd
  have hresolves : (∃ t, Names.resolve ⟨s, d.symbols⟩ (s.visibleFrom k) k scope ref = .ok t) ↔
      ∃ q, Encloses q scope ∧ s.SeesType k (joinScope q ref) :=
    h.exists_resolve_dotted_iff hrel hdot
  refine ⟨⟨?_, ?_⟩, fun t => h.resolved_elsewhere hdots hrel hdot hp hnone⟩
  · rintro ⟨e, he, -⟩
    rw [he] at hresolves
    have hall := not_exists.1 (mt hresolves.2 (by simp))
    exact ⟨fun q hqp _ ht => hall q ⟨hqp.trans hp.encloses, ht⟩,
      fun q hq _ => wellKnown?_of_not_seesType fun ht => hall q ⟨hq, ht⟩⟩
  · rintro ⟨houter, hinner⟩
    cases hr : Names.resolve ⟨s, d.symbols⟩ (s.visibleFrom k) k scope ref with
    | error e => exact ⟨e, rfl, resolve_error hr⟩
    | ok t =>
      obtain ⟨q, hq, ht⟩ := hresolves.1 ⟨t, hr⟩
      obtain ⟨hne, hqp | ⟨hpq, hw⟩⟩ := h.completes_elsewhere hdots hp hnone hq ht
      · exact absurd ht (houter q hqp hne)
      · rw [hinner q hq hpq] at hw
        cases hw

/-- Inside `Outer` the segment `Foo` is a message without members, beside `Outer` it is one that
holds `Bar`. -/
def hiddenSample : FileSet where
  files := [
    { path := "/p/a.proto", name := "a.proto", package := "a"
      messages := [
        { name := "Outer", fields := [{ name := "f", number := 1, type := "Foo.Bar" }]
          messages := [{ name := "Foo" }] },
        { name := "Foo", messages := [{ name := "Bar" }] }] }]

/-- The names that matter to the file of the sample. -/
def hiddenVocabulary : FileSet.Vocabulary :=
  ⟨["a.Outer", "a.Outer.Foo", "a.Foo", "a.Foo.Bar"], [], ["a"]⟩

/-- The file of the sample sees itself only. -/
theorem hiddenSample_visibleFrom : hiddenSample.visibleFrom 0 = [0] := by
  cbv

theorem hiddenSample_vocabulary : hiddenSample.vocabulary (fun _ => []) 0 = hiddenVocabulary := by
  rw [FileSet.vocabulary, hiddenSample_visibleFrom]
  rfl

theorem hiddenSample_seesType {name : String} :
    hiddenSample.SeesType 0 name ↔ hiddenVocabulary.SeesType name :=
  hiddenSample_vocabulary ▸ FileSet.seesType_iff

/-- In the sample `Foo.Baz` commits to `Outer` and is a type nowhere, so it is refused. -/
theorem hiddenSample_refuses : ∃ d, declareAll hiddenSample = .ok d ∧
    hiddenSample.CommitsTo 0 "a.Outer" "Foo.Baz" "a.Outer" ∧
    ¬ hiddenSample.SeesType 0 (joinScope "a.Outer" "Foo.Baz") ∧
    ∃ e, Names.resolve ⟨hiddenSample, d.symbols⟩ (hiddenSample.visibleFrom 0) 0 "a.Outer"
        "Foo.Baz" = .error e ∧ e.file = "/p/a.proto" ∧ e.type = "Foo.Baz" := by
  obtain ⟨d, hd⟩ := declareAll_isOk_iff.2
    (by decide : ((stepsOf hiddenSample).map Step.fullName).Nodup)
  have hp : hiddenSample.CommitsTo 0 "a.Outer" "Foo.Baz" "a.Outer" :=
    (FileSet.commitsTo_iff hiddenSample_vocabulary).2 (by decide)
  have hscopes : ∀ q ∈ enclosingScopes "a.Outer",
      ¬ hiddenSample.SeesType 0 (joinScope q "Foo.Baz") := by
    simp only [hiddenSample_seesType]
    decide
  have hnone := hscopes _ (mem_enclosingScopes.2 hp.encloses)
  refine ⟨d, hd, hp, hnone,
    (resolve_refuses_iff hd (by decide) (by decide) (by decide) hp hnone).1.2 ⟨?_, ?_⟩⟩
  · exact fun q hq _ => hscopes q (mem_enclosingScopes.2 hq)
  · exact fun q hq _ => wellKnown?_of_not_seesType (hscopes q (mem_enclosingScopes.2 hq))

/-- In the sample `Foo.Bar` commits to `Outer` and is no type there, but it is not refused: it
stands for a message further out. -/
theorem outer_type_found : ∃ d, declareAll hiddenSample = .ok d ∧
    (∀ name ∈ hiddenSample.declaredNames, '.' ∉ name.toList) ∧
    hiddenSample.CommitsTo 0 "a.Outer" "Foo.Bar" "a.Outer" ∧
    ¬ hiddenSample.SeesType 0 (joinScope "a.Outer" "Foo.Bar") ∧
    Names.resolve ⟨hiddenSample, d.symbols⟩ (hiddenSample.visibleFrom 0) 0 "a.Outer" "Foo.Bar" =
      .ok (.message 3) := by
  obtain ⟨d, hd⟩ := declareAll_isOk_iff.2
    (by decide : ((stepsOf hiddenSample).map Step.fullName).Nodup)
  have h := declared_of_declareAll hd
  refine ⟨d, hd, by decide, (FileSet.commitsTo_iff hiddenSample_vocabulary).2 (by decide), ?_, ?_⟩
  · rw [hiddenSample_seesType]
    decide
  · refine h.indexed.resolve_eq_ok_iff.2 ⟨["a.Outer.Foo.Bar"], "a.Foo.Bar", ["Foo.Bar"],
      by decide, ?_, fun name hname t ht => ?_⟩
    · refine .message (by decide) ((congrArg (·[3]?) h.messages).trans rfl) rfl ?_
      exact hiddenSample_visibleFrom ▸ by decide
    · have hnone := exists_visibleType_iff.1 ⟨t, ht⟩
      obtain rfl := List.mem_singleton.1 hname
      rw [h.messages, h.enums, hiddenSample_visibleFrom] at hnone
      exact absurd hnone (by decide)

end ProtoStub.Program

import ProtoStub.VisualBasic.Word
import ProtoStub.Proofs.Nesting
import ProtoStub.Proofs.Scoping

/-!
# What qualified names bind to

Inside a class a dotted name is looked up by its first segment: among the types nested in the class,
then among those of each class around it, and then in the namespace. `qualify` leaves a name without
root exactly when the namespaces are the same and nothing on that way has the first segment as its
name (`Built.qualify_cases`). Then the look-up comes to the namespace, finds the type at the top of
the path there, and goes on from member to member to the type that was meant and to no other
(`qualify_binds`). All this compares names by their spelling. The output is read without regard to
letter case, and a nested type that differs in case only takes the place of the one that was meant
(`captured_ignoring_case_iff`, `unrooted_name_captured`).
-/

namespace ProtoStub.Program

open Text
open Schema (FileSet)
open VisualBasic (foldCase)

/-! ## First segments -/

theorem cut_dot_fst (s : String) : (cut '.' s).1 = firstSegment s := by
  rw [cut, firstSegment]
  split
  · rename_i hnil
    have htake : s.toList.takeWhile (· != '.') = s.toList :=
      (List.takeWhile_prefix _).eq_of_length_le (List.drop_eq_nil_iff.1 hnil)
    rw [htake, String.ofList_toList]
  · rfl

/-- The first of the segments that a name is joined of. -/
theorem firstSegment_join {first : String} (h : '.' ∉ first.toList) (rest : List String) :
    firstSegment (join "." (first :: rest)) = first := by
  by_cases hr : rest = []
  · subst hr
    rw [join, String.intercalate_singleton, firstSegment_eq h]
  · have hjoin : join "." (first :: rest) = first ++ "." ++ join "." rest :=
      String.intercalate_append_of_ne_nil (List.cons_ne_nil first []) hr
    have htake : (first.toList ++ '.' :: (join "." rest).toList).takeWhile (· != '.') =
        first.toList := by
      have hpass : ∀ c ∈ first.toList, (c != '.') = true := fun c hc =>
        bne_iff_ne.2 fun he => h (he ▸ hc)
      rw [List.takeWhile_append_of_pos hpass, List.takeWhile_cons_of_neg (by simp), List.append_nil]
    rw [hjoin, firstSegment, String.toList_append, String.toList_append, List.append_assoc]
    exact (congrArg String.ofList htake).trans String.ofList_toList

/-! ## Looking names up -/

/-- The types that a look-up inside the class of a message meets before it comes to the namespace:
those nested in the class and in the classes around it. -/
def around (p : Program) (site : Option Nat) : List TypeRef :=
  (p.chain site).flatMap fun c => p.members (.message c)

/-- The type is declared in the namespace of the file. -/
def SameSpace (p : Program) (t : TypeRef) (k : Nat) : Prop :=
  (p.file (p.info t).file).namespaceName = (p.file k).namespaceName

/-- Nothing inside or around the class of the message `site` takes the first segment of the path of
`t`, the type at its top apart. -/
structure Unshadowed (p : Program) (t : TypeRef) (site : Option Nat) : Prop where
  nested : ∀ u ∈ p.around site, (p.info u).name ≠ firstSegment (p.info t).path
  enclosing : ∀ c ∈ p.chain site,
    (p.message c).name = firstSegment (p.info t).path → p.topOf t = .message c

/-- The name `name` without root, looked up by spelling in the class of `site`, in the file `k`,
comes to the namespace and from there to `t` alone. -/
structure Reaches (p : Program) (name : String) (k : Nat) (site : Option Nat) (t : TypeRef) :
    Prop where
  sameSpace : p.SameSpace t k
  /-- No type on the way to the namespace has the name of the type at the top. -/
  passes : ∀ u ∈ p.around site, (p.info u).name ≠ (p.info (p.topOf t)).name
  top : p.topOf t ∈ p.topTypes (p.info t).file
  walk : ∃ rest, split '.' name = (p.info (p.topOf t)).name :: rest ∧ p.walk (p.topOf t) rest = [t]

/-- The name `q` is right for `t` in the class of `site`, in the file `k`: with root it is the full
path, without root it reaches `t`, and it has a root only where that is needed. -/
structure Binds (p : Program) (q : QualifiedName) (k : Nat) (site : Option Nat) (t : TypeRef) :
    Prop where
  rooted : q.isGlobal = true →
    q.name = (p.file (p.info t).file).namespaceName ++ "." ++ (p.info t).path
  unrooted : q.isGlobal = false → p.Reaches q.name k site t
  needed : p.SameSpace t k → (∀ u ∈ p.around site, (p.info u).name ≠ (p.info (p.topOf t)).name) →
    (∀ c ∈ p.chain site, (p.message c).name = (p.info (p.topOf t)).name → p.topOf t = .message c) →
      q.isGlobal = false

section
variable {s : FileSet} {options : BuildOptions} {d : Declarations} {p : Program} {t : TypeRef}

/-- A message declares the names of its members. -/
theorem declares_eq_any (name : String) (c : Nat) :
    Message.declares p (p.message c) name =
      (p.members (.message c)).any fun u => (p.info u).name == name := by
  rw [members, List.any_append, List.any_map, List.any_map]
  rfl

/-- A name is free inside a message when no type nested around it has that name, and no message
around it but `top`. -/
theorem shadowed_eq_false_iff {name : String} {top : Option Nat} {i : Nat} :
    p.shadowed name top i = false ↔
      (∀ u ∈ p.around (some i), (p.info u).name ≠ name) ∧
        ∀ c ∈ p.chain (some i), (p.message c).name = name → top = some c := by
  simp only [shadowed, List.any_eq_false, declares_eq_any, around, List.mem_flatMap,
    Bool.or_eq_true, Bool.and_eq_true, beq_iff_eq, bne_iff_ne, List.any_eq_true, not_or, not_and,
    not_not, not_exists]
  constructor
  · intro h
    refine ⟨?_, fun c hc => (h c hc).1⟩
    rintro u ⟨c, hc, hu⟩
    exact (h c hc).2 u hu
  · rintro ⟨hnested, henclosing⟩ c hc
    exact ⟨henclosing c hc, fun u hu => hnested u ⟨c, hc, hu⟩⟩

/-- The target of a reference to a message or an enum. -/
theorem Built.target?_eq (h : Built s options d p) (ht : p.IsDeclared t) : ∃ top,
    p.target? t = some ⟨(p.info t).path, (p.info t).file, top⟩ ∧
      ∀ c, top = some c ↔ p.topOf t = .message c := by
  cases t with
  | message i =>
    refine ⟨_, rfl, fun c => ?_⟩
    rw [h.chain_message ht, List.getLast?_cons, topOf]
    cases (p.chain (p.info (.message i)).parent).getLast? <;> simp
  | enum i =>
    refine ⟨_, rfl, fun c => ?_⟩
    rw [topOf]
    show (p.chain (p.info (.enum i)).parent).getLast? = some c ↔ _
    cases (p.chain (p.info (.enum i)).parent).getLast? <;> simp
  | scalar | wellKnown | undefined => exact ht.elim

/-- A reference is written without root exactly when its namespace is that of the place and nothing
there takes its first segment. -/
theorem Built.qualify_cases (h : Built s options d p) (ht : p.IsDeclared t) (k : Nat)
    (site : Option Nat) :
    p.SameSpace t k ∧ p.Unshadowed t site ∧ p.qualify t k site = ⟨(p.info t).path, false⟩ ∨
      ¬ (p.SameSpace t k ∧ p.Unshadowed t site) ∧ p.qualify t k site =
        ⟨(p.file (p.info t).file).namespaceName ++ "." ++ (p.info t).path, true⟩ := by
  obtain ⟨top, htarget, htop⟩ := h.target?_eq ht
  have hfree : site.any (p.shadowed (firstSegment (p.info t).path) top) = false ↔
      p.Unshadowed t site := by
    cases site with
    | none => exact ⟨fun _ => ⟨by simp [around], by simp⟩, fun _ => rfl⟩
    | some i =>
      rw [Option.any_some, shadowed_eq_false_iff]
      simp only [htop]
      exact ⟨fun hf => ⟨hf.1, hf.2⟩, fun hf => ⟨hf.nested, hf.enclosing⟩⟩
  simp only [qualify, htarget, cut_dot_fst]
  by_cases hspace : p.SameSpace t k
  · rw [if_neg (by simpa [SameSpace] using hspace)]
    cases hany : site.any (p.shadowed (firstSegment (p.info t).path) top) with
    | false => exact .inl ⟨hspace, hfree.1 hany, by simp⟩
    | true =>
      refine .inr ⟨fun hboth => ?_, by simp⟩
      rw [hfree.2 hboth.2] at hany
      cases hany
  · rw [if_pos (by simpa [SameSpace] using hspace)]
    exact .inr ⟨fun hboth => hspace hboth.1, rfl⟩

/-- The first segment of a path is the name of the type at its top, when names have no dots. -/
theorem Built.firstSegment_path (h : Built s options d p)
    (hnames : ∀ name ∈ s.declaredNames, '.' ∉ name.toList) (ht : p.IsDeclared t) :
    firstSegment (p.info t).path = (p.info (p.topOf t)).name := by
  obtain ⟨rest, hsegments, -⟩ := h.exists_walk ht
  have hfirst : '.' ∉ (p.info (p.topOf t)).name.toList :=
    hnames _ (h.mem_segments ht _ (hsegments ▸ List.mem_cons_self))
  rw [h.path_eq ht, hsegments, firstSegment_join hfirst]

/-- A path reaches its type wherever nothing takes its first segment. -/
theorem Built.reaches_path (h : Built s options d p)
    (hnames : ∀ name ∈ s.declaredNames, '.' ∉ name.toList) (ht : p.IsDeclared t) {k : Nat}
    {site : Option Nat} (hspace : p.SameSpace t k) (hfree : p.Unshadowed t site) :
    p.Reaches (p.info t).path k site t := by
  refine ⟨hspace, h.firstSegment_path hnames ht ▸ hfree.nested, h.topOf_mem ht, ?_⟩
  obtain ⟨rest, hsegments, hwalk⟩ := h.exists_walk ht
  refine ⟨rest, ?_, hwalk⟩
  rw [h.path_eq ht, ← hsegments]
  exact split_join (by simp [segments]) fun name hname => hnames name (h.mem_segments ht name hname)

end

/-- The qualified name of every message and enum, from every file and from inside every class, binds
to the type that is meant: with root it is the full path, without root the look-up of its first
segment by spelling passes every type nested around the place, comes to the type at the top of the
path and goes on to the type and to no other; and it has no root where none is needed. -/
theorem qualify_binds {s : FileSet} {options : BuildOptions} {p : Program}
    (hnames : ∀ name ∈ s.declaredNames, '.' ∉ name.toList) (h : build s options = .ok p)
    {t : TypeRef} (ht : p.IsDeclared t) (k : Nat) (site : Option Nat) :
    p.Binds (p.qualify t k site) k site t := by
  obtain ⟨d, hb⟩ := exists_built h
  have hfirst := hb.firstSegment_path hnames ht
  rcases hb.qualify_cases ht k site with ⟨hspace, hfree, hq⟩ | ⟨hneeded, hq⟩
  · rw [hq]
    exact ⟨nofun, fun _ => hb.reaches_path hnames ht hspace hfree, fun _ _ _ => rfl⟩
  · rw [hq]
    refine ⟨fun _ => rfl, nofun, fun hspace hnested henclosing => ?_⟩
    exact absurd ⟨hspace, hfirst ▸ hnested, hfirst ▸ henclosing⟩ hneeded

/-- A file in which a message and the message of the same name inside another one are both used, and
a file of another namespace. -/
def shadowSample : FileSet where
  files := [
    { path := "/p/main.proto", name := "main.proto", package := "main"
      messages := [
        { name := "Inner" },
        { name := "Outer"
          fields := [{ name := "nested", number := 1, type := "Inner" },
            { name := "top", number := 2, type := ".main.Inner" }]
          messages := [{ name := "Inner" }] }] },
    { path := "/p/other.proto", name := "other.proto", package := "other"
      enums := [{ name := "Kind" }] }]

/-- Inside `Outer` the nested message is named from the top, and the other two types need the root:
the first because it is shadowed, the second because it lies in another namespace. -/
theorem shadowSample_binds : ∃ p, build shadowSample {} = .ok p ∧
    (∀ name ∈ shadowSample.declaredNames, '.' ∉ name.toList) ∧
    p.qualify (.message 2) 0 (some 1) = ⟨"Outer.Inner", false⟩ ∧
    p.qualify (.message 0) 0 (some 1) = ⟨"Main.Inner", true⟩ ∧
    p.qualify (.enum 0) 0 (some 1) = ⟨"Other.Kind", true⟩ ∧
    ∀ t ∈ [TypeRef.message 2, .message 0, .enum 0], p.IsDeclared t ∧
      p.Binds (p.qualify t 0 (some 1)) 0 (some 1) t := by
  have hsample : (build shadowSample {}).toOption.map (fun p =>
      (p.messages.length, p.enums.length, p.qualify (.message 2) 0 (some 1),
        p.qualify (.message 0) 0 (some 1), p.qualify (.enum 0) 0 (some 1))) =
      some (3, 1, ⟨"Outer.Inner", false⟩, ⟨"Main.Inner", true⟩, ⟨"Other.Kind", true⟩) := by
    decide +kernel
  have hnames : ∀ name ∈ shadowSample.declaredNames, '.' ∉ name.toList := by decide +kernel
  obtain ⟨p, hp, hvalues⟩ := Option.map_eq_some_iff.1 hsample
  simp only [Prod.mk.injEq] at hvalues
  obtain ⟨hmessages, henums, hnested, htop, hforeign⟩ := hvalues
  have h := toOption_eq_some_iff.1 hp
  refine ⟨p, h, hnames, hnested, htop, hforeign, fun t ht => ?_⟩
  have hdeclared : p.IsDeclared t := by
    simp only [List.mem_cons, List.not_mem_nil, or_false] at ht
    rcases ht with rfl | rfl | rfl <;> simp [IsDeclared, hmessages, henums]
  exact ⟨hdeclared, qualify_binds hnames h hdeclared 0 (some 1)⟩

/-! ## Letter case -/

/-- A name without root is taken by a nested type that is equal to its first segment without regard
to letter case exactly when the namespaces are the same, nothing is spelled like the first segment,
and some nested type is spelled like it but for letter case. -/
theorem captured_ignoring_case_iff {s : FileSet} {options : BuildOptions} {p : Program}
    (h : build s options = .ok p) {t : TypeRef} (ht : p.IsDeclared t) (k i : Nat) :
    ((p.qualify t k (some i)).isGlobal = false ∧ ∃ u ∈ p.around (some i),
        foldCase (p.info u).name = foldCase (firstSegment (p.qualify t k (some i)).name)) ↔
      p.SameSpace t k ∧ p.Unshadowed t (some i) ∧ ∃ u ∈ p.around (some i),
        (p.info u).name ≠ firstSegment (p.info t).path ∧
          foldCase (p.info u).name = foldCase (firstSegment (p.info t).path) := by
  obtain ⟨d, hb⟩ := exists_built h
  rcases hb.qualify_cases ht k (some i) with ⟨hspace, hfree, hq⟩ | ⟨hneeded, hq⟩
  · rw [hq]
    constructor
    · rintro ⟨-, u, hu, hfold⟩
      exact ⟨hspace, hfree, u, hu, hfree.nested u hu, hfold⟩
    · rintro ⟨-, -, u, hu, -, hfold⟩
      exact ⟨rfl, u, hu, hfold⟩
  · rw [hq]
    constructor
    · rintro ⟨hglobal, -⟩
      cases hglobal
    · rintro ⟨hspace, hfree, -⟩
      exact absurd ⟨hspace, hfree⟩ hneeded

/-- A message with a nested message whose name differs in case only from the type of its field. -/
def letterCaseSample : FileSet where
  files := [
    { path := "/p/a.proto", name := "a.proto", package := "a"
      messages := [
        { name := "Foo" },
        { name := "Holder", fields := [{ name := "f", number := 1, type := "Foo" }]
          messages := [{ name := "foo" }] }] }]

/-- The program of the sample, as far as the type of the field is concerned. -/
theorem exists_letterCaseSample : ∃ p, build letterCaseSample {} = .ok p ∧
    p.IsDeclared (.message 0) ∧ (p.message 1).file = 0 ∧
    (p.message 1).fields.map (·.type) = [.message 0] ∧
    p.qualify (.message 0) 0 (some 1) = ⟨"Foo", false⟩ ∧
    p.around (some 1) = [.message 2] ∧ (p.info (.message 2)).name = "foo" := by
  have hsample : (build letterCaseSample {}).toOption.map (fun p =>
      (p.messages.length == 3 && (p.message 1).file == 0, (p.message 1).fields.map (·.type),
        p.qualify (.message 0) 0 (some 1), p.around (some 1), (p.info (.message 2)).name)) =
      some (true, [.message 0], ⟨"Foo", false⟩, [.message 2], "foo") := by decide +kernel
  obtain ⟨p, hp, hvalues⟩ := Option.map_eq_some_iff.1 hsample
  simp only [Prod.mk.injEq, Bool.and_eq_true, beq_iff_eq] at hvalues
  obtain ⟨⟨hlength, hfile⟩, htype, hname, haround, hnested⟩ := hvalues
  exact ⟨p, toOption_eq_some_iff.1 hp, by simp [IsDeclared, hlength], hfile, htype, hname, haround,
    hnested⟩

/-- The type of the field of the sample is taken: the nested message is spelled like it but for
letter case. -/
theorem letterCaseSample_captured : ∃ p, build letterCaseSample {} = .ok p ∧
    p.IsDeclared (.message 0) ∧ p.SameSpace (.message 0) 0 ∧ p.Unshadowed (.message 0) (some 1) ∧
      ∃ u ∈ p.around (some 1), (p.info u).name ≠ firstSegment (p.info (.message 0)).path ∧
        foldCase (p.info u).name = foldCase (firstSegment (p.info (.message 0)).path) := by
  obtain ⟨p, h, hdeclared, -, -, hname, haround, hnested⟩ := exists_letterCaseSample
  have hfold : foldCase "foo" = foldCase (firstSegment "Foo") := by decide +kernel
  refine ⟨p, h, hdeclared, (captured_ignoring_case_iff h hdeclared 0 1).1 ?_⟩
  rw [hname, haround]
  exact ⟨rfl, .message 2, List.mem_cons_self, hnested.symm ▸ hfold⟩

/-- A name is written without root inside a class in which a nested type is equal to its first
segment without regard to letter case. -/
theorem unrooted_name_captured : ∃ p, build letterCaseSample {} = .ok p ∧
    p.IsDeclared (.message 0) ∧ (p.message 1).file = 0 ∧
    (p.message 1).fields.map (·.type) = [.message 0] ∧
    (p.qualify (.message 0) 0 (some 1)).isGlobal = false ∧
    ∃ u ∈ p.around (some 1), foldCase (p.info u).name =
      foldCase (firstSegment (p.qualify (.message 0) 0 (some 1)).name) := by
  obtain ⟨p, h, hdeclared, hfile, htype, hname, haround, hnested⟩ := exists_letterCaseSample
  have hfold : foldCase "foo" = foldCase (firstSegment "Foo") := by decide +kernel
  refine ⟨p, h, hdeclared, hfile, htype, ?_⟩
  rw [hname, haround]
  exact ⟨rfl, .message 2, List.mem_cons_self, hnested.symm ▸ hfold⟩

end ProtoStub.Program

import ProtoStub.Proofs.Cutting
import ProtoStub.Proofs.Resolution
import ProtoStub.Proofs.Visibility
import Mathlib.Data.List.Infix
import Mathlib.Data.List.TakeWhile

/-!
# Scopes of type names

The schema language looks a type name up from the inside out and commits to the innermost scope in
which the first segment of the name is bound. The program tries the whole name in every scope
instead and never looks at first segments. `resolve_of_innermost` says that this comes to the same
wherever the rule of the language gives a type. The reason is `Declared.message_prefix`: what stands
before a dot in the full name of a message is a part of the package of its file or a message around
it. So a scope in which the whole name is a type also binds its first segment
(`bound_of_visibleType`), and no inner scope can come between. This needs that declared names have
no dots, and that the name of a well-known type stands for that type even where it is declared again
(`innermost_type_missed`).
-/

namespace ProtoStub.Text

/-- The pieces joined again are the text. -/
theorem join_split (s : String) : join "." (split '.' s) = s := join_singleton_split '.' s

/-- The pieces of a text that is put together at a dot. -/
theorem split_append_dot (a b : String) :
    split '.' (a ++ "." ++ b) = split '.' a ++ split '.' b := split_append_singleton '.' a b

end ProtoStub.Text

namespace ProtoStub.Program

open Text
open Schema (FileSet)

/-! ## Dotted prefixes -/

/-- `q` is the dotted name `name`, or what stands before one of its dots. -/
def DottedPrefix (q name : String) : Prop := q = name ∨ ∃ rest, name = q ++ "." ++ rest

/-- The scope `p` is around the scope `scope`: it is the same, a dotted prefix of it, or the empty
one. -/
def Encloses (p scope : String) : Prop := p = "" ∨ DottedPrefix p scope

/-- Segments in front of others make a dotted prefix. -/
theorem dottedPrefix_join_append {a : List String} (ha : a ≠ []) (b : List String) :
    DottedPrefix (join "." a) (join "." (a ++ b)) := by
  by_cases hb : b = []
  · subst hb
    rw [List.append_nil]
    exact .inl rfl
  · exact .inr ⟨join "." b, String.intercalate_append_of_ne_nil ha hb⟩

/-- Segments in front of others make a scope around theirs. -/
theorem encloses_join_append (a b : List String) : Encloses (join "." a) (join "." (a ++ b)) := by
  by_cases ha : a = []
  · subst ha
    exact .inl rfl
  · exact .inr (dottedPrefix_join_append ha b)

/-- The segments of a dotted prefix come first among the segments. -/
theorem dottedPrefix_iff {q name : String} :
    DottedPrefix q name ↔ split '.' q <+: split '.' name := by
  constructor
  · rintro (rfl | ⟨rest, rfl⟩)
    · exact List.prefix_rfl
    · rw [split_append_dot]
      exact List.prefix_append _ _
  · rintro ⟨rest, hr⟩
    have h := dottedPrefix_join_append (split_ne_nil '.' q) rest
    rwa [hr, join_split, join_split] at h

instance (q name : String) : Decidable (DottedPrefix q name) :=
  decidable_of_iff _ dottedPrefix_iff.symm

instance (p scope : String) : Decidable (Encloses p scope) :=
  inferInstanceAs (Decidable (_ ∨ _))

/-- A list and its tails. -/
theorem tails_eq {α : Type} (xs : List α) : tails xs = xs.tails := by
  induction xs with
  | nil => rfl
  | cons x xs ih => rw [tails, List.tails, ih]

/-- The scopes that are tried are those around the scope of the reference. -/
theorem mem_enclosingScopes {p scope : String} : p ∈ enclosingScopes scope ↔ Encloses p scope := by
  rw [enclosingScopes, List.mem_map]
  simp only [tails_eq, List.mem_tails]
  constructor
  · rintro ⟨x, ⟨y, hy⟩, rfl⟩
    have hsplit : split '.' scope = x.reverse ++ y.reverse := by
      rw [← List.reverse_append, hy, List.reverse_reverse]
    have := encloses_join_append x.reverse y.reverse
    rwa [← hsplit, join_split] at this
  · rintro (rfl | h)
    · exact ⟨[], List.nil_suffix, rfl⟩
    · refine ⟨(split '.' p).reverse, List.reverse_suffix.2 (dottedPrefix_iff.1 h), ?_⟩
      rw [List.reverse_reverse, join_split]

/-- Each list of tails is a shorter end of those before it. -/
theorem pairwise_tails {α : Type} (xs : List α) :
    (tails xs).Pairwise fun a b => ∃ c, c ≠ [] ∧ a = c ++ b := by
  induction xs with
  | nil => simp [tails]
  | cons x xs ih =>
    rw [tails, List.pairwise_cons]
    refine ⟨fun b hb => ?_, ih⟩
    rw [tails_eq, List.mem_tails] at hb
    obtain ⟨c, rfl⟩ := hb
    exact ⟨x :: c, List.cons_ne_nil x c, rfl⟩

/-- Scopes are tried from the inside out. -/
theorem pairwise_enclosingScopes (scope : String) :
    (enclosingScopes scope).Pairwise fun q p => Encloses p q := by
  rw [enclosingScopes, List.pairwise_map]
  refine (pairwise_tails _).imp ?_
  rintro _ b ⟨c, -, rfl⟩
  rw [List.reverse_append]
  exact encloses_join_append b.reverse c.reverse

/-- Two scopes around each other are the same. -/
theorem Encloses.antisymm {p q : String} (hpq : Encloses p q) (hqp : Encloses q p) : p = q := by
  have hempty : ∀ {x : String}, Encloses x "" → x = "" := by
    rintro x (rfl | rfl | ⟨rest, h⟩)
    · rfl
    · rfl
    · have hl := congrArg String.length h
      simp only [String.length_append, String.length_empty] at hl
      have hdot : ".".length = 1 := rfl
      omega
  rcases hpq with rfl | rfl | ⟨rest, hq⟩
  · exact (hempty hqp).symm
  · rfl
  rcases hqp with rfl | rfl | ⟨more, hp⟩
  · exact hempty (.inr (.inr ⟨rest, hq⟩))
  · rfl
  · have hlq := congrArg String.length hq
    have hlp := congrArg String.length hp
    simp only [String.length_append] at hlq hlp
    have hdot : ".".length = 1 := rfl
    omega

/-! ## What a name stands for -/

/-- With `isType` the names of types, `ref` stands for a name inside `scope`: the name after a
leading dot, or else `ref` in the innermost scope where this is the name of a type. -/
inductive StandsFor (isType : String → Prop) (scope ref : String) : String → Prop
  | rooted {name : String} (href : ref = "." ++ name) (ht : isType name) :
    StandsFor isType scope ref name
  | within {p : String} (hrel : ref.toList.head? ≠ some '.') (hp : Encloses p scope)
    (ht : isType (joinScope p ref))
    (hin : ∀ q, Encloses q scope → Encloses p q → q ≠ p → ¬ isType (joinScope q ref)) :
    StandsFor isType scope ref (joinScope p ref)

/-- The candidates of a name without leading dot. -/
theorem candidates_of_relative {scope ref : String} (h : ref.toList.head? ≠ some '.') :
    candidates scope ref = (enclosingScopes scope).map (joinScope · ref) := by
  rw [candidates]
  split
  · rename_i name hr
    rw [hr] at h
    exact absurd rfl h
  · rfl

/-- The candidate of a name with a leading dot. -/
theorem candidates_of_rooted {scope ref name : String} (h : ref = "." ++ name) :
    candidates scope ref = [name] := by
  have hl : ref.toList = '.' :: name.toList := by simp [h]
  rw [candidates, hl]
  simp

/-- The first candidate that is a type is what the name stands for. -/
theorem firstVisible_candidates_iff {d : Declarations} {sees : Nat → Prop} {scope ref : String}
    {t : TypeRef} :
    FirstVisible d sees (candidates scope ref) t ↔
      ∃ name, StandsFor (fun x => ∃ t', VisibleType d sees x t') scope ref name ∧
        VisibleType d sees name t := by
  constructor
  · rintro ⟨before, name, after, hc, ht, hbefore⟩
    refine ⟨name, ?_, ht⟩
    by_cases hrel : ref.toList.head? = some '.'
    · obtain ⟨cs, hcs⟩ := List.head?_eq_some_iff.1 hrel
      have href : ref = "." ++ String.ofList cs := String.toList_inj.1 (by simp [hcs])
      rw [candidates_of_rooted href, List.singleton_eq_append_iff] at hc
      obtain ⟨-, hc⟩ | ⟨-, hc⟩ := hc
      · cases hc
        exact .rooted href ⟨t, ht⟩
      · cases hc
    · rw [candidates_of_relative hrel, List.map_eq_append_iff] at hc
      obtain ⟨inner, outer, hsplit, rfl, hc⟩ := hc
      obtain ⟨p, outer, rfl, rfl, rfl⟩ := List.map_eq_cons_iff.1 hc
      have hpair := pairwise_enclosingScopes scope
      rw [hsplit, List.pairwise_append, List.pairwise_cons] at hpair
      have hmem : p ∈ enclosingScopes scope := hsplit ▸ List.mem_append_right _ List.mem_cons_self
      refine .within hrel (mem_enclosingScopes.1 hmem) ⟨t, ht⟩ ?_
      rintro q hq hpq hne ⟨t', ht'⟩
      -- `q` is not tried before `p`, where no candidate is a type, so it is around `p`.
      rw [← mem_enclosingScopes, hsplit] at hq
      rcases List.mem_append.1 hq with hq | hq
      · exact hbefore _ (List.mem_map_of_mem hq) t' ht'
      · have hq := (List.mem_cons.1 hq).resolve_left hne
        exact hne ((hpair.2.1.1 q hq).antisymm hpq)
  · rintro ⟨name, hname, ht⟩
    cases hname with
    | rooted href _ =>
      exact ⟨[], name, [], candidates_of_rooted href, ht, by simp⟩
    | @within p hrel hp _ hin =>
      obtain ⟨inner, outer, hsplit, hnew⟩ := List.eq_append_cons_of_mem (mem_enclosingScopes.2 hp)
      have hpair := pairwise_enclosingScopes scope
      rw [hsplit, List.pairwise_append] at hpair
      refine ⟨inner.map (joinScope · ref), _, outer.map (joinScope · ref), ?_, ht, ?_⟩
      · rw [candidates_of_relative hrel, hsplit, List.map_append, List.map_cons]
      · intro earlier he t' ht'
        obtain ⟨q, hq, rfl⟩ := List.mem_map.1 he
        have hqs : q ∈ enclosingScopes scope := hsplit ▸ List.mem_append_left _ hq
        have hne : q ≠ p := by
          rintro rfl
          exact hnew hq
        exact hin q (mem_enclosingScopes.1 hqs) (hpair.2.2 q hq p List.mem_cons_self) hne ⟨t', ht'⟩

/-- A name resolves to a scalar, or to the type with the full name that it stands for. -/
theorem Declarations.Indexed.resolve_eq_ok_iff_standsFor {s : FileSet} {d : Declarations}
    (h : d.Indexed) {file : Nat} {scope ref : String} {t : TypeRef} :
    Names.resolve ⟨s, d.symbols⟩ (s.visibleFrom file) file scope ref = .ok t ↔
      match Scalar.ofWord? ref with
      | some w => t = .scalar w
      | none =>
        ∃ name, StandsFor (fun x => ∃ t', VisibleType d (s.Visible file) x t') scope ref name ∧
          VisibleType d (s.Visible file) name t := by
  have hsees : (· ∈ s.visibleFrom file) = s.Visible file :=
    funext fun j => propext FileSet.mem_visibleFrom
  rw [h.resolve_eq_ok_iff, hsees]
  cases Scalar.ofWord? ref with
  | some w => exact Iff.rfl
  | none => exact firstVisible_candidates_iff

/-! ## Qualified names -/

/-- What stands before a dot of a qualified name also stands before a dot of the qualifier, or is
the qualifier. -/
theorem DottedPrefix.of_joinScope {q outer name : String} (hdot : '.' ∉ name.toList)
    (h : DottedPrefix q (joinScope outer name)) :
    q = joinScope outer name ∨ DottedPrefix q outer := by
  rcases h with h | ⟨rest, h⟩
  · exact .inl h
  have hl := congrArg String.toList h
  rw [joinScope] at hl
  split at hl
  · rw [hl] at hdot
    simp at hdot
  rw [String.toList_append, String.toList_append, String.toList_append, String.toList_append,
    List.append_assoc, List.append_assoc] at hl
  rcases List.append_eq_append_iff.1 hl with ⟨mid, hq, hmid⟩ | ⟨mid, ho, hmid⟩
  · cases mid with
    | nil => exact .inr (.inl (String.toList_inj.1 (by simpa using hq)))
    | cons c mid =>
      have hname : name.toList = mid ++ '.' :: rest.toList := (List.cons.inj hmid).2
      rw [hname] at hdot
      simp at hdot
  · cases mid with
    | nil => exact .inr (.inl (String.toList_inj.1 (by simpa using ho.symm)))
    | cons c mid =>
      have hc : '.' = c := (List.cons.inj hmid).1
      subst hc
      exact .inr (.inr ⟨String.ofList mid, String.toList_inj.1 (by simp [ho])⟩)

/-! ## What binds a first segment -/

/-- What stands before the first dot of a name, or all of it. -/
def firstSegment (ref : String) : String := String.ofList (ref.toList.takeWhile (· != '.'))

/-- In the scope `p`, the first segment of `ref` means something to the file `file`: it is a type
that the file sees or, when `ref` goes on after a dot, a part of the package of a file that it sees
or of the package of the well-known types. -/
inductive Bound (s : FileSet) (d : Declarations) (file : Nat) (ref p : String) : Prop
  | type {t : TypeRef} (ht : VisibleType d (s.Visible file) (joinScope p (firstSegment ref)) t)
  | package {j : Nat} {f : Schema.File} (hdot : '.' ∈ ref.toList) (hv : s.Visible file j)
    (hf : s.files[j]? = some f) (hp : DottedPrefix (joinScope p (firstSegment ref)) f.package)
  | bundled (hdot : '.' ∈ ref.toList)
    (hp : DottedPrefix (joinScope p (firstSegment ref)) bundledPackage)

/-- The scope `p` is the innermost one around `scope` that binds the first segment of `ref`. -/
structure InnermostBound (s : FileSet) (d : Declarations) (file : Nat) (scope ref p : String) :
    Prop where
  encloses : Encloses p scope
  bound : Bound s d file ref p
  innermost : ∀ q, Encloses q scope → Encloses p q → q ≠ p → ¬ Bound s d file ref q

section
variable {s : FileSet} {d : Declarations} {file : Nat} {scope ref p : String}

/-- `Bound` for a list of visible files, in a form that can be evaluated. -/
def BoundAmong (s : FileSet) (messages : List DeclaredMessage) (enums : List DeclaredEnum)
    (visible : List Nat) (ref p : String) : Prop :=
  let head := joinScope p (firstSegment ref)
  ((wellKnown? head).isSome ∨ (∃ m ∈ messages, m.fullName = head ∧ m.file ∈ visible) ∨
    ∃ e ∈ enums, e.fullName = head ∧ e.file ∈ visible) ∨
  '.' ∈ ref.toList ∧ ((∃ j ∈ visible, ∃ f ∈ s.files[j]?.toList, DottedPrefix head f.package) ∨
    DottedPrefix head bundledPackage)

instance (s : FileSet) (messages : List DeclaredMessage) (enums : List DeclaredEnum)
    (visible : List Nat) (ref p : String) : Decidable (BoundAmong s messages enums visible ref p) :=
  inferInstanceAs (Decidable ((_ ∨ _ ∨ _) ∨ _ ∧ (_ ∨ _)))

theorem bound_iff :
    Bound s d file ref p ↔ BoundAmong s d.messages d.enums (s.visibleFrom file) ref p := by
  rw [BoundAmong]
  simp only [FileSet.mem_visibleFrom, Option.mem_toList, ← exists_visibleType_iff]
  constructor
  · rintro (ht | ⟨hdot, hv, hf, hp⟩ | ⟨hdot, hp⟩)
    · exact .inl ⟨_, ht⟩
    · exact .inr ⟨hdot, .inl ⟨_, hv, _, hf, hp⟩⟩
    · exact .inr ⟨hdot, .inr hp⟩
  · rintro (⟨t, ht⟩ | ⟨hdot, ⟨j, hv, f, hf, hp⟩ | hp⟩)
    · exact .type ht
    · exact .package hdot hv hf hp
    · exact .bundled hdot hp

theorem innermostBound_iff :
    InnermostBound s d file scope ref p ↔
      p ∈ enclosingScopes scope ∧
        BoundAmong s d.messages d.enums (s.visibleFrom file) ref p ∧
        ∀ q ∈ enclosingScopes scope, Encloses p q → q ≠ p →
          ¬ BoundAmong s d.messages d.enums (s.visibleFrom file) ref q := by
  simp only [mem_enclosingScopes, ← bound_iff]
  exact ⟨fun h => ⟨h.encloses, h.bound, h.innermost⟩, fun h => ⟨h.1, h.2.1, h.2.2⟩⟩

end

/-- A name with dots goes on after its first segment. -/
theorem exists_firstSegment {ref : String} (h : '.' ∈ ref.toList) :
    ∃ rest, ref = firstSegment ref ++ "." ++ rest := by
  obtain ⟨first, rest, hr, hfirst⟩ := List.eq_append_cons_of_mem h
  have htake : ref.toList.takeWhile (· != '.') = first := by
    rw [hr, List.takeWhile_append_of_pos]
    · simp
    · intro c hc
      simp only [bne_iff_ne]
      rintro rfl
      exact hfirst hc
  refine ⟨String.ofList rest, String.toList_inj.1 ?_⟩
  rw [firstSegment, htake]
  simp [hr]

/-- A name without dots is its first segment. -/
theorem firstSegment_eq {ref : String} (h : '.' ∉ ref.toList) : firstSegment ref = ref := by
  rw [firstSegment, List.takeWhile_eq_self_iff.2, String.ofList_toList]
  intro c hc
  simp only [bne_iff_ne]
  rintro rfl
  exact h hc

/-- The first segment, in a scope, stands before a dot of the whole name in that scope. -/
theorem joinScope_firstSegment {p ref : String} (h : '.' ∈ ref.toList) :
    ∃ rest, joinScope p ref = joinScope p (firstSegment ref) ++ "." ++ rest := by
  obtain ⟨rest, hr⟩ := exists_firstSegment h
  refine ⟨rest, ?_⟩
  rw [joinScope, joinScope]
  split
  · exact hr
  · conv_lhs => rw [hr]
    simp only [String.append_assoc]

/-- A well-known name is a name without dots in the package of the well-known types. -/
theorem eq_joinScope_of_wellKnown {name w : String} (h : wellKnown? name = some w) :
    name = joinScope bundledPackage w ∧ '.' ∉ w.toList := by
  have hdots : ∀ w ∈ wellKnownNames, '.' ∉ w.toList := by decide
  have hname := List.find?_some h
  exact ⟨(beq_iff_eq.1 hname).symm, hdots w (List.mem_of_find?_eq_some h)⟩

section
variable {s : FileSet} {d : Declarations} {file : Nat} {scope ref p : String}

/-- Inside the file `k`, `q` is the name of a scope: a part of the package, or the full name of a
message. -/
def ScopeIn (s : FileSet) (d : Declarations) (k : Nat) (q : String) : Prop :=
  (∃ f, s.files[k]? = some f ∧ DottedPrefix q f.package) ∨
    ∃ (j : Nat) (m : DeclaredMessage), d.messages[j]? = some m ∧ m.fullName = q ∧ m.file = k

/-- A dotted prefix of the full name of a message is the name of a scope of its file. -/
theorem Declared.message_prefix (h : Declared s d)
    (hdots : ∀ name ∈ s.declaredNames, '.' ∉ name.toList) {q : String} {i : Nat} :
    ∀ {m : DeclaredMessage}, d.messages[i]? = some m → DottedPrefix q m.fullName →
      ScopeIn s d m.file q := by
  -- On the number of the message: its parent has a smaller one, and names the scope it stands in.
  induction i using Nat.strongRecOn with
  | ind i ih =>
    intro m hm hq
    have hdot := hdots _ (h.message_mem_names (List.mem_of_getElem? hm))
    cases hp : m.parent with
    | none =>
      obtain ⟨f, hf, hname⟩ := h.message_top hm hp
      rcases DottedPrefix.of_joinScope hdot (hname ▸ hq) with he | hq
      · exact .inr ⟨i, m, hm, hname.trans he.symm, rfl⟩
      · exact .inl ⟨f, hf, hq⟩
    | some j =>
      obtain ⟨hj, outer, ho, hfile, hname⟩ := h.message_parent hm hp
      rcases DottedPrefix.of_joinScope hdot (hname ▸ hq) with he | hq
      · exact .inr ⟨i, m, hm, hname.trans he.symm, rfl⟩
      · rw [← hfile]
        exact ih j hj ho hq

/-- A dotted prefix of the full name of an enum is that name, or the name of a scope of its file. -/
theorem Declared.enum_prefix (h : Declared s d)
    (hdots : ∀ name ∈ s.declaredNames, '.' ∉ name.toList) {q : String} {e : DeclaredEnum}
    (he : e ∈ d.enums) (hq : DottedPrefix q e.fullName) :
    q = e.fullName ∨ ScopeIn s d e.file q := by
  have hdot := hdots _ (h.enum_mem_names he)
  cases hp : e.parent with
  | none =>
    obtain ⟨f, hf, hname⟩ := h.enum_top he hp
    rcases DottedPrefix.of_joinScope hdot (hname ▸ hq) with hq | hq
    · exact .inl (hq.trans hname.symm)
    · exact .inr (.inl ⟨f, hf, hq⟩)
  | some j =>
    obtain ⟨outer, ho, hfile, hname⟩ := h.enum_parent he hp
    rcases DottedPrefix.of_joinScope hdot (hname ▸ hq) with hq | hq
    · exact .inl (hq.trans hname.symm)
    · rw [← hfile]
      exact .inr (h.message_prefix hdots ho hq)

/-- A scope in which the whole name is a type binds its first segment. -/
theorem Declared.bound_of_visibleType (h : Declared s d)
    (hdots : ∀ name ∈ s.declaredNames, '.' ∉ name.toList) {t : TypeRef}
    (ht : VisibleType d (s.Visible file) (joinScope p ref) t) : Bound s d file ref p := by
  by_cases hdot : '.' ∈ ref.toList
  case neg => exact .type (t := t) (by rwa [firstSegment_eq hdot])
  have hpre : DottedPrefix (joinScope p (firstSegment ref)) (joinScope p ref) :=
    .inr (joinScope_firstSegment hdot)
  have hwhole : joinScope p (firstSegment ref) = joinScope p ref → Bound s d file ref p :=
    fun he => .type (he ▸ ht)
  have hin : ∀ {k}, s.Visible file k → ScopeIn s d k (joinScope p (firstSegment ref)) →
      Bound s d file ref p := by
    rintro k hk (⟨f, hf, hq⟩ | ⟨j, outer, ho, hname, rfl⟩)
    · exact .package hdot hk hf hq
    · obtain ⟨t', ht'⟩ := exists_visibleType_iff.2
        (.inr (.inl ⟨outer, List.mem_of_getElem? ho, hname, hk⟩))
      exact .type ht'
  cases ht with
  | wellKnown hw =>
    obtain ⟨hname, hw⟩ := eq_joinScope_of_wellKnown hw
    rcases DottedPrefix.of_joinScope hw (hname ▸ hpre) with he | hq
    · exact hwhole (he.trans hname.symm)
    · exact .bundled hdot hq
  | message _ hm hname hs => exact hin hs (h.message_prefix hdots hm (hname.symm ▸ hpre))
  | enum _ he hname hs =>
    rcases h.enum_prefix hdots (List.mem_of_getElem? he) (hname.symm ▸ hpre) with hq | hq
    · exact hwhole (hq.trans hname)
    · exact hin hs hq

end

/-! ## Resolution follows the rule -/

/-- Where the innermost scope that binds the first segment of a name makes the whole name a type,
the name stands for that type. -/
theorem resolve_of_innermost {s : FileSet} {d : Declarations} (hd : declareAll s = .ok d)
    (hdots : ∀ name ∈ s.declaredNames, '.' ∉ name.toList) {file : Nat} {scope ref p : String}
    (hscalar : Scalar.ofWord? ref = none) (hrel : ref.toList.head? ≠ some '.')
    (hp : InnermostBound s d file scope ref p) {t : TypeRef}
    (ht : VisibleType d (s.Visible file) (joinScope p ref) t) :
    Names.resolve ⟨s, d.symbols⟩ (s.visibleFrom file) file scope ref = .ok t := by
  have h := declared_of_declareAll hd
  rw [h.indexed.resolve_eq_ok_iff_standsFor, hscalar]
  refine ⟨joinScope p ref, .within hrel hp.encloses ⟨t, ht⟩ ?_, ht⟩
  rintro q hq hpq hne ⟨t', ht'⟩
  exact hp.innermost q hq hpq hne (h.bound_of_visibleType hdots ht')

/-- A message of the package `a` that refers to `B.C`, which the imported file declares in the same
package and a file that is not imported declares in the scope of the message. -/
def scopedSample : FileSet where
  files := [
    { path := "/p/a.proto", name := "a.proto", package := "a"
      imports := [⟨"lib.proto", "/p/lib.proto", false⟩]
      messages := [{ name := "X", fields := [{ name := "c", number := 1, type := "B.C" }] }] },
    { path := "/p/lib.proto", name := "lib.proto", package := "a"
      messages := [{ name := "B", messages := [{ name := "C" }] }] },
    { path := "/p/far.proto", name := "far.proto", package := "a.X"
      messages := [{ name := "B", messages := [{ name := "C" }] }] }]

/-- The sample is a case of the theorem: the third file, which binds `B` in the scope of the
message, is not seen. -/
theorem scopedSample_resolve : ∃ d, declareAll scopedSample = .ok d ∧
    InnermostBound scopedSample d 0 "a.X" "B.C" "a" ∧
    VisibleType d (scopedSample.Visible 0) (joinScope "a" "B.C") (.message 2) ∧
    Names.resolve ⟨scopedSample, d.symbols⟩ (scopedSample.visibleFrom 0) 0 "a.X" "B.C" =
      .ok (.message 2) := by
  obtain ⟨d, hd⟩ := declareAll_isOk_iff.2
    (by decide : ((stepsOf scopedSample).map Step.fullName).Nodup)
  have h := declared_of_declareAll hd
  have hvisible : scopedSample.visibleFrom 0 = [0, 1] := by cbv
  have hp : InnermostBound scopedSample d 0 "a.X" "B.C" "a" := by
    rw [innermostBound_iff, h.messages, h.enums, hvisible]
    decide
  have ht : VisibleType d (scopedSample.Visible 0) (joinScope "a" "B.C") (.message 2) := by
    refine .message (by decide) ((congrArg (·[2]?) h.messages).trans rfl) rfl ?_
    exact FileSet.mem_visibleFrom.1 (hvisible ▸ by decide)
  exact ⟨d, hd, hp, ht, resolve_of_innermost hd (by decide) (by decide) (by decide) hp ht⟩

/-- A message with dots in its name, which stands in the way of the message `b` inside `a`. -/
def dottedSample : FileSet where
  files := [
    { path := "/p/a.proto", name := "a.proto"
      messages := [{ name := "q.a.b" }, { name := "a", messages := [{ name := "b" }] },
        { name := "q", fields := [{ name := "f", number := 1, type := "a.b" }] }] }]

/-- A message declared under the name of a well-known type. -/
def bundledSample : FileSet where
  files := [
    { path := "/p/a.proto", name := "a.proto", package := "google.protobuf"
      messages := [{ name := "Timestamp" },
        { name := "M", fields := [{ name := "t", number := 1, type := "Timestamp" }] }] }]

/-- Neither condition can be left out. In the first sample a declared name has dots, and a name
stands for another message than the one it is in the innermost scope that binds its first segment.
In the second a visible message has the name of a well-known type, and the name stands for that
type. -/
theorem innermost_type_missed :
    (∃ d, declareAll dottedSample = .ok d ∧ InnermostBound dottedSample d 0 "q" "a.b" "" ∧
      VisibleType d (dottedSample.Visible 0) (joinScope "" "a.b") (.message 2) ∧
      Names.resolve ⟨dottedSample, d.symbols⟩ (dottedSample.visibleFrom 0) 0 "q" "a.b" =
        .ok (.message 0)) ∧
    ∃ d, declareAll bundledSample = .ok d ∧
      (∀ name ∈ bundledSample.declaredNames, '.' ∉ name.toList) ∧
      InnermostBound bundledSample d 0 "google.protobuf.M" "Timestamp" "google.protobuf" ∧
      (∃ m, d.messages[0]? = some m ∧ m.fullName = joinScope "google.protobuf" "Timestamp" ∧
        bundledSample.Visible 0 m.file) ∧
      Names.resolve ⟨bundledSample, d.symbols⟩ (bundledSample.visibleFrom 0) 0
        "google.protobuf.M" "Timestamp" = .ok (.wellKnown "Timestamp") := by
  constructor
  · obtain ⟨d, hd⟩ := declareAll_isOk_iff.2
      (by decide : ((stepsOf dottedSample).map Step.fullName).Nodup)
    have h := declared_of_declareAll hd
    have hvisible : dottedSample.visibleFrom 0 = [0] := by cbv
    refine ⟨d, hd, ?_, ?_, ?_⟩
    · rw [innermostBound_iff, h.messages, h.enums, hvisible]
      decide
    · refine .message (by decide) ((congrArg (·[2]?) h.messages).trans rfl) rfl (.inl rfl)
    · refine h.indexed.resolve_eq_ok_iff.2 ⟨[], "q.a.b", ["a.b"], by decide, ?_, by simp⟩
      refine .message (by decide) ((congrArg (·[0]?) h.messages).trans rfl) rfl ?_
      exact hvisible ▸ by decide
  · obtain ⟨d, hd⟩ := declareAll_isOk_iff.2
      (by decide : ((stepsOf bundledSample).map Step.fullName).Nodup)
    have h := declared_of_declareAll hd
    have hvisible : bundledSample.visibleFrom 0 = [0] := by cbv
    refine ⟨d, hd, by decide, ?_, ?_, ?_⟩
    · rw [innermostBound_iff, h.messages, h.enums, hvisible]
      decide
    · exact ⟨_, (congrArg (·[0]?) h.messages).trans rfl, rfl, .inl rfl⟩
    · refine h.indexed.resolve_eq_ok_iff.2 ⟨["google.protobuf.M.Timestamp"],
        "google.protobuf.Timestamp", ["google.Timestamp", "Timestamp"], by decide,
        .wellKnown (by decide), ?_⟩
      intro name hname t ht
      have hnone := exists_visibleType_iff.1 ⟨t, ht⟩
      obtain rfl := List.mem_singleton.1 hname
      rw [h.messages, h.enums, hvisible] at hnone
      exact absurd hnone (by decide)

end ProtoStub.Program

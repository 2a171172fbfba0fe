import ProtoStub.Program.Visibility
import Mathlib.Logic.Relation
import Mathlib.Data.List.Nodup

/-!
# The files that a file sees

`FileSet.Visible` is the rule of the schema language: a file sees itself, the files it imports, and
what these re-export by public imports, any number of steps away. `mem_visibleFrom` says that the
search over the import graph finds exactly these files. The search enters each file once, and it
never enters the file it starts from. Both are harmless for the same reason: on the way to a file
only what follows the last visit to a file that is left out matters (`avoid_or`).
-/

namespace ProtoStub.Schema

open Relation (ReflTransGen)

/-! ## The search -/

/-- A way along `r` to `x` ends in `p`, or goes on from `p` without coming back to it, or does not
meet `p` at all. -/
theorem avoid_or {α : Type} {r : α → α → Prop} {q x : α} (p : α) (h : ReflTransGen r q x) :
    x = p ∨ (∃ e, r p e ∧ e ≠ p ∧ ReflTransGen (fun a b => r a b ∧ b ≠ p) e x) ∨
      q ≠ p ∧ ReflTransGen (fun a b => r a b ∧ b ≠ p) q x := by
  induction h with
  | refl =>
    by_cases hq : q = p
    · exact .inl hq
    · exact .inr (.inr ⟨hq, .refl⟩)
  | @tail y z _ hyz ih =>
    by_cases hz : z = p
    · exact .inl hz
    rcases ih with rfl | ⟨e, hpe, he, hey⟩ | ⟨hq, hqy⟩
    · exact .inr (.inl ⟨z, hyz, hz, .refl⟩)
    · exact .inr (.inl ⟨e, hpe, he, hey.tail ⟨hyz, hz⟩⟩)
    · exact .inr (.inr ⟨hq, hqy.tail ⟨hyz, hz⟩⟩)

/-- The search finds what can be reached from the pending numbers inside the fresh ones. -/
theorem mem_spread {edges : Nat → List Nat} {pending fresh : List Nat} (hnd : fresh.Nodup)
    {x : Nat} :
    x ∈ spread edges pending fresh ↔ ∃ q ∈ pending, q ∈ fresh ∧
      ReflTransGen (fun a b => b ∈ edges a ∧ b ∈ fresh) q x := by
  fun_induction spread edges pending fresh with
  | case1 fresh => simp
  | case2 fresh p rest hp ih =>
    have hmem : ∀ b, b ∈ fresh.erase p ↔ b ∈ fresh ∧ b ≠ p := fun b => by
      rw [hnd.mem_erase_iff, and_comm]
    rw [List.mem_cons, ih (hnd.erase p)]
    -- From here on `p` is no longer fresh, so a way through it has to be cut at its last visit.
    constructor
    · rintro (rfl | ⟨q, hq, hqf, hqx⟩)
      · exact ⟨x, List.mem_cons_self, hp, .refl⟩
      · have hqx' : ReflTransGen (fun a b => b ∈ edges a ∧ b ∈ fresh) q x :=
          ReflTransGen.mono (fun a b hab => ⟨hab.1, ((hmem b).1 hab.2).1⟩) _ _ hqx
        rcases List.mem_append.1 hq with hq | hq
        · exact ⟨p, List.mem_cons_self, hp, .head ⟨hq, ((hmem q).1 hqf).1⟩ hqx'⟩
        · exact ⟨q, List.mem_cons_of_mem _ hq, ((hmem q).1 hqf).1, hqx'⟩
    · rintro ⟨q, hq, hqf, hqx⟩
      have hmono : ∀ {e}, ReflTransGen (fun a b => (b ∈ edges a ∧ b ∈ fresh) ∧ b ≠ p) e x →
          ReflTransGen (fun a b => b ∈ edges a ∧ b ∈ fresh.erase p) e x :=
        fun h => ReflTransGen.mono
          (fun a b hab => ⟨hab.1.1, (hmem b).2 ⟨hab.1.2, hab.2⟩⟩) _ _ h
      rcases avoid_or p hqx with rfl | ⟨e, hpe, he, hex⟩ | ⟨hqp, hqx⟩
      · exact .inl rfl
      · exact .inr ⟨e, List.mem_append_left _ hpe.1, (hmem e).2 ⟨hpe.2, he⟩, hmono hex⟩
      · have hq : q ∈ rest := (List.mem_cons.1 hq).resolve_left hqp
        exact .inr ⟨q, List.mem_append_right _ hq, (hmem q).2 ⟨hqf, hqp⟩, hmono hqx⟩
  | case3 fresh p rest hp ih =>
    rw [ih hnd]
    constructor
    · rintro ⟨q, hq, h⟩
      exact ⟨q, List.mem_cons_of_mem _ hq, h⟩
    · rintro ⟨q, hq, hqf, h⟩
      rcases List.mem_cons.1 hq with rfl | hq
      · exact absurd hqf hp
      · exact ⟨q, hq, hqf, h⟩

/-! ## The import graph -/

namespace FileSet

/-- The file `i` has an import that was found at the file `j`. -/
def Imports (s : FileSet) (i j : Nat) : Prop :=
  ∃ f, s.files[i]? = some f ∧ ∃ imp ∈ f.imports, imp.resolved ≠ "" ∧
    s.index? imp.resolved = some j

/-- The file `i` has a public import that was found at the file `j`. -/
def Reexports (s : FileSet) (i j : Nat) : Prop :=
  ∃ f, s.files[i]? = some f ∧ ∃ imp ∈ f.imports, imp.isPublic = true ∧ imp.resolved ≠ "" ∧
    s.index? imp.resolved = some j

/-- The file `i` sees the file `j`: it is the same file, or an imported one, or re-exported by an
imported one. -/
def Visible (s : FileSet) (i j : Nat) : Prop :=
  j = i ∨ ∃ k, s.Imports i k ∧ ReflTransGen s.Reexports k j

section
variable {s : FileSet} {i j : Nat}

theorem mem_importsOf : j ∈ s.importsOf i ↔ s.Imports i j := by
  rw [importsOf, Imports]
  cases s.files[i]? with
  | none => simp
  | some f => simp [and_assoc]

theorem mem_publicImportsOf : j ∈ s.publicImportsOf i ↔ s.Reexports i j := by
  rw [publicImportsOf, Reexports]
  cases s.files[i]? with
  | none => simp
  | some f => simp [and_assoc]

/-- A public import is an import. -/
theorem Reexports.imports (h : s.Reexports i j) : s.Imports i j := by
  obtain ⟨f, hf, imp, himp, -, hr⟩ := h
  exact ⟨f, hf, imp, himp, hr⟩

/-- An import leads to a file of the set. -/
theorem Imports.lt (h : s.Imports i j) : j < s.files.length := by
  obtain ⟨f, hf, imp, himp, -, hr⟩ := h
  exact (List.findIdx?_eq_some_iff_getElem.1 hr).1

/-- The search over the import graph finds the visible files. -/
theorem mem_visibleFrom : j ∈ s.visibleFrom i ↔ s.Visible i j := by
  have hnd : ((List.range s.files.length).erase i).Nodup := List.nodup_range.erase i
  have hmem : ∀ k, k ∈ (List.range s.files.length).erase i ↔ k < s.files.length ∧ k ≠ i :=
    fun k => by rw [List.nodup_range.mem_erase_iff, List.mem_range, and_comm]
  rw [visibleFrom, List.mem_cons, mem_spread hnd, Visible]
  constructor
  · rintro (rfl | ⟨k, hk, -, hkj⟩)
    · exact .inl rfl
    · exact .inr ⟨k, mem_importsOf.1 hk,
        ReflTransGen.mono (fun a b hab => mem_publicImportsOf.1 hab.1) _ _ hkj⟩
  · rintro (rfl | ⟨k, hk, hkj⟩)
    · exact .inl rfl
    have hmono : ∀ {e}, ReflTransGen (fun a b => s.Reexports a b ∧ b ≠ i) e j →
        ReflTransGen (fun a b => b ∈ s.publicImportsOf a ∧
          b ∈ (List.range s.files.length).erase i) e j :=
      fun h => ReflTransGen.mono (fun a b hab =>
        ⟨mem_publicImportsOf.2 hab.1, (hmem b).2 ⟨hab.1.imports.lt, hab.2⟩⟩) _ _ h
    rcases avoid_or i hkj with rfl | ⟨e, hie, he, hej⟩ | ⟨hki, hkj⟩
    · exact .inl rfl
    · exact .inr ⟨e, mem_importsOf.2 hie.imports, (hmem e).2 ⟨hie.imports.lt, he⟩, hmono hej⟩
    · exact .inr ⟨k, mem_importsOf.2 hk, (hmem k).2 ⟨hk.lt, hki⟩, hmono hkj⟩

end

end FileSet

end ProtoStub.Schema

import ProtoStub.Proofs.Visibility
import Mathlib.Data.List.Perm.Subperm

/-!
# Marking the visible files

A file marks what it sees by recursion: it is marked itself, then each file that it imports is
entered, and a file that is entered for the first time is marked and enters what it re-exports. The
marks are shared, so a file that is met again, also the one where the marking began, is passed over.
`Marks` is this recursion as a relation between the marks before and after. It ends on every import
graph (`exists_marks`), because entering a file leaves fewer files unmarked, and it marks the files
in the order in which the search over the graph enters them (`Marks.spread_eq`).
-/

namespace ProtoStub.Schema.FileSet

open Relation (ReflTransGen)

/-- Entering `files` one after another, with the files `seen` marked before, ends with the marks
`marked`. The file that was marked last comes first. -/
inductive Marks (s : FileSet) : (files seen marked : List Nat) → Prop
  | done {seen : List Nat} : Marks s [] seen seen
  | skip {file : Nat} {rest seen marked : List Nat} (hseen : file ∈ seen)
    (hrest : Marks s rest seen marked) : Marks s (file :: rest) seen marked
  | enter {file : Nat} {rest seen inner marked : List Nat} (hnew : file ∉ seen)
    (hinner : Marks s (s.publicImportsOf file) (file :: seen) inner)
    (hrest : Marks s rest inner marked) : Marks s (file :: rest) seen marked

/-- The files without a mark. -/
def unmarked (s : FileSet) (seen : List Nat) : List Nat :=
  (List.range s.files.length).diff seen

section
variable {s : FileSet} {files seen marked other : List Nat}

/-- A new mark is taken from the files without one. -/
theorem unmarked_cons (file : Nat) : s.unmarked (file :: seen) = (s.unmarked seen).erase file :=
  List.diff_cons_right ..

@[simp] theorem mem_unmarked {k : Nat} :
    k ∈ s.unmarked seen ↔ k < s.files.length ∧ k ∉ seen := by
  rw [unmarked, List.nodup_range.mem_sdiff_iff, List.mem_range]

/-- What is marked stays marked. -/
theorem Marks.subset (h : Marks s files seen marked) : seen ⊆ marked := by
  induction h with
  | done => exact List.Subset.refl _
  | skip _ _ ih => exact ih
  | enter _ _ _ ihinner ihrest =>
    exact List.Subset.trans (List.subset_cons_self _ _) (List.Subset.trans ihinner ihrest)

/-- The marks before determine the marks after. -/
theorem Marks.unique (h : Marks s files seen marked) (h' : Marks s files seen other) :
    marked = other := by
  induction h generalizing other with
  | done =>
    cases h'
    rfl
  | skip hseen _ ih =>
    cases h' with
    | skip _ hrest => exact ih hrest
    | enter hnew => exact absurd hseen hnew
  | enter hnew _ _ ihinner ihrest =>
    cases h' with
    | skip hseen => exact absurd hseen hnew
    | enter _ hinner hrest =>
      cases ihinner hinner
      exact ihrest hrest

/-- More marks leave no more files without one. -/
theorem length_unmarked_le (h : seen ⊆ other) :
    (s.unmarked other).length ≤ (s.unmarked seen).length := by
  have hsub : s.unmarked other ⊆ s.unmarked seen := fun k hk => by
    rw [mem_unmarked] at hk ⊢
    exact ⟨hk.1, fun hseen => hk.2 (h hseen)⟩
  exact (List.subperm_of_subset List.nodup_range.diff hsub).length_le

/-- Entering a file for the first time leaves fewer files without a mark. -/
theorem length_unmarked_lt {file : Nat} (hfile : file < s.files.length) (hnew : file ∉ seen)
    (h : file :: seen ⊆ other) : (s.unmarked other).length < (s.unmarked seen).length := by
  have hmem : file ∈ s.unmarked seen := mem_unmarked.2 ⟨hfile, hnew⟩
  have hle := length_unmarked_le (s := s) h
  rw [unmarked_cons, List.length_erase_of_mem hmem] at hle
  have := List.length_pos_of_mem hmem
  omega

theorem lt_of_mem_publicImportsOf {file k : Nat} (h : k ∈ s.publicImportsOf file) :
    k < s.files.length :=
  (mem_publicImportsOf.1 h).imports.lt

/-- Marking ends on every import graph. -/
theorem exists_marks (hfiles : ∀ k ∈ files, k < s.files.length) :
    ∃ marked, Marks s files seen marked := by
  -- On the number of files without a mark, then on the files that are left to enter.
  induction hn : (s.unmarked seen).length using Nat.strongRecOn generalizing files seen with
  | ind n ih =>
    induction files with
    | nil => exact ⟨seen, .done⟩
    | cons file rest ihrest =>
      obtain ⟨hfile, hrest⟩ := List.forall_mem_cons.1 hfiles
      by_cases hseen : file ∈ seen
      · obtain ⟨marked, h⟩ := ihrest hrest
        exact ⟨marked, .skip hseen h⟩
      · have hless : ∀ {after}, file :: seen ⊆ after → (s.unmarked after).length < n :=
          fun h => hn ▸ length_unmarked_lt hfile hseen h
        obtain ⟨inner, hinner⟩ := ih _ (hless (List.Subset.refl _))
          (fun k => lt_of_mem_publicImportsOf) rfl
        obtain ⟨marked, h⟩ := ih _ (hless hinner.subset) hrest rfl
        exact ⟨marked, .enter hseen hinner h⟩

/-- The search enters the files that are marked, in the order of their marks, and then goes on with
what is left to enter. -/
theorem Marks.spread_eq (h : Marks s files seen marked) (hfiles : ∀ k ∈ files, k < s.files.length)
    (later : List Nat) :
    seen.reverse ++ spread s.publicImportsOf (files ++ later) (s.unmarked seen) =
      marked.reverse ++ spread s.publicImportsOf later (s.unmarked marked) := by
  induction h generalizing later with
  | done => rfl
  | @skip file rest seen marked hseen _ ih =>
    rw [List.cons_append, spread, dif_neg (by simp [hseen])]
    exact ih (List.forall_mem_cons.1 hfiles).2 later
  | @enter file rest seen inner marked hnew _ _ ihinner ihrest =>
    obtain ⟨hfile, hrest⟩ := List.forall_mem_cons.1 hfiles
    have hinner := ihinner (fun k => lt_of_mem_publicImportsOf) (rest ++ later)
    rw [List.cons_append, spread, dif_pos (mem_unmarked.2 ⟨hfile, hnew⟩), ← ihrest hrest later,
      ← hinner, unmarked_cons, List.reverse_cons, List.append_assoc, List.singleton_append]

/-- What is marked on behalf of a file is what the search from it finds. -/
theorem Marks.visibleFrom_eq {i : Nat} (h : Marks s (s.importsOf i) [i] marked) :
    s.visibleFrom i = marked.reverse := by
  have hspread := h.spread_eq (fun k hk => (mem_importsOf.1 hk).lt) []
  rw [unmarked_cons, List.append_nil, spread, List.append_nil] at hspread
  exact hspread

end

/-- Entering a file ends whatever was marked before, with one outcome. The marking on behalf of the
file `i` marks the files that the search finds, and these are `i` itself and what can be reached by
public imports from a file that `i` imports. -/
theorem marking_ends_with_visible (s : FileSet) :
    (∀ file < s.files.length, ∀ seen, ∃! marked, Marks s [file] seen marked) ∧
    ∀ i, (∃! marked, Marks s (s.importsOf i) [i] marked) ∧
      (∀ marked, Marks s (s.importsOf i) [i] marked → s.visibleFrom i = marked.reverse) ∧
      ∀ j, (s.visibleFrom i).contains j = true ↔
        j = i ∨ ∃ k, s.Imports i k ∧ ReflTransGen s.Reexports k j := by
  have hends : ∀ {files seen}, (∀ k ∈ files, k < s.files.length) →
      ∃! marked, Marks s files seen marked := fun hfiles => by
    obtain ⟨marked, h⟩ := exists_marks hfiles
    exact ⟨marked, h, fun other h' => h'.unique h⟩
  refine ⟨fun file hfile seen => hends (by simpa using hfile), fun i =>
    ⟨hends fun k hk => (mem_importsOf.1 hk).lt, fun marked h => h.visibleFrom_eq, fun j => ?_⟩⟩
  rw [List.contains_iff_mem, mem_visibleFrom, Visible]

/-- The file `a` imports `b`, which re-exports `a` and `c`. The file `c` re-exports itself and `b`,
and it imports `d` for itself alone. -/
def cyclicSample : FileSet where
  files := [
    { path := "/p/a.proto", name := "a.proto", imports := [⟨"b.proto", "/p/b.proto", false⟩] },
    { path := "/p/b.proto", name := "b.proto"
      imports := [⟨"a.proto", "/p/a.proto", true⟩, ⟨"c.proto", "/p/c.proto", true⟩] },
    { path := "/p/c.proto", name := "c.proto"
      imports := [⟨"c.proto", "/p/c.proto", true⟩, ⟨"b.proto", "/p/b.proto", true⟩,
        ⟨"d.proto", "/p/d.proto", false⟩] },
    { path := "/p/d.proto", name := "d.proto" }]

/-- In the sample entering any file ends, and `a` sees the files of the cycle but not `d`. -/
theorem cyclicSample_marking :
    (2 < cyclicSample.files.length ∧ ∃! marked, Marks cyclicSample [2] [] marked) ∧
    Marks cyclicSample (cyclicSample.importsOf 0) [0] [2, 1, 0] ∧
    ¬ ∃ k, cyclicSample.Imports 0 k ∧ ReflTransGen cyclicSample.Reexports k 3 := by
  obtain ⟨hends, hall⟩ := marking_ends_with_visible cyclicSample
  obtain ⟨⟨marked, hmarks, -⟩, hvisible, hreach⟩ := hall 0
  have hsearch : cyclicSample.visibleFrom 0 = [0, 1, 2] := by cbv
  have hmarked : marked = [2, 1, 0] := by
    rw [← marked.reverse_reverse, ← hvisible marked hmarks, hsearch]
    rfl
  refine ⟨⟨by decide, hends 2 (by decide) []⟩, hmarked ▸ hmarks, fun hd => ?_⟩
  have hthree := (hreach 3).2 (.inr hd)
  rw [hsearch] at hthree
  exact absurd hthree (by decide)

end ProtoStub.Schema.FileSet

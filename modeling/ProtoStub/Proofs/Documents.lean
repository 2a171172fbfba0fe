import ProtoStub.Proofs.Definitions
import ProtoStub.Proofs.Visibility
import Mathlib.Data.List.Dedup
import Mathlib.Data.List.Perm.Subperm
import Mathlib.Data.List.Sort

/-!
# The files that get a document

`Documented` is the least set of files that holds every requested file with a type at its top and is
closed under the types of fields. The generator finds these files by working off a queue: a file is
taken from the front, and the files that it refers to are added at the end unless they were added
before. `Worklist.Step` is one turn, in which the files referred to may come in any order. Every
order ends, and all of them end with the same files (`Worklist.Sound.acc`,
`Worklist.Sound.mergeSort_done`): a file is marked when it is added, each marked file belongs to
the set, and what a finished file refers to is marked.
-/

namespace ProtoStub.JsonSchema

open Program (Built Declarations BuildOptions)
open Schema (FileSet)
open Relation (ReflTransGen)

/-! ## Files that belong to the set -/

/-- The file was asked for and has a message or an enum at its top. -/
def IsRoot (p : Program) (k : Nat) : Prop :=
  k < p.files.length ∧ (p.file k).isInput = true ∧
    ((p.file k).messages ≠ [] ∨ (p.file k).enums ≠ [])

/-- A field of a message of the file `k`, at any depth, has a message or enum type that is declared
in the file `g`. -/
def RefersTo (p : Program) (k g : Nat) : Prop :=
  ∃ i < p.messages.length, (p.message i).file = k ∧
    ∃ f ∈ (p.message i).fields, declaringFile? p f.type = some g

/-- The least set of files that holds the roots and what its members refer to. -/
inductive Documented (p : Program) : Nat → Prop
  | root {k : Nat} (h : IsRoot p k) : Documented p k
  | refers {k g : Nat} (hk : Documented p k) (h : RefersTo p k g) : Documented p g

section
variable {s : FileSet} {options : BuildOptions} {d : Declarations} {p : Program}

/-- The file of a type in range exists. -/
theorem declaringFile?_lt (h : Built s options d p) {t : TypeRef} (ht : p.InRange t) {g : Nat}
    (hg : declaringFile? p t = some g) : g < p.files.length := by
  cases t with
  | message i =>
    cases hg
    obtain ⟨x, hx, hfile, -⟩ := declared_of_mem_messagesIn h (mem_messagesIn.2 ⟨ht, rfl⟩)
    obtain ⟨f, hf, -⟩ := h.declared.mem_allMessages (List.mem_of_getElem? hx)
    exact hfile ▸ h.file_lt hf
  | «enum» i =>
    cases hg
    obtain ⟨x, hx, he⟩ := h.getElem?_enum (List.getElem?_eq_getElem ht)
    obtain ⟨f, hf, -⟩ := h.declared.mem_allEnums (List.mem_of_getElem? hx)
    rw [h.enum_eq hx]
    exact h.file_lt hf
  | scalar w | wellKnown w | undefined w => cases hg

theorem RefersTo.lt (h : Built s options d p) {k g : Nat} (hg : RefersTo p k g) :
    g < p.files.length := by
  obtain ⟨i, hi, -, f, hf, hg⟩ := hg
  exact declaringFile?_lt h (h.field_inRange (Program.message_mem hi) hf) hg

theorem Documented.lt (h : Built s options d p) {k : Nat} (hk : Documented p k) :
    k < p.files.length := by
  cases hk with
  | root hk => exact hk.1
  | refers _ hg => exact hg.lt h

/-- The other files that the document of a file refers to are those of the types of its fields. -/
theorem mem_referredFiles (h : Built s options d p) {k g : Nat} :
    g ∈ referredFiles p k ↔ RefersTo p k g ∧ g ≠ k := by
  rw [referredFiles, List.mem_filter, List.mem_flatMap, bne_iff_ne]
  refine and_congr_left fun _ => ?_
  constructor
  · rintro ⟨i, hi, hg⟩
    obtain ⟨hlt, hfile⟩ := mem_messagesIn.1 ((mem_messagesOf h).1 hi)
    obtain ⟨f, hf, hg⟩ := List.mem_filterMap.1 hg
    exact ⟨i, hlt, hfile, f, hf, hg⟩
  · rintro ⟨i, hlt, hfile, f, hf, hg⟩
    exact ⟨i, (mem_messagesOf h).2 (mem_messagesIn.2 ⟨hlt, hfile⟩),
      List.mem_filterMap.2 ⟨f, hf, hg⟩⟩

/-- The roots by ascending number. -/
def rootFiles (p : Program) : List Nat :=
  (List.range p.files.length).filter fun i =>
    (p.file i).isInput && !((p.file i).messages.isEmpty && (p.file i).enums.isEmpty)

@[simp] theorem mem_rootFiles {k : Nat} : k ∈ rootFiles p ↔ IsRoot p k := by
  simp [rootFiles, IsRoot]

/-- The files that get a document are the least set. -/
theorem mem_documentFiles (h : Built s options d p) {k : Nat} :
    k ∈ documentFiles p ↔ Documented p k := by
  have hreached : ∀ {x}, x ∈ Schema.spread (referredFiles p) (rootFiles p)
      (List.range p.files.length) ↔ ∃ q ∈ rootFiles p, q ∈ List.range p.files.length ∧
        ReflTransGen (fun a b => b ∈ referredFiles p a ∧ b ∈ List.range p.files.length) q x :=
    Schema.mem_spread List.nodup_range
  have hmem : k ∈ documentFiles p ↔ k < p.files.length ∧
      k ∈ Schema.spread (referredFiles p) (rootFiles p) (List.range p.files.length) := by
    rw [documentFiles, List.mem_filter, List.mem_range, List.contains_iff_mem]
    rfl
  rw [hmem, hreached]
  clear hmem
  constructor
  · rintro ⟨-, q, hq, -, hway⟩
    induction hway with
    | refl => exact .root (mem_rootFiles.1 hq)
    | tail _ hbc ih => exact ih.refers ((mem_referredFiles h).1 hbc.1).1
  · intro hk
    refine ⟨hk.lt h, ?_⟩
    induction hk with
    | root hk => exact ⟨_, mem_rootFiles.2 hk, List.mem_range.2 hk.1, .refl⟩
    | @refers k g hk hg ih =>
      obtain ⟨q, hq, hlt, hway⟩ := ih
      by_cases hself : g = k
      · rw [hself]
        exact ⟨q, hq, hlt, hway⟩
      · exact ⟨q, hq, hlt,
          hway.tail ⟨(mem_referredFiles h).2 ⟨hg, hself⟩, List.mem_range.2 (hg.lt h)⟩⟩

/-- The files that get a document ascend. -/
theorem pairwise_documentFiles (p : Program) : (documentFiles p).Pairwise (· < ·) :=
  List.pairwise_lt_range.filter _

end

/-! ## The queue -/

/-- The files that wait, the files that were ever added, and the files that have their document. -/
structure Worklist where
  queue : List Nat := []
  queued : List Nat := []
  done : List Nat := []

namespace Worklist

/-- A file is added once. -/
def enqueue (w : Worklist) (file : Nat) : Worklist :=
  if file ∈ w.queued then w
  else { w with queue := w.queue ++ [file], queued := file :: w.queued }

/-- The roots wait, in their order. -/
def start (p : Program) : Worklist := (rootFiles p).foldl enqueue {}

/-- The first file gets its document, and the files that it refers to are added in any order. -/
inductive Step (p : Program) : Worklist → Worklist → Prop
  | next {file : Nat} {queue queued done order : List Nat}
    (horder : order.Perm (referredFiles p file).dedup) :
    Step p ⟨file :: queue, queued, done⟩ (order.foldl enqueue ⟨queue, queued, done ++ [file]⟩)

/-- Each file that was added waits or is done, and only once. -/
structure Balanced (w : Worklist) : Prop where
  nodup : (w.queue ++ w.done).Nodup
  queued : ∀ x, x ∈ w.queued ↔ x ∈ w.queue ++ w.done

theorem Balanced.enqueue {w : Worklist} (h : w.Balanced) (file : Nat) :
    (w.enqueue file).Balanced := by
  rw [Worklist.enqueue]
  split
  · exact h
  · rename_i hnew
    have hperm : (w.queue ++ [file] ++ w.done).Perm (file :: (w.queue ++ w.done)) := by
      rw [List.append_assoc]
      exact List.perm_middle
    constructor
    · rw [h.queued] at hnew
      exact hperm.nodup_iff.2 (List.nodup_cons.2 ⟨hnew, h.nodup⟩)
    · intro x
      rw [List.mem_cons, h.queued, hperm.mem_iff, List.mem_cons]

theorem Balanced.foldl_enqueue {w : Worklist} (h : w.Balanced) (files : List Nat) :
    (files.foldl Worklist.enqueue w).Balanced := by
  induction files generalizing w with
  | nil => exact h
  | cons file files ih => exact ih (h.enqueue file)

/-- Adding files finishes none. -/
@[simp] theorem done_foldl_enqueue (w : Worklist) (files : List Nat) :
    (files.foldl enqueue w).done = w.done := by
  induction files generalizing w with
  | nil => rfl
  | cons file files ih =>
    rw [List.foldl_cons, ih, enqueue]
    split <;> rfl

/-- The files that were added, after more of them are. -/
@[simp] theorem mem_queued_foldl_enqueue (w : Worklist) (files : List Nat) (x : Nat) :
    x ∈ (files.foldl enqueue w).queued ↔ x ∈ w.queued ∨ x ∈ files := by
  induction files generalizing w with
  | nil => simp
  | cons file files ih =>
    rw [List.foldl_cons, ih, enqueue, List.mem_cons, ← or_assoc]
    refine or_congr_left ?_
    split
    · rename_i hold
      exact ⟨.inl, fun hx => hx.elim id fun he => he ▸ hold⟩
    · rw [List.mem_cons, or_comm]

/-- Only files of the set are added, all roots are, and so is what a finished file refers to. -/
structure Sound (p : Program) (w : Worklist) : Prop extends Balanced w where
  documented : ∀ x ∈ w.queued, Documented p x
  roots : ∀ x, IsRoot p x → x ∈ w.queued
  closed : ∀ k ∈ w.done, ∀ g, RefersTo p k g → g ∈ w.queued

theorem sound_start (p : Program) : (start p).Sound p where
  toBalanced := Balanced.foldl_enqueue (show Balanced {} from ⟨.nil, by simp⟩) _
  documented x hx := .root (by simpa [start] using hx)
  roots x hx := by simpa [start] using hx
  closed k hk := by simp [start] at hk

section
variable {s : FileSet} {options : BuildOptions} {d : Declarations} {p : Program} {w w' : Worklist}

/-- A turn keeps the worklist sound. -/
theorem Sound.step (h : Built s options d p) (hw : w.Sound p) (hstep : w.Step p w') :
    w'.Sound p := by
  cases hstep with
  | @next file queue queued done order horder =>
    have hrefs : ∀ g, g ∈ order ↔ RefersTo p file g ∧ g ≠ file := fun g => by
      rw [horder.mem_iff, List.mem_dedup, mem_referredFiles h]
    have hfile : file ∈ queued := (hw.queued file).2 List.mem_cons_self
    have hperm : (queue ++ (done ++ [file])).Perm (file :: queue ++ done) := by
      rw [← List.append_assoc]
      exact List.perm_append_comm
    refine ⟨Balanced.foldl_enqueue ⟨hperm.nodup_iff.2 hw.nodup, fun x => ?_⟩ order, ?_, ?_, ?_⟩
    · rw [hperm.mem_iff]
      exact hw.queued x
    · intro x hx
      rcases (mem_queued_foldl_enqueue ..).1 hx with hx | hx
      · exact hw.documented x hx
      · exact (hw.documented file hfile).refers ((hrefs x).1 hx).1
    · intro x hx
      exact (mem_queued_foldl_enqueue ..).2 (.inl (hw.roots x hx))
    · intro k hk g hg
      rw [done_foldl_enqueue] at hk
      rw [mem_queued_foldl_enqueue]
      rcases List.mem_append.1 hk with hk | hk
      · exact .inl (hw.closed k hk g hg)
      · cases List.mem_singleton.1 hk
        by_cases hself : g = file
        · exact .inl (hself ▸ hfile)
        · exact .inr ((hrefs g).2 ⟨hg, hself⟩)

/-- A run keeps the worklist sound. -/
theorem Sound.run (h : Built s options d p) (hw : w.Sound p)
    (hrun : ReflTransGen (Step p) w w') : w'.Sound p := by
  induction hrun with
  | refl => exact hw
  | tail _ hstep ih => exact ih.step h hstep

/-- No more files are done than there are. -/
theorem Sound.length_done_le (h : Built s options d p) (hw : w.Sound p) :
    w.done.length ≤ p.files.length := by
  have hsub : w.done ⊆ List.range p.files.length := fun x hx =>
    List.mem_range.2 ((hw.documented x ((hw.queued x).2 (List.mem_append_right _ hx))).lt h)
  have hnd : w.done.Nodup := (List.nodup_append.1 hw.nodup).2.1
  simpa using (hnd.subperm hsub).length_le

/-- Every turn finishes one more file, so every run ends. -/
theorem Sound.acc (h : Built s options d p) (hw : w.Sound p) :
    Acc (fun w' w => Step p w w') w := by
  induction hn : p.files.length - w.done.length using Nat.strongRecOn generalizing w with
  | _ n ih =>
    refine .intro w fun w' hstep => ?_
    have hw' := hw.step h hstep
    have hle := hw'.length_done_le h
    have hlen : w'.done.length = w.done.length + 1 := by
      cases hstep
      simp
    exact ih _ (by omega) hw' rfl

/-- Where no turn is left, the files that are done are those of the set. -/
theorem Sound.mergeSort_done (h : Built s options d p) (hw : w.Sound p)
    (hend : ∀ w', ¬ Step p w w') : w.done.mergeSort (· ≤ ·) = documentFiles p := by
  obtain ⟨queue, queued, done⟩ := w
  cases queue with
  | cons file queue => exact absurd (.next (.refl _)) (hend _)
  | nil =>
    have hqueued : ∀ x, x ∈ queued ↔ x ∈ done := hw.queued
    have hmem : ∀ x, x ∈ done ↔ x ∈ documentFiles p := by
      intro x
      rw [mem_documentFiles h, ← hqueued]
      refine ⟨hw.documented x, fun hx => ?_⟩
      induction hx with
      | root hx => exact hw.roots _ hx
      | @refers k g _ hg ih => exact hw.closed k ((hqueued k).1 ih) g hg
    have hnd : (documentFiles p).Nodup := (pairwise_documentFiles p).imp Nat.ne_of_lt
    have hperm : done.Perm (documentFiles p) :=
      (List.perm_ext_iff_of_nodup hw.nodup hnd).2 hmem
    have hle : (documentFiles p).Pairwise (· ≤ ·) := (pairwise_documentFiles p).imp Nat.le_of_lt
    exact ((List.mergeSort_perm ..).trans hperm).eq_of_pairwise' (List.pairwise_mergeSort' _ _) hle

end

end Worklist

/-! ## What is generated -/

/-- The paths pass the check when they are distinct, none was taken before and all are addresses. -/
theorem checkPaths_eq_ok_iff {p : Program} {owners : List (String × String)} {files : List Nat} :
    checkPaths p owners files = .ok ⟨⟩ ↔ (files.map fun k => docPath (p.file k)).Nodup ∧
      ∀ k ∈ files, docPath (p.file k) ∉ owners.map (·.1) ∧
        isReference (anchor ++ docPath (p.file k)) = true := by
  induction files generalizing owners with
  | nil => simp [checkPaths]
  | cons file files ih =>
    have hlookup : owners.lookup (docPath (p.file file)) = none ↔
        docPath (p.file file) ∉ owners.map (·.1) := by
      simp only [List.lookup_eq_none_iff, bne_iff_ne, ne_eq, List.mem_map, not_exists, not_and]
      exact forall₂_congr fun x _ => not_congr eq_comm
    rw [checkPaths]
    cases howner : owners.lookup (docPath (p.file file)) with
    | some other =>
      have htaken : ¬ docPath (p.file file) ∉ owners.map (·.1) := by
        rw [← hlookup, howner]
        exact Option.some_ne_none other
      simp only [reduceCtorEq, false_iff]
      exact fun h => htaken (h.2 file List.mem_cons_self).1
    | none =>
      have hfree := hlookup.1 howner
      dsimp only
      split
      · rename_i haddress
        rw [ih]
        constructor
        · rintro ⟨hnd, hrest⟩
          have hnew : ∀ k ∈ files, docPath (p.file k) ≠ docPath (p.file file) ∧
              docPath (p.file k) ∉ owners.map (·.1) := fun k hk =>
            not_or.1 fun h => (hrest k hk).1 (List.mem_cons.2 h)
          refine ⟨List.nodup_cons.2 ⟨fun hmem => ?_, hnd⟩, fun k hk => ?_⟩
          · obtain ⟨k, hk, he⟩ := List.mem_map.1 hmem
            exact (hnew k hk).1 he
          · rcases List.mem_cons.1 hk with rfl | hk
            · exact ⟨hfree, haddress⟩
            · exact ⟨(hnew k hk).2, (hrest k hk).2⟩
        · rintro ⟨hnd, hrest⟩
          obtain ⟨hnot, hnd⟩ := List.nodup_cons.1 hnd
          refine ⟨hnd, fun k hk => ⟨fun hmem => ?_, (hrest k (List.mem_cons_of_mem _ hk)).2⟩⟩
          rcases List.mem_cons.1 hmem with he | hmem
          · exact hnot (List.mem_map.2 ⟨k, hk, he⟩)
          · exact (hrest k (List.mem_cons_of_mem _ hk)).1 hmem
      · rename_i haddress
        simp only [reduceCtorEq, false_iff]
        exact fun h => haddress (h.2 file List.mem_cons_self).2

/-- The document of a file as it is written below the directory `out`. -/
def outputOf (p : Program) (out : String) (k : Nat) : OutputFile :=
  { path := joinPath [out, "json", docPath (p.file k)], content := (documentOf p k).text }

/-- A map that refuses some items succeeds when it refuses none. -/
theorem mapM_ite_eq_ok_iff {ε α β : Type} {c : α → Bool} {f : α → β} {e : α → ε} {xs : List α}
    {ys : List β} : (xs.mapM fun x => if c x then Except.ok (f x) else .error (e x)) = .ok ys ↔
      (∀ x ∈ xs, c x = true) ∧ xs.map f = ys := by
  have hone : ∀ x y, (if c x then Except.ok (f x) else .error (e x)) = .ok y ↔
      c x = true ∧ f x = y := by
    intro x y
    cases c x <;> simp
  rw [Program.mapM_eq_ok_iff]
  simp only [hone]
  rw [List.forall₂_and_left, ← List.forall₂_map_left_iff (R := Eq), List.forall₂_eq_eq_eq]

/-- Generation succeeds when the documents are valid and lie at distinct addresses, with one
document per file. -/
theorem generate_eq_ok_iff {p : Program} {out : String} {outputs : List OutputFile} :
    generate p out = .ok outputs ↔ ((documentFiles p).map fun k => docPath (p.file k)).Nodup ∧
      (∀ k ∈ documentFiles p, isReference (anchor ++ docPath (p.file k)) = true ∧
        (documentOf p k).isValid = true) ∧ (documentFiles p).map (outputOf p out) = outputs := by
  have hgenerate : generate p out = (checkPaths p [] (documentFiles p) >>= fun _ =>
      (documentFiles p).mapM fun k => if (documentOf p k).isValid then .ok (outputOf p out k)
        else .error (.emit (p.file k).name "invalid json schema:")) := rfl
  rw [hgenerate, Program.bind_eq_ok_iff]
  constructor
  · rintro ⟨⟨⟩, hpaths, hmap⟩
    obtain ⟨hnd, hpaths⟩ := checkPaths_eq_ok_iff.1 hpaths
    obtain ⟨hvalid, houtputs⟩ := mapM_ite_eq_ok_iff.1 hmap
    exact ⟨hnd, fun k hk => ⟨(hpaths k hk).2, hvalid k hk⟩, houtputs⟩
  · rintro ⟨hnd, hall, houtputs⟩
    exact ⟨⟨⟩, checkPaths_eq_ok_iff.2 ⟨hnd, fun k hk => ⟨by simp, (hall k hk).1⟩⟩,
      mapM_ite_eq_ok_iff.2 ⟨fun k hk => (hall k hk).2, houtputs⟩⟩

/-- The queue ends in every order, always with the same files; when documents are generated there is
one for each of them, in ascending order, and these are the files of the least set. As long as no
message has an empty full name, a document has one definition per message and enum of its file under
the path of the type. -/
theorem generate_documents {s : FileSet} {options : BuildOptions} {p : Program}
    (h : Program.build s options = .ok p) :
    Acc (fun w' w => Worklist.Step p w w') (Worklist.start p) ∧
    (∀ w, ReflTransGen (Worklist.Step p) (Worklist.start p) w →
      (∀ w', ¬ Worklist.Step p w w') → w.done.mergeSort (· ≤ ·) = documentFiles p) ∧
    (documentFiles p).Pairwise (· < ·) ∧ (∀ k, k ∈ documentFiles p ↔ Documented p k) ∧
    (∀ out outputs, generate p out = .ok outputs →
      outputs = (documentFiles p).map (outputOf p out) ∧
        ((documentFiles p).map fun k => docPath (p.file k)).Nodup) ∧
    ((∀ m ∈ p.messages, m.fullName ≠ "") → ∀ k,
      (documentOf p k).definitions.Perm (definitionsIn p k) ∧
        ((documentOf p k).definitions.map (·.1)).Nodup) := by
  obtain ⟨d, hb⟩ := Program.exists_built h
  have hstart := Worklist.sound_start p
  refine ⟨hstart.acc hb, fun w hrun => (hstart.run hb hrun).mergeSort_done hb,
    pairwise_documentFiles p, fun k => mem_documentFiles hb, fun out outputs hok => ?_,
    fun hne k => ?_⟩
  · obtain ⟨hnd, -, houtputs⟩ := generate_eq_ok_iff.1 hok
    exact ⟨houtputs.symm, hnd⟩
  · have hperm := perm_definitions hb hne k
    exact ⟨hperm, (hperm.map (·.1)).nodup_iff.2 (nodup_definitionsIn hb hne k)⟩

/-- A requested file whose messages refer to an enum of a file that is only imported, by way of a
nested message of another one; a further file is not referred to. -/
def importedSample : FileSet where
  files := [
    { path := "/p/a.proto", name := "a.proto", package := "a"
      imports := [⟨"b.proto", "/p/b.proto", false⟩]
      messages := [{ name := "A", fields := [{ name := "c", number := 1, type := "b.B.C" }] }] },
    { path := "/p/b.proto", name := "b.proto", package := "b"
      imports := [⟨"e.proto", "/p/e.proto", false⟩, ⟨"d.proto", "/p/d.proto", false⟩]
      messages := [
        { name := "B"
          messages := [
            { name := "C"
              fields := [{ name := "e", number := 1, repeated := true, type := ".e.M.E" }] }] }] },
    { path := "/p/d.proto", name := "d.proto", messages := [{ name := "D" }] },
    { path := "/p/e.proto", name := "e.proto", package := "e"
      messages := [{ name := "M", enums := [{ name := "E" }] }] }]
  inputs := ["/p/a.proto"]

/-- The sample has three documents, and that of the imported file `b.proto` describes the message
that is nested in it. -/
theorem importedSample_documents : ∃ p outputs,
    Program.build importedSample { root := "/p" } = .ok p ∧ generate p "/o" = .ok outputs ∧
      outputs = [0, 1, 3].map (outputOf p "/o") ∧ (∀ k, k ∈ [0, 1, 3] ↔ Documented p k) ∧
      (∀ w, ReflTransGen (Worklist.Step p) (Worklist.start p) w →
        (∀ w', ¬ Worklist.Step p w w') → w.done.mergeSort (· ≤ ·) = [0, 1, 3]) ∧
      (documentOf p 1).definitions.Perm (definitionsIn p 1) := by
  have hsample : (Program.build importedSample { root := "/p" }).toOption.map (fun p =>
      (documentFiles p, p.messages.map (·.fullName),
        (documentFiles p).map (fun k => docPath (p.file k)),
        (documentFiles p).all fun k =>
          isReference (anchor ++ docPath (p.file k)) && (documentOf p k).isValid)) =
      some ([0, 1, 3], ["a.A", "b.B", "b.B.C", "D", "e.M"], ["a.json", "b.json", "e.json"],
        true) := by cbv
  cases h : Program.build importedSample { root := "/p" } with
  | error e =>
    rw [h] at hsample
    cases hsample
  | ok p =>
    rw [h] at hsample
    simp only [Except.toOption, Option.map_some, Option.some.injEq, Prod.mk.injEq] at hsample
    obtain ⟨hfiles, hnames, hpaths, hvalid⟩ := hsample
    have hok : generate p "/o" = .ok ([0, 1, 3].map (outputOf p "/o")) := by
      refine generate_eq_ok_iff.2 ⟨?_, fun k hk => ?_, by rw [hfiles]⟩
      · rw [hpaths]
        decide
      · exact Bool.and_eq_true_iff.1 (List.all_eq_true.1 hvalid k hk)
    have hne : ∀ m ∈ p.messages, m.fullName ≠ "" := by
      have : ∀ name ∈ ["a.A", "b.B", "b.B.C", "D", "e.M"], name ≠ "" := by decide
      exact fun m hm => this _ (hnames ▸ List.mem_map_of_mem hm)
    obtain ⟨-, hruns, -, hmem, -, hdefinitions⟩ := generate_documents h
    rw [hfiles] at hruns hmem
    exact ⟨p, _, rfl, hok, rfl, hmem, hruns, (hdefinitions hne 1).1⟩

/-- A message without a name has a message nested in it that goes by the path of another message. -/
def mergedSample : FileSet where
  files := [
    { path := "/p/a.proto", name := "a.proto"
      messages := [{ name := "", messages := [{ name := "x" }] }, { name := ".x" }] }]
  inputs := ["/p/a.proto"]

/-- Where a message has an empty full name, two messages of a file may share a path, and the
document has one definition for both. -/
theorem definitions_merged : ∃ p outputs, Program.build mergedSample {} = .ok p ∧
    generate p "/o" = .ok outputs ∧ 0 ∈ documentFiles p ∧ messagesIn p 0 = [0, 1, 2] ∧
      p.messagePath 1 = p.messagePath 2 ∧
      (documentOf p 0).definitions.map (·.1) = ["", ".x"] ∧
      ¬ (documentOf p 0).definitions.Perm (definitionsIn p 0) := by
  have hsample : (Program.build mergedSample {}).toOption.map (fun p =>
      (documentFiles p, messagesIn p 0, enumsIn p 0, docPath (p.file 0),
        isReference (anchor ++ docPath (p.file 0)) && (documentOf p 0).isValid,
        p.messagePath 1, p.messagePath 2, (documentOf p 0).definitions.map (·.1))) =
      some ([0], [0, 1, 2], [], "a.json", true, ".x", ".x", ["", ".x"]) := by cbv
  cases h : Program.build mergedSample {} with
  | error e =>
    rw [h] at hsample
    cases hsample
  | ok p =>
    rw [h] at hsample
    simp only [Except.toOption, Option.map_some, Option.some.injEq, Prod.mk.injEq] at hsample
    obtain ⟨hfiles, hmessages, henums, hpath, hvalid, hfirst, hsecond, hkeys⟩ := hsample
    have hok : generate p "/o" = .ok ([0].map (outputOf p "/o")) := by
      refine generate_eq_ok_iff.2 ⟨by simp [hfiles], ?_, by rw [hfiles]⟩
      rw [hfiles]
      simpa using hvalid
    refine ⟨p, _, rfl, hok, by simp [hfiles], hmessages, hfirst.trans hsecond.symm, hkeys, ?_⟩
    intro hperm
    have hlength := hperm.length_eq
    rw [← List.length_map (·.1), hkeys, definitionsIn, hmessages, henums] at hlength
    cases hlength

end ProtoStub.JsonSchema

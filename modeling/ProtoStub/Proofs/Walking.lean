import ProtoStub.Proofs.Identifiers
import ProtoStub.Proofs.Linking
import ProtoStub.Proofs.Loading
import ProtoStub.Proofs.Mirroring

/-!
# Walking descriptors

Walking the descriptors of files gives the files that reading their text gives, apart from lines and
with every type spelled by the full name it is linked to. Both walks go depth first and add a file
after its imports, so the walk keeps the order that loading keeps (`visit_grows`), and what was
loaded has no cycle that could cut the walk short. The files it ends with are those that were
loaded, and sorting puts both in the same order (`respells_of_paths`).
-/

namespace ProtoStub.Schema

open Relation (ReflTransGen TransGen)

namespace Search

variable {s : Search} {ok : File → Prop} {fresh : List String}

/-! ## Names below a root -/

/-- The path lies below a root, and the way from there to it starts with the name `first`. -/
def Below (s : Search) (first path : String) : Prop :=
  ∃ root ∈ s.roots, ∃ place rest, (∀ name ∈ place ++ first :: rest, IsName name) ∧
    s.workspace.absolute root = Workspace.pathOf place ∧
    path = Workspace.pathOf (place ++ first :: rest)

/-- A file below a root has one name, whatever name it is imported by. -/
theorem Below.displayName_eq {first path : String} (h : s.Below first path)
    (hdots : Text.startsWith first ".." = false) (name name' : String) :
    s.displayName path name = s.displayName path name' := by
  obtain ⟨root, hroot, place, rest, hnames, habs, rfl⟩ := h
  have hsome : (s.roots.findSome? fun root => below? (s.workspace.absolute root)
      (Workspace.pathOf (place ++ first :: rest))).isSome = true := by
    refine List.findSome?_isSome_iff.2 ⟨root, hroot, ?_⟩
    rw [habs, below?_pathOf hnames hdots]
    rfl
  obtain ⟨found, hfound⟩ := Option.isSome_iff_exists.1 hsome
  have hname : ∀ fallback,
      s.displayName (Workspace.pathOf (place ++ first :: rest)) fallback = found := by
    intro fallback
    exact congrArg (·.getD fallback) hfound
  rw [hname, hname]

/-! ## Runs that add files -/

/-- From any files in order the run goes on to more of them: all at the paths of `origin`, and
nothing but what these reach. -/
def Grows (s : Search) (ok : File → Prop) (fresh : List String) (origin : String → Prop)
    (run : List File → Except Error (List File)) : Prop :=
  ∀ done, s.Settled ok done → ∃ out, run done = .ok out ∧ s.Extends ok fresh origin done out ∧
    ∀ path, origin path → path ∈ out.map (·.path)

theorem grows_pure : s.Grows ok fresh (fun _ => False) pure :=
  fun done hdone => ⟨done, rfl, hdone.extends_refl, by simp⟩

theorem Grows.congr {origin origin' : String → Prop} {run : List File → Except Error (List File)}
    (h : s.Grows ok fresh origin run) (ho : ∀ path, origin' path ↔ origin path) :
    s.Grows ok fresh origin' run :=
  (funext fun path => propext (ho path) : origin' = origin) ▸ h

/-- One run after another grows by what both reach. -/
theorem Grows.seq {origin origin' : String → Prop} {run run' : List File → Except Error (List File)}
    (h : s.Grows ok fresh origin run) (h' : s.Grows ok fresh origin' run') :
    s.Grows ok fresh (fun path => origin path ∨ origin' path) fun done => run done >>= run' := by
  intro done hdone
  obtain ⟨mid, hmid, hext, hall⟩ := h done hdone
  obtain ⟨out, hout, hext', hall'⟩ := h' mid hext.settled
  refine ⟨out, Program.bind_eq_ok_iff.2 ⟨mid, hmid, hout⟩, (hext.mono (fun _ hp => hp) ?_).trans
    (hext'.mono (fun _ hp => hp) ?_), ?_⟩
  · exact fun path hp => ⟨path, .inl hp, .refl⟩
  · exact fun path hp => ⟨path, .inr hp, .refl⟩
  · rintro path (hp | hp)
    · exact hext'.mem_paths (hall path hp)
    · exact hall' path hp

/-- Runs one after another. -/
theorem grows_foldlM {α : Type} {xs : List α} {run : List File → α → Except Error (List File)}
    {origin : α → String → Prop} (h : ∀ x ∈ xs, s.Grows ok fresh (origin x) (run · x)) :
    s.Grows ok fresh (fun path => ∃ x ∈ xs, origin x path) (xs.foldlM run) := by
  induction xs with
  | nil => exact grows_pure.congr (by simp)
  | cons x xs ih =>
    have hrest := ih fun y hy => h y (List.mem_cons_of_mem _ hy)
    exact ((h x List.mem_cons_self).seq hrest).congr (by simp)

end Search

/-! ## Sorted files -/

/-- Files at the same paths as those of a set, each a respelling of one of them, make up a
respelling of the set once they are sorted. -/
theorem FileSet.respells_of_paths {R : Nat → TypeUse → String → String → String → Prop}
    {set : FileSet}
    {files : List File} (hsorted : (set.files.map (·.path)).Pairwise (· < ·))
    (hnodup : (files.map (·.path)).Nodup)
    (hpaths : ∀ path, path ∈ files.map (·.path) ↔ path ∈ set.files.map (·.path))
    (hfiles : ∀ g ∈ files, ∃ k f, set.files[k]? = some f ∧ File.Respells (R k) f g) :
    set.Respells R (.ofFiles files set.inputs) := by
  have hperm := List.mergeSort_perm files (decide <| ·.path ≤ ·.path)
  have heq : (FileSet.ofFiles files set.inputs).files.map (·.path) = set.files.map (·.path) := by
    refine (pairwise_ofFiles hnodup).eq_of_mem_iff hsorted fun path => ?_
    rw [← hpaths]
    exact (hperm.map _).mem_iff
  refine ⟨rfl, by simpa using congrArg List.length heq, fun k f g hf hg => ?_⟩
  obtain ⟨k', f', hf', hfg⟩ := hfiles g (hperm.mem_iff.1 (List.mem_of_getElem? hg))
  -- The paths are distinct, so the file that is respelled is the one at the same position.
  have hpath : (set.files.map (·.path))[k]? = (set.files.map (·.path))[k']? := by
    rw [← heq, List.getElem?_map, hg, heq, List.getElem?_map, hf', Option.map_some, Option.map_some,
      hfg.path]
  have hk : k < (set.files.map (·.path)).length := by
    rw [List.length_map]
    exact (List.getElem?_eq_some_iff.1 hf).1
  have hset : (set.files.map (·.path)).Nodup := hsorted.imp fun hlt => ne_of_lt hlt
  cases (List.getElem?_inj hk hset).1 hpath
  cases hf.symm.trans hf'
  exact hfg

/-- No file that was read declares a name with a dot in it. -/
theorem dot_notMem_of_loadAll {s : Search} {inputs : List String} {set : FileSet}
    (h : loadAll s inputs = .ok set) : ∀ name ∈ set.declaredNames, '.' ∉ name.toList := by
  obtain ⟨-, -, hloaded, -, -⟩ := loaded_of_loadAll h
  intro name hname
  obtain ⟨f, hf, hname⟩ := List.mem_flatMap.1 hname
  obtain ⟨parsed, shown, ⟨content, -, hparse⟩, -, heq⟩ := hloaded f hf
  rw [heq] at hname
  exact dot_notMem_of_parseSource hparse name hname

end ProtoStub.Schema

namespace ProtoStub.Descriptor

open Relation (ReflTransGen TransGen)
open Schema (FileSet Search Spelled isBundled)

/-! ## Descriptors of a set -/

section
variable (family : Family) (bundled : Nat → String → Prop) (set : FileSet)

/-- The import name stands for the file at `path`, and its descriptor for the file of the set
there. -/
def Family.Denotes (name path : String) : Prop :=
  family.paths.lookup name = some path ∧
    ∃ d, family.files.find? (·.path == name) = some d ∧
      ∃ k f, set.files[k]? = some f ∧ f.path = path ∧ d.Mirrors (set.LinksTo bundled k) f

/-- The family describes the files of the set: `names` stand for its inputs, and each import name
for the file that the set resolves it to. -/
structure Family.Mirrors (names : List String) : Prop where
  notBundled : ∀ name ∈ names, isBundled name = false
  inputs : ∀ name ∈ names, ∃ path ∈ set.inputs, family.Denotes bundled set name path
  covers : ∀ path ∈ set.inputs, ∃ name ∈ names, family.paths.lookup name = some path
  imports : ∀ f ∈ set.files, ∀ imp ∈ f.imports, isBundled imp.path = false →
    family.Denotes bundled set imp.path imp.resolved

end

/-! ## One descriptor and its imports -/

section
variable {family : Family} {fresh : List String} {done : List Schema.File} {name path : String}

/-- A bundled file is not walked. -/
theorem visit_bundled (hb : isBundled name = true) : visit family fresh done name = .ok done := by
  rw [visit, if_pos hb]

/-- A file that is there already is not walked again. -/
theorem visit_done (hb : isBundled name = false) {d : File}
    (hd : family.files.find? (·.path == name) = some d)
    (hp : family.paths.lookup name = some path) (hmem : path ∈ done.map (·.path)) :
    visit family fresh done name = .ok done := by
  have hany : done.any (·.path == path) = true := by
    obtain ⟨g, hg, rfl⟩ := List.mem_map.1 hmem
    exact List.any_eq_true.2 ⟨g, hg, beq_self_eq_true _⟩
  rw [visit, if_neg (by simp [hb]), hd, hp]
  dsimp only
  rw [if_pos hany]

/-- A new file is added after its imports. -/
theorem visit_new (hb : isBundled name = false) {d : File}
    (hd : family.files.find? (·.path == name) = some d)
    (hp : family.paths.lookup name = some path) (hmem : path ∉ done.map (·.path))
    (hfresh : path ∈ fresh) {mid : List Schema.File}
    (hmid : visitImports family (fresh.filter (· != path)) done d.imports = .ok mid)
    {messages : List Schema.Message}
    (hmessages : toMessages path d.package d.messages = .ok messages) :
    visit family fresh done name = .ok (mid ++ [{
      path, name := family.search.displayName path name, package := d.package
      imports := family.imports d, messages, enums := d.enums.map (·.toSchema)
      services := d.services.map (·.toSchema) }]) := by
  have hany : ¬ done.any (·.path == path) = true := by
    intro h
    obtain ⟨g, hg, hgp⟩ := List.any_eq_true.1 h
    exact hmem (List.mem_map.2 ⟨g, hg, beq_iff_eq.1 hgp⟩)
  rw [visit, if_neg (by simp [hb]), hd, hp]
  dsimp only
  rw [if_neg hany, dif_pos hfresh, hmid]
  dsimp only
  rw [hmessages]

theorem visitImports_eq_foldlM (imports : List Import) (done : List Schema.File) :
    visitImports family fresh done imports =
      imports.foldlM (fun done i => visit family fresh done i.path) done := by
  induction imports generalizing done with
  | nil => rw [visitImports]; rfl
  | cons i rest ih =>
    rw [visitImports, List.foldlM_cons]
    cases visit family fresh done i.path with
    | error e => rfl
    | ok done => exact ih done

end

/-! ## The walk -/

section
variable {family : Family} {bundled : Nat → String → Prop} {set : FileSet} {s : Search}
  {inputs names : List String}

/-- The file is one of the set, with its types spelled as they are linked. -/
def Walked (bundled : Nat → String → Prop) (set : FileSet) (g : Schema.File) : Prop :=
  ∃ k f, set.files[k]? = some f ∧
    Schema.File.Respells (fun use scope => Spelled (set.LinksTo bundled k scope) use) f g

/-- The imports of a file of the set are read off its descriptor as the set has them. -/
theorem Family.Mirrors.imports_eq (h : family.Mirrors bundled set names) {f : Schema.File}
    {d : File} (hf : f ∈ set.files) (hload : s.Loaded f)
    (hd : d.imports = f.imports.map Import.ofSchema) :
    family.imports d = f.imports := by
  rw [Family.imports, hd, List.map_map]
  refine (List.map_congr_left fun imp himp => ?_).trans (List.map_id _)
  obtain ⟨name, resolved, isPublic⟩ := imp
  simp only [Function.comp, Import.ofSchema, id]
  by_cases hb : isBundled name = true
  · have hresolved : resolved = "" := hload.resolved_of_bundled himp hb
    simp [hb, hresolved]
  · have hlookup : family.paths.lookup name = some resolved :=
      (h.imports f hf _ himp (Bool.eq_false_iff.2 hb)).1
    simp [hb, hlookup]

/-- Visiting the imports of a file adds the files that they are resolved to, when visiting each of
them does. -/
theorem visitImports_grows {ok : Schema.File → Prop} {fresh : List String} {f : Schema.File}
    {d : File} (hload : s.Loaded f) (hd : d.imports = f.imports.map Import.ofSchema)
    (h : ∀ imp ∈ f.imports, isBundled imp.path = false →
      s.Grows ok fresh (· = imp.resolved) (visit family fresh · imp.path)) :
    s.Grows ok fresh (s.Imports f.path) (visitImports family fresh · d.imports) := by
  have hrun : (visitImports family fresh · d.imports) =
      f.imports.foldlM fun done imp => visit family fresh done imp.path := by
    funext done
    rw [hd, visitImports_eq_foldlM, List.foldlM_map]
    rfl
  rw [hrun]
  refine (Search.grows_foldlM fun imp himp => ?_).congr fun target => hload.imports_iff
  by_cases hb : isBundled imp.path = true
  · intro done hdone
    exact ⟨done, visit_bundled hb, hdone.extends_refl, by simp [hb]⟩
  · have hb' := Bool.eq_false_iff.2 hb
    exact (h imp himp hb').congr (by simp [hb', eq_comm])

/-- Visiting an import name adds the file that it stands for. -/
theorem visit_grows (hset : Schema.loadAll s inputs = .ok set)
    (hbelow : ∀ f ∈ set.files, ∃ first, s.Below first f.path ∧ Text.startsWith first ".." = false)
    (hfamily : family.Mirrors bundled set names) (hsearch : family.search = s)
    {fresh : List String} {name path : String} (hb : isBundled name = false)
    (hname : family.Denotes bundled set name path)
    (hstack : s.Stacked (· ∈ family.paths.map (·.2)) fresh path) :
    s.Grows (Walked bundled set) fresh (· = path) (visit family fresh · name) := by
  obtain ⟨-, -, hloaded, -, hacyclic⟩ := Schema.loaded_of_loadAll hset
  -- On the number of paths that may be entered, as for loading.
  induction hn : fresh.length using Nat.strong_induction_on generalizing fresh name path with
  | _ n ih =>
    obtain ⟨hlookup, d, hd, k, f, hk, rfl, hmirror⟩ := hname
    have hf : f ∈ set.files := List.mem_of_getElem? hk
    have hload := hloaded f hf
    intro done hdone
    by_cases hmem : f.path ∈ done.map (·.path)
    · exact ⟨done, visit_done hb hd hlookup hmem, hdone.extends_refl, by simpa using hmem⟩
    have hfresh : f.path ∈ fresh := by
      by_contra hout
      have hknown : f.path ∈ family.paths.map (·.2) :=
        List.mem_map_of_mem (mem_of_lookup hlookup)
      exact hacyclic f.path (List.mem_map_of_mem hf) (hstack f.path hknown hout)
    have himports : s.Grows (Walked bundled set) (fresh.filter (· != f.path)) (s.Imports f.path)
        (visitImports family (fresh.filter (· != f.path)) · d.imports) := by
      refine visitImports_grows hload hmirror.imports fun imp himp hib => ?_
      have hedge : s.Imports f.path imp.resolved := hload.imports_iff.2 ⟨imp, himp, hib, rfl⟩
      exact ih _ (hn ▸ Schema.length_filter_ne_lt hfresh) hib (hfamily.imports f hf imp himp hib)
        (hstack.enter hedge) rfl
    obtain ⟨mid, hmid, hext, htargets⟩ := himports done hdone
    obtain ⟨messages, hmessages, hfile⟩ :=
      hmirror.exists_respelling d.package
    have hdisplay : family.search.displayName f.path name = f.name := by
      obtain ⟨parsed, name', -, -, heq⟩ := hload
      obtain ⟨first, hfirst, hdots⟩ := hbelow f hf
      rw [hsearch, hfirst.displayName_eq hdots name name']
      exact (congrArg Schema.File.name heq).symm
    rw [← hdisplay, ← hfamily.imports_eq hf hload hmirror.imports] at hfile
    obtain ⟨hout, hpath⟩ := hext.snoc htargets hmem hfresh ⟨k, f, hk, hfile⟩ hfile.path
    exact ⟨_, visit_new hb hd hlookup hmem hfresh hmid hmessages, hout, fun _ hp => hp ▸ hpath⟩

/-- Walking all descriptors gives the files of the set. -/
theorem exists_visitAll (hset : Schema.loadAll s inputs = .ok set)
    (hbelow : ∀ f ∈ set.files, ∃ first, s.Below first f.path ∧ Text.startsWith first ".." = false)
    (hfamily : family.Mirrors bundled set names) (hsearch : family.search = s) :
    ∃ files, visitAll family names = .ok files ∧ (files.map (·.path)).Nodup ∧
      (∀ path, path ∈ files.map (·.path) ↔ path ∈ set.files.map (·.path)) ∧
      ∀ g ∈ files, Walked bundled set g := by
  obtain ⟨hinputs, -, -, hreach, -⟩ := Schema.loaded_of_loadAll hset
  have hall : ∀ name ∈ names, s.Grows (Walked bundled set) (family.paths.map (·.2))
      (fun path => family.paths.lookup name = some path)
      (visit family (family.paths.map (·.2)) · name) := by
    intro name hname
    obtain ⟨path, -, hdenotes⟩ := hfamily.inputs name hname
    refine (visit_grows hset hbelow hfamily hsearch (hfamily.notBundled name hname) hdenotes
      fun outer hknown hout => absurd hknown hout).congr fun path' => ?_
    rw [hdenotes.1, Option.some.injEq, eq_comm]
  obtain ⟨files, hfiles, hext, hnames⟩ := Search.grows_foldlM hall [] .nil
  refine ⟨files, hfiles, hext.settled.nodup, fun path => ⟨fun hp => ?_, fun hp => ?_⟩,
    hext.settled.all_ok⟩
  · obtain ⟨g, hg, rfl⟩ := List.mem_map.1 hp
    obtain ⟨k, f, hk, hgf⟩ := hext.settled.all_ok g hg
    rw [hgf.path]
    exact List.mem_map_of_mem (List.mem_of_getElem? hk)
  · obtain ⟨input, hinput, hpath⟩ := (hreach path).1 hp
    obtain ⟨name, hname, hlookup⟩ := hfamily.covers input (hinputs ▸ hinput)
    exact hext.settled.closed_reach (hnames input ⟨name, hname, hlookup⟩) hpath

end

end ProtoStub.Descriptor

import ProtoStub.Proofs.Location
import ProtoStub.Proofs.Refusal
import ProtoStub.Strategy
import Mathlib.Data.List.Sort
import Mathlib.Data.String.Basic
import Mathlib.Logic.Relation

/-!
# Reading files with all they import

`loadAll` reads files depth first. `Search.Imports` is the graph it walks: an edge leads from a file
to the file that one of its imports is found at. The files read so far always stand in an order in
which every file comes after those it imports; `Settled` says so. A list in such an order has no
cycle (`Settled.acyclic`) and is closed under imports (`Settled.closed`), and loading keeps the
order (`loadFile_extends`), so a run that succeeds has read exactly what its inputs reach. In the
other direction nothing but a fault of a reached file stops a run (`exists_loadFile`): the paths
that may not be entered again are those of the files around the one being read, so refusing to enter
one of them means that it reaches itself (`cycle_of_loadFile`).
-/

namespace ProtoStub.Schema

open Relation (ReflTransGen TransGen)

/-! ## Files as they are read -/

/-- What every part of a file that is read so far fulfils: each import has its site, and none is
resolved. -/
structure Parsed.Fresh (path : String) (p : Parsed) : Prop where
  path : p.file.path = path
  sites : p.sites.length = p.file.imports.length
  unresolved : ∀ imp ∈ p.file.imports, imp.resolved = ""

/-- Reading on keeps what the parts of a file fulfil. -/
theorem fresh_of_fileBody {path : String} {done parsed : Parsed} {ts : List Token}
    (hdone : done.Fresh path) (h : fileBody done ts = .ok parsed) : parsed.Fresh path := by
  fun_induction fileBody done ts with
  | case1 done =>
    cases h
    exact hdone
  | case2 done t rest _ ih => exact ih hdone h
  | case3 => cases h
  | case4 done t rest _ _ _ after _ _ ih => exact ih hdone h
  | case5 => cases h
  | case6 done t rest _ _ _ package after _ _ ih =>
    exact ih ⟨hdone.path, hdone.sites, hdone.unresolved⟩ h
  | case7 => cases h
  | case8 done t rest _ _ _ _ site isPublic after _ _ imports ih =>
    refine ih ⟨hdone.path, ?_, ?_⟩ h
    · simp [imports, hdone.sites]
    · intro imp himp
      rcases List.mem_append.1 himp with himp | himp
      · exact hdone.unresolved imp himp
      · rw [List.mem_singleton.1 himp]
  | case9 => cases h
  | case10 done t rest _ _ _ _ _ m after _ _ ih =>
    exact ih ⟨hdone.path, hdone.sites, hdone.unresolved⟩ h
  | case11 => cases h
  | case12 done t rest _ _ _ _ _ _ e after _ _ ih =>
    exact ih ⟨hdone.path, hdone.sites, hdone.unresolved⟩ h
  | case13 => cases h
  | case14 done t rest _ _ _ _ _ _ _ svc after _ _ ih =>
    exact ih ⟨hdone.path, hdone.sites, hdone.unresolved⟩ h
  | case15 => cases h

/-- A file that is read has its path, and its imports stand with their sites. -/
theorem fresh_of_parseSource {path : String} {source : List Text.Glyph} {parsed : Parsed}
    (h : parseSource path source = .ok parsed) : parsed.Fresh path := by
  rw [parseSource] at h
  split at h
  · cases h
  · split at h
    · cases h
    · rename_i hp
      cases h
      exact fresh_of_fileBody ⟨rfl, rfl, by simp⟩ hp

/-- Reading a file finds no cycle of imports. -/
theorem parseSource_ne_importCycle {path p : String} {source : List Text.Glyph} {line : Int} :
    parseSource path source ≠ .error (.parse ⟨p, line, .importCycle⟩) := by
  intro h
  rw [parseSource] at h
  split at h
  · cases h
  · split at h
    · rename_i r _
      cases r <;> cases h
    · cases h

/-! ## The graph of imports -/

namespace Search

/-- The file at `path` can be read, and reads as `parsed`. -/
def Reads (s : Search) (path : String) (parsed : Parsed) : Prop :=
  ∃ content, s.workspace.read path = .ok content ∧
    parseSource path (Text.glyphs content) = .ok parsed

/-- The import `imp` of the file at `path` with the file it is found at. Bundled files are not
looked for. -/
def resolve (s : Search) (path : String) (imp : Import) : Import :=
  { imp with
    resolved := if isBundled imp.path then "" else (s.find? (dirOf path) imp.path).getD "" }

/-- The file at `path` has an import that is found at `target`. -/
def Imports (s : Search) (path target : String) : Prop :=
  ∃ parsed, s.Reads path parsed ∧ ∃ imp ∈ parsed.file.imports, isBundled imp.path = false ∧
    s.find? (dirOf path) imp.path = some target

/-- All imports of the file that reads as `parsed` are found, bundled ones apart. -/
def FindsAll (s : Search) (path : String) (parsed : Parsed) : Prop :=
  ∀ imp ∈ parsed.file.imports, isBundled imp.path = false →
    ∃ target, s.find? (dirOf path) imp.path = some target

/-- The file at `path` is one of the inputs, or reached from one by imports. -/
def Reachable (s : Search) (inputs : List String) (path : String) : Prop :=
  ∃ input ∈ inputs, ReflTransGen s.Imports input path

/-- What the files that the inputs reach have to fulfil. -/
structure Loadable (s : Search) (inputs : List String) : Prop where
  readable : ∀ path, s.Reachable inputs path → ∃ parsed, s.Reads path parsed
  found : ∀ path parsed, s.Reachable inputs path → s.Reads path parsed → s.FindsAll path parsed
  acyclic : ∀ path, s.Reachable inputs path → ¬ TransGen s.Imports path path

/-- The file `f` is what is read at its path, with its imports resolved and a name to be shown
by. -/
def Loaded (s : Search) (f : File) : Prop :=
  ∃ parsed name, s.Reads f.path parsed ∧ s.FindsAll f.path parsed ∧
    f = { parsed.file with
      name := s.displayName f.path name, imports := parsed.file.imports.map (s.resolve f.path) }

section
variable {s : Search} {path target : String} {parsed : Parsed}

theorem Reads.unique {parsed' : Parsed} (h : s.Reads path parsed) (h' : s.Reads path parsed') :
    parsed = parsed' := by
  obtain ⟨content, hc, hp⟩ := h
  obtain ⟨content', hc', hp'⟩ := h'
  cases hc.symm.trans hc'
  exact Except.ok.inj (hp.symm.trans hp')

/-- What is read at a path, in a form that can be evaluated. -/
def parse? (s : Search) (path : String) : Option Parsed :=
  (s.workspace.read path).toOption.bind fun content =>
    (parseSource path (Text.glyphs content)).toOption

theorem parse?_eq_some_iff : s.parse? path = some parsed ↔ s.Reads path parsed := by
  simp only [parse?, Reads, Option.bind_eq_some_iff, Program.toOption_eq_some_iff]

instance (s : Search) (path : String) (parsed : Parsed) : Decidable (s.Reads path parsed) :=
  decidable_of_iff _ parse?_eq_some_iff

theorem Reads.fresh (h : s.Reads path parsed) : parsed.Fresh path := by
  obtain ⟨content, -, hp⟩ := h
  exact fresh_of_parseSource hp

/-- A file that is found is named by its path in shortest form. -/
theorem rooted_find? {dir name : String} (h : s.find? dir name = some target) : Rooted target := by
  rw [find?] at h
  obtain ⟨path, -, rfl⟩ := Option.map_eq_some_iff.1 h
  exact rooted_absolute _ _

theorem Imports.rooted (h : s.Imports path target) : Rooted target := by
  obtain ⟨parsed, -, imp, -, -, hfind⟩ := h
  exact rooted_find? hfind

@[simp] theorem resolve_path (imp : Import) : (s.resolve path imp).path = imp.path := rfl

theorem resolve_of_found {imp : Import} (hb : isBundled imp.path = false)
    (h : s.find? (dirOf path) imp.path = some target) :
    s.resolve path imp = { imp with resolved := target } := by
  simp [resolve, hb, h]

theorem resolve_of_bundled {imp : Import} (hb : isBundled imp.path = true)
    (h : imp.resolved = "") : s.resolve path imp = imp := by
  obtain ⟨name, resolved, isPublic⟩ := imp
  cases h
  simp only [resolve, hb, ↓reduceIte]

end

theorem Loaded.imports_eq {s : Search} {f : File} (h : s.Loaded f) :
    ∃ parsed, s.Reads f.path parsed ∧ s.FindsAll f.path parsed ∧
      f.imports = parsed.file.imports.map (s.resolve f.path) := by
  obtain ⟨parsed, name, hreads, hfound, heq⟩ := h
  exact ⟨parsed, hreads, hfound, congrArg File.imports heq⟩

/-- An import of a file that was read is resolved to the file it is found at. -/
theorem Loaded.find?_of_import {s : Search} {f : File} (h : s.Loaded f) {imp : Import}
    (himp : imp ∈ f.imports) (hb : isBundled imp.path = false) :
    ∃ parsed, s.Reads f.path parsed ∧ ∃ imp' ∈ parsed.file.imports, imp'.path = imp.path ∧
      s.find? (dirOf f.path) imp.path = some imp.resolved := by
  obtain ⟨parsed, hreads, hfound, heq⟩ := h.imports_eq
  rw [heq] at himp
  obtain ⟨imp', himp', rfl⟩ := List.mem_map.1 himp
  rw [resolve_path] at hb
  obtain ⟨target, ht⟩ := hfound imp' himp' hb
  exact ⟨parsed, hreads, imp', himp', rfl, by rw [resolve_of_found hb ht]; exact ht⟩

/-- A bundled import of a file that was read is not resolved. -/
theorem Loaded.resolved_of_bundled {s : Search} {f : File} (h : s.Loaded f) {imp : Import}
    (himp : imp ∈ f.imports) (hb : isBundled imp.path = true) : imp.resolved = "" := by
  obtain ⟨parsed, -, -, heq⟩ := h.imports_eq
  rw [heq] at himp
  obtain ⟨imp', -, rfl⟩ := List.mem_map.1 himp
  exact if_pos hb

/-- A file that was read leads to the files that its imports are resolved to. -/
theorem Loaded.imports_iff {s : Search} {f : File} (h : s.Loaded f) {target : String} :
    s.Imports f.path target ↔
      ∃ imp ∈ f.imports, isBundled imp.path = false ∧ imp.resolved = target := by
  constructor
  · rintro ⟨parsed', hreads', imp, himp, hb, ht⟩
    obtain ⟨parsed, hreads, -, heq⟩ := h.imports_eq
    cases hreads.unique hreads'
    exact ⟨s.resolve f.path imp, heq ▸ List.mem_map_of_mem himp, hb,
      by rw [resolve_of_found hb ht]⟩
  · rintro ⟨imp, himp, hb, rfl⟩
    obtain ⟨parsed, hreads, imp', himp', hname, hfound⟩ := h.find?_of_import himp hb
    exact ⟨parsed, hreads, imp', himp', hname ▸ hb, hname ▸ hfound⟩

/-! ## Files in order of their imports -/

/-- Files that satisfy `ok`, in an order in which each comes after all that it imports, no path
twice. -/
inductive Settled (s : Search) (ok : File → Prop) : List File → Prop
  | nil : Settled s ok []
  | snoc {done : List File} {f : File} (hdone : Settled s ok done) (hf : ok f)
    (hnew : f.path ∉ done.map (·.path))
    (himports : ∀ target, s.Imports f.path target → target ∈ done.map (·.path)) :
    Settled s ok (done ++ [f])

namespace Settled

variable {s : Search} {ok : File → Prop} {done : List File} {path target : String}

theorem all_ok (h : s.Settled ok done) : ∀ f ∈ done, ok f := by
  induction h with
  | nil => simp
  | snoc _ hf _ _ ih =>
    intro f hmem
    rcases List.mem_append.1 hmem with hmem | hmem
    · exact ih f hmem
    · rw [List.mem_singleton.1 hmem]
      exact hf

theorem nodup (h : s.Settled ok done) : (done.map (·.path)).Nodup := by
  induction h with
  | nil => exact .nil
  | snoc _ _ hnew _ ih =>
    rw [List.map_append, List.nodup_append]
    refine ⟨ih, List.nodup_singleton _, ?_⟩
    rintro a ha b hb rfl
    rw [List.map_singleton, List.mem_singleton] at hb
    exact hnew (hb ▸ ha)

/-- What a file imports is there as well. -/
theorem closed (h : s.Settled ok done) (hp : path ∈ done.map (·.path))
    (hi : s.Imports path target) : target ∈ done.map (·.path) := by
  induction h with
  | nil => cases hp
  | snoc _ _ _ himports ih =>
    rw [List.map_append, List.mem_append] at hp ⊢
    rcases hp with hp | hp
    · exact .inl (ih hp)
    · rw [List.map_singleton, List.mem_singleton] at hp
      exact .inl (himports target (hp ▸ hi))

/-- What a file reaches is there as well. -/
theorem closed_reach (h : s.Settled ok done) (hp : path ∈ done.map (·.path))
    (hi : ReflTransGen s.Imports path target) : target ∈ done.map (·.path) := by
  induction hi with
  | refl => exact hp
  | tail _ hyz ih => exact h.closed ih hyz

/-- No file reaches itself: from the last file on, imports only lead to earlier ones. -/
theorem acyclic (h : s.Settled ok done) (hp : path ∈ done.map (·.path)) :
    ¬ TransGen s.Imports path path := by
  induction h with
  | nil => cases hp
  | snoc hdone _ hnew himports ih =>
    rw [List.map_append, List.mem_append] at hp
    rcases hp with hp | hp
    · exact ih hp
    · rw [List.map_singleton, List.mem_singleton] at hp
      subst hp
      intro hcycle
      obtain ⟨target, htarget, hback⟩ := TransGen.head'_iff.1 hcycle
      exact hnew (hdone.closed_reach (himports target htarget) hback)

end Settled

/-! ## What loading adds -/

/-- Loading goes on from `done` to `out`: the order is kept, nothing is lost, and what is new was
free to be entered and is reached from an origin. -/
structure Extends (s : Search) (ok : File → Prop) (fresh : List String) (origin : String → Prop)
    (done out : List File) : Prop where
  settled : s.Settled ok out
  kept : ∀ f ∈ done, f ∈ out
  new : ∀ f ∈ out, f ∈ done ∨
    f.path ∈ fresh ∧ ∃ path, origin path ∧ ReflTransGen s.Imports path f.path

section
variable {s : Search} {ok : File → Prop} {fresh : List String} {origin : String → Prop}
  {done mid out : List File}

theorem Settled.extends_refl (h : s.Settled ok done) : s.Extends ok fresh origin done done :=
  ⟨h, fun _ hf => hf, fun _ hf => .inl hf⟩

theorem Extends.trans (h : s.Extends ok fresh origin done mid)
    (h' : s.Extends ok fresh origin mid out) : s.Extends ok fresh origin done out where
  settled := h'.settled
  kept f hf := h'.kept f (h.kept f hf)
  new f hf := by
    rcases h'.new f hf with hf | hf
    · exact h.new f hf
    · exact .inr hf

theorem Extends.mono (h : s.Extends ok fresh origin done out) {fresh' : List String}
    {origin' : String → Prop} (hfresh : ∀ path ∈ fresh, path ∈ fresh')
    (horigin : ∀ path, origin path → ∃ path', origin' path' ∧ ReflTransGen s.Imports path' path) :
    s.Extends ok fresh' origin' done out where
  settled := h.settled
  kept := h.kept
  new f hf := by
    rcases h.new f hf with hf | ⟨hf, path, hp, hreach⟩
    · exact .inl hf
    · obtain ⟨path', hp', hreach'⟩ := horigin path hp
      exact .inr ⟨hfresh _ hf, path', hp', hreach'.trans hreach⟩

/-- A file comes after its imports. The paths that these may enter are without its own. -/
theorem Extends.snoc {path : String} {f : File}
    (h : s.Extends ok (fresh.filter (· != path)) (s.Imports path) done mid)
    (himports : ∀ target, s.Imports path target → target ∈ mid.map (·.path))
    (hnew : path ∉ done.map (·.path)) (hfresh : path ∈ fresh) (hf : ok f) (hpath : f.path = path) :
    s.Extends ok fresh (· = path) done (mid ++ [f]) ∧ path ∈ (mid ++ [f]).map (·.path) := by
  subst hpath
  have hmid : f.path ∉ mid.map (·.path) := by
    intro hp
    obtain ⟨g, hg, hgp⟩ := List.mem_map.1 hp
    rcases h.new g hg with hold | ⟨hfree, -⟩
    · exact hnew (List.mem_map.2 ⟨g, hold, hgp⟩)
    · simp [hgp] at hfree
  refine ⟨⟨.snoc h.settled hf hmid himports, ?_, ?_⟩, by simp⟩
  · exact fun g hg => List.mem_append_left _ (h.kept g hg)
  · intro g hg
    rcases List.mem_append.1 hg with hg | hg
    · rcases h.new g hg with hold | ⟨hfree, target, hedge, hreach⟩
      · exact .inl hold
      · exact .inr ⟨(List.mem_filter.1 hfree).1, _, rfl, .head hedge hreach⟩
    · rw [List.mem_singleton.1 hg]
      exact .inr ⟨hfresh, _, rfl, .refl⟩

theorem Extends.mem_paths (h : s.Extends ok fresh origin done out) {path : String}
    (hp : path ∈ done.map (·.path)) : path ∈ out.map (·.path) := by
  obtain ⟨f, hf, rfl⟩ := List.mem_map.1 hp
  exact List.mem_map_of_mem (h.kept f hf)

end

end Search

/-! ## One file and its imports -/

section
variable {s : Search} {fresh : List String} {done out : List File} {path name : String}

/-- A file is loaded when it is there already, or when it may be entered and its imports are
loaded. -/
theorem loadFile_eq_ok_iff : loadFile s fresh done path name = .ok out ↔
    path ∈ done.map (·.path) ∧ out = done ∨
    path ∉ done.map (·.path) ∧ path ∈ fresh ∧ ∃ parsed, s.Reads path parsed ∧
      ∃ mid imports, loadImports s (fresh.filter (· != path)) done path
          (parsed.file.imports.zip parsed.sites) = .ok (mid, imports) ∧
        out = mid ++ [{ parsed.file with name := s.displayName path name, imports }] := by
  have hany : done.any (·.path == path) = true ↔ path ∈ done.map (·.path) := by
    simp [List.any_eq_true]
  rw [loadFile]
  by_cases hmem : path ∈ done.map (·.path)
  · rw [if_pos (hany.2 hmem)]
    simp [hmem, eq_comm]
  · rw [if_neg (mt hany.1 hmem)]
    simp only [hmem, false_and, not_false_eq_true, true_and, false_or, Search.Reads]
    cases hread : s.workspace.read path with
    | error fault => simp
    | ok content =>
      dsimp only
      by_cases hfresh : path ∈ fresh
      · rw [dif_pos hfresh]
        simp only [hfresh, true_and, Except.ok.injEq, exists_eq_left']
        cases parseSource path (Text.glyphs content) with
        | error e => simp
        | ok parsed =>
          simp only [Except.ok.injEq, exists_eq_left']
          cases loadImports s (fresh.filter (· != path)) done path
              (parsed.file.imports.zip parsed.sites) with
          | error e => simp
          | ok r => simp [Prod.ext_iff, eq_comm]
      · simp [hfresh]

/-- The imports after a bundled one are loaded. -/
theorem loadImports_bundled {imp : Import} {site : ImportSite} {rest : List (Import × ImportSite)}
    {imports : List Import} (hb : isBundled imp.path = true) :
    loadImports s fresh done path ((imp, site) :: rest) = .ok (out, imports) ↔
      ∃ more, loadImports s fresh done path rest = .ok (out, more) ∧ imports = imp :: more := by
  rw [loadImports, if_pos hb]
  cases loadImports s fresh done path rest with
  | error e => simp
  | ok r => simp [Prod.ext_iff, eq_comm]

/-- An import that is looked for is loaded when it is found, then those after it. -/
theorem loadImports_found {imp : Import} {site : ImportSite} {rest : List (Import × ImportSite)}
    {imports : List Import} (hb : isBundled imp.path = false) :
    loadImports s fresh done path ((imp, site) :: rest) = .ok (out, imports) ↔
      ∃ target, s.find? (dirOf path) imp.path = some target ∧
        ∃ mid, loadFile s fresh done target imp.path = .ok mid ∧
          ∃ more, loadImports s fresh mid path rest = .ok (out, more) ∧
            imports = { imp with resolved := target } :: more := by
  rw [loadImports, if_neg (by simp [hb])]
  cases s.find? (dirOf path) imp.path with
  | none => simp
  | some target =>
    simp only [Option.some.injEq, exists_eq_left']
    cases loadFile s fresh done target imp.path with
    | error e => simp
    | ok mid =>
      simp only [Except.ok.injEq, exists_eq_left']
      cases loadImports s fresh mid path rest with
      | error e => simp
      | ok r => simp [Prod.ext_iff, eq_comm]

end

/-! ## A run that succeeds -/

section
variable {s : Search} {fresh : List String}

/-- When loading files keeps their order, so does loading imports, and each import is then there. -/
theorem loadImports_extends {path : String}
    (hfile : ∀ {done out : List File} {target name : String}, s.Settled s.Loaded done →
      loadFile s fresh done target name = .ok out →
      s.Extends s.Loaded fresh (· = target) done out ∧ target ∈ out.map (·.path))
    {imps : List (Import × ImportSite)} (hunresolved : ∀ x ∈ imps, x.1.resolved = "")
    {done out : List File} {imports : List Import} (hdone : s.Settled s.Loaded done)
    (h : loadImports s fresh done path imps = .ok (out, imports)) :
    s.Extends s.Loaded fresh
        (fun target => ∃ x ∈ imps, isBundled x.1.path = false ∧
          s.find? (dirOf path) x.1.path = some target) done out ∧
      (∀ x ∈ imps, isBundled x.1.path = false → ∃ target,
        s.find? (dirOf path) x.1.path = some target ∧ target ∈ out.map (·.path)) ∧
      imports = imps.map fun x => s.resolve path x.1 := by
  induction imps generalizing done imports with
  | nil =>
    rw [loadImports] at h
    cases h
    exact ⟨hdone.extends_refl, by simp, rfl⟩
  | cons x rest ih =>
    obtain ⟨imp, site⟩ := x
    have hrest : ∀ x ∈ rest, x.1.resolved = "" := fun x hx =>
      hunresolved x (List.mem_cons_of_mem _ hx)
    cases hb : isBundled imp.path with
    | true =>
      obtain ⟨more, hmore, rfl⟩ := (loadImports_bundled hb).1 h
      obtain ⟨hext, hall, rfl⟩ := ih hrest hdone hmore
      refine ⟨hext.mono (fun _ hp => hp) ?_, ?_, ?_⟩
      · rintro target ⟨x, hx, hfound⟩
        exact ⟨target, ⟨x, List.mem_cons_of_mem _ hx, hfound⟩, .refl⟩
      · intro x hx hxb
        rcases List.mem_cons.1 hx with rfl | hx
        · rw [hb] at hxb
          cases hxb
        · exact hall x hx hxb
      · rw [List.map_cons, Search.resolve_of_bundled hb (hunresolved _ List.mem_cons_self)]
    | false =>
      obtain ⟨target, hfound, mid, hmid, more, hmore, rfl⟩ := (loadImports_found hb).1 h
      obtain ⟨hext₁, htarget⟩ := hfile hdone hmid
      obtain ⟨hext₂, hall, rfl⟩ := ih hrest hext₁.settled hmore
      refine ⟨(hext₁.mono (fun _ hp => hp) ?_).trans (hext₂.mono (fun _ hp => hp) ?_), ?_, ?_⟩
      · rintro _ rfl
        exact ⟨_, ⟨_, List.mem_cons_self, hb, hfound⟩, .refl⟩
      · rintro target' ⟨x, hx, hfound'⟩
        exact ⟨target', ⟨x, List.mem_cons_of_mem _ hx, hfound'⟩, .refl⟩
      · intro x hx hxb
        rcases List.mem_cons.1 hx with rfl | hx
        · exact ⟨target, hfound, hext₂.mem_paths htarget⟩
        · exact hall x hx hxb
      · rw [List.map_cons, Search.resolve_of_found hb hfound]

/-- The imports of a file, one by one with their sites. -/
theorem mem_zip_sites {path : String} {parsed : Parsed} (h : parsed.Fresh path) {imp : Import}
    (himp : imp ∈ parsed.file.imports) :
    ∃ x ∈ parsed.file.imports.zip parsed.sites, x.1 = imp := by
  obtain ⟨i, hi, rfl⟩ := List.getElem_of_mem himp
  have hi' : i < parsed.sites.length := h.sites ▸ hi
  refine ⟨(parsed.file.imports[i], parsed.sites[i]), ?_, rfl⟩
  exact List.mem_iff_getElem.2 ⟨i, by simp [hi, hi'], by simp⟩

/-- All imports of a file that is read are loaded: what is new comes from them, all of them are
there, and they are resolved. -/
theorem loadImports_extends_imports {path : String} {parsed : Parsed} (hreads : s.Reads path parsed)
    (hfile : ∀ {done out : List File} {target name : String}, s.Settled s.Loaded done →
      loadFile s fresh done target name = .ok out →
      s.Extends s.Loaded fresh (· = target) done out ∧ target ∈ out.map (·.path))
    {done out : List File} {imports : List Import} (hdone : s.Settled s.Loaded done)
    (h : loadImports s fresh done path (parsed.file.imports.zip parsed.sites) =
      .ok (out, imports)) :
    s.Extends s.Loaded fresh (s.Imports path) done out ∧ s.FindsAll path parsed ∧
      (∀ target, s.Imports path target → target ∈ out.map (·.path)) ∧
      imports = parsed.file.imports.map (s.resolve path) := by
  have hparsed := hreads.fresh
  have hunresolved : ∀ x ∈ parsed.file.imports.zip parsed.sites, x.1.resolved = "" :=
    fun x hx => hparsed.unresolved _ (List.of_mem_zip hx).1
  obtain ⟨hext, hall, rfl⟩ := loadImports_extends hfile hunresolved hdone h
  refine ⟨hext.mono (fun _ hp => hp) ?_, ?_, ?_, ?_⟩
  · rintro target ⟨x, hx, hb, ht⟩
    exact ⟨target, ⟨parsed, hreads, x.1, (List.of_mem_zip hx).1, hb, ht⟩, .refl⟩
  · intro imp himp hb
    obtain ⟨x, hx, rfl⟩ := mem_zip_sites hparsed himp
    obtain ⟨target, ht, -⟩ := hall x hx hb
    exact ⟨target, ht⟩
  · rintro target ⟨parsed', hreads', imp, himp, hb, ht⟩
    cases hreads.unique hreads'
    obtain ⟨x, hx, rfl⟩ := mem_zip_sites hparsed himp
    obtain ⟨target', ht', hmem⟩ := hall x hx hb
    cases ht.symm.trans ht'
    exact hmem
  · have hfst := List.map_fst_zip hparsed.sites.ge
    conv_rhs => rw [← hfst, List.map_map]
    rfl

/-- Loading a file keeps the order and adds the file. -/
theorem loadFile_extends {done out : List File} {path name : String}
    (hdone : s.Settled s.Loaded done) (h : loadFile s fresh done path name = .ok out) :
    s.Extends s.Loaded fresh (· = path) done out ∧ path ∈ out.map (·.path) := by
  -- On the number of paths that may be entered: the imports of a file are loaded without its own.
  induction hn : fresh.length using Nat.strong_induction_on
    generalizing fresh done out path name with
  | _ n ih =>
    rcases loadFile_eq_ok_iff.1 h with ⟨hmem, rfl⟩ | ⟨hnew, hfresh, parsed, hreads, mid, imports,
      himports, rfl⟩
    · exact ⟨hdone.extends_refl, hmem⟩
    have hless := hn ▸ length_filter_ne_lt hfresh
    obtain ⟨hext, hfound, hreach, rfl⟩ :=
      loadImports_extends_imports hreads (fun hd hl => ih _ hless hd hl rfl) hdone himports
    have hpath := hreads.fresh.path
    refine hext.snoc hreach hnew hfresh ⟨parsed, name, ?_, ?_, ?_⟩ hpath
    · exact hpath.symm ▸ hreads
    · exact hpath.symm ▸ hfound
    · simp only [hpath]

/-- Loading files one after another keeps the order and adds each of them. -/
theorem foldlM_loadFile_extends {inputs : List String} {done out : List File}
    (hdone : s.Settled s.Loaded done)
    (h : inputs.foldlM (fun done path => loadFile s fresh done path (baseOf path)) done =
      .ok out) :
    s.Extends s.Loaded fresh (· ∈ inputs) done out ∧ ∀ path ∈ inputs, path ∈ out.map (·.path) := by
  induction inputs generalizing done with
  | nil =>
    cases h
    exact ⟨hdone.extends_refl, by simp⟩
  | cons input rest ih =>
    rw [List.foldlM_cons] at h
    obtain ⟨mid, hmid, hrest⟩ := Program.bind_eq_ok_iff.1 h
    obtain ⟨hext₁, hinput⟩ := loadFile_extends hdone hmid
    obtain ⟨hext₂, hall⟩ := ih hext₁.settled hrest
    refine ⟨(hext₁.mono (fun _ hp => hp) ?_).trans (hext₂.mono (fun _ hp => hp) ?_), ?_⟩
    · rintro _ rfl
      exact ⟨_, List.mem_cons_self, .refl⟩
    · exact fun path hp => ⟨path, List.mem_cons_of_mem _ hp, .refl⟩
    · intro path hp
      rcases List.mem_cons.1 hp with rfl | hp
      · exact hext₂.mem_paths hinput
      · exact hall path hp

end

/-! ## A run that fails -/

namespace Search

/-- Of the paths that are `known`, those that may not be entered again belong to files around the
one at `path`: they lead to it. -/
def Stacked (s : Search) (known : String → Prop) (fresh : List String) (path : String) : Prop :=
  ∀ outer, known outer → outer ∉ fresh → TransGen s.Imports outer path

/-- Inside a file, that file is around its imports too. -/
theorem Stacked.enter {s : Search} {known : String → Prop} {fresh : List String}
    {path target : String} (h : s.Stacked known fresh path) (hi : s.Imports path target) :
    s.Stacked known (fresh.filter (· != path)) target := by
  intro outer hknown hout
  by_cases hp : outer = path
  · exact hp ▸ .single hi
  · refine (h outer hknown fun hmem => hout ?_).tail hi
    exact List.mem_filter.2 ⟨hmem, by simpa using hp⟩

/-- The path, in shortest form, of a file that can be read. -/
def Readable (s : Search) (path : String) : Prop :=
  Rooted path ∧ ∃ content, s.workspace.read path = .ok content

/-- What holds of all that some files reach holds of all that files reached by them reach. -/
theorem Loadable.mono {s : Search} {inputs inputs' : List String} (h : s.Loadable inputs)
    (hreach : ∀ path ∈ inputs', s.Reachable inputs path) : s.Loadable inputs' := by
  have hall : ∀ path, s.Reachable inputs' path → s.Reachable inputs path := by
    rintro path ⟨input', hinput', hp⟩
    obtain ⟨input, hinput, hi⟩ := hreach input' hinput'
    exact ⟨input, hinput, hi.trans hp⟩
  exact ⟨fun p hp => h.readable p (hall p hp), fun p q hp => h.found p q (hall p hp),
    fun p hp => h.acyclic p (hall p hp)⟩

theorem Loadable.imports {s : Search} {path target : String} (h : s.Loadable [path])
    (hi : s.Imports path target) : s.Loadable [target] := by
  refine h.mono fun p hp => ?_
  rw [List.mem_singleton.1 hp]
  exact ⟨path, List.mem_singleton_self _, .single hi⟩

theorem Loadable.input {s : Search} {inputs : List String} {path : String} (h : s.Loadable inputs)
    (hp : path ∈ inputs) : s.Loadable [path] := by
  refine h.mono fun p hp' => ?_
  rw [List.mem_singleton.1 hp']
  exact ⟨path, hp, .refl⟩

end Search

section
variable {s : Search}

/-- When the files that are found can be loaded, so can the imports. -/
theorem exists_loadImports {fresh : List String} {path : String}
    {imps : List (Import × ImportSite)}
    (hfound : ∀ x ∈ imps, isBundled x.1.path = false → ∃ target,
      s.find? (dirOf path) x.1.path = some target ∧
        ∀ done name, ∃ out, loadFile s fresh done target name = .ok out) :
    ∀ done, ∃ out imports, loadImports s fresh done path imps = .ok (out, imports) := by
  induction imps with
  | nil => exact fun done => ⟨done, [], by rw [loadImports]⟩
  | cons x rest ih =>
    intro done
    obtain ⟨imp, site⟩ := x
    have hrest := ih fun x hx => hfound x (List.mem_cons_of_mem _ hx)
    cases hb : isBundled imp.path with
    | true =>
      obtain ⟨out, more, hmore⟩ := hrest done
      exact ⟨out, imp :: more, (loadImports_bundled hb).2 ⟨more, hmore, rfl⟩⟩
    | false =>
      obtain ⟨target, ht, hload⟩ := hfound _ List.mem_cons_self hb
      obtain ⟨mid, hmid⟩ := hload done imp.path
      obtain ⟨out, more, hmore⟩ := hrest mid
      exact ⟨out, _, (loadImports_found hb).2 ⟨target, ht, mid, hmid, more, hmore, rfl⟩⟩

/-- A file that reaches only files in order is loaded. -/
theorem exists_loadFile {fresh : List String} {path : String} (hr : Rooted path)
    (hstack : s.Stacked s.Readable fresh path) (hload : s.Loadable [path]) (done : List File)
    (name : String) : ∃ out, loadFile s fresh done path name = .ok out := by
  induction hn : fresh.length using Nat.strong_induction_on
    generalizing fresh path done name with
  | _ n ih =>
    have hreach : s.Reachable [path] path := ⟨path, List.mem_singleton_self _, .refl⟩
    obtain ⟨parsed, hreads⟩ := hload.readable path hreach
    by_cases hmem : path ∈ done.map (·.path)
    · exact ⟨done, loadFile_eq_ok_iff.2 (.inl ⟨hmem, rfl⟩)⟩
    have hfresh : path ∈ fresh := by
      by_contra hout
      obtain ⟨content, hread, -⟩ := hreads
      exact hload.acyclic path hreach (hstack path ⟨hr, content, hread⟩ hout)
    have hless := hn ▸ length_filter_ne_lt hfresh
    have himports : ∀ x ∈ parsed.file.imports.zip parsed.sites, isBundled x.1.path = false →
        ∃ target, s.find? (dirOf path) x.1.path = some target ∧ ∀ done name, ∃ out,
          loadFile s (fresh.filter (· != path)) done target name = .ok out := by
      intro x hx hb
      have himp := (List.of_mem_zip hx).1
      obtain ⟨target, ht⟩ := hload.found path parsed hreach hreads x.1 himp hb
      have hedge : s.Imports path target := ⟨parsed, hreads, x.1, himp, hb, ht⟩
      exact ⟨target, ht, fun done name =>
        ih _ hless hedge.rooted (hstack.enter hedge) (hload.imports hedge) done name rfl⟩
    obtain ⟨mid, imports, hmid⟩ := exists_loadImports himports done
    exact ⟨_, loadFile_eq_ok_iff.2 (.inr ⟨hmem, hfresh, parsed, hreads, mid, imports, hmid, rfl⟩)⟩

/-- When files in order are loaded, so are several of them, one after another. -/
theorem exists_foldlM_loadFile {fresh : List String} {inputs : List String}
    (h : ∀ path ∈ inputs, ∀ done name, ∃ out, loadFile s fresh done path name = .ok out) :
    ∀ done, ∃ out,
      inputs.foldlM (fun done path => loadFile s fresh done path (baseOf path)) done = .ok out := by
  induction inputs with
  | nil => exact fun done => ⟨done, rfl⟩
  | cons input rest ih =>
    intro done
    obtain ⟨mid, hmid⟩ := h input List.mem_cons_self done (baseOf input)
    obtain ⟨out, hout⟩ := ih (fun path hp => h path (List.mem_cons_of_mem _ hp)) mid
    exact ⟨out, by rw [List.foldlM_cons]; exact Program.bind_eq_ok_iff.2 ⟨mid, hmid, hout⟩⟩

/-! ### Cycles -/

/-- The error of a file that is met again while it is being read. -/
def cycleAt (path : String) (line : Int) : Error := .parse ⟨path, line, .importCycle⟩

/-- A cycle that is met among imports is met in a file that one of them is found at. -/
theorem exists_cycle_of_loadImports {fresh : List String} {path met : String} {line : Int}
    {imps : List (Import × ImportSite)} {done : List File}
    (h : loadImports s fresh done path imps = .error (cycleAt met line)) :
    ∃ x ∈ imps, isBundled x.1.path = false ∧ ∃ target,
      s.find? (dirOf path) x.1.path = some target ∧
        ∃ done, loadFile s fresh done target x.1.path = .error (cycleAt met line) := by
  induction imps generalizing done with
  | nil =>
    rw [loadImports] at h
    cases h
  | cons x rest ih =>
    obtain ⟨imp, site⟩ := x
    rw [loadImports] at h
    cases hb : isBundled imp.path with
    | true =>
      rw [if_pos hb] at h
      cases hmore : loadImports s fresh done path rest with
      | ok r => simp [hmore] at h
      | error e =>
        simp only [hmore, Except.error.injEq] at h
        obtain ⟨x, hx, hfound⟩ := ih (h ▸ hmore)
        exact ⟨x, List.mem_cons_of_mem _ hx, hfound⟩
    | false =>
      rw [if_neg (by simp [hb])] at h
      cases ht : s.find? (dirOf path) imp.path with
      | none => simp [ht, cycleAt] at h
      | some target =>
        simp only [ht] at h
        cases hload : loadFile s fresh done target imp.path with
        | error e =>
          simp only [hload, Except.error.injEq] at h
          exact ⟨_, List.mem_cons_self, hb, target, ht, done, h ▸ hload⟩
        | ok mid =>
          simp only [hload] at h
          cases hmore : loadImports s fresh mid path rest with
          | ok r => simp [hmore] at h
          | error e =>
            simp only [hmore, Except.error.injEq] at h
            obtain ⟨x, hx, hfound⟩ := ih (h ▸ hmore)
            exact ⟨x, List.mem_cons_of_mem _ hx, hfound⟩

/-- A cycle that is met is one: the file it is reported for reaches itself. -/
theorem cycle_of_loadFile {fresh : List String} {done : List File} {path name met : String}
    {line : Int} (hr : Rooted path) (hstack : s.Stacked s.Readable fresh path)
    (h : loadFile s fresh done path name = .error (cycleAt met line)) :
    ReflTransGen s.Imports path met ∧ TransGen s.Imports met met := by
  induction hn : fresh.length using Nat.strong_induction_on
    generalizing fresh done path name with
  | _ n ih =>
    rw [loadFile] at h
    split at h
    · cases h
    split at h
    · cases h
    rename_i content hread
    split at h
    · rename_i hfresh
      split at h
      · rename_i e hparse
        cases h
        exact absurd hparse parseSource_ne_importCycle
      · rename_i parsed hparse
        split at h
        · rename_i e himports
          cases h
          obtain ⟨x, hx, hb, target, ht, done', hload⟩ := exists_cycle_of_loadImports himports
          have hedge : s.Imports path target :=
            ⟨parsed, ⟨content, hread, hparse⟩, x.1, (List.of_mem_zip hx).1, hb, ht⟩
          obtain ⟨hreach, hcycle⟩ := ih _ (hn ▸ length_filter_ne_lt hfresh) hedge.rooted
            (hstack.enter hedge) hload rfl
          exact ⟨.head hedge hreach, hcycle⟩
        · cases h
    · rename_i hfresh
      cases h
      exact ⟨.refl, hstack _ ⟨hr, content, hread⟩ hfresh⟩

/-- A cycle that is met in one of several files is one. -/
theorem cycle_of_foldlM_loadFile {fresh inputs : List String} {done : List File} {met : String}
    {line : Int} (hr : ∀ path ∈ inputs, Rooted path)
    (hstack : ∀ path, s.Stacked s.Readable fresh path)
    (h : inputs.foldlM (fun done path => loadFile s fresh done path (baseOf path)) done =
      .error (cycleAt met line)) :
    s.Reachable inputs met ∧ TransGen s.Imports met met := by
  induction inputs generalizing done with
  | nil => cases h
  | cons input rest ih =>
    rw [List.foldlM_cons] at h
    cases hload : loadFile s fresh done input (baseOf input) with
    | error e =>
      rw [hload] at h
      cases h
      obtain ⟨hreach, hcycle⟩ :=
        cycle_of_loadFile (hr input List.mem_cons_self) (hstack input) hload
      exact ⟨⟨input, List.mem_cons_self, hreach⟩, hcycle⟩
    | ok mid =>
      rw [hload] at h
      obtain ⟨⟨path, hp, hreach⟩, hcycle⟩ := ih (fun p hp => hr p (List.mem_cons_of_mem _ hp)) h
      exact ⟨⟨path, List.mem_cons_of_mem _ hp, hreach⟩, hcycle⟩

end

/-! ## Sets of files -/

section
variable {s : Search} {inputs : List String} {set : FileSet}

theorem mem_mergeSort_le {path : String} :
    path ∈ inputs.mergeSort (decide <| · ≤ ·) ↔ path ∈ inputs :=
  (List.mergeSort_perm _ _).mem_iff

/-- At the start no file of the workspace is around another. -/
theorem stacked_filePaths (path : String) :
    s.Stacked s.Readable s.workspace.filePaths path := by
  rintro outer ⟨hr, content, hread⟩ hout
  exact absurd (s.workspace.mem_filePaths_of_read hr hread) hout

/-- Sorting puts a list in ascending order. -/
theorem pairwise_mergeSort_le {α : Type} (key : α → String) (xs : List α) :
    (xs.mergeSort (decide <| key · ≤ key ·)).Pairwise (key · ≤ key ·) := by
  have h : (xs.mergeSort (decide <| key · ≤ key ·)).Pairwise (decide <| key · ≤ key ·) := by
    refine List.pairwise_mergeSort (fun a b c hab hbc => ?_) (fun a b => ?_) xs
    · simp only [decide_eq_true_eq] at hab hbc ⊢
      exact le_trans hab hbc
    · simp only [Bool.or_eq_true, decide_eq_true_eq]
      exact le_total _ _
  exact h.imp fun hab => of_decide_eq_true hab

/-- The files of a set in ascending order of their paths. -/
theorem pairwise_ofFiles {files : List File} (hnodup : (files.map (·.path)).Nodup) :
    ((FileSet.ofFiles files inputs).files.map (·.path)).Pairwise (· < ·) := by
  have hsorted : (FileSet.ofFiles files inputs).files.Pairwise (·.path ≤ ·.path) :=
    pairwise_mergeSort_le _ files
  have hperm : ((FileSet.ofFiles files inputs).files.map (·.path)).Nodup :=
    ((List.mergeSort_perm files _).map _).nodup_iff.2 hnodup
  rw [List.pairwise_map]
  rw [List.Nodup, List.pairwise_map] at hperm
  exact hsorted.imp₂ (fun _ _ hle hne => lt_of_le_of_ne hle hne) hperm

/-- What a successful run has read. -/
theorem loaded_of_loadAll (h : loadAll s inputs = .ok set) :
    set.inputs = inputs ∧ (set.files.map (·.path)).Pairwise (· < ·) ∧
      (∀ f ∈ set.files, s.Loaded f) ∧
      (∀ path, path ∈ set.files.map (·.path) ↔ s.Reachable inputs path) ∧
      ∀ path ∈ set.files.map (·.path), ¬ TransGen s.Imports path path := by
  obtain ⟨files, hfold, h⟩ := Program.bind_eq_ok_iff.1 h
  cases h
  obtain ⟨hext, hinputs⟩ := foldlM_loadFile_extends .nil hfold
  have hmem : ∀ path, path ∈ (FileSet.ofFiles files inputs).files.map (·.path) ↔
      path ∈ files.map (·.path) := fun path => ((List.mergeSort_perm files _).map _).mem_iff
  refine ⟨rfl, pairwise_ofFiles hext.settled.nodup, ?_, ?_, ?_⟩
  · exact fun f hf => hext.settled.all_ok f ((List.mergeSort_perm files _).mem_iff.1 hf)
  · intro path
    rw [hmem]
    constructor
    · intro hp
      obtain ⟨f, hf, rfl⟩ := List.mem_map.1 hp
      rcases hext.new f hf with hf | ⟨-, input, hinput, hreach⟩
      · cases hf
      · exact ⟨input, mem_mergeSort_le.1 hinput, hreach⟩
    · rintro ⟨input, hinput, hreach⟩
      exact hext.settled.closed_reach (hinputs input (mem_mergeSort_le.2 hinput)) hreach
  · exact fun path hp => hext.settled.acyclic ((hmem path).1 hp)

/-- A run succeeds exactly when the files that the inputs reach are in order. -/
theorem exists_loadAll_iff (hr : ∀ path ∈ inputs, Rooted path) :
    (∃ set, loadAll s inputs = .ok set) ↔ s.Loadable inputs := by
  constructor
  · rintro ⟨set, h⟩
    obtain ⟨-, -, hloaded, hreach, hacyclic⟩ := loaded_of_loadAll h
    have hread : ∀ path, s.Reachable inputs path → ∃ parsed, s.Reads path parsed ∧
        s.FindsAll path parsed := by
      intro path hp
      obtain ⟨f, hf, rfl⟩ := List.mem_map.1 ((hreach path).2 hp)
      obtain ⟨parsed, name, hreads, hfound, -⟩ := hloaded f hf
      exact ⟨parsed, hreads, hfound⟩
    refine ⟨fun path hp => ?_, fun path parsed hp hreads => ?_, fun path hp => ?_⟩
    · obtain ⟨parsed, hreads, -⟩ := hread path hp
      exact ⟨parsed, hreads⟩
    · obtain ⟨parsed', hreads', hfound⟩ := hread path hp
      exact hreads.unique hreads' ▸ hfound
    · exact hacyclic path ((hreach path).2 hp)
  · intro hload
    have hone : ∀ path ∈ inputs.mergeSort (decide <| · ≤ ·), ∀ done name, ∃ out,
        loadFile s s.workspace.filePaths done path name = .ok out := by
      intro path hp
      have hpath := mem_mergeSort_le.1 hp
      exact exists_loadFile (hr path hpath) (stacked_filePaths path) (hload.input hpath)
    obtain ⟨files, hfold⟩ := exists_foldlM_loadFile hone []
    exact ⟨.ofFiles files inputs, Program.bind_eq_ok_iff.2 ⟨files, hfold, rfl⟩⟩

/-- What is resolved in a set that was read leads to a file of it. -/
theorem checkImports_of_loadAll (h : loadAll s inputs = .ok set) :
    Program.checkImports set = .ok () := by
  obtain ⟨-, -, hloaded, hreach, -⟩ := loaded_of_loadAll h
  refine Program.checkImports_eq_ok_iff.2 fun f hf imp himp hne => ?_
  have hb : isBundled imp.path = false := by
    by_contra hb
    exact hne ((hloaded f hf).resolved_of_bundled himp (Bool.not_eq_false _ ▸ hb))
  obtain ⟨input, hinput, hp⟩ := (hreach f.path).1 (List.mem_map_of_mem hf)
  have hedge : s.Imports f.path imp.resolved := (hloaded f hf).imports_iff.2 ⟨imp, himp, hb, rfl⟩
  exact List.mem_map.1 ((hreach imp.resolved).2 ⟨input, hinput, hp.tail hedge⟩)

end

/-- What is read from text was loaded from the paths of the inputs. -/
theorem loadAll_of_read {s : Surroundings} {paths : List String} {set : FileSet}
    (h : (Strategy.text.read s paths).result = .ok set) :
    loadAll s.search (paths.map s.search.workspace.absolute) = .ok set := by
  simp only [Strategy.read] at h
  split at h
  · cases h
  · exact h

/-- Reading the text of files succeeds exactly when every file that the inputs reach can be read and
parsed, all its imports but the bundled ones are found, and none of them reaches itself. The result
then holds exactly the files that the inputs reach, in strictly ascending order of their paths, each
with its imports resolved to the files they are found at; so it is never refused for an import whose
file is missing. A cycle is only reported for a file that is on one: the paths of the files of the
workspace, which bound the recursion, never stop it short. -/
theorem read_text_iff_loadable (s : Surroundings) (paths : List String) :
    let inputs := paths.map s.search.workspace.absolute
    let result := (Strategy.text.read { s with cancelled := false } paths).result
    ((∃ set, result = .ok set) ↔ s.search.Loadable inputs) ∧
      (∀ set, result = .ok set → set.inputs = inputs ∧
        (∀ path, path ∈ set.files.map (·.path) ↔ s.search.Reachable inputs path) ∧
        (set.files.map (·.path)).Pairwise (· < ·) ∧
        (∀ f ∈ set.files, s.search.Loaded f) ∧
        ∀ options file line path, Program.build set options ≠
          .error (.parse ⟨file, line, .importNotLoaded path⟩)) ∧
      ∀ path line, result = .error (.parse ⟨path, line, .importCycle⟩) →
        s.search.Reachable inputs path ∧ TransGen s.search.Imports path path := by
  intro inputs result
  have hresult : result = loadAll s.search inputs := by
    simp [result, inputs, Strategy.read]
  have hr : ∀ path ∈ inputs, Rooted path := by
    intro path hp
    obtain ⟨p, -, rfl⟩ := List.mem_map.1 hp
    exact rooted_absolute _ _
  rw [hresult]
  refine ⟨exists_loadAll_iff hr, fun set hset => ?_, fun path line hcycle => ?_⟩
  · obtain ⟨hinputs, hsorted, hloaded, hreach, -⟩ := loaded_of_loadAll hset
    exact ⟨hinputs, hreach, hsorted, hloaded, fun options file line path =>
      Program.build_ne_notLoaded (checkImports_of_loadAll hset)⟩
  · rw [loadAll] at hcycle
    cases hfold : (inputs.mergeSort (decide <| · ≤ ·)).foldlM
        (fun done path => loadFile s.search s.search.workspace.filePaths done path (baseOf path))
        [] with
    | ok files =>
      rw [hfold] at hcycle
      cases hcycle
    | error e =>
      rw [hfold] at hcycle
      cases hcycle
      obtain ⟨⟨input, hinput, hreach⟩, hpath⟩ := cycle_of_foldlM_loadFile
        (fun p hp => hr p (mem_mergeSort_le.1 hp)) stacked_filePaths hfold
      exact ⟨⟨input, mem_mergeSort_le.1 hinput, hreach⟩, hpath⟩

end ProtoStub.Schema

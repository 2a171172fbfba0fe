import ProtoStub.Proofs.Location
import ProtoStub.Schema.ImportSet
import Mathlib.Data.List.Nodup
import Mathlib.Data.List.Perm.Basic
import Mathlib.Logic.Relation

/-!
# The files that import names stand for

`Search.Named` is the least relation between names and files that holds of the names asked for and
is closed under the imports that are found. `follow` computes it with a list of names still to
follow. `Following` is its invariant: what is done and what is pending together hold of every import
of a file that is done, and every name that can be met is done or free to be met. A step keeps it
(`Following.enter`, `Following.skip`), so a run that succeeds has found the relation, and only a
name that stands for two files stops a run (`follow_spec`).
-/

namespace ProtoStub.Schema

open Text

namespace Search

/-- The file at `path` imports `name`, which is found at `target`. -/
def Mentions (scan : ImportScan) (s : Search) (path name target : String) : Prop :=
  ∃ imp ∈ declaredImports scan s.workspace path, imp.path = name ∧ isBundled name = false ∧
    s.find? (dirOf path) name = some target

/-- The names that are reached from the names `names` of the directory `dir`, each with a file that
it is found at. -/
inductive Named (scan : ImportScan) (s : Search) (dir : String) (names : List String) :
    String → String → Prop
  | asked {name : String} (h : name ∈ names) : Named scan s dir names name (joinPath [dir, name])
  | imported {name path other target : String} (h : Named scan s dir names name path)
    (hm : s.Mentions scan path other target) : Named scan s dir names other target

section
variable {scan : ImportScan} {s : Search} {dir : String} {names names' : List String}
  {name path target : String}

theorem mem_mentions :
    (∃ m ∈ s.mentions scan path, m.name = name ∧ m.path = target) ↔
      s.Mentions scan path name target := by
  simp only [mentions, List.mem_filterMap, Mentions]
  constructor
  · rintro ⟨m, ⟨imp, himp, hm⟩, rfl, rfl⟩
    split at hm
    · cases hm
    · rename_i hb
      obtain ⟨t, ht, rfl⟩ := Option.map_eq_some_iff.1 hm
      exact ⟨imp, himp, rfl, by simpa using hb, ht⟩
  · rintro ⟨imp, himp, rfl, hb, ht⟩
    exact ⟨⟨imp.path, target, path, imp.line⟩, ⟨imp, himp, by simp [hb, ht]⟩, rfl, rfl⟩

/-- What a file imports is imported by a file of the workspace. -/
theorem Mentions.mem_importNames (h : s.Mentions scan path name target) :
    name ∈ importNames scan s.workspace := by
  obtain ⟨imp, himp, rfl, -⟩ := h
  rw [declaredImports] at himp
  split at himp
  · rename_i content hread
    obtain ⟨place, hplace⟩ := Workspace.exists_entry_of_read hread
    exact List.mem_flatMap.2 ⟨_, hplace, List.mem_map_of_mem himp⟩
  · cases himp

/-- A name that is reached was asked for or is imported by a file of the workspace. -/
theorem Named.mem_names (h : s.Named scan dir names name path) :
    name ∈ names ++ importNames scan s.workspace := by
  cases h with
  | asked h => exact List.mem_append_left _ h
  | imported _ hm => exact List.mem_append_right _ hm.mem_importNames

theorem Named.mono (hsub : ∀ n ∈ names, n ∈ names') (h : s.Named scan dir names name path) :
    s.Named scan dir names' name path := by
  induction h with
  | asked h => exact .asked (hsub _ h)
  | imported _ hm ih => exact .imported ih hm

end

/-! ## Following names -/

/-- The name is done or pending, with the file. -/
def Known (pending : List Mention) (done : ImportSet) (name path : String) : Prop :=
  (name, path) ∈ done ∨ ∃ m ∈ pending, m.name = name ∧ m.path = path

/-- What holds while names are followed. -/
structure Following (scan : ImportScan) (s : Search) (dir : String) (names fresh : List String)
    (pending : List Mention) (done : ImportSet) : Prop where
  named : ∀ name path, Known pending done name path → s.Named scan dir names name path
  asked : ∀ name ∈ names, Known pending done name (joinPath [dir, name])
  closed : ∀ x ∈ done, ∀ name target, s.Mentions scan x.2 name target →
    Known pending done name target
  nodup : (done.map (·.1)).Nodup
  free : ∀ name ∈ fresh, name ∉ done.map (·.1)
  covered : ∀ name path, s.Named scan dir names name path → name ∈ fresh ∨ name ∈ done.map (·.1)

namespace Following

variable {scan : ImportScan} {s : Search} {dir : String} {names fresh : List String} {m : Mention}
  {pending : List Mention} {done : ImportSet}

theorem start (scan : ImportScan) (s : Search) (dir : String) (names : List String) :
    s.Following scan dir names (names ++ importNames scan s.workspace)
      (names.map fun n => { name := n, path := joinPath [dir, n] }) [] where
  named name path h := by
    obtain h | ⟨m, hm, rfl, rfl⟩ := h
    · cases h
    · obtain ⟨n, hn, rfl⟩ := List.mem_map.1 hm
      exact .asked hn
  asked name h := .inr ⟨_, List.mem_map_of_mem h, rfl, rfl⟩
  closed x hx := by cases hx
  nodup := .nil
  free name _ h := by cases h
  covered name path h := .inl h.mem_names

/-- A name that is met for the first time is done, and its imports are pending. -/
theorem enter (h : s.Following scan dir names fresh (m :: pending) done) (hm : m.name ∈ fresh) :
    s.Following scan dir names (fresh.filter (· != m.name)) (s.mentions scan m.path ++ pending)
      (done ++ [(m.name, m.path)]) := by
  have hnamed : s.Named scan dir names m.name m.path :=
    h.named _ _ (.inr ⟨m, List.mem_cons_self, rfl, rfl⟩)
  have hknown : ∀ name path, Known (m :: pending) done name path →
      Known (s.mentions scan m.path ++ pending) (done ++ [(m.name, m.path)]) name path := by
    rintro name path (hd | ⟨m', hm', rfl, rfl⟩)
    · exact .inl (List.mem_append_left _ hd)
    · rcases List.mem_cons.1 hm' with rfl | hm'
      · exact .inl (by simp)
      · exact .inr ⟨m', List.mem_append_right _ hm', rfl, rfl⟩
  refine ⟨?named, ?asked, ?closed, ?nodup, ?free, ?covered⟩
  case named =>
    rintro name path (hd | ⟨m', hm', rfl, rfl⟩)
    · rcases List.mem_append.1 hd with hd | hd
      · exact h.named _ _ (.inl hd)
      · cases List.mem_singleton.1 hd
        exact hnamed
    · rcases List.mem_append.1 hm' with hm' | hm'
      · exact .imported hnamed (mem_mentions.1 ⟨m', hm', rfl, rfl⟩)
      · exact h.named _ _ (.inr ⟨m', List.mem_cons_of_mem _ hm', rfl, rfl⟩)
  case asked => exact fun name hn => hknown _ _ (h.asked name hn)
  case closed =>
    intro x hx name target ht
    rcases List.mem_append.1 hx with hx | hx
    · exact hknown _ _ (h.closed x hx name target ht)
    · rw [List.mem_singleton.1 hx] at ht
      obtain ⟨m', hm', hn, hp⟩ := mem_mentions.2 ht
      exact .inr ⟨m', List.mem_append_left _ hm', hn, hp⟩
  case nodup =>
    rw [List.map_append, List.nodup_append]
    refine ⟨h.nodup, List.nodup_singleton _, ?_⟩
    rintro a ha b hb rfl
    rw [List.map_singleton, List.mem_singleton] at hb
    exact h.free _ hm (by simpa [hb] using ha)
  case free =>
    intro name hn hd
    obtain ⟨hn, hne⟩ := List.mem_filter.1 hn
    rw [List.map_append, List.mem_append, List.map_singleton, List.mem_singleton] at hd
    rcases hd with hd | rfl
    · exact h.free name hn hd
    · simp at hne
  case covered =>
    intro name path hn
    rw [List.map_append, List.mem_append, List.map_singleton, List.mem_singleton]
    rcases h.covered name path hn with hf | hd
    · by_cases hne : name = m.name
      · exact .inr (.inr hne)
      · exact .inl (List.mem_filter.2 ⟨hf, by simpa using hne⟩)
    · exact .inr (.inl hd)

/-- A name that is done with the same file is left out. -/
theorem skip (h : s.Following scan dir names fresh (m :: pending) done)
    (hm : (m.name, m.path) ∈ done) : s.Following scan dir names fresh pending done := by
  have hknown : ∀ name path, Known (m :: pending) done name path →
      Known pending done name path := by
    rintro name path (hd | ⟨m', hm', rfl, rfl⟩)
    · exact .inl hd
    · rcases List.mem_cons.1 hm' with rfl | hm'
      · exact .inl hm
      · exact .inr ⟨m', hm', rfl, rfl⟩
  refine ⟨fun name path hk => ?_, fun name hn => hknown _ _ (h.asked name hn),
    fun x hx name target ht => hknown _ _ (h.closed x hx name target ht), h.nodup, h.free,
    h.covered⟩
  obtain hd | ⟨m', hm', hn, hp⟩ := hk
  · exact h.named _ _ (.inl hd)
  · exact h.named _ _ (.inr ⟨m', List.mem_cons_of_mem _ hm', hn, hp⟩)

/-- With nothing pending, what is done is what is reached. -/
theorem mem_iff (h : s.Following scan dir names fresh [] done) {name path : String} :
    (name, path) ∈ done ↔ s.Named scan dir names name path := by
  have hdone : ∀ name path, Known [] done name path → (name, path) ∈ done := by
    rintro name path (hd | ⟨m, hm, -⟩)
    · exact hd
    · cases hm
  constructor
  · exact fun hd => h.named _ _ (.inl hd)
  · intro hn
    induction hn with
    | asked hn => exact hdone _ _ (h.asked _ hn)
    | imported _ hm ih => exact hdone _ _ (h.closed _ ih _ _ hm)

/-- A name that is pending and not free is done. -/
theorem exists_lookup (h : s.Following scan dir names fresh (m :: pending) done)
    (hm : m.name ∉ fresh) : ∃ earlier, done.lookup m.name = some earlier := by
  have hnamed := h.named _ _ (.inr ⟨m, List.mem_cons_self, rfl, rfl⟩)
  obtain ⟨x, hx, hname⟩ := List.mem_map.1 ((h.covered _ _ hnamed).resolve_left hm)
  cases hl : done.lookup m.name with
  | some earlier => exact ⟨earlier, rfl⟩
  | none => exact absurd hname.symm (by simpa using List.lookup_eq_none_iff.1 hl x hx)

end Following

end Search

open Search

section
variable {scan : ImportScan} {s : Search} {dir : String} {names fresh : List String}
  {pending : List Mention} {done out : ImportSet}

/-- The error is that of a name that is reached at two files. -/
def Search.Ambiguous (scan : ImportScan) (s : Search) (dir : String) (names : List String)
    (e : Error) : Prop :=
  ∃ (m : Mention) (earlier : String), e = m.conflict earlier ∧ earlier ≠ m.path ∧
    s.Named scan dir names m.name m.path ∧ s.Named scan dir names m.name earlier

/-- A run ends with nothing pending, or at a name that is reached at two files. -/
theorem follow_spec (h : s.Following scan dir names fresh pending done) :
    match follow scan s fresh pending done with
    | .ok out => ∃ fresh', s.Following scan dir names fresh' [] out
    | .error e => s.Ambiguous scan dir names e := by
  fun_induction follow scan s fresh pending done with
  | case1 fresh done => exact ⟨fresh, h⟩
  | case2 fresh done m rest hm hless ih =>
    simp only [List.unattach_filter, List.unattach_attach] at ih
    exact ih (h.enter hm)
  | case3 fresh done m rest hm hl ih =>
    obtain ⟨earlier, he⟩ := h.exists_lookup hm
    cases hl.symm.trans he
  | case4 fresh done m rest hm earlier hl hsame ih =>
    have hpath : earlier = m.path := by simpa using hsame
    exact ih (h.skip (hpath ▸ mem_of_lookup hl))
  | case5 fresh done m rest hm earlier hl hsame =>
    exact ⟨m, earlier, rfl, by simpa using hsame,
      h.named _ _ (.inr ⟨m, List.mem_cons_self, rfl, rfl⟩), h.named _ _ (.inl (mem_of_lookup hl))⟩

end

section
variable {scan : ImportScan} {s : Search} {dir : String} {names : List String} {set : ImportSet}

/-- A failure is that of a name that is reached at two files. -/
theorem ambiguous_of_resolveImports {e : Error} (h : resolveImports scan s dir names = .error e) :
    s.Ambiguous scan dir names e := by
  have hspec := follow_spec (.start scan s dir names)
  rw [resolveImports] at h
  rwa [h] at hspec

/-- The names that are found stand once each, with the files they are reached at. -/
theorem named_of_resolveImports (h : resolveImports scan s dir names = .ok set) :
    (set.map (·.1)).Nodup ∧ (∀ name path, (name, path) ∈ set ↔ s.Named scan dir names name path) ∧
      ∀ name path, set.path? name = some path ↔ s.Named scan dir names name path := by
  have hspec := follow_spec (.start scan s dir names)
  rw [resolveImports] at h
  rw [h] at hspec
  obtain ⟨fresh, hdone⟩ := hspec
  refine ⟨hdone.nodup, fun name path => hdone.mem_iff, fun name path => ?_⟩
  rw [← hdone.mem_iff]
  exact ⟨mem_of_lookup, lookup_eq_of_mem hdone.nodup⟩

/-- Names are found exactly when each is reached at one file. -/
theorem exists_resolveImports_iff : (∃ set, resolveImports scan s dir names = .ok set) ↔
    ∀ name path path', s.Named scan dir names name path → s.Named scan dir names name path' →
      path = path' := by
  constructor
  · rintro ⟨set, h⟩ name path path' hp hp'
    obtain ⟨-, -, hlookup⟩ := named_of_resolveImports h
    exact Option.some.inj (((hlookup _ _).2 hp).symm.trans ((hlookup _ _).2 hp'))
  · intro hone
    cases h : resolveImports scan s dir names with
    | ok set => exact ⟨set, rfl⟩
    | error e =>
      obtain ⟨m, earlier, -, hne, hm, he⟩ := ambiguous_of_resolveImports h
      exact absurd (hone _ _ _ he hm) hne

end

/-- Following the imports of names succeeds exactly when every name that is reached stands for one
file, and then gives each such name once, with its file. A failure names two files that one name is
reached at. Neither success nor the names and files found depend on the order of the names asked
for, or on how often each is. -/
theorem resolveImports_iff_functional (scan : ImportScan) (s : Search) (dir : String)
    (names : List String) :
    ((∃ set, resolveImports scan s dir names = .ok set) ↔
        ∀ name path path', s.Named scan dir names name path → s.Named scan dir names name path' →
          path = path') ∧
      (∀ set, resolveImports scan s dir names = .ok set →
        (set.map (·.1)).Nodup ∧
        (∀ name path, (name, path) ∈ set ↔ s.Named scan dir names name path) ∧
        ∀ name path, set.path? name = some path ↔ s.Named scan dir names name path) ∧
      (∀ e, resolveImports scan s dir names = .error e → s.Ambiguous scan dir names e) ∧
      ∀ names', (∀ name, name ∈ names' ↔ name ∈ names) →
        ((∃ set, resolveImports scan s dir names' = .ok set) ↔
          ∃ set, resolveImports scan s dir names = .ok set) ∧
        ∀ set set', resolveImports scan s dir names = .ok set →
          resolveImports scan s dir names' = .ok set' →
          set'.Perm set ∧ ∀ name, set'.path? name = set.path? name := by
  refine ⟨exists_resolveImports_iff, fun set h => named_of_resolveImports h,
    fun e h => ambiguous_of_resolveImports h, fun names' hnames => ?_⟩
  have hnamed : ∀ name path, s.Named scan dir names' name path ↔ s.Named scan dir names name path :=
    fun name path => ⟨.mono fun n => (hnames n).1, .mono fun n => (hnames n).2⟩
  constructor
  · simp only [exists_resolveImports_iff, hnamed]
  · intro set set' h h'
    obtain ⟨hnodup, hmem, hlookup⟩ := named_of_resolveImports h
    obtain ⟨hnodup', hmem', hlookup'⟩ := named_of_resolveImports h'
    constructor
    · refine (List.perm_ext_iff_of_nodup hnodup'.of_map hnodup.of_map).2 fun x => ?_
      rw [hmem', hmem, hnamed]
    · intro name
      refine Option.ext fun path => ?_
      rw [hlookup', hlookup, hnamed]

end ProtoStub.Schema

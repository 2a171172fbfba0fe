import ProtoStub.Proofs.ImportNames
import ProtoStub.Proofs.Loading

/-!
# Files read as text and files found by name

Reading files as text and following import names walk the same graph from opposite ends: the first
resolves the imports of one file after another, the second asks for the names of a directory. When a
file's imports come out alike either way, a file is reached by the one exactly when it is reached by
the other (`named_iff_reachable`), and an import that is resolved to a file is the name of that
file.
-/

namespace ProtoStub

open Text

/-- The groups of some paths are their directories, each with the last names of the paths in it. -/
theorem mem_groupByDirectory {paths : List String} {g : String × List String} :
    g ∈ groupByDirectory paths ↔ (∃ path ∈ paths, dirOf path = g.1) ∧
      g.2 = (paths.filter (dirOf · == g.1)).map baseOf := by
  have hdirs : ∀ dir, dir ∈ ascending (paths.map dirOf).eraseDups ↔
      ∃ path ∈ paths, dirOf path = dir := by
    intro dir
    rw [ascending, (List.mergeSort_perm _ _).mem_iff, List.mem_eraseDups, List.mem_map]
  obtain ⟨dir, names⟩ := g
  simp only [groupByDirectory, List.mem_map, hdirs, Prod.mk.injEq]
  constructor
  · rintro ⟨dir, hdir, rfl, rfl⟩
    exact ⟨hdir, rfl⟩
  · rintro ⟨hdir, rfl⟩
    exact ⟨dir, hdir, rfl, rfl⟩

namespace Schema

open Relation (ReflTransGen TransGen)

namespace Search

/-- The imports that the file at `path` declares are those that it has when it is read as text. -/
def ScansAlike (scan : ImportScan) (s : Search) (path : String) : Prop :=
  ∀ parsed, s.Reads path parsed → ∀ name,
    (∃ imp ∈ declaredImports scan s.workspace path, imp.path = name) ↔
      ∃ imp ∈ parsed.file.imports, imp.path = name

section
variable {scan : ImportScan} {s : Search} {inputs : List String} {path target : String}

/-- An import is found under its name. -/
theorem exists_mentions_iff (h : s.ScansAlike scan path) {parsed : Parsed}
    (hreads : s.Reads path parsed) {name : String} :
    s.Mentions scan path name target ↔ ∃ imp ∈ parsed.file.imports, imp.path = name ∧
      isBundled name = false ∧ s.find? (dirOf path) name = some target := by
  constructor
  · rintro ⟨imp, himp, hname, hb, ht⟩
    obtain ⟨imp', himp', hname'⟩ := (h parsed hreads name).1 ⟨imp, himp, hname⟩
    exact ⟨imp', himp', hname', hb, ht⟩
  · rintro ⟨imp, himp, hname, hb, ht⟩
    obtain ⟨imp', himp', hname'⟩ := (h parsed hreads name).2 ⟨imp, himp, hname⟩
    exact ⟨imp', himp', hname', hb, ht⟩

/-- A file is imported when it is found under some name. -/
theorem imports_iff_mentions (h : s.ScansAlike scan path) {parsed : Parsed}
    (hreads : s.Reads path parsed) :
    s.Imports path target ↔ ∃ name, s.Mentions scan path name target := by
  simp only [exists_mentions_iff h hreads]
  constructor
  · rintro ⟨parsed', hreads', imp, himp, hb, ht⟩
    cases hreads.unique hreads'
    exact ⟨imp.path, imp, himp, rfl, hb, ht⟩
  · rintro ⟨name, imp, himp, rfl, hb, ht⟩
    exact ⟨parsed, hreads, imp, himp, hb, ht⟩

/-- The names of a group are those of the inputs in its directory. -/
theorem mem_group {g : String × List String} (hg : g ∈ groupByDirectory inputs)
    (hr : ∀ input ∈ inputs, Rooted input ∧ input ≠ "/") :
    ∀ name ∈ g.2, joinPath [g.1, name] ∈ inputs := by
  obtain ⟨-, hnames⟩ := mem_groupByDirectory.1 hg
  intro name hname
  rw [hnames] at hname
  obtain ⟨input, hinput, rfl⟩ := List.mem_map.1 hname
  obtain ⟨hinput, hdir⟩ := List.mem_filter.1 hinput
  obtain ⟨hrooted, hne⟩ := hr input hinput
  have hdir' : dirOf input = g.1 := by simpa using hdir
  rw [← hdir', hrooted.joinPath_dirOf_baseOf hne]
  exact hinput

/-- An input is asked for in the group of its directory. -/
theorem exists_group (hr : ∀ input ∈ inputs, Rooted input ∧ input ≠ "/") {input : String}
    (hinput : input ∈ inputs) :
    ∃ g ∈ groupByDirectory inputs, s.Named scan g.1 g.2 (baseOf input) input := by
  refine ⟨(dirOf input, (inputs.filter (dirOf · == dirOf input)).map baseOf),
    mem_groupByDirectory.2 ⟨⟨input, hinput, rfl⟩, rfl⟩, ?_⟩
  have hname : baseOf input ∈ (inputs.filter (dirOf · == dirOf input)).map baseOf :=
    List.mem_map_of_mem (List.mem_filter.2 ⟨hinput, by simp⟩)
  have hnamed : s.Named scan (dirOf input) ((inputs.filter (dirOf · == dirOf input)).map baseOf)
      (baseOf input) (joinPath [dirOf input, baseOf input]) := .asked hname
  rwa [(hr input hinput).1.joinPath_dirOf_baseOf (hr input hinput).2] at hnamed

/-- A file is reached from the inputs exactly when a name of one of their groups leads to it. -/
theorem exists_named_iff_reachable (hr : ∀ input ∈ inputs, Rooted input ∧ input ≠ "/")
    (hread : ∀ path, s.Reachable inputs path → ∃ parsed, s.Reads path parsed)
    (hscan : ∀ path, s.Reachable inputs path → s.ScansAlike scan path) :
    (∃ g ∈ groupByDirectory inputs, ∃ name, s.Named scan g.1 g.2 name path) ↔
      s.Reachable inputs path := by
  constructor
  · rintro ⟨g, hg, name, hnamed⟩
    induction hnamed with
    | asked hname => exact ⟨_, mem_group hg hr _ hname, .refl⟩
    | imported _ hm ih =>
      obtain ⟨parsed, hreads⟩ := hread _ ih
      have hedge := (imports_iff_mentions (hscan _ ih) hreads).2 ⟨_, hm⟩
      obtain ⟨input, hinput, hpath⟩ := ih
      exact ⟨input, hinput, hpath.tail hedge⟩
  · rintro ⟨input, hinput, hpath⟩
    induction hpath with
    | refl =>
      obtain ⟨g, hg, hnamed⟩ := exists_group hr hinput
      exact ⟨g, hg, _, hnamed⟩
    | tail hpath hedge ih =>
      obtain ⟨g, hg, name, hnamed⟩ := ih
      have hreach : s.Reachable inputs _ := ⟨input, hinput, hpath⟩
      obtain ⟨parsed, hreads⟩ := hread _ hreach
      obtain ⟨other, hm⟩ := (imports_iff_mentions (hscan _ hreach) hreads).1 hedge
      exact ⟨g, hg, other, hnamed.imported hm⟩

end

end Search

/-- When files are read as text, and following the names of each directory of inputs succeeds, and
both take the same imports from every file, then the files read are those that the names of some
directory stand for; and in each directory's names, an import of a file that is reached from there
stands for the file it was resolved to when it was read. -/
theorem read_text_agrees_with_names {scan : ImportScan} {s : Surroundings} {paths : List String}
    {set : FileSet}
    (htext : (Strategy.text.read { s with cancelled := false } paths).result = .ok set)
    (hnames : ∀ g ∈ groupByDirectory (paths.map s.search.workspace.absolute),
      ∃ names, resolveImports scan s.search g.1 g.2 = .ok names)
    (hscan : ∀ f ∈ set.files, s.search.ScansAlike scan f.path) :
    (∀ path, path ∈ set.files.map (·.path) ↔
      ∃ g ∈ groupByDirectory (paths.map s.search.workspace.absolute), ∃ names,
        resolveImports scan s.search g.1 g.2 = .ok names ∧ path ∈ names.map (·.2)) ∧
    ∀ g ∈ groupByDirectory (paths.map s.search.workspace.absolute), ∀ names,
      resolveImports scan s.search g.1 g.2 = .ok names → ∀ f ∈ set.files,
        f.path ∈ names.map (·.2) → ∀ imp ∈ f.imports, isBundled imp.path = false →
          names.path? imp.path = some imp.resolved := by
  have hload := loadAll_of_read htext
  obtain ⟨-, -, hloaded, hreach, -⟩ := loaded_of_loadAll hload
  have hread : ∀ path, s.search.Reachable (paths.map s.search.workspace.absolute) path →
      ∃ parsed, s.search.Reads path parsed := by
    intro path hp
    obtain ⟨f, hf, rfl⟩ := List.mem_map.1 ((hreach path).2 hp)
    obtain ⟨parsed, -, hreads, -⟩ := hloaded f hf
    exact ⟨parsed, hreads⟩
  have hscan' : ∀ path, s.search.Reachable (paths.map s.search.workspace.absolute) path →
      s.search.ScansAlike scan path := by
    intro path hp
    obtain ⟨f, hf, rfl⟩ := List.mem_map.1 ((hreach path).2 hp)
    exact hscan f hf
  have hr : ∀ input ∈ paths.map s.search.workspace.absolute, Rooted input ∧ input ≠ "/" := by
    intro input hinput
    obtain ⟨parsed, content, hcontent, -⟩ := hread input ⟨input, hinput, .refl⟩
    obtain ⟨path, -, rfl⟩ := List.mem_map.1 hinput
    exact ⟨rooted_absolute _ _, Workspace.ne_root_of_read hcontent⟩
  constructor
  · intro path
    rw [hreach, ← Search.exists_named_iff_reachable hr hread hscan']
    refine exists_congr fun g => and_congr_right fun hg => ?_
    obtain ⟨names, hresolved⟩ := hnames g hg
    obtain ⟨-, hmem, -⟩ := named_of_resolveImports hresolved
    simp only [hresolved, Except.ok.injEq, exists_eq_left', List.mem_map, Prod.exists, hmem,
      exists_eq_right]
  · intro g hg names hresolved f hf hpath imp himp hb
    obtain ⟨-, hmem, hlookup⟩ := named_of_resolveImports hresolved
    obtain ⟨⟨name, path⟩, hx, rfl⟩ := List.mem_map.1 hpath
    obtain ⟨parsed, hreads, imp', himp', hname, hfound⟩ := (hloaded f hf).find?_of_import himp hb
    refine (hlookup _ _).2 (((hmem _ _).1 hx).imported ?_)
    exact (Search.exists_mentions_iff (hscan f hf) hreads).2 ⟨imp', himp', hname, hb, hfound⟩

/-! ### Two directories that share an import -/

/-- A workspace with two directories, each with a file that imports a file of the first. -/
def sharedImport : Surroundings where
  search :=
    { workspace :=
        { cwd := "/w"
          entries :=
            [(["w"], .directory), (["w", "sub"], .directory),
              (["w", "a.proto"], .file (bytesOf
                "syntax = \"proto3\"; import \"b.proto\"; message A \x7b B b = 1; \x7d")),
              (["w", "b.proto"], .file (bytesOf "syntax = \"proto3\"; message B \x7b\x7d")),
              (["w", "sub", "c.proto"], .file (bytesOf
                ("syntax = \"proto3\"; import \"b.proto\"; " ++
                  "import \"google/protobuf/any.proto\";")))] }
      roots := ["/w"] }

/-- The names that a file imports, when it can be read. -/
def Search.importsRead (s : Search) (path : String) : Option (List String) :=
  (s.parse? path).map fun p => p.file.imports.map (·.path)

theorem Search.exists_reads {s : Search} {path : String} {names : List String}
    (h : s.importsRead path = some names) :
    ∃ parsed, s.Reads path parsed ∧ parsed.file.imports.map (·.path) = names := by
  obtain ⟨parsed, hparse, hnames⟩ := Option.map_eq_some_iff.1 h
  exact ⟨parsed, parse?_eq_some_iff.1 hparse, hnames⟩

theorem Search.scansAlike_of_importsRead {scan : ImportScan} {s : Search} {path : String}
    {names : List String} (h : s.importsRead path = some names)
    (hdeclared : (declaredImports scan s.workspace path).map (·.path) = names) :
    s.ScansAlike scan path := by
  obtain ⟨parsed, hreads, hnames⟩ := exists_reads h
  intro parsed' hreads' name
  cases hreads.unique hreads'
  rw [← List.mem_map (f := Definition.Import.path), ← List.mem_map (f := Import.path), hdeclared,
    hnames]

theorem Search.imports_of_importsRead {s : Search} {path target : String} {names : List String}
    (h : s.importsRead path = some names) (hi : s.Imports path target) :
    ∃ name ∈ names, isBundled name = false ∧ s.find? (dirOf path) name = some target := by
  obtain ⟨parsed, hreads, rfl⟩ := exists_reads h
  obtain ⟨parsed', hreads', imp, himp, hb, ht⟩ := hi
  cases hreads.unique hreads'
  exact ⟨imp.path, List.mem_map_of_mem himp, hb, ht⟩

/-- The files of the workspace with the names they import. -/
def sharedImportTable : List (String × List String) :=
  [("/w/a.proto", ["b.proto"]), ("/w/b.proto", []),
    ("/w/sub/c.proto", ["b.proto", "google/protobuf/any.proto"])]

theorem sharedImport_reads : ∀ x ∈ sharedImportTable,
    sharedImport.search.importsRead x.1 = some x.2 ∧
      (declaredImports Definition.importsOf sharedImport.search.workspace x.1).map (·.path) = x.2 ∧
      ∀ name ∈ x.2, isBundled name = false → name = "b.proto" ∧
        sharedImport.search.find? (dirOf x.1) name = some "/w/b.proto" := by
  decide +kernel

/-- Every import leads to the shared file. -/
theorem sharedImport_imports {x : String × List String} (hx : x ∈ sharedImportTable)
    {target : String} (h : sharedImport.search.Imports x.1 target) : target = "/w/b.proto" := by
  obtain ⟨hread, -, hfind⟩ := sharedImport_reads x hx
  obtain ⟨name, hname, hb, ht⟩ := Search.imports_of_importsRead hread h
  exact Option.some.inj (ht.symm.trans (hfind name hname hb).2)

theorem sharedImport_reachable {path : String}
    (h : sharedImport.search.Reachable ["/w/a.proto", "/w/sub/c.proto"] path) :
    ∃ x ∈ sharedImportTable, x.1 = path := by
  obtain ⟨input, hinput, hpath⟩ := h
  induction hpath with
  | refl => revert input; decide
  | tail _ hedge ih =>
    obtain ⟨x, hx, rfl⟩ := ih
    exact ⟨("/w/b.proto", []), by decide, (sharedImport_imports hx hedge).symm⟩

theorem sharedImport_loadable :
    sharedImport.search.Loadable ["/w/a.proto", "/w/sub/c.proto"] := by
  have hlast : ∀ target, ¬ sharedImport.search.Imports "/w/b.proto" target := by
    intro target hedge
    obtain ⟨name, hname, -⟩ := Search.imports_of_importsRead
      (sharedImport_reads ("/w/b.proto", []) (by decide)).1 hedge
    cases hname
  refine ⟨fun path hp => ?_, fun path parsed hp hreads imp himp hb => ?_, fun path hp hcycle => ?_⟩
  · obtain ⟨x, hx, rfl⟩ := sharedImport_reachable hp
    obtain ⟨parsed, hreads, -⟩ := Search.exists_reads (sharedImport_reads x hx).1
    exact ⟨parsed, hreads⟩
  · obtain ⟨x, hx, rfl⟩ := sharedImport_reachable hp
    obtain ⟨hread, -, hfind⟩ := sharedImport_reads x hx
    obtain ⟨parsed', hreads', hnames⟩ := Search.exists_reads hread
    cases hreads.unique hreads'
    exact ⟨_, (hfind imp.path (hnames ▸ List.mem_map_of_mem himp) hb).2⟩
  · obtain ⟨x, hx, rfl⟩ := sharedImport_reachable hp
    obtain ⟨target, hback, hlast'⟩ := TransGen.head'_iff.1 hcycle
    rw [sharedImport_imports hx hback] at hlast'
    rcases ReflTransGen.cases_head hlast' with he | ⟨target', he, -⟩
    · exact hlast _ (he ▸ hback)
    · exact hlast _ he

/-- Every name stands for one file. -/
theorem sharedImport_named {dir : String} {names : List String}
    (hnames : ∀ name ∈ names, (dir, name) ∈ [("/w", "a.proto"), ("/w/sub", "c.proto")])
    {name path : String} (h : sharedImport.search.Named Definition.importsOf dir names name path) :
    (name, path) ∈
      [("a.proto", "/w/a.proto"), ("b.proto", "/w/b.proto"), ("c.proto", "/w/sub/c.proto")] := by
  induction h with
  | asked hname =>
    have hjoin : ∀ x ∈ [("/w", "a.proto"), ("/w/sub", "c.proto")], (x.2, joinPath [x.1, x.2]) ∈
      [("a.proto", "/w/a.proto"), ("b.proto", "/w/b.proto"), ("c.proto", "/w/sub/c.proto")] := by
      decide +kernel
    exact hjoin _ (hnames _ hname)
  | imported _ hm ih =>
    have htable : ∀ x ∈
        [("a.proto", "/w/a.proto"), ("b.proto", "/w/b.proto"), ("c.proto", "/w/sub/c.proto")],
        ∃ y ∈ sharedImportTable, y.1 = x.2 := by decide
    obtain ⟨x, hx, rfl⟩ := htable _ ih
    obtain ⟨-, hdeclared, hfind⟩ := sharedImport_reads x hx
    obtain ⟨imp, himp, rfl, hb, ht⟩ := hm
    obtain ⟨hname, hfound⟩ := hfind _ (hdeclared ▸ List.mem_map_of_mem himp) hb
    cases ht.symm.trans hfound
    rw [hname]
    decide

/-- The files that are read are those that the names of the two directories stand for. -/
theorem read_text_agrees_with_names_shared :
    ∃ set, (Strategy.text.read sharedImport ["a.proto", "sub/c.proto"]).result = .ok set ∧
      (∀ g ∈ groupByDirectory (["a.proto", "sub/c.proto"].map
          sharedImport.search.workspace.absolute),
        ∃ names, resolveImports Definition.importsOf sharedImport.search g.1 g.2 = .ok names) ∧
      (∀ f ∈ set.files, sharedImport.search.ScansAlike Definition.importsOf f.path) ∧
      ∀ path, path ∈ set.files.map (·.path) ↔
        ∃ g ∈ groupByDirectory (["a.proto", "sub/c.proto"].map
            sharedImport.search.workspace.absolute), ∃ names,
          resolveImports Definition.importsOf sharedImport.search g.1 g.2 = .ok names ∧
            path ∈ names.map (·.2) := by
  have hinputs : ["a.proto", "sub/c.proto"].map sharedImport.search.workspace.absolute =
      ["/w/a.proto", "/w/sub/c.proto"] := by decide +kernel
  have hrooted : ∀ input ∈ ["/w/a.proto", "/w/sub/c.proto"], Rooted input := by
    intro input hinput
    obtain ⟨path, -, rfl⟩ := List.mem_map.1 (hinputs ▸ hinput)
    exact rooted_absolute _ _
  obtain ⟨set, hset⟩ := (exists_loadAll_iff hrooted).2 sharedImport_loadable
  obtain ⟨-, -, -, hreach, -⟩ := loaded_of_loadAll hset
  have htext : (Strategy.text.read { sharedImport with cancelled := false }
      ["a.proto", "sub/c.proto"]).result = .ok set := by
    simpa [Strategy.read, hinputs] using hset
  have hgroups : ∀ g ∈ groupByDirectory (["a.proto", "sub/c.proto"].map
      sharedImport.search.workspace.absolute),
      ∃ names, resolveImports Definition.importsOf sharedImport.search g.1 g.2 = .ok names := by
    intro g hg
    rw [exists_resolveImports_iff]
    have hnames : ∀ name ∈ g.2,
        (g.1, name) ∈ [("/w", "a.proto"), ("/w/sub", "c.proto")] := by
      obtain ⟨⟨path, hpath, hdir⟩, hnames⟩ := mem_groupByDirectory.1 hg
      rw [hnames, ← hdir]
      rw [hinputs] at hpath ⊢
      clear hdir
      revert path
      decide +kernel
    have hone : ∀ x ∈
        [("a.proto", "/w/a.proto"), ("b.proto", "/w/b.proto"), ("c.proto", "/w/sub/c.proto")],
        ∀ y ∈ [("a.proto", "/w/a.proto"), ("b.proto", "/w/b.proto"), ("c.proto", "/w/sub/c.proto")],
        x.1 = y.1 → x.2 = y.2 := by decide
    exact fun name path path' hp hp' =>
      hone _ (sharedImport_named hnames hp) _ (sharedImport_named hnames hp') rfl
  have hscan : ∀ f ∈ set.files, sharedImport.search.ScansAlike Definition.importsOf f.path := by
    intro f hf
    obtain ⟨x, hx, hpath⟩ := sharedImport_reachable ((hreach f.path).1 (List.mem_map_of_mem hf))
    obtain ⟨hread, hdeclared, -⟩ := sharedImport_reads x hx
    exact hpath ▸ Search.scansAlike_of_importsRead hread hdeclared
  exact ⟨set, htext, hgroups, hscan, (read_text_agrees_with_names htext hgroups hscan).1⟩

end Schema

end ProtoStub

import ProtoStub.Proofs.Walking
import Mathlib

/-!
# Text and descriptors agree

Reading the text of files and walking their descriptors come to the same raw model, apart from lines
and the spelling of types, and to the same program (`visitAll_agrees_with_text`). The samples show
that no condition can be left out (`walk_differs_from_text`). The program reads the type of a
procedure as a scalar when it is called like one. It takes a well-known name for the well-known type
in every scope. It passes over a bundled type that is not well-known to a type of that name further
out. And a file has no name of its own below a directory whose name starts with two dots.

The samples are read and built by `cbv`, which needs the equations of the whole library.
-/

namespace ProtoStub

open Schema (FileSet Spelled)

/-- Let all files that are read from text lie below a root, on a way that does not start with two
dots, and let a family of descriptors describe them. Then walking it gives the same files, with each
type other than the scalars of fields spelled by the full name that it is linked to, and in the same
order once they are sorted. Where all references are clear, the same program is built from both or
from neither. -/
theorem visitAll_agrees_with_text {s : Surroundings} {paths : List String} {set : FileSet}
    {family : Descriptor.Family} {bundled : Nat → String → Prop} {names : List String}
    (htext : (Strategy.text.read s paths).result = .ok set)
    (hbelow : ∀ f ∈ set.files, ∃ first,
      s.search.Below first f.path ∧ Text.startsWith first ".." = false)
    (hsearch : family.search = s.search) (hfamily : family.Mirrors bundled set names) :
    ∃ files, Descriptor.visitAll family names = .ok files ∧
      set.Respells (fun k use scope => Spelled (set.LinksTo bundled k scope) use)
        (.ofFiles files set.inputs) ∧
      (set.AllClear bundled → ∀ options p,
        Program.build (.ofFiles files set.inputs) options = .ok p ↔
          Program.build set options = .ok p) := by
  have hset := Schema.loadAll_of_read htext
  obtain ⟨-, hsorted, -⟩ := Schema.loaded_of_loadAll hset
  obtain ⟨files, hfiles, hnodup, hpaths, hwalked⟩ :=
    Descriptor.exists_visitAll hset hbelow hfamily hsearch
  have hrespells := FileSet.respells_of_paths hsorted hnodup hpaths hwalked
  refine ⟨files, hfiles, hrespells, fun hclear options p => ?_⟩
  refine Program.build_respells hrespells fun d hd k f hk use scope ref ref' href hspelled => ?_
  have hdots := Schema.dot_notMem_of_loadAll hset
  have hcase := hclear k f hk use scope ref href
  cases hspelled with
  | scalar => exact fun type => Iff.rfl
  | field hw hl =>
    obtain ⟨-, hc⟩ := hcase.resolve_left (by simp [hw])
    exact hd.resolveAlike_of_linksTo hdots hw hl hc
  | procedure hl =>
    obtain ⟨hw, hc⟩ := hcase.resolve_left (by simp)
    exact hd.resolveAlike_of_linksTo hdots hw hl hc

/-! ### Samples -/

/-- The set is read from text, all its files lie below a root, and the family describes them. -/
structure Described (s : Surroundings) (paths : List String) (set : FileSet)
    (family : Descriptor.Family) (bundled : Nat → List String) (names : List String) : Prop where
  read : (Strategy.text.read s paths).result = .ok set
  below : ∀ f ∈ set.files, ∃ first, s.search.Below first f.path
  search : family.search = s.search
  mirrors : family.Mirrors (fun k name => name ∈ bundled k) set names

/-- The directory `/w` with these directories and files in it, seen from there and with itself as
the only root. -/
def rootedAt (directories : List String) (files : List (List String × String)) : Surroundings where
  search :=
    { workspace :=
        { cwd := "/w"
          entries :=
            (["w"], .directory) :: directories.map (fun name => (["w", name], .directory)) ++
            files.map fun (place, text) => ("w" :: place, .file (Text.bytesOf text)) }
      roots := ["/w"] }

/-- What lies in the directory lies below the root. -/
theorem below_rootedAt {directories : List String} {files : List (List String × String)}
    {path : String} (first : String) (rest : List String)
    (hnames : ∀ name ∈ first :: rest, IsName name)
    (hpath : path = Workspace.pathOf ("w" :: first :: rest)) :
    (rootedAt directories files).search.Below first path := by
  have hroot : absolute "/w" "/w" = Workspace.pathOf ["w"] := by decide +kernel
  refine ⟨"/w", List.mem_singleton_self _, ["w"], rest, ?_, hroot, hpath⟩
  intro name hname
  rcases List.mem_cons.1 hname with rfl | hname
  · decide
  · exact hnames name hname

/-- Files in ascending order stay as they are. -/
theorem ofFiles_of_pairwise {files : List Schema.File} (h : files.Pairwise (·.path ≤ ·.path))
    (inputs : List String) : FileSet.ofFiles files inputs = ⟨files, inputs⟩ := by
  rw [FileSet.ofFiles, List.mergeSort_of_pairwise (h.imp fun hab => decide_eq_true hab)]

/-- Files that are loaded one after another in the order of their paths are read so. -/
theorem read_of_foldlM {s : Surroundings} {paths : List String} {set : FileSet}
    (sorted : List String)
    (hcancelled : s.cancelled = false)
    (hinputs : paths.map s.search.workspace.absolute = set.inputs)
    (hperm : set.inputs.Perm sorted) (hsorted : sorted.Pairwise (· ≤ ·))
    (hload : sorted.foldlM (fun done path =>
      Schema.loadFile s.search s.search.workspace.filePaths done path (baseOf path)) [] =
        .ok set.files)
    (hfiles : set.files.Pairwise (·.path ≤ ·.path)) :
    (Strategy.text.read s paths).result = .ok set := by
  have hsort : set.inputs.mergeSort (decide <| · ≤ ·) = sorted := by
    have hascending : (set.inputs.mergeSort (decide <| · ≤ ·)).Pairwise (· ≤ ·) :=
      Schema.pairwise_mergeSort_le id set.inputs
    exact ((List.mergeSort_perm _ _).trans hperm).eq_of_pairwise' hascending hsorted
  simp only [Strategy.read, hcancelled, hinputs]
  rw [if_neg (by simp), Schema.loadAll, hsort, hload]
  exact congrArg Except.ok (ofFiles_of_pairwise hfiles set.inputs)

/-- A file without imports is loaded as it is read. -/
theorem loadFile_leaf {s : Schema.Search} {fresh : List String} {done : List Schema.File}
    {path name : String} {parsed : Schema.Parsed} (hnew : path ∉ done.map (·.path))
    (hfresh : path ∈ fresh) (hreads : s.Reads path parsed) (hleaf : parsed.file.imports = []) :
    Schema.loadFile s fresh done path name =
      .ok (done ++ [{ parsed.file with name := s.displayName path name }]) := by
  refine Schema.loadFile_eq_ok_iff.2
    (.inr ⟨hnew, hfresh, parsed, hreads, done, [], ?_, by rw [← hleaf]⟩)
  rw [hleaf, List.zip_nil_left, Schema.loadImports]

/-- A file without imports is walked by its messages. -/
theorem visit_leaf {family : Descriptor.Family} {fresh : List String} {done : List Schema.File}
    {name path : String} {d : Descriptor.File} {messages : List Schema.Message}
    (hb : Schema.isBundled name = false) (hd : family.files.find? (·.path == name) = some d)
    (hp : family.paths.lookup name = some path) (hnew : path ∉ done.map (·.path))
    (hfresh : path ∈ fresh) (hleaf : d.imports = [])
    (hmessages : Descriptor.toMessages path d.package d.messages = .ok messages) :
    Descriptor.visit family fresh done name = .ok (done ++ [{
      path, name := family.search.displayName path name, package := d.package, messages
      enums := d.enums.map (·.toSchema), services := d.services.map (·.toSchema) }]) := by
  have himports : family.imports d = [] := by rw [Descriptor.Family.imports, hleaf]; rfl
  have hmid : Descriptor.visitImports family (fresh.filter (· != path)) done d.imports =
      .ok done := by rw [hleaf, Descriptor.visitImports]
  rw [Descriptor.visit_new hb hd hp hnew hfresh hmid hmessages, himports]

/-- One file and all it imports, in the order of their paths. -/
theorem read_of_loadFile {s : Surroundings} {path input : String} {files : List Schema.File}
    (hcancelled : s.cancelled = false) (hinput : s.search.workspace.absolute path = input)
    (hload : Schema.loadFile s.search s.search.workspace.filePaths [] input (baseOf input) =
      .ok files)
    (hfiles : files.Pairwise (·.path ≤ ·.path)) :
    (Strategy.text.read s [path]).result = .ok ⟨files, [input]⟩ := by
  refine read_of_foldlM _ hcancelled (by simp [hinput]) (.refl _) (List.pairwise_singleton _ _) ?_
    hfiles
  rw [List.foldlM_cons, hload]
  rfl

/-- Walking one file is walking all when it is the only one asked for. -/
theorem visitAll_of_visit {family : Descriptor.Family} {name : String} {files : List Schema.File}
    (h : Descriptor.visit family (family.paths.map (·.2)) [] name = .ok files) :
    Descriptor.visitAll family [name] = .ok files := by
  rw [Descriptor.visitAll, List.foldlM_cons, h]
  rfl

/-- The name of a file in the directory. -/
theorem displayName_rootedAt {directories : List String} {files : List (List String × String)}
    {name : String} (first : String) (hfirst : IsName first)
    (hdots : Text.startsWith first ".." = false) :
    (rootedAt directories files).search.displayName (Workspace.pathOf ["w", first]) name =
      first := by
  have hroot : absolute "/w" "/w" = Workspace.pathOf ["w"] := by decide +kernel
  have hnames : ∀ name ∈ ["w", first], IsName name := by
    simpa using ⟨by decide, hfirst⟩
  have hbelow : below? (Workspace.pathOf ["w"]) (Workspace.pathOf (["w"] ++ [first])) =
      some (Text.join "/" [first]) := below?_pathOf hnames hdots
  simp only [Schema.Search.displayName, displayName, rootedAt, List.findSome?_cons, hroot]
  rw [show ["w", first] = ["w"] ++ [first] from rfl, hbelow]
  simp [Text.join]

/-! #### Two files -/

/-- A directory with two files in it. -/
def twoFiles (text text' : String) : Surroundings :=
  rootedAt [] [(["a.proto"], text), (["b.proto"], text')]

/-- The set of two files that were read because the second imports the first. -/
def twoRead (f g : Schema.File) : FileSet := ⟨[f, g], ["/w/b.proto"]⟩

/-- The family of two descriptors. -/
def twoDescriptors (text text' : String) (d e : Descriptor.File) : Descriptor.Family :=
  ⟨[d, e], (twoFiles text text').search, [("b.proto", "/w/b.proto"), ("a.proto", "/w/a.proto")]⟩

section
variable {text text' : String} {f g : Schema.File} {d e : Descriptor.File}
  {bundled : Nat → List String}

/-- Both files are called by their last names. -/
theorem displayName_twoFiles (name : String) :
    (twoFiles text text').search.displayName "/w/a.proto" name = "a.proto" ∧
      (twoFiles text text').search.displayName "/w/b.proto" name = "b.proto" :=
  ⟨displayName_rootedAt "a.proto" (by decide) (by decide),
    displayName_rootedAt "b.proto" (by decide) (by decide)⟩

/-- The second file imports a bundled file and then the first file. -/
theorem read_twoFiles (name : String) (sites : List Schema.ImportSite)
    (hb : Schema.isBundled name = true)
    (hf : (twoFiles text text').search.Reads "/w/a.proto" ⟨{ f with name := "" }, []⟩)
    (hg : (twoFiles text text').search.Reads "/w/b.proto"
      ⟨{ g with name := "", imports := [{ path := name }, { path := "a.proto" }] }, sites⟩)
    (hfound : (twoFiles text text').search.find? (dirOf "/w/b.proto") "a.proto" =
      some "/w/a.proto")
    (hfname : f.name = "a.proto") (hgname : g.name = "b.proto") (hleaf : f.imports = [])
    (himports : g.imports = [{ path := name }, { path := "a.proto", resolved := "/w/a.proto" }]) :
    (Strategy.text.read (twoFiles text text') ["b.proto"]).result = .ok (twoRead f g) := by
  have hfpath : f.path = "/w/a.proto" := hf.fresh.path
  have hgpath : g.path = "/w/b.proto" := hg.fresh.path
  have hinput : absolute "/w" "b.proto" = "/w/b.proto" := by decide +kernel
  have hpaths : (twoFiles text text').search.workspace.filePaths = ["/w/a.proto", "/w/b.proto"] :=
    rfl
  obtain ⟨site, site', rfl⟩ : ∃ site site', sites = [site, site'] :=
    List.length_eq_two.1 hg.fresh.sites
  refine read_of_loadFile rfl hinput (Schema.loadFile_eq_ok_iff.2 (.inr ⟨by simp, ?_, _, hg,
    [f], g.imports, ?_, ?_⟩)) ?_
  · simp [hpaths]
  · rw [hpaths, List.zip_cons_cons, Schema.loadImports_bundled hb]
    refine ⟨[{ path := "a.proto", resolved := "/w/a.proto" }], ?_, himports⟩
    rw [List.zip_cons_cons, Schema.loadImports_found (by decide)]
    refine ⟨_, hfound, [f], ?_, [], by rw [List.zip_nil_left, Schema.loadImports], rfl⟩
    rw [loadFile_leaf (by simp) (by decide) hf hleaf, (displayName_twoFiles _).1, ← hfname]
    rfl
  · rw [(displayName_twoFiles _).2, ← hgname]
    rfl
  · simp [hfpath, hgpath]

/-- What has to be known of the files alone for the family to describe them. -/
theorem described_twoFiles (name : String) (hb : Schema.isBundled name = true)
    (hread : (Strategy.text.read (twoFiles text text') ["b.proto"]).result = .ok (twoRead f g))
    (hfpath : f.path = "/w/a.proto") (hgpath : g.path = "/w/b.proto") (hleaf : f.imports = [])
    (himports : g.imports = [{ path := name }, { path := "a.proto", resolved := "/w/a.proto" }])
    (hd : d.path = "a.proto") (he : e.path = "b.proto")
    (hf : d.Mirrors ((twoRead f g).LinksTo (fun k name => name ∈ bundled k) 0) f)
    (hg : e.Mirrors ((twoRead f g).LinksTo (fun k name => name ∈ bundled k) 1) g) :
    Described (twoFiles text text') ["b.proto"] (twoRead f g) (twoDescriptors text text' d e)
      bundled ["b.proto"] := by
  have hdenotes : (twoDescriptors text text' d e).Denotes (fun k name => name ∈ bundled k)
      (twoRead f g) "a.proto" "/w/a.proto" :=
    ⟨rfl, d, by simp [twoDescriptors, hd], 0, f, rfl, hfpath, hf⟩
  have hdenotes' : (twoDescriptors text text' d e).Denotes (fun k name => name ∈ bundled k)
      (twoRead f g) "b.proto" "/w/b.proto" :=
    ⟨rfl, e, by simp [twoDescriptors, hd, he], 1, g, rfl, hgpath, hg⟩
  refine ⟨hread, ?_, rfl, by decide, ?_, ?_, ?_⟩
  · intro h hh
    rcases List.mem_pair.1 hh with rfl | rfl
    · exact ⟨"a.proto", below_rootedAt _ [] (by decide) hfpath⟩
    · exact ⟨"b.proto", below_rootedAt _ [] (by decide) hgpath⟩
  · simpa [twoRead] using hdenotes'
  · simp [twoRead, twoDescriptors]
  · intro h hh imp himp hib
    rcases List.mem_pair.1 hh with rfl | rfl
    · simp [hleaf] at himp
    · rw [himports] at himp
      rcases List.mem_pair.1 himp with rfl | rfl
      · simp [hb] at hib
      · exact hdenotes

/-- The walk from the second file, the imported one first. -/
theorem visitAll_twoFiles (name : String) (messages messages' : List Schema.Message)
    (hb : Schema.isBundled name = true) (hd : d.path = "a.proto") (he : e.path = "b.proto")
    (hleaf : d.imports = []) (himports : e.imports = [{ path := name }, { path := "a.proto" }])
    (hmessages : Descriptor.toMessages "/w/a.proto" d.package d.messages = .ok messages)
    (hmessages' : Descriptor.toMessages "/w/b.proto" e.package e.messages = .ok messages') :
    Descriptor.visitAll (twoDescriptors text text' d e) ["b.proto"] = .ok [
      { path := "/w/a.proto", name := "a.proto", package := d.package, messages
        enums := d.enums.map (·.toSchema), services := d.services.map (·.toSchema) },
      { path := "/w/b.proto", name := "b.proto", package := e.package
        imports := [{ path := name }, { path := "a.proto", resolved := "/w/a.proto" }]
        messages := messages', enums := e.enums.map (·.toSchema)
        services := e.services.map (·.toSchema) }] := by
  have hresolved : (twoDescriptors text text' d e).imports e =
      [{ path := name }, { path := "a.proto", resolved := "/w/a.proto" }] := by
    have ha : Schema.isBundled "a.proto" = false := by decide
    simp only [Descriptor.Family.imports, himports, List.map_cons, List.map_nil, hb, ha]
    rfl
  have hleafVisit := @visit_leaf (twoDescriptors text text' d e) ["/w/a.proto"] [] "a.proto" _ d _
    (by decide) (by simp [twoDescriptors, hd]) rfl (by simp) (by simp) hleaf hmessages
  have hmid := @Descriptor.visitImports_eq_foldlM (twoDescriptors text text' d e) ["/w/a.proto"]
    e.imports []
  rw [himports, List.foldlM_cons, Descriptor.visit_bundled hb, ← himports] at hmid
  replace hmid := hmid.trans (congrArg (· >>= pure) hleafVisit)
  refine visitAll_of_visit ?_
  rw [Descriptor.visit_new (by decide) (by simp [twoDescriptors, hd, he]) rfl (by simp)
    (by simp [twoDescriptors]) hmid hmessages', hresolved]
  simp only [twoDescriptors, (displayName_twoFiles _).1, (displayName_twoFiles _).2]
  rfl

end

/-- A message with an enum in it. -/
def library : String :=
  "syntax = \"proto3\"; package q; message B \x7b enum E \x7b Z = 0; \x7d \x7d"

/-- References of every kind: to a nested message, to an imported and to a bundled one, and to an
enum by its full name, since the package of the file binds the package of the other. -/
def references : String :=
  "syntax = \"proto3\"; package p.q; import \"google/protobuf/timestamp.proto\"; " ++
  "import \"a.proto\"; message A \x7b message N \x7b\x7d N n = 1; repeated .q.B b = 2; " ++
  "int32 i = 3; google.protobuf.Timestamp t = 4; .q.B.E e = 5; \x7d " ++
  "service S \x7b rpc Get(A.N) returns (stream A); \x7d"

def libraryRead : Schema.File where
  path := "/w/a.proto"
  name := "a.proto"
  package := "q"
  messages := [
    { name := "B", line := 1, enums := [{ name := "E", line := 1, values := [⟨"Z", 0⟩] }] }]

def referencesRead : Schema.File where
  path := "/w/b.proto"
  name := "b.proto"
  package := "p.q"
  imports := [{ path := "google/protobuf/timestamp.proto" },
    { path := "a.proto", resolved := "/w/a.proto" }]
  messages := [
    { name := "A", line := 1
      fields := [
        { name := "n", line := 1, number := 1, type := "N" },
        { name := "b", line := 1, number := 2, repeated := true, type := ".q.B" },
        { name := "i", line := 1, number := 3, type := "int32" },
        { name := "t", line := 1, number := 4, type := "google.protobuf.Timestamp" },
        { name := "e", line := 1, number := 5, type := ".q.B.E" }]
      messages := [{ name := "N", line := 1 }] }]
  services := [
    { name := "S", line := 1
      methods := [
        { name := "Get", line := 1, input := "A.N", output := "A", serverStreaming := true }] }]

def libraryDescriptor : Descriptor.File where
  path := "a.proto"
  package := "q"
  messages := [{ name := "B", enums := [{ name := "E", values := [("Z", 0)] }] }]

def referencesDescriptor : Descriptor.File where
  path := "b.proto"
  package := "p.q"
  imports := [{ path := "google/protobuf/timestamp.proto" }, { path := "a.proto" }]
  messages := [
    { name := "A"
      fields := [
        { name := "n", number := 1, kind := .message "p.q.A.N" },
        { name := "b", number := 2, repeated := true, kind := .message "q.B" },
        { name := "i", number := 3, kind := .scalar .int32 },
        { name := "t", number := 4, kind := .message "google.protobuf.Timestamp" },
        { name := "e", number := 5, kind := .enum "q.B.E" }]
      messages := [{ name := "N" }] }]
  services := [
    { name := "S"
      methods := [
        { name := "Get", input := "p.q.A.N", output := "p.q.A", serverStreaming := true }] }]

/-- The second file imports a bundled file with one type. -/
def bundledTimestamp (k : Nat) : List String := if k = 1 then ["google.protobuf.Timestamp"] else []

def referencesVocabulary : FileSet.Vocabulary :=
  ⟨["p.q.A", "p.q.A.N", "q.B", "q.B.E"], ["google.protobuf.Timestamp"], ["p.q", "q"]⟩

/-- The names the second file sees. -/
theorem references_vocabulary :
    (twoRead libraryRead referencesRead).vocabulary bundledTimestamp 1 = referencesVocabulary := by
  cbv

theorem references_described :
    Described (twoFiles library references) ["b.proto"] (twoRead libraryRead referencesRead)
      (twoDescriptors library references libraryDescriptor referencesDescriptor) bundledTimestamp
      ["b.proto"] := by
  have hwithin : ∀ {scope ref p name : String}, referencesVocabulary.LinkScope scope ref p →
      Program.joinScope p ref = name → (twoRead libraryRead referencesRead).LinksTo
        (fun k name => name ∈ bundledTimestamp k) 1 scope ref name :=
    fun h hname => FileSet.linksTo_of_vocabulary references_vocabulary h hname
  have hrooted : ∀ {scope : String} (name : String), name ∈ referencesVocabulary.declared →
      (twoRead libraryRead referencesRead).LinksTo (fun k name => name ∈ bundledTimestamp k) 1 scope
        ("." ++ name) name := by
    intro scope name hname
    refine .rooted rfl (FileSet.hasType_iff.2 ?_)
    rw [references_vocabulary]
    exact List.mem_append_left _ hname
  have hread : (Strategy.text.read (twoFiles library references) ["b.proto"]).result =
      .ok (twoRead libraryRead referencesRead) := read_twoFiles "google/protobuf/timestamp.proto"
    [⟨Text.bytesOf "google/protobuf/timestamp.proto", 1⟩, ⟨Text.bytesOf "a.proto", 1⟩] (by decide)
    (by decide +kernel) (by decide +kernel) (by decide +kernel) rfl rfl rfl rfl
  refine described_twoFiles "google/protobuf/timestamp.proto" (by decide) hread rfl rfl
    rfl rfl rfl rfl
    ⟨rfl, rfl, .cons rfl rfl .nil (.cons ⟨rfl, rfl⟩ .nil) .nil .nil, .nil, .nil⟩
    ⟨rfl, rfl, .cons rfl rfl ?_ .nil (.cons rfl rfl .nil .nil .nil .nil) .nil, .nil,
      .cons ⟨rfl, .cons ⟨rfl, ?_, ?_, rfl, rfl⟩ .nil⟩ .nil⟩
  · refine .cons ⟨rfl, rfl, .plain rfl rfl rfl (.message (by decide) ?_)⟩ <|
      .cons ⟨rfl, rfl, .plain rfl rfl rfl (.message (by decide) ?_)⟩ <|
      .cons ⟨rfl, rfl, .plain rfl rfl rfl (.scalar (by decide))⟩ <|
      .cons ⟨rfl, rfl, .plain rfl rfl rfl (.message (by decide) ?_)⟩ <|
      .cons ⟨rfl, rfl, .plain rfl rfl rfl (.enum (by decide) ?_)⟩ .nil
    · exact hwithin (p := "p.q.A") (by decide) (by decide)
    · exact hrooted "q.B" (by decide)
    · exact hwithin (p := "") (by decide) (by decide)
    · exact hrooted "q.B.E" (by decide)
  · exact hwithin (p := "p.q") (by decide) (by decide)
  · exact hwithin (p := "p.q") (by decide) (by decide)

theorem references_clear : (twoRead libraryRead referencesRead).AllClear
    (fun k name => name ∈ bundledTimestamp k) := by
  have hall : ∀ x ∈ referencesRead.references, x.1 = .field ∧ (Scalar.ofWord? x.2.2).isSome ∨
      Scalar.ofWord? x.2.2 = none ∧ referencesVocabulary.Clear x.2.1 x.2.2 := by decide
  have hnone : libraryRead.references = [] := by decide
  intro k f hk use scope ref href
  match k with
  | 0 =>
    cases hk
    have hmem := href.mem_references
    rw [hnone] at hmem
    cases hmem
  | 1 =>
    cases hk
    rw [FileSet.clear_iff, references_vocabulary]
    exact hall _ href.mem_references
  | k + 2 => cases hk

/-- The same program is built from the text and from the descriptors. -/
theorem visitAll_agrees_with_text_references :
    let set := twoRead libraryRead referencesRead
    let family := twoDescriptors library references libraryDescriptor referencesDescriptor
    let bundled := fun k name => name ∈ bundledTimestamp k
    (Strategy.text.read (twoFiles library references) ["b.proto"]).result = .ok set ∧
      (∀ f ∈ set.files, ∃ first, (twoFiles library references).search.Below first f.path ∧
        Text.startsWith first ".." = false) ∧
      family.Mirrors bundled set ["b.proto"] ∧ set.AllClear bundled ∧
      ∃ files p, Descriptor.visitAll family ["b.proto"] = .ok files ∧
        set.Respells (fun k use scope => Spelled (set.LinksTo bundled k scope) use)
          (.ofFiles files set.inputs) ∧
        Program.build (.ofFiles files set.inputs) {} = .ok p ∧ Program.build set {} = .ok p := by
  intro set family bundled
  have hbelow : ∀ f ∈ set.files, ∃ first,
      (twoFiles library references).search.Below first f.path ∧
        Text.startsWith first ".." = false := by
    intro f hf
    rcases List.mem_pair.1 hf with rfl | rfl
    · exact ⟨"a.proto", below_rootedAt _ [] (by decide) rfl, by decide⟩
    · exact ⟨"b.proto", below_rootedAt _ [] (by decide) rfl, by decide⟩
  have hbuilt : (Program.build set {}).toOption.isSome = true := by cbv
  obtain ⟨files, hfiles, hrespells, hbuild⟩ := visitAll_agrees_with_text references_described.read
    hbelow references_described.search references_described.mirrors
  cases hp : Program.build set {} with
  | error e =>
    rw [hp] at hbuilt
    cases hbuilt
  | ok p =>
    exact ⟨references_described.read, hbelow, references_described.mirrors, references_clear, files,
      p, hfiles, hrespells, (hbuild references_clear {} p).2 hp, rfl⟩

/-! ### Where they differ -/

/-- The family describes what is read from text, and yet walking it comes to another program. -/
def Differs (s : Surroundings) (paths : List String) (set : FileSet) (family : Descriptor.Family)
    (bundled : Nat → List String) (names : List String) : Prop :=
  Described s paths set family bundled names ∧
    ∃ files, Descriptor.visitAll family names = .ok files ∧
      (Program.build set {}).toOption ≠ (Program.build (.ofFiles files set.inputs) {}).toOption

/-- Files that the walk leaves in order are compared as they are. -/
theorem Described.differs {s : Surroundings} {paths : List String} {set : FileSet}
    {family : Descriptor.Family} {bundled : Nat → List String} {names : List String}
    {files : List Schema.File} (h : Described s paths set family bundled names)
    (hvisit : Descriptor.visitAll family names = .ok files)
    (hsorted : files.Pairwise (·.path ≤ ·.path))
    (hbuild : (Program.build set {}).toOption ≠ (Program.build ⟨files, set.inputs⟩ {}).toOption) :
    Differs s paths set family bundled names :=
  ⟨h, files, hvisit, by rwa [ofFiles_of_pairwise hsorted]⟩

/-- No bundled file is imported. -/
def noBundled : Nat → List String := fun _ => []

/-! #### One file -/

/-- A directory with one file in it. -/
def oneFile (text : String) : Surroundings := rootedAt [] [(["a.proto"], text)]

/-- The set of a file that was read alone. -/
def oneRead (f : Schema.File) : FileSet := ⟨[f], ["/w/a.proto"]⟩

/-- The family of a descriptor alone. -/
def oneDescriptor (text : String) (d : Descriptor.File) : Descriptor.Family :=
  ⟨[d], (oneFile text).search, [("a.proto", "/w/a.proto")]⟩

section
variable (text : String) {f : Schema.File} {d : Descriptor.File}

/-- The file is called by its last name. -/
theorem displayName_oneFile {text : String} (name : String) :
    (oneFile text).search.displayName "/w/a.proto" name = "a.proto" :=
  displayName_rootedAt "a.proto" (by decide) (by decide)

/-- What has to be known of the file alone for the family to describe it. -/
theorem described_oneFile
    (hreads : (oneFile text).search.Reads "/w/a.proto" ⟨{ f with name := "" }, []⟩)
    (hname : f.name = "a.proto") (hleaf : f.imports = []) (hd : d.path = "a.proto")
    (hmirrors : d.Mirrors ((oneRead f).LinksTo (fun k name => name ∈ noBundled k) 0) f) :
    Described (oneFile text) ["a.proto"] (oneRead f) (oneDescriptor text d) noBundled
      ["a.proto"] := by
  have hpath : f.path = "/w/a.proto" := hreads.fresh.path
  have hdenotes : (oneDescriptor text d).Denotes (fun k name => name ∈ noBundled k) (oneRead f)
      "a.proto" "/w/a.proto" :=
    ⟨rfl, d, by simp [oneDescriptor, hd], 0, f, rfl, hpath, hmirrors⟩
  refine ⟨?_, ?_, rfl, by decide, ?_, ?_, ?_⟩
  · have hinput : absolute "/w" "a.proto" = "/w/a.proto" := by decide +kernel
    have hfresh : "/w/a.proto" ∈ (oneFile text).search.workspace.filePaths := by
      exact List.mem_singleton_self _
    refine read_of_loadFile rfl hinput ?_ (List.pairwise_singleton _ _)
    rw [loadFile_leaf (by simp) hfresh hreads hleaf, displayName_oneFile, ← hname]
    rfl
  · intro g hg
    rw [List.mem_singleton.1 hg, hpath]
    exact ⟨"a.proto", below_rootedAt _ [] (by decide) rfl⟩
  · simpa [oneRead] using hdenotes
  · simp [oneRead, oneDescriptor]
  · simp [oneRead, hleaf]

/-- The walk gives the one file. -/
theorem visitAll_oneFile (messages : List Schema.Message) (hd : d.path = "a.proto")
    (hleaf : d.imports = [])
    (hmessages : Descriptor.toMessages "/w/a.proto" d.package d.messages = .ok messages) :
    Descriptor.visitAll (oneDescriptor text d) ["a.proto"] = .ok [
      { path := "/w/a.proto", name := "a.proto", package := d.package, messages
        enums := d.enums.map (·.toSchema), services := d.services.map (·.toSchema) }] := by
  refine visitAll_of_visit ?_
  rw [visit_leaf (by decide) (by simp [oneDescriptor, hd]) rfl (by simp) (by simp [oneDescriptor])
    hleaf hmessages]
  simp [oneDescriptor, displayName_oneFile]

end

/-- A message that is called like a scalar, as the type of a procedure. -/
def scalarCall : String :=
  "syntax = \"proto3\"; message int32 \x7b\x7d service S \x7b rpc A(int32) returns (int32); \x7d"

def scalarCallRead : Schema.File where
  path := "/w/a.proto"
  name := "a.proto"
  messages := [{ name := "int32", line := 1 }]
  services := [
    { name := "S", line := 1
      methods := [{ name := "A", line := 1, input := "int32", output := "int32" }] }]

def scalarCallDescriptor : Descriptor.File where
  path := "a.proto"
  messages := [{ name := "int32" }]
  services := [{ name := "S", methods := [{ name := "A", input := "int32", output := "int32" }] }]

/-- Read from text the procedure takes a scalar and is refused; walked, it takes the message. -/
theorem scalarCall_differs :
    Differs (oneFile scalarCall) ["a.proto"] (oneRead scalarCallRead)
      (oneDescriptor scalarCall scalarCallDescriptor) noBundled ["a.proto"] := by
  have hlinks : (oneRead scalarCallRead).LinksTo (fun k name => name ∈ noBundled k) 0 "" "int32"
      "int32" :=
    FileSet.linksTo_of_vocabulary (p := "") (v := ⟨["int32"], [], [""]⟩) (by cbv) (by decide)
      (by decide)
  have hdescribed := described_oneFile scalarCall (f := scalarCallRead) (d := scalarCallDescriptor)
    (by decide +kernel) rfl rfl rfl
    ⟨rfl, rfl, .cons rfl rfl .nil .nil .nil .nil, .nil,
      .cons ⟨rfl, .cons ⟨rfl, hlinks, hlinks, rfl, rfl⟩ .nil⟩ .nil⟩
  refine hdescribed.differs (visitAll_oneFile _ [{ name := "int32" }] rfl rfl ?_)
    (List.pairwise_singleton _ _) ?_
  · simp [scalarCallDescriptor, Descriptor.toMessages, Descriptor.Message.toSchema]
    rfl
  · intro h
    have hread : (Program.build (oneRead scalarCallRead) {}).toOption.isSome = false := by
      decide +kernel
    have hwalked := congrArg Option.isSome h
    rw [hread] at hwalked
    exact absurd hwalked (by decide +kernel)

/-- A type that is called like a well-known one, where messages make up the package of those. -/
def shadowing : String :=
  "syntax = \"proto3\"; message google \x7b message protobuf \x7b message M \x7b " ++
  "Timestamp t = 1; \x7d \x7d message Timestamp \x7b\x7d \x7d"

def shadowingRead : Schema.File where
  path := "/w/a.proto"
  name := "a.proto"
  messages := [
    { name := "google", line := 1
      messages := [
        { name := "protobuf", line := 1
          messages := [
            { name := "M", line := 1
              fields := [{ name := "t", line := 1, number := 1, type := "Timestamp" }] }] },
        { name := "Timestamp", line := 1 }] }]

def shadowingDescriptor : Descriptor.File where
  path := "a.proto"
  messages := [
    { name := "google"
      messages := [
        { name := "protobuf"
          messages := [
            { name := "M"
              fields := [{ name := "t", number := 1, kind := .message "google.Timestamp" }] }] },
        { name := "Timestamp" }] }]

def shadowingWalked : List Schema.Message := [
  { name := "google"
    messages := [
      { name := "protobuf"
        messages := [
          { name := "M", fields := [{ name := "t", number := 1, type := ".google.Timestamp" }] }] },
      { name := "Timestamp" }] }]

/-- Read from text the field has the well-known type; walked, it has the message further out. -/
theorem shadowing_differs :
    Differs (oneFile shadowing) ["a.proto"] (oneRead shadowingRead)
      (oneDescriptor shadowing shadowingDescriptor) noBundled ["a.proto"] := by
  have hlinks : (oneRead shadowingRead).LinksTo (fun k name => name ∈ noBundled k) 0
      "google.protobuf.M" "Timestamp" "google.Timestamp" :=
    FileSet.linksTo_of_vocabulary (p := "google")
      (v := ⟨["google", "google.protobuf", "google.protobuf.M", "google.Timestamp"], [], [""]⟩)
      (by cbv) (by decide) (by decide)
  have hinner : Descriptor.Message.AllMirror
      ((oneRead shadowingRead).LinksTo (fun k name => name ∈ noBundled k) 0) "google.protobuf"
      [{ name := "M", line := 1
         fields := [{ name := "t", line := 1, number := 1, type := "Timestamp" }] }]
      [{ name := "M"
         fields := [{ name := "t", number := 1, kind := .message "google.Timestamp" }] }] :=
    .cons rfl rfl (.cons ⟨rfl, rfl, .plain rfl rfl rfl (.message (by decide) hlinks)⟩ .nil) .nil
      .nil .nil
  have hdescribed := described_oneFile shadowing (f := shadowingRead) (d := shadowingDescriptor)
    (by decide +kernel) rfl rfl rfl
    ⟨rfl, rfl, .cons rfl rfl .nil .nil (.cons rfl rfl .nil .nil hinner
      (.cons rfl rfl .nil .nil .nil .nil)) .nil, .nil, .nil⟩
  refine hdescribed.differs (visitAll_oneFile _ shadowingWalked rfl rfl ?_)
    (List.pairwise_singleton _ _) ?_
  · simp [shadowingDescriptor, shadowingWalked, Descriptor.toMessages, Descriptor.Message.toSchema,
      Descriptor.Field.toSchema]
    rfl
  · intro h
    have hread : (Program.build (oneRead shadowingRead) {}).toOption.map
        (·.messages.map fun m => m.fields.map (·.type)) =
          some [[], [], [.wellKnown "Timestamp"], []] := by decide +kernel
    rw [h] at hread
    exact absurd hread (by decide +kernel)

/-- The names of the types of a bundled file, which the second file imports. -/
def bundledStruct (k : Nat) : List String :=
  if k = 1 then
    ["google.protobuf.Struct", "google.protobuf.Struct.FieldsEntry", "google.protobuf.Value",
      "google.protobuf.NullValue", "google.protobuf.ListValue"]
  else []

/-- A type that is called like a bundled one that is not well-known, in a scope around. -/
def outerType : String := "syntax = \"proto3\"; package google; message NullValue \x7b\x7d"

/-- A reference to the bundled type. -/
def innerReference : String :=
  "syntax = \"proto3\"; package google.protobuf; import \"google/protobuf/struct.proto\"; " ++
  "import \"a.proto\"; message M \x7b NullValue v = 1; \x7d"

def outerTypeRead : Schema.File where
  path := "/w/a.proto"
  name := "a.proto"
  package := "google"
  messages := [{ name := "NullValue", line := 1 }]

def innerReferenceRead : Schema.File where
  path := "/w/b.proto"
  name := "b.proto"
  package := "google.protobuf"
  imports := [{ path := "google/protobuf/struct.proto" },
    { path := "a.proto", resolved := "/w/a.proto" }]
  messages := [
    { name := "M", line := 1
      fields := [{ name := "v", line := 1, number := 1, type := "NullValue" }] }]

def outerTypeDescriptor : Descriptor.File where
  path := "a.proto"
  package := "google"
  messages := [{ name := "NullValue" }]

def innerReferenceDescriptor : Descriptor.File where
  path := "b.proto"
  package := "google.protobuf"
  imports := [{ path := "google/protobuf/struct.proto" }, { path := "a.proto" }]
  messages := [
    { name := "M"
      fields := [{ name := "v", number := 1, kind := .enum "google.protobuf.NullValue" }] }]

def innerReferenceWalked : List Schema.Message := [
  { name := "M"
    fields := [{ name := "v", number := 1, type := ".google.protobuf.NullValue" }] }]

/-- Read from text the field has the type further out; walked, it has the bundled one. -/
theorem outerType_differs :
    Differs (twoFiles outerType innerReference) ["b.proto"]
      (twoRead outerTypeRead innerReferenceRead)
      (twoDescriptors outerType innerReference outerTypeDescriptor innerReferenceDescriptor)
      bundledStruct ["b.proto"] := by
  have hlinks : (twoRead outerTypeRead innerReferenceRead).LinksTo
      (fun k name => name ∈ bundledStruct k) 1 "google.protobuf.M" "NullValue"
      "google.protobuf.NullValue" :=
    FileSet.linksTo_of_vocabulary (p := "google.protobuf")
      (v := ⟨["google.protobuf.M", "google.NullValue"], bundledStruct 1,
        ["google.protobuf", "google"]⟩) (by cbv) (by decide) (by decide)
  have hread : (Strategy.text.read (twoFiles outerType innerReference) ["b.proto"]).result =
      .ok (twoRead outerTypeRead innerReferenceRead) := read_twoFiles "google/protobuf/struct.proto"
    [⟨Text.bytesOf "google/protobuf/struct.proto", 1⟩, ⟨Text.bytesOf "a.proto", 1⟩] (by decide)
    (by decide +kernel) (by decide +kernel) (by decide +kernel) rfl rfl rfl rfl
  have hdescribed := described_twoFiles "google/protobuf/struct.proto" (d := outerTypeDescriptor)
    (e := innerReferenceDescriptor) (by decide) hread rfl rfl
    rfl rfl rfl rfl ⟨rfl, rfl, .cons rfl rfl .nil .nil .nil .nil, .nil, .nil⟩
    ⟨rfl, rfl, .cons rfl rfl (.cons ⟨rfl, rfl, .plain rfl rfl rfl (.enum (by decide) hlinks)⟩ .nil)
      .nil .nil .nil, .nil, .nil⟩
  refine hdescribed.differs (visitAll_twoFiles "google/protobuf/struct.proto"
    [{ name := "NullValue" }] innerReferenceWalked (by decide) rfl rfl rfl rfl ?_ ?_) (by simp) ?_
  · simp [outerTypeDescriptor, Descriptor.toMessages, Descriptor.Message.toSchema]
    rfl
  · simp [innerReferenceDescriptor, innerReferenceWalked, Descriptor.toMessages,
      Descriptor.Message.toSchema, Descriptor.Field.toSchema]
    rfl
  · intro h
    have hread : (Program.build (twoRead outerTypeRead innerReferenceRead) {}).toOption.isSome =
        true := by cbv
    rw [h] at hread
    exact absurd hread (by cbv; exact Bool.false_ne_true)

/-! #### A directory whose name starts with two dots -/

/-- A directory whose name starts with two dots, with a file and one that imports it from the
root. -/
def dotted : Surroundings :=
  rootedAt ["..d"] [(["..d", "x.proto"], "syntax = \"proto3\";"),
    (["..d", "y.proto"], "syntax = \"proto3\"; import \"..d/x.proto\";")]

def dottedRead : FileSet where
  files := [
    { path := "/w/..d/x.proto", name := "x.proto" },
    { path := "/w/..d/y.proto", name := "y.proto"
      imports := [{ path := "..d/x.proto", resolved := "/w/..d/x.proto" }] }]
  inputs := ["/w/..d/y.proto", "/w/..d/x.proto"]

def dottedFamily : Descriptor.Family where
  files := [
    { path := "x.proto" }, { path := "..d/x.proto" },
    { path := "y.proto", imports := [{ path := "..d/x.proto" }] }]
  search := dotted.search
  paths := [("x.proto", "/w/..d/x.proto"), ("..d/x.proto", "/w/..d/x.proto"),
    ("y.proto", "/w/..d/y.proto")]

def dottedWalked : List Schema.File := [
  { path := "/w/..d/x.proto", name := "..d/x.proto" },
  { path := "/w/..d/y.proto", name := "y.proto"
    imports := [{ path := "..d/x.proto", resolved := "/w/..d/x.proto" }] }]

theorem dotted_read :
    (Strategy.text.read dotted ["..d/y.proto", "..d/x.proto"]).result = .ok dottedRead := by
  have hx : dotted.search.Reads "/w/..d/x.proto" ⟨{ path := "/w/..d/x.proto" }, []⟩ := by
    decide +kernel
  have hy : dotted.search.Reads "/w/..d/y.proto"
      ⟨{ path := "/w/..d/y.proto", imports := [{ path := "..d/x.proto" }] },
        [⟨Text.bytesOf "..d/x.proto", 1⟩]⟩ := by decide +kernel
  have hfound : dotted.search.find? (dirOf "/w/..d/y.proto") "..d/x.proto" =
      some "/w/..d/x.proto" := by decide +kernel
  refine read_of_foldlM ["/w/..d/x.proto", "/w/..d/y.proto"] rfl (by decide +kernel) (.swap _ _ _)
    (by decide) ?_ (by decide)
  have hxload := @loadFile_leaf _ dotted.search.workspace.filePaths [] _ (baseOf "/w/..d/x.proto") _
    (by simp) (by decide +kernel) hx rfl
  rw [List.foldlM_cons, hxload]
  have hyload : Schema.loadFile dotted.search dotted.search.workspace.filePaths
      (dottedRead.files.take 1) "/w/..d/y.proto" (baseOf "/w/..d/y.proto") =
        .ok dottedRead.files := by
    refine Schema.loadFile_eq_ok_iff.2 (.inr ⟨by decide, by decide +kernel, _, hy,
      dottedRead.files.take 1, [{ path := "..d/x.proto", resolved := "/w/..d/x.proto" }], ?_,
      by decide +kernel⟩)
    rw [List.zip_cons_cons, Schema.loadImports_found (by decide)]
    exact ⟨_, hfound, _, Schema.loadFile_eq_ok_iff.2 (.inl ⟨by decide, rfl⟩), [],
      by rw [List.zip_nil_left, Schema.loadImports], rfl⟩
  have hname : dotted.search.displayName "/w/..d/x.proto" (baseOf "/w/..d/x.proto") =
      "x.proto" := by
    decide +kernel
  rw [hname]
  exact congrArg (· >>= pure) hyload

theorem dotted_described :
    Described dotted ["..d/y.proto", "..d/x.proto"] dottedRead dottedFamily noBundled
      ["y.proto", "x.proto"] := by
  have hdenotes : dottedFamily.Denotes (fun k name => name ∈ noBundled k) dottedRead "x.proto"
      "/w/..d/x.proto" := ⟨rfl, _, rfl, 0, _, rfl, rfl, rfl, rfl, .nil, .nil, .nil⟩
  have hdenotes' : dottedFamily.Denotes (fun k name => name ∈ noBundled k) dottedRead
      "..d/x.proto" "/w/..d/x.proto" := ⟨rfl, _, rfl, 0, _, rfl, rfl, rfl, rfl, .nil, .nil, .nil⟩
  have hdenotes'' : dottedFamily.Denotes (fun k name => name ∈ noBundled k) dottedRead "y.proto"
      "/w/..d/y.proto" := ⟨rfl, _, rfl, 1, _, rfl, rfl, rfl, rfl, .nil, .nil, .nil⟩
  refine ⟨dotted_read, ?_, rfl, by decide, ?_, by decide, ?_⟩
  · intro f hf
    rcases List.mem_pair.1 hf with rfl | rfl
    · exact ⟨"..d", below_rootedAt _ ["x.proto"] (by decide) rfl⟩
    · exact ⟨"..d", below_rootedAt _ ["y.proto"] (by decide) rfl⟩
  · intro name hname
    rcases List.mem_pair.1 hname with rfl | rfl
    · exact ⟨_, by decide, hdenotes''⟩
    · exact ⟨_, by decide, hdenotes⟩
  · intro f hf imp himp _
    rcases List.mem_pair.1 hf with rfl | rfl
    · cases himp
    · rw [List.mem_singleton.1 himp]
      exact hdenotes'

/-- Read from text the imported file is called by its last name; walked, as it is imported. -/
theorem dotted_differs :
    Differs dotted ["..d/y.proto", "..d/x.proto"] dottedRead dottedFamily noBundled
      ["y.proto", "x.proto"] := by
  have hwalked : Descriptor.visitAll dottedFamily ["y.proto", "x.proto"] = .ok dottedWalked := by
    have hx := @visit_leaf dottedFamily ["/w/..d/x.proto", "/w/..d/x.proto"] [] "..d/x.proto" _ _ []
      (by decide) rfl rfl (by simp) (by decide) rfl (by rw [Descriptor.toMessages])
    have himports := (@Descriptor.visitImports_eq_foldlM dottedFamily
      ["/w/..d/x.proto", "/w/..d/x.proto"] [{ path := "..d/x.proto" }] []).trans
        (congrArg (· >>= pure) hx)
    have hfresh : (dottedFamily.paths.map Prod.snd).filter (· != "/w/..d/y.proto") =
        ["/w/..d/x.proto", "/w/..d/x.proto"] := by decide
    have hy := @Descriptor.visit_new dottedFamily (dottedFamily.paths.map Prod.snd) [] "y.proto" _
      (by decide) _ rfl rfl (by simp) (by decide) _ (hfresh ▸ himports) []
      (by rw [Descriptor.toMessages])
    have hlast := @Descriptor.visit_done dottedFamily (dottedFamily.paths.map Prod.snd) dottedWalked
      "x.proto" _ (by decide) _ rfl rfl (by decide)
    rw [Descriptor.visitAll, List.foldlM_cons, hy]
    refine Eq.trans (congrArg (fun done => Except.ok done >>= _) ?_) (congrArg (· >>= pure) hlast)
    decide +kernel
  refine dotted_described.differs hwalked (by decide) fun h => ?_
  have hread : (Program.build dottedRead {}).toOption.map (·.files.map (·.name)) =
      some ["x.proto", "y.proto"] := by cbv
  rw [h] at hread
  exact absurd hread (by cbv; simp)

/-- No condition can be left out. Each sample is read from text, all its files lie below a root and
the family describes them, and yet walking the family comes to another program: the type of a
procedure is called like a scalar, a scope inside makes a name well-known, a scope outside has a
type for one that the program does not know, or the way from the root starts with two dots. -/
theorem walk_differs_from_text :
    Differs (oneFile scalarCall) ["a.proto"] (oneRead scalarCallRead)
        (oneDescriptor scalarCall scalarCallDescriptor) noBundled ["a.proto"] ∧
      Differs (oneFile shadowing) ["a.proto"] (oneRead shadowingRead)
        (oneDescriptor shadowing shadowingDescriptor) noBundled ["a.proto"] ∧
      Differs (twoFiles outerType innerReference) ["b.proto"]
        (twoRead outerTypeRead innerReferenceRead)
        (twoDescriptors outerType innerReference outerTypeDescriptor innerReferenceDescriptor)
        bundledStruct ["b.proto"] ∧
      Differs dotted ["..d/y.proto", "..d/x.proto"] dottedRead dottedFamily noBundled
        ["y.proto", "x.proto"] :=
  ⟨scalarCall_differs, shadowing_differs, outerType_differs, dotted_differs⟩

end ProtoStub

import ProtoStub.Proofs.Placement
import ProtoStub.Proofs.Sharing

/-!
# Paths of outputs

A run writes a source for each requested file with declarations and one for each utility
(`exists_paths`). Two of them lie at one path when a file is named like the utility of its
directory, or when two files have one base name in directories that both count as the root of the
run (`outputs_overwritten`). These are the only ways: a file in a directory that is found below the
root is placed by the names on the way down and its base name (`exists_placed`), and paths made of
names are different in the output directory when the names are (`joinPath_toText_inj`). So the
outputs of such files are different exactly when none is named like a utility
(`generate_paths_nodup_iff`).
-/

namespace ProtoStub

open Text
open Schema (FileSet)

/-! ## Texts of paths -/

section
variable {place : List String}

/-- Segments have no slashes. -/
theorem Path.slash_notMem_push {rooted : Bool} {reversed : List String} {segment : String}
    (h : ∀ x ∈ reversed, '/' ∉ x.toList) (hs : '/' ∉ segment.toList) :
    ∀ x ∈ Path.push rooted reversed segment, '/' ∉ x.toList := by
  have hdots : '/' ∉ "..".toList := by decide
  unfold Path.push
  split
  · exact h
  · split
    · cases reversed with
      | nil => cases rooted <;> simp
      | cons last before =>
        rw [List.forall_mem_cons] at h
        dsimp only
        split
        · simpa using h
        · exact h.2
    · exact List.forall_mem_cons.2 ⟨hs, h⟩

theorem Path.slash_notMem_segments (s : String) :
    ∀ x ∈ (Path.ofText s).segments, '/' ∉ x.toList := by
  have hfold : ∀ (pieces reversed : List String), (∀ x ∈ pieces, '/' ∉ x.toList) →
      (∀ x ∈ reversed, '/' ∉ x.toList) →
      ∀ x ∈ pieces.foldl (Path.push (startsWith s "/")) reversed, '/' ∉ x.toList := by
    intro pieces
    induction pieces with
    | nil => exact fun _ _ h => h
    | cons piece pieces ih =>
      intro reversed hpieces h
      rw [List.forall_mem_cons] at hpieces
      exact ih _ hpieces.2 (Path.slash_notMem_push h hpieces.1)
  intro x hx
  exact hfold (split '/' s) [] (fun _ h => not_mem_of_mem_split h) (by simp) x
    (List.mem_reverse.1 hx)

/-- Different segments make different texts. -/
theorem Path.toText_inj {rooted : Bool} {segments segments' : List String} (hne : segments ≠ [])
    (hne' : segments' ≠ []) (h : ∀ x ∈ segments, '/' ∉ x.toList)
    (h' : ∀ x ∈ segments', '/' ∉ x.toList)
    (he : Path.toText ⟨rooted, segments⟩ = Path.toText ⟨rooted, segments'⟩) :
    segments = segments' := by
  have hjoin : join "/" segments = join "/" segments' := by
    cases rooted with
    | false => simpa [Path.toText, hne, hne'] using he
    | true =>
      rw [Path.toText, Path.toText, if_pos rfl, if_pos rfl] at he
      exact (String.append_right_inj _).1 he
  have hslash : "/" = String.singleton '/' := rfl
  rw [hslash] at hjoin
  rw [← split_join hne h, ← split_join hne' h', hjoin]

/-- A path made of names, in a directory. -/
theorem joinPath_toText (out : String) (h : ∀ n ∈ place, IsName n) :
    joinPath [out, Path.toText ⟨false, place⟩] =
      Path.toText ⟨(Path.ofText out).rooted, (Path.ofText out).segments ++ place⟩ := by
  have htext : Path.toText ⟨false, place⟩ ≠ "" := toText_ne_empty fun n hn => (h n hn).1
  by_cases hout : out = ""
  · subst hout
    have hempty : Path.ofText "" = ⟨false, []⟩ := by decide
    have hfilter : ["", Path.toText ⟨false, place⟩].filter (· != "") =
        [Path.toText ⟨false, place⟩] := by simp [htext]
    rw [joinPath, hfilter, hempty]
    dsimp only
    rw [join, String.intercalate_singleton, clean, ofText_toText h, List.nil_append]
  · rw [joinPath_pair hout htext, Path.walk,
      foldl_push_split_toText fun n hn => (h n hn).2.2.2, Path.foldl_push_names h]
    simp

/-- Paths made of names stay different in a directory. -/
theorem joinPath_toText_inj {out : String} {place' : List String} (hne : place ≠ [])
    (hne' : place' ≠ []) (h : ∀ n ∈ place, IsName n) (h' : ∀ n ∈ place', IsName n)
    (he : joinPath [out, Path.toText ⟨false, place⟩] =
      joinPath [out, Path.toText ⟨false, place'⟩]) :
    place = place' := by
  rw [joinPath_toText out h, joinPath_toText out h'] at he
  have hout := Path.slash_notMem_segments out
  have hsegments := Path.toText_inj (by simp [hne]) (by simp [hne'])
    (fun x hx => (List.mem_append.1 hx).elim (hout x) fun hx => (h x hx).2.2.2)
    (fun x hx => (List.mem_append.1 hx).elim (hout x) fun hx => (h' x hx).2.2.2) he
  exact List.append_cancel_left hsegments

end

/-! ## Directories below the root of a run -/

/-- The text of a directory below the root of a run; the root itself is the empty text. -/
def dirText (below : List String) : String :=
  if below = [] then "" else Path.toText ⟨false, below⟩

section
variable {below : List String} {name : String}

/-- A name in a directory below the root. -/
theorem joinPath_dirText (h : ∀ n ∈ below, IsName n) (hname : IsName name) :
    joinPath [dirText below, name] = Path.toText ⟨false, below ++ [name]⟩ := by
  rw [dirText]
  split
  · rename_i hnil
    subst hnil
    exact joinPath_empty_name hname
  · exact joinPath_name (toText_ne_empty fun n hn => (h n hn).1) (ofText_toText h) hname

end

/-- The last name of a path that does not start at the root has no slashes. -/
theorem slash_notMem_baseOf {s : String} (h : startsWith s "/" = false) :
    '/' ∉ (baseOf s).toList := by
  rw [baseOf]
  split
  · decide
  · rename_i hne
    split
    · rename_i hdrop
      rw [List.dropWhile_eq_nil_iff] at hdrop
      cases hchars : s.toList with
      | nil => exact absurd (String.toList_eq_nil_iff.1 hchars) (by simpa using hne)
      | cons c cs =>
        have hc : c = '/' := by simpa using hdrop c (by simp [hchars])
        subst hc
        simp [startsWith, hchars, List.isPrefixOf] at h
    · rw [String.toList_ofList, List.mem_reverse]
      intro hmem
      simpa using List.mem_takeWhile_imp hmem

theorem startsWith_slash_dirText {below : List String} (h : ∀ n ∈ below, IsName n) :
    startsWith (dirText below) "/" = false := by
  rw [dirText]
  split
  · decide
  · exact startsWith_slash_toText h

/-- The directory of a file below the root of the run. -/
theorem relDir_of_below {root name : String} {place : List String} (h : ∀ n ∈ place, IsName n)
    (hname : IsName name)
    (hbelow : (below? root (dirOf (Workspace.pathOf (place ++ [name])))).isSome = true) :
    ∃ below, place = (Path.ofText root).segments ++ below ∧
      Program.relDir root (Workspace.pathOf (place ++ [name])) = dirText below := by
  rw [dirOf_pathOf h hname] at hbelow
  obtain ⟨rel, hrel⟩ := Option.isSome_iff_exists.1 hbelow
  obtain ⟨below, hplace, hrelText⟩ := below?_eq_some h hrel
  refine ⟨below, hplace, ?_⟩
  have hroot : root ≠ "" := by
    rintro rfl
    have hempty : Path.ofText "" = ⟨false, []⟩ := by decide
    simp [below?, relative?, ofText_pathOf h, hempty, Path.relative?] at hrel
  have hnames : ∀ n ∈ below, IsName n := fun n hn => h n (hplace ▸ List.mem_append_right _ hn)
  rw [Program.relDir, if_neg (by simpa using hroot), dirOf_pathOf h hname, hrel, dirText, hrelText]
  dsimp only
  by_cases hnil : below = []
  · subst hnil
    decide
  · have hdot : Path.toText ⟨false, below⟩ ≠ "." := by
      intro he
      have hpath := ofText_toText hnames
      rw [he] at hpath
      exact hnil (Path.mk.inj hpath).2.symm
    rw [if_neg (by simpa using hdot), if_neg hnil]

/-! ## Names of files -/

/-- An ending that is dropped and put back. -/
theorem dropEnding_append {tail s : String} (h : tail.toList <:+ s.toList) :
    dropEnding tail s ++ tail = s := by
  obtain ⟨start, hs⟩ := h
  have hs : s = String.ofList start ++ tail := by
    apply String.toList_inj.1
    simp [← hs]
  subst hs
  rw [dropEnding, if_pos]
  · congr 1
    apply String.toList_inj.1
    simp
  · rw [beq_iff_eq, String.toList_append, List.reverse_append]
    exact List.take_left' (by rw [List.length_reverse, String.length_toList])

/-- The name of a schema file is its base name with the ending. -/
theorem schemaBaseName_append {place : List String} {name : String} (hname : IsName name)
    (h : endsWith (Workspace.pathOf (place ++ [name])) ".proto" = true) :
    Program.schemaBaseName (Workspace.pathOf (place ++ [name])) ++ ".proto" = name := by
  rw [Program.schemaBaseName, baseOf_pathOf place hname]
  apply dropEnding_append
  have hslash : '/' ∉ ".proto".toList := by decide
  rw [endsWith, List.isSuffixOf_iff_suffix, pathOf_concat, String.toList_append,
    String.toList_append, List.append_assoc] at h
  have hlast : "/".toList ++ name.toList <:+
      (if place = [] then "" else Workspace.pathOf place).toList ++ ("/".toList ++ name.toList) :=
    List.suffix_append _ _
  -- The ending has no slash, so it does not reach beyond the last name.
  rcases List.suffix_or_suffix_of_suffix h hlast with hp | hp
  · rcases List.suffix_cons_iff.1 hp with he | hp
    · exact absurd (he ▸ List.mem_cons_self) hslash
    · exact hp
  · exact absurd (hp.subset (by simp)) hslash

/-- The name of a source file is a name. -/
theorem isName_sourceName {base : String} (h : '/' ∉ base.toList) : IsName (base ++ ".vb") := by
  have hlong : ∀ s : String, s.length < 3 → base ++ ".vb" ≠ s := by
    rintro s hs rfl
    rw [String.length_append] at hs
    have hthree : ".vb".length = 3 := by decide
    omega
  refine ⟨hlong "" (by decide), hlong "." (by decide), hlong ".." (by decide), ?_⟩
  rw [String.toList_append, List.mem_append, not_or]
  exact ⟨h, by decide⟩

namespace VisualBasic

/-! ## Paths of a run -/

section
variable {b : Backend} {p : Program} {rootName : String} {outputs : List OutputFile}

/-- The paths of a run: one for each requested file, and one for each directory whose files share a
request helper. -/
theorem exists_paths (h : generate b p rootName = .ok outputs) :
    ∃ dirs : List String, dirs.Nodup ∧ (∀ dir, dir ∈ dirs ↔ SharesHelper p dir) ∧
      outputs.map (·.path) =
        (requested p).map (fun i => joinPath [b.out, unitPath (p.file i)]) ++
        dirs.map (fun dir => joinPath [b.out, utilityPath rootName dir]) := by
  obtain ⟨units, shared, sharing, sources, hunits, hshared, hsources, rfl⟩ := generate_eq_ok h
  refine ⟨shared.map (·.1), hshared.nodup, fun dir => mem_shared_iff hshared, ?_⟩
  have hpaths := Program.forall₂_of_common hunits.flip hsources fun u i o hu ho =>
    (sourceOf_render hshared hu ho).path
  rw [List.map_append, List.map_map, List.map_map,
    ← Program.map_eq_of_forall₂ hpaths fun i o ho => ho.symm]
  congr 1
  refine List.map_congr_left fun x hx => ?_
  exact congrArg (fun path => joinPath [b.out, path]) (utilityOf_of_mem hshared hx).path

/-- Two outputs lie at one path when a file is named like the utility of its directory. -/
theorem not_nodup_paths_of_named (h : generate b p rootName = .ok outputs) {dir : String}
    (hshare : SharesHelper p dir) {i : Nat} (hi : i ∈ filesIn p dir)
    (hname : (p.file i).baseName = utilityNameOf rootName dir) :
    ¬ (outputs.map (·.path)).Nodup := by
  obtain ⟨dirs, -, hdirs, hpaths⟩ := exists_paths h
  obtain ⟨hi, hdir⟩ := List.mem_filter.1 hi
  rw [hpaths, List.nodup_append']
  rintro ⟨-, -, hdisjoint⟩
  refine hdisjoint (List.mem_map.2 ⟨i, hi, rfl⟩) (List.mem_map.2 ⟨dir, (hdirs dir).2 hshare, ?_⟩)
  rw [utilityPath, unitPath, hname, beq_iff_eq.1 hdir]

/-- Two outputs lie at one path when two files have the same directory and base name. -/
theorem not_nodup_paths_of_unitPath (h : generate b p rootName = .ok outputs) {i j : Nat}
    (hi : i ∈ requested p) (hj : j ∈ requested p) (hne : i ≠ j)
    (hpath : unitPath (p.file i) = unitPath (p.file j)) : ¬ (outputs.map (·.path)).Nodup := by
  obtain ⟨dirs, -, -, hpaths⟩ := exists_paths h
  rw [hpaths, List.nodup_append']
  rintro ⟨hunits, -, -⟩
  exact hne (List.inj_on_of_nodup_map hunits hi hj (by rw [hpath]))

end

/-! ## Files below the root of a run -/

/-- The file lies in the directory `below` under the root of the run, and is named as a schema file
is. -/
structure Placed (root : List String) (f : Program.File) (below : List String) : Prop where
  names : ∀ n ∈ below, IsName n
  dir : f.relDir = dirText below
  base : '/' ∉ f.baseName.toList
  path : f.path = Workspace.pathOf (root ++ below ++ [f.baseName ++ ".proto"])

/-- A schema file below the root is placed. -/
theorem exists_placed {root : String} {f : Program.File} (hpath : Rooted f.path)
    (hend : endsWith f.path ".proto" = true) (hbelow : (below? root (dirOf f.path)).isSome = true)
    (hbase : f.baseName = Program.schemaBaseName f.path)
    (hdir : f.relDir = Program.relDir root f.path) :
    ∃ below, Placed (Path.ofText root).segments f below := by
  obtain ⟨place, hplace, he⟩ := hpath
  rcases List.eq_nil_or_concat place with rfl | ⟨place, name, rfl⟩
  · rw [he] at hend
    exact absurd hend (by decide)
  rw [List.concat_eq_append] at *
  have hdirNames : ∀ n ∈ place, IsName n := fun n hn => hplace n (List.mem_append_left _ hn)
  have hname : IsName name := hplace name (by simp)
  rw [he] at hend hbelow hbase hdir
  obtain ⟨below, hrel, hdirText⟩ := relDir_of_below hdirNames hname hbelow
  have hfull : f.baseName ++ ".proto" = name := by rw [hbase, schemaBaseName_append hname hend]
  refine ⟨below, fun n hn => hdirNames n (hrel ▸ List.mem_append_right _ hn),
    hdir.trans hdirText, fun hslash => ?_, ?_⟩
  · exact hname.2.2.2 (by rw [← hfull, String.toList_append]; exact List.mem_append_left _ hslash)
  · rw [he, hrel, hfull]

section
variable {rootName : String} {below : List String}

/-- The path of the unit of a placed file. -/
theorem unitPath_eq {root : List String} {f : Program.File} (h : Placed root f below) :
    unitPath f = Path.toText ⟨false, below ++ [f.baseName ++ ".vb"]⟩ := by
  rw [unitPath, h.dir, joinPath_dirText h.names (isName_sourceName h.base)]

theorem slash_notMem_utilityNameOf (hroot : '/' ∉ rootName.toList) (h : ∀ n ∈ below, IsName n) :
    '/' ∉ (utilityNameOf rootName (dirText below)).toList := by
  intro hslash
  have hin := (mem_utilityName (by decide) (by decide) hslash).1
  split at hin
  · exact hroot hin
  · exact slash_notMem_baseOf (startsWith_slash_dirText h) hin

/-- The path of the utility of a directory below the root. -/
theorem utilityPath_eq (hroot : '/' ∉ rootName.toList) (h : ∀ n ∈ below, IsName n) :
    utilityPath rootName (dirText below) =
      Path.toText ⟨false, below ++ [utilityNameOf rootName (dirText below) ++ ".vb"]⟩ :=
  joinPath_dirText h (isName_sourceName (slash_notMem_utilityNameOf hroot h))

/-- Sources at one path have one directory and one name. -/
theorem eq_of_sourcePath_eq {out base base' : String} {below' : List String}
    (h : ∀ n ∈ below, IsName n) (h' : ∀ n ∈ below', IsName n) (hbase : '/' ∉ base.toList)
    (hbase' : '/' ∉ base'.toList)
    (he : joinPath [out, Path.toText ⟨false, below ++ [base ++ ".vb"]⟩] =
      joinPath [out, Path.toText ⟨false, below' ++ [base' ++ ".vb"]⟩]) :
    below = below' ∧ base = base' := by
  have hnames : ∀ {below base}, (∀ n ∈ below, IsName n) → '/' ∉ base.toList →
      ∀ n ∈ below ++ [base ++ ".vb"], IsName n := by
    intro below base h hbase n hn
    rcases List.mem_append.1 hn with hn | hn
    · exact h n hn
    · rw [List.mem_singleton.1 hn]
      exact isName_sourceName hbase
  obtain ⟨hbelow, hlast⟩ := List.append_inj' (joinPath_toText_inj (by simp) (by simp)
    (hnames h hbase) (hnames h' hbase') he) rfl
  exact ⟨hbelow, (String.append_left_inj _).1 (List.singleton_inj.1 hlast)⟩

/-- Files below the root that are different have different outputs, unless one is named like the
utility of its directory. -/
theorem nodup_paths_iff {b : Backend} {p : Program} {outputs : List OutputFile}
    (root : List String) (hroot : '/' ∉ rootName.toList)
    (hplaced : ∀ i ∈ requested p, ∃ below, Placed root (p.file i) below)
    (hpaths : ∀ i ∈ requested p, ∀ j ∈ requested p, (p.file i).path = (p.file j).path → i = j)
    (h : generate b p rootName = .ok outputs) :
    (outputs.map (·.path)).Nodup ↔ ∀ dir, SharesHelper p dir → ∀ i ∈ filesIn p dir,
      (p.file i).baseName ≠ utilityNameOf rootName dir := by
  refine ⟨fun hnodup dir hshare i hi hname =>
    not_nodup_paths_of_named h hshare hi hname hnodup, fun hnamed => ?_⟩
  obtain ⟨dirs, hdirsNodup, hdirs, houtputs⟩ := exists_paths h
  have hdir : ∀ dir ∈ dirs, ∃ below, (∀ n ∈ below, IsName n) ∧ dir = dirText below := by
    intro dir hdir
    obtain ⟨i, hi, -⟩ := ((hdirs dir).1 hdir).2
    obtain ⟨hi, hrel⟩ := List.mem_filter.1 hi
    obtain ⟨below, hbelow⟩ := hplaced i hi
    exact ⟨below, hbelow.names, (beq_iff_eq.1 hrel).symm.trans hbelow.dir⟩
  rw [houtputs, List.nodup_append']
  refine ⟨?_, ?_, ?_⟩
  · refine List.Nodup.map_on (fun i hi j hj he => ?_) (List.nodup_range.filter _)
    obtain ⟨below, hbelow⟩ := hplaced i hi
    obtain ⟨below', hbelow'⟩ := hplaced j hj
    rw [unitPath_eq hbelow, unitPath_eq hbelow'] at he
    obtain ⟨rfl, hbase⟩ := eq_of_sourcePath_eq hbelow.names hbelow'.names hbelow.base
      hbelow'.base he
    exact hpaths i hi j hj (by rw [hbelow.path, hbelow'.path, hbase])
  · refine List.Nodup.map_on (fun dir hd dir' hd' he => ?_) hdirsNodup
    obtain ⟨below, hnames, rfl⟩ := hdir dir hd
    obtain ⟨below', hnames', rfl⟩ := hdir dir' hd'
    rw [utilityPath_eq hroot hnames, utilityPath_eq hroot hnames'] at he
    rw [(eq_of_sourcePath_eq hnames hnames' (slash_notMem_utilityNameOf hroot hnames)
      (slash_notMem_utilityNameOf hroot hnames') he).1]
  · intro path hunit hutility
    obtain ⟨i, hi, rfl⟩ := List.mem_map.1 hunit
    obtain ⟨dir, hd, he⟩ := List.mem_map.1 hutility
    obtain ⟨below, hbelow⟩ := hplaced i hi
    obtain ⟨below', hnames, rfl⟩ := hdir dir hd
    rw [unitPath_eq hbelow, utilityPath_eq hroot hnames] at he
    obtain ⟨rfl, hbase⟩ := eq_of_sourcePath_eq hnames hbelow.names
      (slash_notMem_utilityNameOf hroot hnames) hbelow.base he
    refine hnamed _ ((hdirs _).1 hd) i (List.mem_filter.2 ⟨hi, ?_⟩) hbase.symm
    rw [hbelow.dir, beq_self_eq_true]

end

/-- Items of a class with different keys are found at one place only. -/
theorem eq_of_nodup_filter {α β : Type} {q : α → Bool} {key : α → β} {xs : List α} {i j : Nat}
    {x y : α} (h : ((xs.filter q).map key).Nodup) (hi : xs[i]? = some x) (hj : xs[j]? = some y)
    (hx : q x = true) (hy : q y = true) (he : key x = key y) : i = j := by
  rw [List.Nodup, List.pairwise_map, List.pairwise_filter, List.pairwise_iff_getElem] at h
  obtain ⟨hil, rfl⟩ := List.getElem?_eq_some_iff.1 hi
  obtain ⟨hjl, rfl⟩ := List.getElem?_eq_some_iff.1 hj
  rcases Nat.lt_trichotomy i j with hlt | heq | hgt
  · exact absurd he (h i j hil hjl hlt hx hy)
  · exact heq
  · exact absurd he.symm (h j i hjl hil hgt hy hx)

/-- The outputs of a program lie at different paths exactly when no file is named like the utility
that the files of its directory share. The requested files are schema files at different paths, in
directories that are found below the root of the run: those whose path from there does not start
with two dots. -/
theorem generate_paths_nodup_iff {s : FileSet} {options : Program.BuildOptions} {p : Program}
    {b : Backend} {rootName : String} {outputs : List OutputFile}
    (hfiles : ∀ f ∈ s.files, s.isInput f.path = true → Rooted f.path ∧
      endsWith f.path ".proto" = true ∧ (below? options.root (dirOf f.path)).isSome = true)
    (hpaths : ((s.files.filter fun f => s.isInput f.path).map (·.path)).Nodup)
    (hroot : '/' ∉ rootName.toList) (hbuild : Program.build s options = .ok p)
    (h : generate b p rootName = .ok outputs) :
    (outputs.map (·.path)).Nodup ↔ ∀ dir, SharesHelper p dir → ∀ i ∈ filesIn p dir,
      (p.file i).baseName ≠ utilityNameOf rootName dir := by
  obtain ⟨d, hbuilt⟩ := Program.exists_built hbuild
  have hfile : ∀ i ∈ requested p, ∃ f services, s.files[i]? = some f ∧ s.isInput f.path = true ∧
      p.file i = d.fileOf s options i f services := by
    intro i hi
    obtain ⟨hlt, hinput⟩ := List.mem_filter.1 hi
    rw [List.mem_range, hbuilt.files_length] at hlt
    obtain ⟨services, hp⟩ := hbuilt.file_eq (List.getElem?_eq_getElem hlt)
    rw [hp, Bool.and_eq_true] at hinput
    exact ⟨_, services, List.getElem?_eq_getElem hlt, hinput.2, hp⟩
  refine nodup_paths_iff (Path.ofText options.root).segments hroot (fun i hi => ?_)
    (fun i hi j hj he => ?_) h
  · obtain ⟨f, services, hf, hinput, hp⟩ := hfile i hi
    obtain ⟨hrooted, hend, hbelow⟩ := hfiles f (List.mem_of_getElem? hf) hinput
    rw [hp]
    exact exists_placed hrooted hend hbelow rfl rfl
  · obtain ⟨f, _, hf, hinput, hp⟩ := hfile i hi
    obtain ⟨g, _, hg, hinput', hq⟩ := hfile j hj
    rw [hp, hq] at he
    exact eq_of_nodup_filter hpaths hf hg hinput hinput' he

/-! ## Samples -/

/-- A directory with two files, of which one has a service. -/
def plainSample : FileSet where
  files := [
    { path := "/r/d/a.proto", package := "p", services := [{ name := "S" }] },
    { path := "/r/d/b.proto", package := "p", enums := [{ name := "E" }] }]
  inputs := ["/r/d/a.proto", "/r/d/b.proto"]

/-- The same with a file that is named like the utility of the directory. -/
def namedSample : FileSet where
  files := [
    { path := "/r/d/DHttpUtility.proto", package := "p", enums := [{ name := "E" }] },
    { path := "/r/d/a.proto", package := "p", services := [{ name := "S" }] }]
  inputs := ["/r/d/DHttpUtility.proto", "/r/d/a.proto"]

/-- Two files of one name, one of them in a directory whose name starts with two dots. -/
def dotsSample : FileSet where
  files := [
    { path := "/r/..d/a.proto", package := "p", enums := [{ name := "E" }] },
    { path := "/r/a.proto", package := "q", enums := [{ name := "E" }] }]
  inputs := ["/r/..d/a.proto", "/r/a.proto"]

/-- A sample of schema files at different paths under a root has outputs at one path. -/
def Overwrites (s : FileSet) : Prop :=
  (s.files.map (·.path)).Nodup ∧
  (∀ f ∈ s.files, startsWith f.path "/r/" = true ∧ endsWith f.path ".proto" = true) ∧
  ∃ p outputs, Program.build s { root := "/r" } = .ok p ∧
    generate { profile := .async, out := "/o" } p "o" = .ok outputs ∧
    ¬ (outputs.map (·.path)).Nodup

/-- A set is generated from when it can be built and its files can be emitted; `view` is what
matters of its program. -/
theorem exists_generate_of_view {α : Type} (s : FileSet) (view : Program → α) (value : α)
    (h : (Program.build s { root := "/r" }).toOption.map (fun p =>
      (view p, (((List.range p.files.length).filter fun i => (p.file i).isInput).mapM
        (emit { profile := .async, out := "/o" } p)).toOption.isSome)) = some (value, true)) :
    ∃ p outputs, Program.build s { root := "/r" } = .ok p ∧
      generate { profile := .async, out := "/o" } p "o" = .ok outputs ∧ view p = value := by
  cases hbuild : Program.build s { root := "/r" } with
  | error e =>
    rw [hbuild] at h
    cases h
  | ok p =>
    rw [hbuild] at h
    obtain ⟨hview, hemit⟩ := Prod.mk.inj (Option.some.inj h)
    cases hrs : ((List.range p.files.length).filter fun i => (p.file i).isInput).mapM
        (emit { profile := .async, out := "/o" } p) with
    | error e =>
      rw [hrs] at hemit
      cases hemit
    | ok rs =>
      obtain ⟨outputs, houtputs⟩ := exists_generate "o" hrs
      exact ⟨p, outputs, rfl, houtputs, hview⟩

/-- The files of the sample have outputs at different paths. -/
theorem plainSample_paths_nodup : ∃ p outputs,
    Program.build plainSample { root := "/r" } = .ok p ∧
      generate { profile := .async, out := "/o" } p "o" = .ok outputs ∧ SharesHelper p "d" ∧
      (outputs.map (·.path)).Nodup := by
  obtain ⟨p, outputs, hbuild, h, hview⟩ := exists_generate_of_view plainSample
    (fun p => (filesIn p "d", requested p, (p.file 0).services.isEmpty,
      (requested p).map fun i => (p.file i).baseName.length))
    ([0, 1], [0, 1], false, [1, 1]) (by decide +kernel)
  simp only [Prod.mk.injEq] at hview
  obtain ⟨hin, hrequested, hservices, hbases⟩ := hview
  have hrooted : ∀ f ∈ plainSample.files, plainSample.isInput f.path = true → Rooted f.path ∧
      endsWith f.path ".proto" = true ∧ (below? "/r" (dirOf f.path)).isSome = true := by
    simp only [plainSample, List.forall_mem_cons, List.not_mem_nil, false_imp_iff, implies_true,
      and_true]
    refine ⟨fun _ => ⟨⟨["r", "d", "a.proto"], ?_, rfl⟩, ?_⟩,
      fun _ => ⟨⟨["r", "d", "b.proto"], ?_, rfl⟩, ?_⟩⟩
    all_goals decide +kernel
  have hshare : SharesHelper p "d" := ⟨by rw [hin]; decide, 0, by rw [hin]; decide,
    by simpa using hservices⟩
  have hiff := @generate_paths_nodup_iff plainSample { root := "/r" } p
    { profile := .async, out := "/o" } "o" outputs hrooted (by decide +kernel) (by decide) hbuild h
  refine ⟨p, outputs, hbuild, h, hshare, hiff.2 fun dir _ i hi hname => ?_⟩
  -- The base names are too short for the name of a utility.
  have hone : (p.file i).baseName.length = 1 := by
    have hmem := List.mem_map_of_mem (f := fun i => (p.file i).baseName.length)
      (List.mem_filter.1 hi).1
    rw [hbases] at hmem
    simpa using hmem
  rw [hname, utilityNameOf, utilityName, String.length_append] at hone
  have hlong : "HttpUtility".length = 11 := by decide
  omega

/-- A utility overwrites a file that is named like it, and files overwrite each other whose
directories both count as the root. -/
theorem outputs_overwritten : Overwrites namedSample ∧ Overwrites dotsSample := by
  constructor
  · refine ⟨by decide +kernel, by decide +kernel, ?_⟩
    obtain ⟨p, outputs, hbuild, h, hview⟩ := exists_generate_of_view namedSample
      (fun p => (filesIn p "d", (p.file 0).baseName, (p.file 1).services.isEmpty))
      ([0, 1], utilityNameOf "o" "d", false) (by decide +kernel)
    simp only [Prod.mk.injEq] at hview
    obtain ⟨hin, hname, hservices⟩ := hview
    have hshare : SharesHelper p "d" := ⟨by rw [hin]; decide, 1, by rw [hin]; decide,
      by simpa using hservices⟩
    have hfile : 0 ∈ filesIn p "d" := by rw [hin]; decide
    exact ⟨p, outputs, hbuild, h, not_nodup_paths_of_named h hshare hfile hname⟩
  · refine ⟨by decide +kernel, by decide +kernel, ?_⟩
    obtain ⟨p, outputs, hbuild, h, hview⟩ := exists_generate_of_view dotsSample
      (fun p => (requested p, unitPath (p.file 0), unitPath (p.file 1)))
      ([0, 1], "a.vb", "a.vb") (by decide +kernel)
    simp only [Prod.mk.injEq] at hview
    obtain ⟨hrequested, hfirst, hsecond⟩ := hview
    have hfiles : 0 ∈ requested p ∧ 1 ∈ requested p := by rw [hrequested]; decide
    exact ⟨p, outputs, hbuild, h, not_nodup_paths_of_unitPath h hfiles.1 hfiles.2 (by decide)
      (hfirst.trans hsecond.symm)⟩

end VisualBasic

end ProtoStub

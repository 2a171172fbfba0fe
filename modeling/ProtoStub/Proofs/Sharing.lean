import ProtoStub.Proofs.Acceptance
import ProtoStub.Proofs.Clients
import ProtoStub.Proofs.Extraction
import ProtoStub.Proofs.Loading
import ProtoStub.Proofs.Modularity
import ProtoStub.Proofs.Refusal

/-!
# Where the request helper goes

All units of a run have the same request helper, so extraction never refuses them and only emitting
can fail (`exists_generate`). What extraction decides about the units of a directory is decided
about its files (`sharesUtility_unitsIn_iff`): they have a utility exactly when there are several of
them and one has a service (`mem_shared_iff`). A client is rendered with the utility of its
directory or, where there is none, with a helper of its own (`sourceOf_render`).
`generate_places_helper` puts this together: the decision, the utilities and the classes of clients
agree in every run.
-/

namespace ProtoStub.VisualBasic

open Text
open Program (bind_eq_ok_iff mapM_eq_ok_iff ok_ne_error error_ne_error bind_ne_error mapM_ne_error)

/-! ## Refusals -/

/-- The error of units of one directory with different request helpers. -/
def helperDiffers (path first : String) : Error :=
  .emit path ("request helper differs from " ++ first)

/-- A complaint that starts with another character is not about different request helpers. -/
theorem emit_ne_helperDiffers {α : Type} {file path first cause : String}
    (h : cause.toList.head? ≠ some 'r') :
    (.error (.emit file cause) : Except Error α) ≠ .error (helperDiffers path first) := by
  intro he
  have hcause := (Error.emit.inj (Except.error.inj he)).2
  rw [hcause, String.toList_append, String.toList_ofList] at h
  exact h rfl

section
variable {p : Program} {file : Nat} {path first : String}

theorem typeName_ne_helperDiffers {fromMessage : Option Nat} {ref : TypeRef} :
    typeName p file fromMessage ref ≠ .error (helperDiffers path first) := by
  unfold typeName
  split
  · exact ok_ne_error
  · split
    · exact ok_ne_error
    · exact emit_ne_helperDiffers (by unfold noMapping; simp)
  · dsimp only
    split
    · exact ok_ne_error
    · split
      · exact emit_ne_helperDiffers (by simp)
      · exact ok_ne_error

theorem propertyLines_ne_helperDiffers {index : Nat} {margin : String}
    {seen : List (String × String)} {fs : List Program.Field} :
    propertyLines p file index margin seen fs ≠ .error (helperDiffers path first) := by
  fun_induction propertyLines p file index margin seen fs with
  | case1 | case5 => exact ok_ne_error
  | case2 => simp [helperDiffers]
  | case3 seen f rest m name hseen e he => exact error_ne_error typeName_ne_helperDiffers he
  | case4 seen f rest m name hseen type htype e he ih => exact error_ne_error ih he

/-- Classes are refused for what one of them is refused for. -/
theorem classesWithin_ne_error {e : Error} {depth : Nat} {margin : String} (indices : List Nat)
    (h : ∀ i, classWithin p file depth margin i ≠ .error e) :
    classesWithin p file depth margin indices ≠ .error e := by
  induction indices with
  | nil => rw [classesWithin]; exact ok_ne_error
  | cons i rest ih =>
    rw [classesWithin]
    split
    · rename_i he
      exact error_ne_error (h i) he
    · split
      · rename_i he
        exact error_ne_error ih he
      · exact ok_ne_error

theorem classWithin_ne_helperDiffers {depth : Nat} : ∀ {margin : String} {index : Nat},
    classWithin p file depth margin index ≠ .error (helperDiffers path first) := by
  induction depth with
  | zero =>
    intro margin index
    rw [classWithin]
    exact emit_ne_helperDiffers (by simp)
  | succ depth ih =>
    intro margin index
    rw [classWithin]
    dsimp only
    split
    · rename_i he
      exact error_ne_error propertyLines_ne_helperDiffers he
    · split
      · rename_i he
        exact error_ne_error (classesWithin_ne_error _ fun i => ih) he
      · exact ok_ne_error

theorem clientMethods_ne_helperDiffers {profile : Profile} {baseName : String}
    {ms : List Program.Method} :
    clientMethods p file profile baseName ms ≠ .error (helperDiffers path first) := by
  fun_induction clientMethods p file profile baseName ms with
  | case1 | case5 => exact ok_ne_error
  | case2 m rest e he => exact error_ne_error typeName_ne_helperDiffers he
  | case3 m rest request hr e he => exact error_ne_error typeName_ne_helperDiffers he
  | case4 m rest request hr response hs e he ih => exact error_ne_error ih he

theorem clientOf_ne_helperDiffers {profile : Profile} {s : Program.Service} :
    clientOf p file profile s ≠ .error (helperDiffers path first) := by
  rw [clientOf]
  split
  · rename_i he
    exact error_ne_error clientMethods_ne_helperDiffers he
  · exact ok_ne_error

theorem emit_ne_error_helperDiffers {b : Backend} :
    emit b p file ≠ .error (helperDiffers path first) := by
  rw [emit]
  dsimp only
  split
  · exact ok_ne_error
  · exact bind_ne_error (mapM_ne_error (fun _ => classWithin_ne_helperDiffers) _) fun _ =>
      bind_ne_error (mapM_ne_error (fun _ => clientOf_ne_helperDiffers) _) fun _ => ok_ne_error

end

/-! ## Units -/

/-- The requested files with declarations, in order. -/
def requested (p : Program) : List Nat :=
  (List.range p.files.length).filter fun i => !(p.file i).isEmpty && (p.file i).isInput

/-- Those of the directory `dir`. -/
def filesIn (p : Program) (dir : String) : List Nat :=
  (requested p).filter fun i => (p.file i).relDir == dir

/-- The files of a directory share a request helper: there are several, and one has a service. -/
def SharesHelper (p : Program) (dir : String) : Prop :=
  2 ≤ (filesIn p dir).length ∧ ∃ i ∈ filesIn p dir, (p.file i).services ≠ []

/-- The path of the unit of a file, in the output directory. -/
def unitPath (f : Program.File) : String := joinPath [f.relDir, f.baseName ++ ".vb"]

/-- What sharing depends on in the unit of a file. -/
def summaryOf (b : Backend) (f : Program.File) : UnitSummary Nat where
  path := unitPath f
  dir := f.relDir
  namespaceName := f.namespaceName
  clients := f.services.length
  helper := helperText b.profile "Private"

/-- The unit `u` is what is made of the file `i`. -/
structure UnitOf (b : Backend) (p : Program) (i : Nat) (u : Unit) : Prop where
  emitted : emit b p i = .ok (some u)
  summary : u.summary = summaryOf b (p.file i)
  source : u.source = (p.file i).name
  body : ∃ body, u.body = some body ∧
    List.Forall₂ (fun s c => ∃ linq, clientOf p i b.profile s = .ok (c, linq)) (p.file i).services
      body.clients

section
variable {b : Backend} {p : Program} {i : Nat}

/-- A file without declarations becomes no unit, any other becomes one. -/
theorem emit_eq_ok {r : Option Unit} (h : emit b p i = .ok r) :
    ((p.file i).isEmpty = true ∧ r = none) ∨
      ((p.file i).isEmpty = false ∧ ∃ u, r = some u ∧ UnitOf b p i u) := by
  have hemit := h
  rw [emit] at h
  dsimp only at h
  split at h
  · rename_i hempty
    exact .inl ⟨hempty, (Except.ok.inj h).symm⟩
  · rename_i hempty
    obtain ⟨classes, -, h⟩ := bind_eq_ok_iff.1 h
    obtain ⟨clients, hclients, h⟩ := bind_eq_ok_iff.1 h
    cases h
    refine .inr ⟨by simpa using hempty, _, rfl, hemit, rfl, rfl, _, rfl, ?_⟩
    rw [List.forall₂_map_right_iff]
    exact (mapM_eq_ok_iff.1 hclients).imp fun s c hc => ⟨c.2, hc⟩

/-- The units are those of the requested files with declarations. -/
theorem forall₂_units {is : List Nat} {rs : List (Option Unit)}
    (h : is.mapM (emit b p) = .ok rs) :
    List.Forall₂ (UnitOf b p) (is.filter fun i => !(p.file i).isEmpty) (rs.filterMap id) := by
  rw [mapM_eq_ok_iff] at h
  induction h with
  | nil => exact .nil
  | @cons i r is rs hr _ ih =>
    rcases emit_eq_ok hr with ⟨hempty, rfl⟩ | ⟨hempty, u, rfl, hu⟩
    · rwa [List.filter_cons_of_neg (by simp [hempty]), List.filterMap_cons_none rfl]
    · rw [List.filter_cons_of_pos (by simp [hempty])]
      exact .cons hu ih

/-- Where the clients of a unit find the request helper, when `shared` is the utility of its
directory. -/
def placeOf (u : UnitSummary Nat) (shared : Option SharedUtility) : HelperPlace :=
  match shared with
  | some s => .utility (rooted (s.qualifiedName u.namespaceName))
  | none => .inline u.helper

/-- A unit is rendered with a class for each of its clients. -/
theorem render_eq_ok {u : Unit} {shared : Option SharedUtility} {o : OutputFile} {body : Body}
    (hbody : u.body = some body) (h : render b u shared = .ok o) :
    o.path = joinPath [b.out, u.summary.path] ∧
    o.content = textOfLines (headLines ("source: " ++ u.source) body.imports body.namespaceName ++
      body.blocks.flatMap (["", ·]) ++
      (body.clients.map (clientLines b.profile (placeOf u.summary shared))).flatMap
        (["", textOfLines ·]) ++
      ["", "End Namespace", ""]) := by
  rw [render.eq_def, hbody] at h
  cases h
  refine ⟨rfl, ?_⟩
  simp only [List.flatMap_append, List.flatMap_map, List.append_assoc]
  rfl

/-- The units of the requested files, as far as sharing depends on them. -/
def summaries (b : Backend) (p : Program) : List (UnitSummary Nat) :=
  (requested p).map fun i => summaryOf b (p.file i)

/-- What is emitted for the input files are the units of the requested files. -/
theorem units_of_emit {rs : List (Option Unit)}
    (h : ((List.range p.files.length).filter fun i => (p.file i).isInput).mapM (emit b p) =
      .ok rs) :
    List.Forall₂ (UnitOf b p) (requested p) (rs.filterMap id) ∧
      (rs.filterMap id).map (·.summary) = summaries b p := by
  have hunits := forall₂_units h
  rw [List.filter_filter] at hunits
  exact ⟨hunits, (Program.map_eq_of_forall₂ hunits fun i u hu => hu.summary.symm).symm⟩

/-- All units have the same request helper. -/
theorem helper_of_mem_summaries {u : UnitSummary Nat} (h : u ∈ summaries b p) :
    u.helper = helperText b.profile "Private" := by
  obtain ⟨i, -, rfl⟩ := List.mem_map.1 h
  rfl

/-- How the utilities of a run are named. -/
def namedBy (b : Backend) (rootName : String) : ExtractOptions where
  rootName := rootName
  profile := b.profile.name
  extension := ".vb"

/-- What was set on the units can be looked up by their directories. -/
theorem zip_uses {units : List Unit} {shared : List (String × SharedUtility)} {sharing : Sharing}
    (h : Reads (units.map (·.summary)) shared sharing) :
    units.zip sharing.uses = units.map fun u => (u, shared.lookup u.summary.dir) := by
  rw [h.uses, List.map_map, List.map_prod_left_eq_zip]
  rfl

/-- What generating from a program comes to: units, utilities, and the sources of both. -/
theorem generate_eq_ok {rootName : String} {outputs : List OutputFile}
    (h : generate b p rootName = .ok outputs) :
    ∃ units shared sharing sources, List.Forall₂ (UnitOf b p) (requested p) units ∧
      Extracted (namedBy b rootName) (summaries b p) shared sharing ∧
      List.Forall₂ (fun u o => render b u (shared.lookup u.summary.dir) = .ok o) units sources ∧
      outputs = sources ++ shared.map fun x => renderUtility b x.2 := by
  rw [generate] at h
  obtain ⟨rs, hrs, h⟩ := bind_eq_ok_iff.1 h
  obtain ⟨sharing, hsharing, h⟩ := bind_eq_ok_iff.1 h
  obtain ⟨sources, hsources, h⟩ := bind_eq_ok_iff.1 h
  obtain ⟨hunits, hsummaries⟩ := units_of_emit hrs
  obtain ⟨shared, hshared⟩ := exists_extracted hsharing
  rw [zip_uses hshared.toReads, mapM_eq_ok_iff, List.forall₂_map_left_iff] at hsources
  refine ⟨_, shared, sharing, sources, hunits, hsummaries ▸ hshared, hsources, ?_⟩
  rw [← Except.ok.inj h, hshared.utilities, List.map_map]
  rfl

/-! ## Directories -/

/-- The units of a directory are those of its files. -/
theorem unitsIn_summaries (b : Backend) (p : Program) (dir : String) :
    unitsIn (summaries b p) dir = (filesIn p dir).map fun i => summaryOf b (p.file i) := by
  rw [unitsIn, summaries, List.filter_map]
  rfl

/-- Units share a utility when their files share a request helper. -/
theorem sharesUtility_unitsIn_iff {dir : String} :
    SharesUtility (unitsIn (summaries b p) dir) ↔ SharesHelper p dir := by
  rw [sharesUtility_nat_iff, SharesHelper, unitsIn_summaries, List.length_map]
  simp only [List.mem_map, exists_exists_and_eq_and]
  simp [summaryOf]

/-- The name of the utility of a directory, where `rootName` is the name of the output directory. -/
def utilityNameOf (rootName dir : String) : String :=
  utilityName (if dir = "" then rootName else baseOf dir)

/-- The path of the utility of a directory, in the output directory. -/
def utilityPath (rootName dir : String) : String :=
  joinPath [dir, utilityNameOf rootName dir ++ ".vb"]

/-- The utility `s` is the one of the directory `dir`. Its namespace is that of the file whose unit
comes first; its source file declares it there, with the request helper for others to call. -/
structure UtilityOf (b : Backend) (p : Program) (rootName dir : String) (s : SharedUtility) :
    Prop where
  name : s.name = utilityNameOf rootName dir
  path : s.path = utilityPath rootName dir
  space : ∃ i ∈ filesIn p dir, s.namespaceName = (p.file i).namespaceName ∧
    ∀ j ∈ filesIn p dir, unitPath (p.file i) ≤ unitPath (p.file j)
  content : (renderUtility b s).content = textOfLines
    (headLines ("shared by: " ++ join ", " s.users) (importNames b.profile false)
      (escapePath s.namespaceName) ++
    ["", "    Public Class " ++ s.name] ++ stateLines b.profile ++
    ["", helperText b.profile "Public", "    End Class", "", "End Namespace", ""])

/-- The first unit of a directory by path is that of one of its files. -/
theorem exists_first {dir : String} {space : String}
    (h : (byPath (unitsIn (summaries b p) dir)).head?.map (·.namespaceName) = some space) :
    ∃ i ∈ filesIn p dir, space = (p.file i).namespaceName ∧
      ∀ j ∈ filesIn p dir, unitPath (p.file i) ≤ unitPath (p.file j) := by
  have hsorted : (byPath (unitsIn (summaries b p) dir)).Pairwise (·.path ≤ ·.path) :=
    Schema.pairwise_mergeSort_le _ _
  have hperm := byPath_perm (unitsIn (summaries b p) dir)
  rw [unitsIn_summaries] at h hsorted hperm
  cases hunits : byPath ((filesIn p dir).map fun i => summaryOf b (p.file i)) with
  | nil => simp [hunits] at h
  | cons first rest =>
    rw [hunits] at h hsorted hperm
    obtain ⟨i, hi, rfl⟩ := List.mem_map.1 (hperm.mem_iff.1 List.mem_cons_self)
    refine ⟨i, hi, by simpa [summaryOf] using h.symm, fun j hj => ?_⟩
    have hj := hperm.mem_iff.2 (List.mem_map.2 ⟨j, hj, rfl⟩)
    rcases List.mem_cons.1 hj with he | hrest
    · exact (congrArg UnitSummary.path he).ge
    · exact (List.pairwise_cons.1 hsorted).1 _ hrest

/-- What extraction finds for a directory is its utility. -/
theorem utilityOf_of_utilityFor {rootName dir : String} {s : SharedUtility}
    (h : UtilityFor (namedBy b rootName) dir (unitsIn (summaries b p) dir) s) :
    UtilityOf b p rootName dir s where
  name := h.name
  path := h.path.trans (by rw [h.name]; rfl)
  space := exists_first h.space
  content := by
    have hprofile : (if s.profile == Profile.sync.name then Profile.sync else .async) =
        b.profile := by
      rw [h.profile]
      cases hb : b.profile <;> simp [namedBy, hb, Profile.name]
    rw [renderUtility, hprofile]

section
variable {rootName : String} {shared : List (String × SharedUtility)} {sharing : Sharing}

/-- A directory has a utility exactly when its files share a request helper. -/
theorem mem_shared_iff (h : Extracted (namedBy b rootName) (summaries b p) shared sharing)
    {dir : String} : dir ∈ shared.map (·.1) ↔ SharesHelper p dir :=
  h.mem_dirs_iff.trans sharesUtility_unitsIn_iff

/-- A utility is the one of its directory. -/
theorem utilityOf_of_mem (h : Extracted (namedBy b rootName) (summaries b p) shared sharing)
    {x : String × SharedUtility} (hx : x ∈ shared) : UtilityOf b p rootName x.1 x.2 :=
  utilityOf_of_utilityFor (utilityFor_eq_some (h.mem_iff.1 hx)).2

end

end

/-! ## Sources -/

/-- How code in the namespace `space` refers to a utility: by its name in the same namespace, and
otherwise by its full name from the root. -/
def utilityType (s : SharedUtility) (space : String) : String :=
  if space = s.namespaceName then s.name
  else "Global." ++ escapePath s.namespaceName ++ "." ++ s.name

/-- The class `lines` of the service `svc` of the file `i` is built from the utility of its
directory, or has the request helper itself where there is none. -/
def ClassOf (b : Backend) (p : Program) (shared : List (String × SharedUtility)) (i : Nat)
    (svc : Program.Service) (lines : List String) : Prop :=
  ∃ c linq, clientOf p i b.profile svc = .ok (c, linq) ∧
    (∀ s, ((p.file i).relDir, s) ∈ shared →
      Delegates b.profile (utilityType s (p.file i).namespaceName) c lines) ∧
    (¬ SharesHelper p (p.file i).relDir → Inlines b.profile c lines)

/-- The source file `o` of the file `i` has its types and a class for each of its services. -/
structure SourceOf (b : Backend) (p : Program) (shared : List (String × SharedUtility)) (i : Nat)
    (o : OutputFile) : Prop where
  path : o.path = joinPath [b.out, unitPath (p.file i)]
  content : ∃ u body classes, emit b p i = .ok (some u) ∧ u.body = some body ∧
    o.content = textOfLines
      (headLines ("source: " ++ (p.file i).name) body.imports body.namespaceName ++
      body.blocks.flatMap (["", ·]) ++ classes.flatMap (["", textOfLines ·]) ++
      ["", "End Namespace", ""]) ∧
    List.Forall₂ (ClassOf b p shared i) (p.file i).services classes

section
variable {b : Backend} {p : Program} {rootName : String} {shared : List (String × SharedUtility)}
  {sharing : Sharing}

/-- A utility is written as code refers to it. -/
theorem rooted_qualifiedName {dir : String} {s : SharedUtility} (h : UtilityOf b p rootName dir s)
    (space : String) : rooted (s.qualifiedName space) = utilityType s space := by
  have hname := h.name
  rw [utilityNameOf] at hname
  rw [SharedUtility.qualifiedName, utilityType]
  simp only [beq_iff_eq]
  split
  · rw [rooted, if_neg (by simp), escapePath, hname, split_utilityName, List.map_singleton,
      escape_utilityName, join, String.intercalate_singleton]
  · rw [rooted, if_pos rfl, hname, escapePath_utilityName]
    simp only [String.append_assoc]

/-- The source file of a unit is the one of its file. -/
theorem sourceOf_render (h : Extracted (namedBy b rootName) (summaries b p) shared sharing)
    {i : Nat} {u : Unit} {o : OutputFile} (hu : UnitOf b p i u)
    (ho : render b u (shared.lookup u.summary.dir) = .ok o) : SourceOf b p shared i o := by
  obtain ⟨body, hbody, hclients⟩ := hu.body
  obtain ⟨hpath, hcontent⟩ := render_eq_ok hbody ho
  rw [hu.summary] at hpath
  refine ⟨hpath, u, body, _, hu.emitted, hbody, hu.source ▸ hcontent, ?_⟩
  rw [List.forall₂_map_right_iff]
  have hdir : u.summary.dir = (p.file i).relDir := by rw [hu.summary, summaryOf]
  refine hclients.imp fun svc c ⟨linq, hc⟩ => ⟨c, linq, hc, fun s hs => ?_, fun hshare => ?_⟩
  · have hplace : placeOf u.summary (shared.lookup u.summary.dir) =
        .utility (utilityType s (p.file i).namespaceName) := by
      rw [← rooted_qualifiedName (utilityOf_of_mem h hs), hdir, lookup_eq_of_mem h.nodup hs,
        hu.summary]
      rfl
    rw [hplace]
    exact delegates_clientLines _ _ c
  · have hplace : placeOf u.summary (shared.lookup u.summary.dir) =
        .inline (helperText b.profile "Private") := by
      rw [hdir, lookup_eq_none (mt (mem_shared_iff h).1 hshare), hu.summary]
      rfl
    rw [hplace]
    exact inlines_clientLines _ c

/-- Only emitting can fail: all units have the same request helper, and all have a body. -/
theorem exists_generate {rs : List (Option Unit)} (rootName : String)
    (h : ((List.range p.files.length).filter fun i => (p.file i).isInput).mapM (emit b p) =
      .ok rs) :
    ∃ outputs, generate b p rootName = .ok outputs := by
  obtain ⟨hunits, hsummaries⟩ := units_of_emit h
  obtain ⟨sharing, hsharing⟩ := exists_extract (namedBy b rootName)
    fun u hu => helper_of_mem_summaries hu
  rw [← hsummaries] at hsharing
  obtain ⟨shared, hshared⟩ := exists_extracted hsharing
  have hrender : ∀ u ∈ rs.filterMap id, ∃ o,
      render b u (shared.lookup u.summary.dir) = .ok o := by
    intro u hu
    obtain ⟨i, hi⟩ := Program.exists_forall₂_iff.1 ⟨_, hunits.flip⟩ u hu
    obtain ⟨body, hbody, -⟩ := hi.body
    rw [render.eq_def, hbody]
    exact ⟨_, rfl⟩
  obtain ⟨sources, hsources⟩ := Program.exists_forall₂_iff.2 hrender
  refine ⟨sources ++ sharing.utilities.map (renderUtility b), ?_⟩
  rw [generate]
  refine bind_eq_ok_iff.2 ⟨rs, h, bind_eq_ok_iff.2 ⟨sharing, hsharing,
    bind_eq_ok_iff.2 ⟨sources, ?_, rfl⟩⟩⟩
  rw [zip_uses hshared.toReads, mapM_eq_ok_iff, List.forall₂_map_left_iff]
  exact hsources

/-- A program is never refused because request helpers differ. -/
theorem generate_ne_helperDiffers {path first : String} :
    generate b p rootName ≠ .error (helperDiffers path first) := by
  cases hrs : ((List.range p.files.length).filter fun i => (p.file i).isInput).mapM (emit b p) with
  | error e =>
    rw [generate, hrs]
    exact error_ne_error (mapM_ne_error (fun _ => emit_ne_error_helperDiffers) _) hrs
  | ok rs =>
    obtain ⟨outputs, houtputs⟩ := exists_generate rootName hrs
    rw [houtputs]
    exact ok_ne_error

/-- The request helper of a run goes where it is needed. It is never refused for differing between
files. When the run succeeds, exactly the directories with several files and a service have a
utility, one each, that holds the helper; the clients of their files are built from it, and those of
the other directories hold the helper themselves. -/
theorem generate_places_helper (b : Backend) (p : Program) (rootName : String) :
    (∀ path first, generate b p rootName ≠ .error (helperDiffers path first)) ∧
    ∀ outputs, generate b p rootName = .ok outputs → ∃ sources shared,
      outputs = sources ++ shared.map (fun x => renderUtility b x.2) ∧
      (shared.map (·.1)).Nodup ∧
      (∀ dir, dir ∈ shared.map (·.1) ↔ SharesHelper p dir) ∧
      (∀ x ∈ shared, UtilityOf b p rootName x.1 x.2) ∧
      List.Forall₂ (SourceOf b p shared) (requested p) sources := by
  refine ⟨fun path first => generate_ne_helperDiffers, fun outputs h => ?_⟩
  obtain ⟨units, shared, sharing, sources, hunits, hshared, hsources, rfl⟩ := generate_eq_ok h
  refine ⟨sources, shared, rfl, hshared.nodup, fun dir => mem_shared_iff hshared,
    fun x hx => utilityOf_of_mem hshared hx, ?_⟩
  exact Program.forall₂_of_common hunits.flip hsources fun u i o hu ho =>
    sourceOf_render hshared hu ho

end

/-- A directory with two files, of which one has a service. -/
def pairSample : Program where
  files := [
    { path := "/r/d/a.proto", baseName := "a", relDir := "d", namespaceName := "A", isInput := true
      services := [{ name := "S" }] },
    { path := "/r/d/b.proto", baseName := "b", relDir := "d", namespaceName := "B", isInput := true
      enums := [0] }]
  enums := [{ name := "E", fullName := "E", file := 1 }]

/-- The files of the directory share a utility. -/
theorem pairSample_places_helper : SharesHelper pairSample "d" ∧
    ∃ outputs, generate { profile := .async } pairSample "out" = .ok outputs ∧
      ∃ sources shared, outputs =
          sources ++ shared.map (fun x => renderUtility { profile := .async } x.2) ∧
        (shared.map (·.1)).Nodup ∧
        (∀ dir, dir ∈ shared.map (·.1) ↔ SharesHelper pairSample dir) ∧
        (∀ x ∈ shared, UtilityOf { profile := .async } pairSample "out" x.1 x.2) ∧
        List.Forall₂ (SourceOf { profile := .async } pairSample shared) (requested pairSample)
          sources := by
  have hemit : ∃ rs, ((List.range pairSample.files.length).filter fun i =>
      (pairSample.file i).isInput).mapM (emit { profile := .async } pairSample) = .ok rs := ⟨_, rfl⟩
  obtain ⟨rs, hrs⟩ := hemit
  obtain ⟨outputs, houtputs⟩ := exists_generate "out" hrs
  exact ⟨⟨by decide, 0, by decide, by decide⟩, outputs, houtputs,
    (generate_places_helper _ _ _).2 outputs houtputs⟩

end ProtoStub.VisualBasic

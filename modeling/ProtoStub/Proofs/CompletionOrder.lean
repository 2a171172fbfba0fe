import ProtoStub.Proofs.Extraction
import ProtoStub.Proofs.Loading
import ProtoStub.Proofs.Refusal

/-!
# The order in which units are finished

Units are finished in any order, and extraction may not show it. The groups of a list and of a
reordered list stand under the same directories (`outputDirs_congr`) and hold the same units in some
order. What is decided about a group does not depend on that order (`utilityFor_congr`): machine
integers add up to the same in every order, and units with distinct paths are sorted in one way. So
both scans find the same, also which directory is refused first (`scan_congr`). `extract_reordered`
adds what the result says about the units: the utilities ascend by directory, and each is set on all
units of its directory and has them as its users, the first of which lends its namespace.
-/

namespace ProtoStub

open Program (bind_ne_error foldlM_ne_error ok_ne_error)

/-! ## What extraction sees of the units -/

section
variable {units reordered : List (UnitSummary Int64)}

/-- Machine integers add up to the same in every order, also where they wrap around. -/
theorem clientsOf_congr (h : units.Perm reordered) : clientsOf units = clientsOf reordered := by
  refine h.foldl_eq' (fun u _ v _ n => ?_) 0
  rw [Int64.add_assoc, Int64.add_comm u.clients, Int64.add_assoc]

/-- Units with distinct paths are sorted by strictly ascending path. -/
theorem pairwise_byPath (hpaths : (units.map (·.path)).Nodup) :
    (byPath units).Pairwise (·.path < ·.path) := by
  have hsorted : (byPath units).Pairwise (·.path ≤ ·.path) :=
    Schema.pairwise_mergeSort_le UnitSummary.path _
  have hnodup : ((byPath units).map (·.path)).Nodup :=
    ((byPath_perm units).map _).nodup_iff.2 hpaths
  rw [List.Nodup, List.pairwise_map] at hnodup
  exact hsorted.imp₂ (fun _ _ hle hne => lt_of_le_of_ne hle hne) hnodup

/-- Units with distinct paths are sorted in one way. -/
theorem byPath_congr (hpaths : (units.map (·.path)).Nodup) (h : units.Perm reordered) :
    byPath units = byPath reordered := by
  have hperm : (byPath units).Perm (byPath reordered) :=
    (byPath_perm units).trans (h.trans (byPath_perm reordered).symm)
  refine hperm.eq_of_pairwise (fun a b _ _ hab hba => absurd hba hab.asymm)
    (pairwise_byPath hpaths) (pairwise_byPath ?_)
  exact (h.map _).nodup_iff.1 hpaths

/-- The same is decided about the units of a directory in every order. -/
theorem utilityFor_congr (options : ExtractOptions) (dir : String)
    (hpaths : (units.map (·.path)).Nodup) (h : units.Perm reordered) :
    utilityFor options dir units = utilityFor options dir reordered := by
  simp only [utilityFor, h.length_eq, clientsOf_congr h, byPath_congr hpaths h]

theorem unitsIn_perm (h : units.Perm reordered) (dir : String) :
    (unitsIn units dir).Perm (unitsIn reordered dir) :=
  h.filter _

theorem nodup_paths_unitsIn (hpaths : (units.map (·.path)).Nodup) (dir : String) :
    ((unitsIn units dir).map (·.path)).Nodup :=
  hpaths.sublist (List.filter_sublist.map _)

/-- The directories do not depend on the order of the units. -/
theorem outputDirs_congr (h : units.Perm reordered) : outputDirs units = outputDirs reordered := by
  refine (pairwise_outputDirs units).eq_of_mem_iff (pairwise_outputDirs reordered) fun dir => ?_
  have hlen := (unitsIn_perm h dir).length_eq
  rw [mem_outputDirs, mem_outputDirs, ← List.length_pos_iff, ← List.length_pos_iff, hlen]

/-- Two scans that decide the same about each directory both stop at the same error, or both
succeed. -/
theorem scan_congr {options : ExtractOptions} (hlook : ∀ dir,
      utilityFor options dir (unitsIn units dir) = utilityFor options dir (unitsIn reordered dir))
    (dirs : List String) (r r' : Sharing) :
    (∃ e,
      (dirs.map fun dir => (dir, numberedIn units dir)).foldlM (shareGroup options) r = .error e ∧
      (dirs.map fun dir => (dir, numberedIn reordered dir)).foldlM (shareGroup options) r' =
        .error e) ∨
    ∃ x y,
      (dirs.map fun dir => (dir, numberedIn units dir)).foldlM (shareGroup options) r = .ok x ∧
      (dirs.map fun dir => (dir, numberedIn reordered dir)).foldlM (shareGroup options) r' =
        .ok y := by
  induction dirs generalizing r r' with
  | nil => exact .inr ⟨r, r', rfl, rfl⟩
  | cons dir dirs ih =>
    simp only [List.map_cons, List.foldlM_cons, shareGroup, map_numberedIn, ← hlook dir]
    cases utilityFor options dir (unitsIn units dir) with
    | error e => exact .inl ⟨e, rfl, rfl⟩
    | ok o => cases o <;> exact ih _ _

/-- Extraction refuses units only as output that cannot be rendered. -/
theorem exists_emit_of_extract {options : ExtractOptions} {e : Error}
    (h : extract options units = .error e) : ∃ file cause, e = .emit file cause := by
  by_contra hother
  refine foldlM_ne_error (fun r group => ?_) _ _ h
  rw [shareGroup]
  rcases utilityFor_cases options group.1 (group.2.map (·.2)) with
    ⟨-, hu⟩ | ⟨-, s, hu, -⟩ | ⟨u, -, first, -, -, hu⟩
  · rw [hu]
    exact ok_ne_error
  · rw [hu]
    exact ok_ne_error
  · rw [hu]
    exact fun he => hother ⟨_, _, (Except.error.inj he).symm⟩

end

/-! ## What extraction decides -/

/-- The utility `s` of the directory `dir` is shared by all of its units: their paths in ascending
order are its users, and its namespace is that of the first. -/
structure SharedBy (units : List (UnitSummary Int64)) (dir : String) (s : SharedUtility) :
    Prop where
  ascending : s.users.Pairwise (· < ·)
  mem_users : ∀ path, path ∈ s.users ↔ ∃ u ∈ units, u.dir = dir ∧ u.path = path
  first : ∃ u ∈ units, u.dir = dir ∧ s.users.head? = some u.path ∧
    s.namespaceName = u.namespaceName

section
variable {options : ExtractOptions} {units reordered : List (UnitSummary Int64)}
  {shared shared' : List (String × SharedUtility)} {r r' : Sharing}

/-- A utility is shared by all units of its directory. -/
theorem Extracted.sharedBy (h : Extracted options units shared r)
    (hpaths : (units.map (·.path)).Nodup) {dir : String} {s : SharedUtility}
    (hs : (dir, s) ∈ shared) : SharedBy units dir s := by
  have hfor := (utilityFor_eq_some (h.mem_iff.1 hs)).2
  obtain ⟨u, hfirst, hname⟩ := Option.map_eq_some_iff.1 hfor.space
  have hmem : ∀ {v}, v ∈ byPath (unitsIn units dir) ↔ v ∈ units ∧ v.dir = dir := by
    intro v
    rw [(byPath_perm _).mem_iff, mem_unitsIn]
  obtain ⟨hu, hdir⟩ := hmem.1 (List.mem_of_mem_head? hfirst)
  refine ⟨?_, fun path => ?_, u, hu, hdir, ?_, hname.symm⟩
  · rw [hfor.users, List.pairwise_map]
    exact pairwise_byPath (nodup_paths_unitsIn hpaths dir)
  · simp only [hfor.users, List.mem_map, hmem, and_assoc]
  · rw [hfor.users, List.head?_map, hfirst, Option.map_some]

/-- The table of utilities does not depend on the order of the units. -/
theorem Extracted.table_eq (h : Extracted options units shared r)
    (h' : Extracted options reordered shared' r') (hpaths : (units.map (·.path)).Nodup)
    (hperm : units.Perm reordered) : shared' = shared := by
  refine table_ext h'.ascending h.ascending fun ⟨dir, s⟩ => ?_
  rw [h'.mem_iff, h.mem_iff, utilityFor_congr options dir (nodup_paths_unitsIn hpaths dir)
    (unitsIn_perm hperm dir)]

end

/-- Extraction gives one result for all orders of units with distinct paths: the same refusal, or
the same utilities in ascending order of their directories, which are those with several units whose
clients do not add up to zero. Each utility is shared by all units of its directory and set on them,
and each unit has the same utility or none in all orders. -/
theorem extract_reordered (options : ExtractOptions) {units reordered : List (UnitSummary Int64)}
    (hpaths : (units.map (·.path)).Nodup) (hperm : units.Perm reordered) :
    (∃ file cause, extract options units = .error (.emit file cause) ∧
      extract options reordered = .error (.emit file cause)) ∨
    ∃ sharing sharing' dirs,
      extract options units = .ok sharing ∧ extract options reordered = .ok sharing' ∧
      sharing'.utilities = sharing.utilities ∧
      dirs.Pairwise (· < ·) ∧ List.Forall₂ (SharedBy units) dirs sharing.utilities ∧
      (∀ dir, dir ∈ dirs ↔ SharesUtility (unitsIn units dir)) ∧
      ∀ (i : Nat) (u : UnitSummary Int64), units[i]? = some u → ∃ use, sharing.uses[i]? = some use ∧
        (∀ s, use = some s ↔ (u.dir, s) ∈ dirs.zip sharing.utilities) ∧
        ∀ (j : Nat) (v : UnitSummary Int64), reordered[j]? = some v → v.path = u.path →
          sharing'.uses[j]? = some use := by
  have hscan : (∃ e, extract options units = .error e ∧ extract options reordered = .error e) ∨
      ∃ x y, extract options units = .ok x ∧ extract options reordered = .ok y := by
    rw [extract, extract, groupByDir_eq, groupByDir_eq, outputDirs_congr hperm]
    exact scan_congr (fun dir => utilityFor_congr options dir (nodup_paths_unitsIn hpaths dir)
      (unitsIn_perm hperm dir)) _ _ _
  rcases hscan with ⟨e, he, he'⟩ | ⟨sharing, sharing', h, h'⟩
  · obtain ⟨file, cause, rfl⟩ := exists_emit_of_extract he
    exact .inl ⟨file, cause, he, he'⟩
  · obtain ⟨shared, hx⟩ := exists_extracted h
    obtain ⟨shared', hx'⟩ := exists_extracted h'
    cases hx.table_eq hx' hpaths hperm
    refine .inr ⟨sharing, sharing', shared.map (·.1), h, h', ?_, hx.ascending, ?_,
      fun dir => hx.mem_dirs_iff, fun i u hu => ⟨shared.lookup u.dir, ?_, fun s => ?_, ?_⟩⟩
    · rw [hx.utilities, hx'.utilities]
    · rw [hx.utilities, List.forall₂_map_left_iff, List.forall₂_map_right_iff, List.forall₂_same]
      exact fun x hmem => hx.sharedBy hpaths hmem
    · rw [hx.uses, List.getElem?_map, hu, Option.map_some]
    · rw [hx.utilities, List.zip_map', List.map_id']
      exact ⟨mem_of_lookup, lookup_eq_of_mem hx.nodup⟩
    · intro j v hv hpath
      have hsame := List.inj_on_of_nodup_map hpaths
        (hperm.mem_iff.2 (List.mem_of_getElem? hv)) (List.mem_of_getElem? hu) hpath
      rw [hx'.uses, List.getElem?_map, hv, Option.map_some, hsame]

/-- Units of three directories. In one several units have a client together, in another the numbers
of clients wrap around to zero. They were not finished in the order of their paths. -/
def crossedUnits : List (UnitSummary Int64) := [
  { path := "a/two.vb", dir := "a", namespaceName := "Two", clients := 1, helper := "post" },
  { path := "b/one.vb", dir := "b", namespaceName := "B", clients := 1, helper := "post" },
  { path := "c/two.vb", dir := "c", clients := Int64.minValue, helper := "post" },
  { path := "a/one.vb", dir := "a", namespaceName := "One", clients := 0, helper := "post" },
  { path := "c/one.vb", dir := "c", clients := Int64.minValue, helper := "post" }]

theorem sharesUtility_crossedUnits_iff {dir : String} :
    SharesUtility (unitsIn crossedUnits dir) ↔ dir = "a" := by
  constructor
  · intro h
    obtain ⟨u, hu⟩ := List.exists_mem_of_length_pos (Nat.zero_lt_of_lt h.1)
    obtain ⟨hmem, rfl⟩ := mem_unitsIn.1 hu
    have hothers : ∀ v ∈ crossedUnits, 2 ≤ (unitsIn crossedUnits v.dir).length →
      clientsOf (unitsIn crossedUnits v.dir) ≠ 0 → v.dir = "a" := by decide
    exact hothers u hmem h.1 h.2
  · rintro rfl
    exact ⟨by decide, by decide⟩

/-- In the opposite order the units still have one utility, for the directory with a client and two
units; its namespace is that of the unit that comes first by path, and it is set on that unit. -/
theorem crossedUnits_reordered : (crossedUnits.map (·.path)).Nodup ∧
    crossedUnits.Perm crossedUnits.reverse ∧ ∃ sharing sharing' s,
      extract {} crossedUnits = .ok sharing ∧ extract {} crossedUnits.reverse = .ok sharing' ∧
      sharing.utilities = [s] ∧ sharing'.utilities = [s] ∧ sharing'.uses[1]? = some (some s) ∧
      s.users = ["a/one.vb", "a/two.vb"] ∧ s.namespaceName = "One" := by
  have hpaths : (crossedUnits.map (·.path)).Nodup := by decide
  have hperm : crossedUnits.Perm crossedUnits.reverse := (List.reverse_perm _).symm
  refine ⟨hpaths, hperm, ?_⟩
  have hhelper : ∀ u ∈ crossedUnits, u.helper = "post" := by decide
  obtain ⟨r, hok⟩ := exists_extract {} hhelper
  rcases extract_reordered {} hpaths hperm with ⟨file, cause, he, -⟩ |
    ⟨sharing, sharing', dirs, h, h', hsame, hdirs, hby, hshares, huses⟩
  · rw [hok] at he
    cases he
  obtain rfl : dirs = ["a"] :=
    hdirs.eq_of_mem_iff (List.pairwise_singleton _ _) fun dir => by
      rw [hshares, sharesUtility_crossedUnits_iff, List.mem_singleton]
  obtain ⟨s, rest, hs, hrest, hshared⟩ := List.forall₂_cons_left_iff.1 hby
  cases hrest
  have husers : s.users = ["a/one.vb", "a/two.vb"] :=
    hs.ascending.eq_of_mem_iff (by decide) fun path => by
      rw [hs.mem_users]
      simp only [crossedUnits, List.mem_cons, List.not_mem_nil, or_false, exists_eq_or_imp,
        exists_eq_left]
      simp [eq_comm, or_comm]
  obtain ⟨use, -, huse, hother⟩ := huses 3 _ rfl
  refine ⟨sharing, sharing', s, h, h', hshared, hsame.trans hshared, ?_, husers, ?_⟩
  · rw [hother 1 _ rfl rfl, (huse s).2 (by simp [hshared])]
  · obtain ⟨u, hu, -, hhead, hname⟩ := hs.first
    have hfirst : ∀ v ∈ crossedUnits, v.path = "a/one.vb" → v.namespaceName = "One" := by decide
    rw [husers] at hhead
    exact hname.trans (hfirst u hu (Option.some.inj hhead).symm)

end ProtoStub

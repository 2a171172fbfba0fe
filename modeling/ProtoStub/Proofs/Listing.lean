import ProtoStub.Proofs.Containment
import ProtoStub.Proofs.Loading
import ProtoStub.Discovery
import Mathlib.Data.List.Nodup

/-!
# What is listed below a directory

`discover` goes through the entries below a directory, drops what a pattern excludes and sorts the
paths. `Workspace.Qualifies` says of one entry, by its place, what that comes to; the list holds
exactly the paths of the entries that qualify, in ascending order and each once, and there is an
error when none does (`listsExactly_discover`).

An entry qualifies by its name alone, be it a file or a directory. So the list is one of schema
files exactly when no directory qualifies (`discover_files_iff`); a directory that does is
listed among them (`directory_listed`).
-/

namespace ProtoStub

open Text

/-! ## Patterns -/

section
variable {path : String} {excludes : List String}

/-- A pattern is refused at the path, and none before it matches. -/
def RefusedAt (excludes : List String) (path : String) : Prop :=
  ∃ before pattern after, excludes = before ++ pattern :: after ∧
    (∀ p ∈ before, Glob.matches? p path = .ok false) ∧
    Glob.matches? pattern path = .error .malformed

/-- No pattern matches the path. -/
def Unmatched (excludes : List String) (path : String) : Prop :=
  ∀ pattern ∈ excludes, Glob.matches? pattern path ≠ .ok true

/-- A pattern that is not one is an error where it is asked. -/
theorem isExcluded_of_refusedAt (h : RefusedAt excludes path) :
    ∃ e, isExcluded path excludes = .error e := by
  obtain ⟨before, pattern, after, rfl, hbefore, hpattern⟩ := h
  induction before with
  | nil => exact ⟨_, by rw [List.nil_append, isExcluded, hpattern]⟩
  | cons p before ih =>
    obtain ⟨hp, hrest⟩ := List.forall_mem_cons.1 hbefore
    rw [List.cons_append, isExcluded, hp]
    exact ih hrest

/-- Unless a pattern is refused, it is known whether one matches. -/
theorem exists_isExcluded (h : ¬ RefusedAt excludes path) :
    ∃ b, isExcluded path excludes = .ok b ∧ (b = false ↔ Unmatched excludes path) := by
  induction excludes with
  | nil => exact ⟨false, rfl, by simp [Unmatched]⟩
  | cons pattern rest ih =>
    rw [isExcluded]
    rcases hm : Glob.matches? pattern path with e | _ | _
    · exact absurd ⟨[], pattern, rest, rfl, by simp, by rw [hm]⟩ h
    · have hrest : ¬ RefusedAt rest path := by
        rintro ⟨before, p, after, rfl, hbefore, hp⟩
        exact h ⟨pattern :: before, p, after, rfl, List.forall_mem_cons.2 ⟨hm, hbefore⟩, hp⟩
      obtain ⟨b, hb, hiff⟩ := ih hrest
      exact ⟨b, hb, hiff.trans (by simp [Unmatched, hm])⟩
    · exact ⟨true, rfl, by simp [Unmatched, hm]⟩

end

/-- A list whose members can all be judged is filtered. -/
theorem filterM_eq_filter {α : Type} {keep : α → Except Error Bool} {p : α → Bool} {xs : List α}
    (h : ∀ x ∈ xs, keep x = .ok (p x)) : filterM keep xs = .ok (xs.filter p) := by
  induction xs with
  | nil => rfl
  | cons x xs ih =>
    obtain ⟨hx, hxs⟩ := List.forall_mem_cons.1 h
    rw [filterM, hx, ih hxs]
    cases hp : p x <;> simp [hp, Except.map]

/-- One member that cannot be judged is enough for an error. -/
theorem filterM_eq_error {α : Type} (keep : α → Except Error Bool) {x : α} {xs : List α}
    (hx : x ∈ xs) (h : ∃ e, keep x = .error e) : ∃ e, filterM keep xs = .error e := by
  induction xs with
  | nil => cases hx
  | cons y xs ih =>
    rw [filterM]
    rcases hy : keep y with e | _ | _
    · exact ⟨e, rfl⟩
    all_goals
      rcases List.mem_cons.1 hx with rfl | hx
      · obtain ⟨e, he⟩ := h
        rw [he] at hy
        cases hy
      · obtain ⟨e, he⟩ := ih hx
        exact ⟨e, by simp [he, Except.map]⟩

/-! ## Entries below a directory -/

namespace Workspace

variable {w : Workspace} {dir names : List String} {e : Entry} {excludes : List String}

/-- The entries are a tree of files: no two of them stand at one place, and places are made of
names. -/
structure IsTree (w : Workspace) : Prop where
  nodup : (w.entries.map (·.1)).Nodup
  names : ∀ x ∈ w.entries, ∀ name ∈ x.1, IsName name

/-- The names lead to something that is named like a schema file. -/
def NamesSchema (names : List String) : Prop :=
  ∃ last, names.getLast? = some last ∧ endsWith last schemaEnding = true

/-- From the directory at `dir` the names lead down to the entry `e`, which is named like a schema
file and which no pattern excludes. -/
structure Qualifies (w : Workspace) (dir excludes names : List String) (e : Entry) : Prop where
  entry : w.entry? (dir ++ names) = some e
  named : NamesSchema names
  unmatched : Unmatched excludes (join "/" names)

/-- The path is that of an entry below the directory that qualifies. -/
def HoldsEntry (w : Workspace) (dir excludes : List String) (path : String) : Prop :=
  ∃ names e, w.Qualifies dir excludes names e ∧ path = pathOf (dir ++ names)

/-- The path is that of a file below the directory that qualifies. -/
def HoldsFile (w : Workspace) (dir excludes : List String) (path : String) : Prop :=
  ∃ names content, w.Qualifies dir excludes names (.file content) ∧ path = pathOf (dir ++ names)

theorem NamesSchema.ne_nil (h : NamesSchema names) : names ≠ [] := by
  rintro rfl
  obtain ⟨last, hlast, -⟩ := h
  cases hlast

/-- In a tree, what is found at a place is what is entered for it. -/
theorem IsTree.entry_iff (hw : w.IsTree) {place : List String} (hne : place ≠ []) :
    w.entry? place = some e ↔ (place, e) ∈ w.entries := by
  rw [entry_of_ne_nil hne]
  exact ⟨mem_of_lookup, lookup_eq_of_mem hw.nodup⟩

theorem mem_below : (names, e) ∈ w.below dir ↔ (dir ++ names, e) ∈ w.entries ∧ names ≠ [] := by
  rw [below, List.mem_filterMap]
  constructor
  · rintro ⟨⟨place, e'⟩, hmem, h⟩
    simp only [Option.ite_none_right_eq_some, Bool.and_eq_true, List.isPrefixOf_iff_prefix,
      decide_eq_true_eq, Option.some.injEq, Prod.mk.injEq] at h
    obtain ⟨⟨⟨rest, rfl⟩, hlength⟩, hnames, rfl⟩ := h
    rw [List.drop_left] at hnames
    subst hnames
    refine ⟨hmem, ?_⟩
    rintro rfl
    simp at hlength
  · rintro ⟨hmem, hne⟩
    refine ⟨_, hmem, ?_⟩
    simp [List.length_pos_iff.2 hne]

/-- The ways from a directory down to what is named like a schema file, in the order of the
entries. -/
def schemaWays (w : Workspace) (dir : List String) : List (List String) :=
  ((w.below dir).map (·.1)).filter fun names =>
    (names.getLast?.map (endsWith · schemaEnding)).getD false

theorem schemaPaths_eq (w : Workspace) (dir : List String) :
    w.schemaPaths dir = (w.schemaWays dir).map (join "/") := by
  rw [schemaPaths, schemaWays, List.filter_map, List.map_map, ← List.filterMap_eq_filter,
    List.map_filterMap]
  congr 1
  funext x
  by_cases h : (x.1.getLast?.map (endsWith · schemaEnding)).getD false = true <;> simp [h]

/-- The ways that are walked lead to the entries named like schema files. -/
theorem mem_schemaWays (hw : w.IsTree) :
    names ∈ w.schemaWays dir ↔ NamesSchema names ∧ ∃ e, w.entry? (dir ++ names) = some e := by
  have hnamed : (names.getLast?.map (endsWith · schemaEnding)).getD false = true ↔
      NamesSchema names := by
    cases h : names.getLast? <;> simp [NamesSchema, h]
  rw [schemaWays, List.mem_filter, hnamed, and_comm, List.mem_map]
  refine and_congr_right fun hschema => ⟨?_, ?_⟩
  · rintro ⟨⟨names, e⟩, hmem, rfl⟩
    obtain ⟨hmem, hne⟩ := mem_below.1 hmem
    exact ⟨e, (hw.entry_iff (by simp [hne])).2 hmem⟩
  · rintro ⟨e, he⟩
    have hne := hschema.ne_nil
    exact ⟨(names, e), mem_below.2 ⟨(hw.entry_iff (by simp [hne])).1 he, hne⟩, rfl⟩

/-- A place where something stands is made of names. -/
theorem IsTree.isName_of_entry (hw : w.IsTree) {place : List String}
    (h : w.entry? place = some e) : ∀ name ∈ place, IsName name := by
  by_cases hne : place = []
  · simp [hne]
  · exact hw.names _ ((hw.entry_iff hne).1 h)

theorem IsTree.isName_of_schemaWay (hw : w.IsTree) (h : names ∈ w.schemaWays dir) :
    ∀ name ∈ dir ++ names, IsName name := by
  obtain ⟨-, e, he⟩ := (mem_schemaWays hw).1 h
  exact hw.isName_of_entry he

/-- No way is gone down twice. -/
theorem IsTree.nodup_schemaWays (hw : w.IsTree) (dir : List String) :
    (w.schemaWays dir).Nodup := by
  refine List.Nodup.filter _ ?_
  have hbelow : (w.below dir).map (·.1) = (w.entries.map (·.1)).filterMap fun place =>
      if dir.isPrefixOf place && decide (dir.length < place.length) then
        some (place.drop dir.length) else none := by
    rw [below, List.map_filterMap, List.filterMap_map]
    congr 1
    funext x
    simp only [Function.comp]
    split <;> simp_all
  rw [hbelow]
  refine hw.nodup.filterMap fun a b names ha hb => ?_
  simp only [Option.mem_def, Option.ite_none_right_eq_some, Bool.and_eq_true,
    List.isPrefixOf_iff_prefix, Option.some.injEq] at ha hb
  obtain ⟨⟨⟨rest, rfl⟩, -⟩, ha⟩ := ha
  obtain ⟨⟨⟨rest', rfl⟩, -⟩, hb⟩ := hb
  rw [List.drop_left] at ha hb
  rw [ha, hb]

end Workspace

/-! ## The list -/

/-- The answer lists exactly the paths with the property, in ascending order and each once; it is an
error when there is none. -/
def ListsExactly (P : String → Prop) : Except Error (List String) → Prop
  | .ok paths => paths ≠ [] ∧ paths.Pairwise (· < ·) ∧ ∀ path, path ∈ paths ↔ P path
  | .error _ => ∀ path, ¬ P path

theorem ListsExactly.congr {P Q : String → Prop} {answer : Except Error (List String)}
    (h : ListsExactly P answer) (hPQ : ∀ path, P path ↔ Q path) : ListsExactly Q answer := by
  have heq : P = Q := funext fun path => propext (hPQ path)
  exact heq ▸ h

/-- An answer that lists two properties exactly shows that they are the same. -/
theorem ListsExactly.iff {P Q : String → Prop} {answer : Except Error (List String)}
    (hP : ListsExactly P answer) (hQ : ListsExactly Q answer) (path : String) :
    P path ↔ Q path := by
  cases answer with
  | error => exact iff_of_false (hP path) (hQ path)
  | ok paths => exact (hP.2.2 path).symm.trans (hQ.2.2 path)

/-- Paths that are all different ascend strictly once they are sorted. -/
theorem pairwise_ascending {paths : List String} (h : paths.Nodup) :
    (ascending paths).Pairwise (· < ·) := by
  have hle : (ascending paths).Pairwise (· ≤ ·) := Schema.pairwise_mergeSort_le id paths
  have hnodup : (ascending paths).Nodup := (List.mergeSort_perm paths _).nodup_iff.2 h
  exact hle.imp₂ (fun _ _ hle hne => lt_of_le_of_ne hle hne) hnodup

theorem mem_ascending {paths : List String} {path : String} :
    path ∈ ascending paths ↔ path ∈ paths := (List.mergeSort_perm paths _).mem_iff

section
variable {w : Workspace} {path : String} {excludes : List String}

/-- Behind its checks, the search below a directory filters, sorts and refuses an empty list. -/
theorem discover_of_directory (hdir : w.find (w.absolute path) = .ok .directory)
    (hvalid : ∀ pattern ∈ excludes, Glob.isValid pattern = true) :
    discover w path excludes =
      match filterM (fun p => (isExcluded p excludes).map (!·))
        ((w.schemaWays (w.placeOf path)).map (join "/")) with
      | .error e => .error e
      | .ok found =>
        if found.isEmpty then
          .error (.other ("no .proto files found under " ++ w.absolute path))
        else .ok (ascending (found.map fun p => joinPath [w.absolute path, p])) := by
  have hnone : excludes.find? (!Glob.isValid ·) = none := by
    rw [List.find?_eq_none]
    intro pattern hp
    simp [hvalid pattern hp]
  have hstat : (w.stat (w.absolute path)).mapError Error.refused = .ok .directory := by
    rw [Workspace.stat, hdir]
    rfl
  rw [discover, hnone]
  dsimp only
  rw [hstat, ← Workspace.placeOf, Workspace.schemaPaths_eq]
  simp only [bind, Except.bind, pure, Except.pure]
  rcases filterM (fun p => (isExcluded p excludes).map (!·))
    ((w.schemaWays (w.placeOf path)).map (join "/")) with e | found
  · rfl
  · simp only
    split <;> rfl

/-- A pattern is refused at the path of an entry that is named like a schema file. -/
def RefusedBelow (w : Workspace) (dir excludes : List String) : Prop :=
  ∃ names e, w.entry? (dir ++ names) = some e ∧ Workspace.NamesSchema names ∧
    RefusedAt excludes (join "/" names)

theorem not_refusedBelow_nil {dir : List String} : ¬ RefusedBelow w dir [] := by
  rintro ⟨names, e, -, -, before, pattern, after, hnil, -⟩
  simp at hnil

/-- A pattern that is refused stops the search. -/
theorem discover_of_refusedBelow (hw : w.IsTree) (hdir : w.find (w.absolute path) = .ok .directory)
    (hvalid : ∀ pattern ∈ excludes, Glob.isValid pattern = true)
    (h : RefusedBelow w (w.placeOf path) excludes) : ∃ e, discover w path excludes = .error e := by
  obtain ⟨names, entry, hentry, hnamed, hrefused⟩ := h
  obtain ⟨e, he⟩ := isExcluded_of_refusedAt hrefused
  have hmem : join "/" names ∈ (w.schemaWays (w.placeOf path)).map (join "/") :=
    List.mem_map_of_mem ((Workspace.mem_schemaWays hw).2 ⟨hnamed, entry, hentry⟩)
  obtain ⟨e', he'⟩ := filterM_eq_error (fun p => (isExcluded p excludes).map (!·)) hmem
    ⟨e, by rw [he]; rfl⟩
  exact ⟨e', by rw [discover_of_directory hdir hvalid, he']⟩

/-- The ways to what is named like a schema file that no pattern excludes. -/
def freeWays (w : Workspace) (dir excludes : List String) : List (List String) :=
  (w.schemaWays dir).filter fun names =>
    (isExcluded (join "/" names) excludes).toOption == some false

section
variable {dir names : List String}

/-- A way that is not refused can be judged. -/
theorem isExcluded_of_mem_schemaWays (hw : w.IsTree) (h : ¬ RefusedBelow w dir excludes)
    (hmem : names ∈ w.schemaWays dir) :
    ∃ b, isExcluded (join "/" names) excludes = .ok b ∧
      (b = false ↔ Unmatched excludes (join "/" names)) := by
  obtain ⟨hnamed, e, he⟩ := (Workspace.mem_schemaWays hw).1 hmem
  exact exists_isExcluded fun hrefused => h ⟨names, e, he, hnamed, hrefused⟩

theorem mem_freeWays (hw : w.IsTree) (h : ¬ RefusedBelow w dir excludes) :
    names ∈ freeWays w dir excludes ↔ ∃ e, w.Qualifies dir excludes names e := by
  rw [freeWays, List.mem_filter]
  constructor
  · rintro ⟨hmem, hfree⟩
    obtain ⟨hnamed, e, he⟩ := (Workspace.mem_schemaWays hw).1 hmem
    obtain ⟨b, hb, hiff⟩ := isExcluded_of_mem_schemaWays hw h hmem
    rw [hb] at hfree
    exact ⟨e, he, hnamed, hiff.1 (by simpa [Except.toOption] using hfree)⟩
  · rintro ⟨e, hentry, hnamed, hunmatched⟩
    have hmem := (Workspace.mem_schemaWays hw).2 ⟨hnamed, e, hentry⟩
    obtain ⟨b, hb, hiff⟩ := isExcluded_of_mem_schemaWays hw h hmem
    rw [hb, hiff.2 hunmatched]
    exact ⟨hmem, rfl⟩

/-- When no pattern is refused, what no pattern excludes is kept. -/
theorem filterM_schemaWays (hw : w.IsTree) (h : ¬ RefusedBelow w dir excludes) :
    filterM (fun p => (isExcluded p excludes).map (!·)) ((w.schemaWays dir).map (join "/")) =
      .ok ((freeWays w dir excludes).map (join "/")) := by
  rw [filterM_eq_filter (p := fun rel => (isExcluded rel excludes).toOption == some false)]
  · rw [freeWays, List.filter_map]
    rfl
  · intro rel hrel
    obtain ⟨names, hmem, rfl⟩ := List.mem_map.1 hrel
    obtain ⟨b, hb, -⟩ := isExcluded_of_mem_schemaWays hw h hmem
    rw [hb]
    cases b <;> rfl

/-- A way down, put behind the path of a directory, is the path of where it leads. -/
theorem joinPath_join (hdir : ∀ name ∈ dir, IsName name) (hnames : ∀ name ∈ names, IsName name)
    (hne : names ≠ []) :
    joinPath [Workspace.pathOf dir, join "/" names] = Workspace.pathOf (dir ++ names) := by
  have htext : join "/" names = Path.toText ⟨false, names⟩ := by simp [Path.toText, hne]
  rw [htext, joinPath_toText _ hnames, ofText_pathOf hdir]
  rfl

/-- Different ways lead to different paths. -/
theorem pathOf_append_inj {names' : List String} (h : ∀ name ∈ dir ++ names, IsName name)
    (h' : ∀ name ∈ dir ++ names', IsName name)
    (hpath : Workspace.pathOf (dir ++ names) = Workspace.pathOf (dir ++ names')) :
    names = names' := by
  have hplace := congrArg Path.ofText hpath
  rw [ofText_pathOf h, ofText_pathOf h'] at hplace
  exact List.append_cancel_left (Path.mk.inj hplace).2

end

/-- The paths of the ways that no pattern excludes, in ascending order. -/
theorem discover_eq_freeWays (hw : w.IsTree) (hdir : w.find (w.absolute path) = .ok .directory)
    (hvalid : ∀ pattern ∈ excludes, Glob.isValid pattern = true)
    (h : ¬ RefusedBelow w (w.placeOf path) excludes) :
    discover w path excludes =
      if freeWays w (w.placeOf path) excludes = [] then
        .error (.other ("no .proto files found under " ++ w.absolute path))
      else .ok (ascending ((freeWays w (w.placeOf path) excludes).map fun names =>
        Workspace.pathOf (w.placeOf path ++ names))) := by
  obtain ⟨place, hplace, habs⟩ := rooted_absolute w.cwd path
  have hstart : w.absolute path = Workspace.pathOf place := habs
  have hplaceOf : w.placeOf path = place := by
    rw [Workspace.placeOf, hstart, ofText_pathOf hplace]
  rw [discover_of_directory hdir hvalid, filterM_schemaWays hw h, hplaceOf, hstart]
  dsimp only
  rw [List.map_map]
  have hpaths : (freeWays w place excludes).map
      ((fun p => joinPath [Workspace.pathOf place, p]) ∘ join "/") =
        (freeWays w place excludes).map fun names => Workspace.pathOf (place ++ names) := by
    refine List.map_congr_left fun names hmem => ?_
    have hway := (List.mem_filter.1 hmem).1
    have hnames := hw.isName_of_schemaWay hway
    exact joinPath_join hplace (fun n hn => hnames n (List.mem_append_right _ hn))
      ((Workspace.mem_schemaWays hw).1 hway).1.ne_nil
  rw [hpaths]
  cases freeWays w place excludes <;> simp

/-- The paths of the entries that qualify are listed, and nothing else. -/
theorem listsExactly_discover (hw : w.IsTree) (hdir : w.find (w.absolute path) = .ok .directory)
    (hvalid : ∀ pattern ∈ excludes, Glob.isValid pattern = true)
    (h : ¬ RefusedBelow w (w.placeOf path) excludes) :
    ListsExactly (w.HoldsEntry (w.placeOf path) excludes) (discover w path excludes) := by
  rw [discover_eq_freeWays hw hdir hvalid h]
  split
  · rename_i hnil
    rintro p ⟨names, e, hq, -⟩
    have hmem := (mem_freeWays hw h).2 ⟨e, hq⟩
    rw [hnil] at hmem
    cases hmem
  · rename_i hne
    have hnodup : ((freeWays w (w.placeOf path) excludes).map fun names =>
        Workspace.pathOf (w.placeOf path ++ names)).Nodup :=
      ((hw.nodup_schemaWays _).filter _).map_on fun a ha b hb => pathOf_append_inj
        (hw.isName_of_schemaWay (List.mem_filter.1 ha).1)
        (hw.isName_of_schemaWay (List.mem_filter.1 hb).1)
    refine ⟨?_, pairwise_ascending hnodup, fun p => ?_⟩
    · intro hnil
      have hperm := List.mergeSort_perm ((freeWays w (w.placeOf path) excludes).map fun names =>
        Workspace.pathOf (w.placeOf path ++ names)) (decide <| · ≤ ·)
      rw [ascending] at hnil
      rw [hnil] at hperm
      exact hne (by simpa using hperm.nil_eq)
    · simp only [mem_ascending, List.mem_map, mem_freeWays hw h, Workspace.HoldsEntry]
      constructor
      · rintro ⟨names, ⟨e, hq⟩, rfl⟩
        exact ⟨names, e, hq, rfl⟩
      · rintro ⟨names, e, hq, rfl⟩
        exact ⟨names, ⟨e, hq⟩, rfl⟩

/-- Below a directory of a tree of files, with valid patterns of which none is refused on the way,
the list holds exactly the paths of the entries that are named like schema files and that no pattern
excludes, in ascending order and each once, and there is an error when there is none. These are the
schema files exactly when no directory is named like one without being excluded. A pattern that is
refused is an error. -/
theorem discover_files_iff (hw : w.IsTree) (hdir : w.find (w.absolute path) = .ok .directory)
    (hvalid : ∀ pattern ∈ excludes, Glob.isValid pattern = true) :
    (¬ RefusedBelow w (w.placeOf path) excludes →
      ListsExactly (w.HoldsEntry (w.placeOf path) excludes) (discover w path excludes) ∧
      (ListsExactly (w.HoldsFile (w.placeOf path) excludes) (discover w path excludes) ↔
        ∀ names, ¬ w.Qualifies (w.placeOf path) excludes names .directory)) ∧
    (RefusedBelow w (w.placeOf path) excludes → ∃ e, discover w path excludes = .error e) := by
  refine ⟨fun h => ?_, discover_of_refusedBelow hw hdir hvalid⟩
  have hlist := listsExactly_discover hw hdir hvalid h
  refine ⟨hlist, fun hfiles names hq => ?_, fun hnone => hlist.congr fun p => ?_⟩
  · obtain ⟨names', content, hq', hpath⟩ := (hlist.iff hfiles _).1 ⟨names, _, hq, rfl⟩
    have heq := pathOf_append_inj (hw.isName_of_entry hq.entry) (hw.isName_of_entry hq'.entry) hpath
    have hentry := hq.entry
    rw [heq, hq'.entry] at hentry
    cases hentry
  · constructor
    · rintro ⟨names, e, hq, rfl⟩
      cases e with
      | directory => exact absurd hq (hnone names)
      | file content => exact ⟨names, content, hq, rfl⟩
    · rintro ⟨names, content, hq, rfl⟩
      exact ⟨names, _, hq, rfl⟩

end

/-- A file to be listed, one in an excluded directory and one of another kind. -/
def vendorTree : Workspace where
  entries := [(["r"], .directory), (["r", "v"], .directory), (["r", "v", "b.proto"], .file []),
    (["r", "a.proto"], .file []), (["r", "notes.md"], .file [])]

/-- A directory of vendored files is excluded as a whole. -/
theorem vendorTree_listed :
    vendorTree.find "/r" = .ok .directory ∧ Glob.isValid "v/**" = true ∧
      ListsExactly (vendorTree.HoldsFile ["r"] ["v/**"]) (discover vendorTree "/r" ["v/**"]) := by
  have hw : vendorTree.IsTree := ⟨by decide, by decide⟩
  have hdir : vendorTree.find (vendorTree.absolute "/r") = .ok .directory := by decide +kernel
  have hvalid : ∀ pattern ∈ ["v/**"], Glob.isValid pattern = true := by decide
  have hplace : vendorTree.placeOf "/r" = ["r"] := by decide
  have hways : vendorTree.schemaWays ["r"] = [["v", "b.proto"], ["a.proto"]] := by decide
  have hmem : ∀ {names e}, vendorTree.entry? (["r"] ++ names) = some e →
      Workspace.NamesSchema names → names = ["v", "b.proto"] ∨ names = ["a.proto"] := by
    intro names e he hnamed
    have h := (Workspace.mem_schemaWays hw).2 ⟨hnamed, e, he⟩
    rw [hways] at h
    simpa using h
  have h := (discover_files_iff hw hdir hvalid).1
  rw [hplace] at h
  refine ⟨hdir, by decide, (h ?_).2.2 ?_⟩
  · rintro ⟨names, e, he, hnamed, hrefused⟩
    obtain ⟨err, herr⟩ := isExcluded_of_refusedAt hrefused
    rcases hmem he hnamed with rfl | rfl
    · have hok : isExcluded (join "/" ["v", "b.proto"]) ["v/**"] = .ok true := by cbv
      rw [hok] at herr
      cases herr
    · have hok : isExcluded (join "/" ["a.proto"]) ["v/**"] = .ok false := by cbv
      rw [hok] at herr
      cases herr
  · rintro names ⟨he, hnamed, -⟩
    rcases hmem he hnamed with rfl | rfl <;> cases he

/-- A directory that is named like a schema file, and nothing else. -/
def strayTree : Workspace where
  entries := [(["r"], .directory), (["r", "d.proto"], .directory)]

/-- There is no schema file, and yet one path is listed. -/
theorem directory_listed :
    discover strayTree "/r" [] = .ok ["/r/d.proto"] ∧
      ¬ ListsExactly (strayTree.HoldsFile ["r"] []) (discover strayTree "/r" []) := by
  have hw : strayTree.IsTree := ⟨by decide, by decide⟩
  have hdir : strayTree.find (strayTree.absolute "/r") = .ok .directory := by decide +kernel
  have hplace : strayTree.placeOf "/r" = ["r"] := by decide
  have hways : freeWays strayTree ["r"] [] = [["d.proto"]] := by decide
  have hlist : discover strayTree "/r" [] = .ok ["/r/d.proto"] := by
    rw [discover_eq_freeWays hw hdir (by simp) not_refusedBelow_nil, hplace, hways,
      if_neg (by simp)]
    have hpath : Workspace.pathOf ["r", "d.proto"] = "/r/d.proto" := by decide
    simp [ascending, hpath]
  refine ⟨hlist, ?_⟩
  rw [hlist]
  rintro ⟨-, -, hmem⟩
  obtain ⟨names, content, ⟨he, hnamed, -⟩, -⟩ := (hmem "/r/d.proto").1 (by simp)
  have hway := (Workspace.mem_schemaWays hw).2 ⟨hnamed, _, he⟩
  have hall : strayTree.schemaWays ["r"] = [["d.proto"]] := by decide
  rw [hall, List.mem_singleton] at hway
  subst hway
  cases he

end ProtoStub

import ProtoStub.Proofs.Following
import ProtoStub.Workspace.Change
import Mathlib.Data.List.Induction
import Mathlib.Data.List.Perm.Subperm

/-!
# What changes of a workspace leave

A workspace is seen here as a map from places to entries, which `put` and `erase` change at one
place (`Workspace.entry_put`, `Workspace.entry_erase`). `Workspace.Updated` says that contents were
put at paths one after another: those are the files now, and no directory is gone. Making
directories puts no content anywhere, whether it ends well or not (`Edit.updated_mkdirAll`).

Replacing a file makes directories, puts a temporary file at a free place and moves it; a refused
move takes the temporary file away again. So a replacement puts one content at one path when it ends
well, and none when it is refused; and it is only refused where the path is not `Workspace.Writable`
(`Edit.replace_cases`). There is always a name for the temporary file, because more names are tried
than there are entries (`Workspace.exists_freePlace`). A path that is writable stays so when other
files are replaced (`Workspace.Writable.kept`).
-/

namespace ProtoStub

open Text

/-- A step that may fail, followed by another. -/
theorem bind_apply {σ α β : Type} (x : ExceptT Error (StateM σ) α)
    (f : α → ExceptT Error (StateM σ) β) (s : σ) :
    (x >>= f) s = match x s with
      | (.ok a, s') => f a s'
      | (.error e, s') => (.error e, s') := by
  simp only [bind, ExceptT.bind, ExceptT.mk, StateT.bind]
  rcases x s with ⟨_ | _, s'⟩ <;> rfl

/-- A step that looks at the state first. -/
theorem get_bind_apply {σ β : Type} (f : σ → ExceptT Error (StateM σ) β) (s : σ) :
    ((get : ExceptT Error (StateM σ) σ) >>= f) s = f s s := rfl

namespace Workspace

variable {w w' : Workspace}

/-! ## Entries after a change -/

section
variable {place q : List String} {e : Entry}

/-- Without a place everything is looked up as before, but at that place. -/
theorem lookup_filter_ne (entries : List (List String × Entry)) (place q : List String) :
    (entries.filter (·.1 != place)).lookup q = if q = place then none else entries.lookup q := by
  induction entries with
  | nil => simp
  | cons x entries ih =>
    obtain ⟨p, e⟩ := x
    by_cases hp : p = place
    · subst hp
      rw [List.filter_cons_of_neg (by simp), ih]
      split
      · rfl
      · rename_i hq
        rw [List.lookup_cons, beq_false_of_ne hq]
    · rw [List.filter_cons_of_pos (by simpa using hp), List.lookup_cons, List.lookup_cons, ih]
      by_cases hq : q = p
      · subst hq
        simp [hp]
      · rw [beq_false_of_ne hq]

/-- Taking away changes one place. -/
theorem entry_erase (hne : place ≠ []) :
    Workspace.entry? (w.erase place) q = if q = place then none else w.entry? q := by
  by_cases hq : q = []
  · subst hq
    simp [hne.symm]
  · rw [entry_of_ne_nil hq, entry_of_ne_nil hq, erase, lookup_filter_ne]

/-- Putting changes one place. -/
theorem entry_put (hne : place ≠ []) :
    Workspace.entry? (w.put place e) q = if q = place then some e else w.entry? q := by
  by_cases hq : q = []
  · subst hq
    simp [hne.symm]
  · rw [entry_of_ne_nil hq, entry_of_ne_nil hq, put, List.lookup_append, lookup_filter_ne]
    by_cases hp : q = place
    · subst hp
      simp
    · simp [hp, List.lookup_cons, beq_false_of_ne hp]

/-- A free place is not the root. -/
theorem ne_nil_of_entry (h : w.entry? place = none) : place ≠ [] := by
  rintro rfl
  cases h

/-- What is made at a free place and taken away again leaves nothing. -/
theorem entry_erase_put (h : w.entry? place = none) (e : Entry) (q : List String) :
    Workspace.entry? ((w.put place e).erase place) q = w.entry? q := by
  have hne := ne_nil_of_entry h
  rw [entry_erase hne, entry_put hne]
  split
  · rename_i hq
    rw [hq, h]
  · rfl

end

/-! ## Contents put at paths -/

/-- The content of the file at a place. -/
def fileAt? (w : Workspace) (place : List String) : Option (List UInt8) :=
  match w.entry? place with
  | some (.file content) => some content
  | _ => none

/-- A file is an entry with its content. -/
theorem fileAt?_eq_some_iff {place : List String} {content : List UInt8} :
    w.fileAt? place = some content ↔ w.entry? place = some (.file content) := by
  rw [fileAt?]
  rcases w.entry? place with _ | _ | c <;> simp

/-- A path that can be read has its file at its place. -/
theorem fileAt_of_read {path : String} {content : List UInt8} (h : w.read path = .ok content) :
    w.fileAt? (w.placeOf path) = some content := by
  obtain ⟨place, hl⟩ := read_eq_ok_iff.1 h
  exact fileAt?_eq_some_iff.2 (entry_of_locate hl)

/-- The files after contents were put at paths one after another. -/
def filesAfter (w : Workspace) (written : List (String × List UInt8)) :
    List String → Option (List UInt8) :=
  written.foldl (fun files x => Function.update files (w.placeOf x.1) (some x.2)) w.fileAt?

/-- `w'` is `w` after contents were put at paths one after another: those are the files now, each
path that was written leads to one, and no directory is gone. -/
structure Updated (w w' : Workspace) (written : List (String × List UInt8)) : Prop where
  cwd : w'.cwd = w.cwd
  directories : ∀ place, w.entry? place = some .directory → w'.entry? place = some .directory
  files : w'.fileAt? = w.filesAfter written
  reads : ∀ x ∈ written, ∃ content, w'.read x.1 = .ok content

section
variable {written more : List (String × List UInt8)}

/-- Nothing was put anywhere. -/
theorem Updated.refl (w : Workspace) : Updated w w [] := ⟨rfl, fun _ h => h, rfl, by simp⟩

/-- One more content changes the files at one place. -/
theorem filesAfter_concat (x : String × List UInt8) : w.filesAfter (written ++ [x]) =
    Function.update (w.filesAfter written) (w.placeOf x.1) (some x.2) := by
  rw [filesAfter, List.foldl_append]
  rfl

/-- A place that no content was put at is as before. -/
theorem filesAfter_of_ne {place : List String} (h : ∀ x ∈ written, w.placeOf x.1 ≠ place) :
    w.filesAfter written place = w.fileAt? place := by
  induction written using List.reverseRecOn with
  | nil => rfl
  | append_singleton written x ih =>
    rw [filesAfter_concat, Function.update_of_ne (h x (by simp)).symm]
    exact ih fun y hy => h y (List.mem_append_left _ hy)

/-- At a place that contents were put at stands one of them. -/
theorem filesAfter_of_mem {x : String × List UInt8} (h : x ∈ written) :
    ∃ y ∈ written, w.placeOf y.1 = w.placeOf x.1 ∧
      w.filesAfter written (w.placeOf x.1) = some y.2 := by
  induction written using List.reverseRecOn with
  | nil => cases h
  | append_singleton written z ih =>
    rw [filesAfter_concat]
    by_cases hz : w.placeOf z.1 = w.placeOf x.1
    · exact ⟨z, by simp, hz, by rw [hz, Function.update_self]⟩
    · have hx : x ∈ written := by
        rcases List.mem_append.1 h with hx | hx
        · exact hx
        · rw [List.mem_singleton.1 hx] at hz
          exact absurd rfl hz
      obtain ⟨y, hy, hplace, hfile⟩ := ih hx
      exact ⟨y, List.mem_append_left _ hy, hplace, by rwa [Function.update_of_ne (Ne.symm hz)]⟩

/-- Writing never removes a file. -/
theorem exists_filesAfter {place : List String} {content : List UInt8}
    (h : w.fileAt? place = some content) (written : List (String × List UInt8)) :
    ∃ c, w.filesAfter written place = some c := by
  by_cases hx : ∃ x ∈ written, w.placeOf x.1 = place
  · obtain ⟨x, hx, rfl⟩ := hx
    obtain ⟨y, -, -, hfile⟩ := filesAfter_of_mem hx
    exact ⟨y.2, hfile⟩
  · rw [filesAfter_of_ne fun x hx' hp => hx ⟨x, hx', hp⟩]
    exact ⟨content, h⟩

/-- Paths mean the same places afterwards. -/
theorem Updated.placeOf_eq (h : Updated w w' written) : w'.placeOf = w.placeOf := by
  funext path
  simp only [placeOf, Workspace.absolute, h.cwd]

/-- What is read at a path is what was put at its place. -/
theorem Updated.read_eq (h : Updated w w' written) {path : String} {content : List UInt8}
    (hread : w'.read path = .ok content) :
    w.filesAfter written (w.placeOf path) = some content := by
  rw [← h.files, ← h.placeOf_eq]
  exact fileAt_of_read hread

/-- A path that can be read can be read afterwards. -/
theorem Updated.exists_read (h : Updated w w' written) {path : String} {content : List UInt8}
    (hread : w.read path = .ok content) : ∃ c, w'.read path = .ok c := by
  obtain ⟨place, hl⟩ := read_eq_ok_iff.1 hread
  obtain ⟨c, hc⟩ := exists_filesAfter (fileAt_of_read hread) written
  rw [← h.files] at hc
  exact ⟨c, read_of_locate hl h.cwd h.directories (by simp) (fileAt?_eq_some_iff.1 hc)⟩

/-- Changes one after another are one change. -/
theorem Updated.append {w'' : Workspace} (h : Updated w w' written) (h' : Updated w' w'' more) :
    Updated w w'' (written ++ more) := by
  refine ⟨h'.cwd.trans h.cwd, fun p hp => h'.directories p (h.directories p hp), ?_, ?_⟩
  · rw [h'.files, filesAfter, filesAfter, List.foldl_append, h.files, h.placeOf_eq]
    rfl
  · intro x hx
    rcases List.mem_append.1 hx with hx | hx
    · obtain ⟨content, hread⟩ := h.reads x hx
      exact h'.exists_read hread
    · exact h'.reads x hx

end

/-- A directory at a free place takes no file away. -/
theorem updated_put_directory {place : List String} (h : w.entry? place = none) :
    Updated w (w.put place .directory) [] := by
  have hentry : ∀ q, Workspace.entry? (w.put place .directory) q =
      if q = place then some .directory else w.entry? q :=
    fun q => entry_put (ne_nil_of_entry h)
  refine ⟨rfl, fun q hq => ?_, ?_, by simp⟩
  · rw [hentry]
    split
    · rfl
    · exact hq
  · funext q
    by_cases hq : q = place <;> simp [filesAfter, fileAt?, hentry, hq, h]

/-- What is put at a free place and taken away again leaves the files as they were. -/
theorem updated_erase_put {place : List String} (h : w.entry? place = none)
    (e : Entry) : Updated w ((w.put place e).erase place) [] := by
  refine ⟨rfl, fun q hq => by rwa [entry_erase_put h], ?_, by simp⟩
  funext q
  rw [fileAt?, entry_erase_put h]
  rfl

/-! ## Where a file can be put -/

section
variable {path : String}

/-- `w'` has the directories of `w` and something wherever `w` has. -/
structure Keeps (w w' : Workspace) : Prop where
  cwd : w'.cwd = w.cwd
  directories : ∀ place, w'.entry? place = some .directory ↔ w.entry? place = some .directory
  entries : ∀ place e, w.entry? place = some e → ∃ e', w'.entry? place = some e'

/-- A file in place of no directory keeps the directories. -/
theorem keeps_of_file {place : List String} {content : List UInt8} (hcwd : w'.cwd = w.cwd)
    (hplace : w.entry? place ≠ some .directory)
    (h : ∀ q, w'.entry? q = if q = place then some (.file content) else w.entry? q) :
    w.Keeps w' := by
  refine ⟨hcwd, fun q => ?_, fun q e he => ?_⟩
  · rw [h]
    split
    · rename_i hq
      subst hq
      simp [hplace]
    · rfl
  · rw [h]
    split
    · exact ⟨_, rfl⟩
    · exact ⟨e, he⟩

/-- A file at the place of one path is the only change. -/
theorem updated_of_file {content : List UInt8} (hcwd : w'.cwd = w.cwd)
    (hplace : w.entry? (w.placeOf path) ≠ some .directory)
    (h : ∀ q, w'.entry? q = if q = w.placeOf path then some (.file content) else w.entry? q)
    (hread : w'.read path = .ok content) : Updated w w' [(path, content)] := by
  refine ⟨hcwd, fun q => ((keeps_of_file hcwd hplace h).directories q).2, ?_, by simp [hread]⟩
  funext q
  by_cases hq : q = w.placeOf path <;> simp [filesAfter, fileAt?, h, hq]

/-- A file at a free place keeps the directories. -/
theorem keeps_put {place : List String} (h : w.entry? place = none)
    (content : List UInt8) : w.Keeps (w.put place (.file content)) :=
  keeps_of_file rfl (by simp [h]) fun _ => entry_put (ne_nil_of_entry h)

/-- A file can be moved to a path: it leads to a file, or to a free place. -/
def Accepts (w : Workspace) (path : String) : Prop :=
  ∃ spot, w.locate path = .ok spot ∧ spot.entry ≠ some .directory ∧
    ∀ place, spot = .free place → endsWith path "/" = false

/-- A path that can be written at stays so where directories are kept. -/
theorem Accepts.kept (h : w.Accepts path) (hk : w.Keeps w') : w'.Accepts path := by
  obtain ⟨spot, hl, hfile, hslash⟩ := h
  have hentry := entry_of_locate hl
  have hl' := locate_kept hl hk.cwd (fun q => (hk.directories q).2) hslash
    fun e he => hk.entries _ e (hentry.trans he)
  rw [← hentry] at hfile
  refine ⟨_, hl', ?_, ?_⟩
  · rw [spotAt]
    split
    · rename_i e he
      intro hdir
      exact hfile ((hk.directories _).1 (he.trans hdir))
    · simp [Spot.entry]
  · -- A place that is free now was free before.
    intro place hfree
    rw [spotAt] at hfree
    split at hfree
    · cases hfree
    · rename_i hnone
      cases spot with
      | free place => exact hslash place rfl
      | taken place e =>
        obtain ⟨e', he'⟩ := hk.entries _ e hentry
        rw [hnone] at he'
        cases he'

/-- A temporary file for `name` can be made in `dir`. -/
structure Fits (w : Workspace) (dir name : String) : Prop where
  plain : '/' ∉ name.toList
  short : name.utf8ByteSize + 2 + Edit.digitCount ≤ maxName
  leads : ∃ spot, w.locate (Edit.temporaryPath dir name) = .ok spot

/-- A file can be put at a path: the directory it lies in is there, a temporary file can be made in
it, and the file can be moved. -/
structure Writable (w : Workspace) (path : String) : Prop where
  directory : w.find (dirOf path) = .ok .directory
  fits : w.Fits (dirOf path) (baseOf path)
  accepts : w.Accepts path

/-- A path stays writable when other files are replaced. -/
theorem Writable.kept (h : w.Writable path)
    (hk : w.Keeps w') : w'.Writable path := by
  have hdirs : ∀ place, w.entry? place = some .directory → w'.entry? place = some .directory :=
    fun place => (hk.directories place).2
  refine ⟨find_directory_kept h.directory hk.cwd hdirs, ⟨h.fits.plain, h.fits.short, ?_⟩,
    h.accepts.kept hk⟩
  obtain ⟨spot, hl⟩ := h.fits.leads
  refine ⟨_, locate_kept hl hk.cwd hdirs (fun _ _ => ?_) fun e he =>
    hk.entries _ e ((entry_of_locate hl).trans he)⟩
  simp [Edit.temporaryPath, endsWith, List.isSuffixOf, List.isPrefixOf]

end

/-! ## Free names -/

/-- Different numbers give different names. -/
theorem numbered_injective (place : List String) : Function.Injective (numbered place) := by
  intro a b hab
  have hlast : place.getLastD "" ++ toString a = place.getLastD "" ++ toString b := by
    simpa [numbered] using hab
  have hdigits : (Nat.repr a).toList = (Nat.repr b).toList :=
    congrArg String.toList ((String.append_right_inj _).1 hlast)
  have hvalue := congrArg (Nat.ofDigitChars 10 · 0) hdigits
  rwa [Nat.toList_repr, Nat.toList_repr, Nat.ofDigitChars_ten_toDigits,
    Nat.ofDigitChars_ten_toDigits] at hvalue

/-- An entry stands under its place in the list of entries. -/
theorem mem_keys_of_entry {place : List String} {e : Entry} (hne : place ≠ [])
    (h : w.entry? place = some e) : place ∈ w.entries.map (·.1) := by
  rw [entry_of_ne_nil hne] at h
  exact List.mem_map_of_mem (mem_of_lookup h)

/-- More names are tried than there are entries, so one of them is free. -/
theorem exists_freePlace (w : Workspace) (place : List String) :
    ∃ free, w.freePlace? place = some free ∧ w.entry? free = none := by
  rcases hfind : w.freePlace? place with _ | free
  · exfalso
    have htaken : (List.range (w.entries.length + 1)).map (numbered place) ⊆
        w.entries.map (·.1) := by
      intro q hq
      obtain ⟨n, -, rfl⟩ := List.mem_map.1 hq
      have hsome := List.find?_eq_none.1 hfind _ (List.mem_cons_of_mem _ hq)
      obtain ⟨e, he⟩ := Option.ne_none_iff_exists'.1 (by simpa using hsome)
      exact mem_keys_of_entry (by simp [numbered]) he
    have hlength := ((List.nodup_range.map (numbered_injective place)).subperm htaken).length_le
    simp at hlength
  · exact ⟨free, rfl, by simpa using List.find?_some hfind⟩

end Workspace

namespace Edit

open Workspace

variable {α β : Type}

/-! ## Making directories -/

/-- Two steps that put no content make one that puts none. -/
theorem updated_bind {x : Edit α} {f : α → Edit β} (hx : ∀ w, Updated w (x w).2 [])
    (hf : ∀ a w, Updated w (f a w).2 []) (w : Workspace) : Updated w ((x >>= f) w).2 [] := by
  have hfirst := hx w
  rw [bind_apply]
  rcases h : x w with ⟨_ | a, w'⟩
  · rwa [h] at hfirst
  · rw [h] at hfirst
    exact hfirst.append (hf a w')

/-- Making a directory puts no content, also when it is refused. -/
theorem updated_mkdir (path : String) (w : Workspace) : Updated w (mkdir path w).2 [] := by
  rw [mkdir, get_bind_apply]
  rcases hl : w.locate (dropSeparators path) with e | ⟨place, e⟩ | place
  · exact .refl w
  · exact .refl w
  · exact updated_put_directory (leads_of_locate hl).entry_eq

/-- A directory that is there already is left as it is. -/
theorem updated_mkdirOne (path : String) (w : Workspace) : Updated w (mkdirOne path w).2 [] := by
  rw [mkdirOne, get_bind_apply]
  rcases w.find path with e | _ | content
  · exact updated_mkdir path w
  · exact .refl w
  · exact .refl w

/-- Directories made one after another: by induction over their paths. -/
theorem updated_mkdirEach (parents : List (List Char)) (w : Workspace) :
    Updated w ((forIn parents PUnit.unit fun parent _ => do
      mkdirOne (String.ofList parent)
      return ForInStep.yield PUnit.unit : Edit PUnit) w).2 [] := by
  induction parents generalizing w with
  | nil => exact .refl w
  | cons parent parents ih =>
    rw [List.forIn_cons, bind_assoc]
    exact updated_bind (updated_mkdirOne _) (fun _ w => ih w) w

/-- Making all directories on the way puts no content. -/
theorem updated_mkdirAll (path : String) (w : Workspace) : Updated w (mkdirAll path w).2 [] := by
  rw [mkdirAll, get_bind_apply]
  rcases w.find path with e | _ | content
  · exact updated_bind (updated_mkdirEach _) (fun _ => updated_mkdir path) w
  · exact .refl w
  · exact .refl w

/-! ## Making a temporary file and moving it -/

/-- Locating a path does not change the workspace. -/
theorem locate_apply (operation path : String) (w : Workspace) :
    locate operation path w = match w.locate path with
      | .ok spot => (.ok spot, w)
      | .error e => (.error (.refused ⟨operation, path, e⟩), w) := by
  rw [locate, get_bind_apply]
  rcases w.locate path with e | spot <;> rfl

/-- A temporary file is made at a free place; where it does not fit, nothing is made. -/
theorem create_cases (dir name : String) (content : List UInt8) (w : Workspace) :
    (¬ w.Fits dir name ∧ ∃ e, create dir name content w = (.error e, w)) ∨
      ∃ place, w.entry? place = none ∧
        create dir name content w = (.ok place, w.put place (.file content)) := by
  rw [create]
  split
  · rename_i hslash
    exact .inl ⟨fun h => h.plain (by simpa using hslash), _, rfl⟩
  · rw [bind_apply, locate_apply]
    rcases hl : w.locate (temporaryPath dir name) with e | ⟨place, e⟩ | place
    · refine .inl ⟨fun h => ?_, _, rfl⟩
      obtain ⟨spot, hspot⟩ := h.leads
      cases hl.symm.trans hspot
    all_goals
      dsimp only
      split
      · rename_i hlong
        exact .inl ⟨fun h => absurd h.short (by omega), _, rfl⟩
      · obtain ⟨free, hfind, hfree⟩ := w.exists_freePlace place
        rw [get_bind_apply, hfind]
        exact .inr ⟨free, hfree, rfl⟩

/-- A file is moved to the place that the target names; where it is not accepted, it is taken
away. -/
theorem rename_cases (source : List String) (temporary target : String) (content : List UInt8)
    (w : Workspace) :
    (¬ w.Accepts target ∧
        ∃ e, rename source temporary target content w = (.error e, w.erase source)) ∨
      (w.Accepts target ∧ rename source temporary target content w =
        (.ok (), (w.erase source).put (w.placeOf target) (.file content))) := by
  rw [rename, get_bind_apply]
  rcases hl : w.locate target with e | ⟨place, _ | old⟩ | place
  · refine .inl ⟨?_, _, rfl⟩
    rintro ⟨spot, hspot, -⟩
    cases hl.symm.trans hspot
  · refine .inl ⟨?_, _, rfl⟩
    rintro ⟨spot, hspot, hfile, -⟩
    cases hl.symm.trans hspot
    exact hfile rfl
  · have hplace : place = w.placeOf target := place_of_locate hl
    subst hplace
    exact .inr ⟨⟨_, hl, by simp [Spot.entry], by simp⟩, rfl⟩
  · have hplace : place = w.placeOf target := place_of_locate hl
    subst hplace
    dsimp only
    split
    · rename_i hend
      refine .inl ⟨?_, _, rfl⟩
      rintro ⟨spot, hspot, -, hslash⟩
      cases hl.symm.trans hspot
      rw [hslash _ rfl] at hend
      cases hend
    · rename_i hend
      exact .inr ⟨⟨_, hl, by simp [Spot.entry], fun _ _ => by simpa using hend⟩, rfl⟩

/-! ## Replacing a file -/

/-- A file that is made at a free place and then moved to a path is the only change, even when the
path named that very place. -/
theorem updated_move {w made moved : Workspace} {source : List String} {path : String}
    {content : List UInt8} (hfree : w.entry? source = none)
    (hm : made = w.put source (.file content))
    (hm' : moved = (made.erase source).put (w.placeOf path) (.file content))
    (h : made.Accepts path) : Updated w moved [(path, content)] ∧ w.Keeps moved := by
  obtain ⟨spot, hl, hfile, hslash⟩ := h
  have hmade : w.Keeps made := hm ▸ keeps_put hfree content
  have hplaceOf : made.placeOf path = w.placeOf path := by rw [hm]; rfl
  have hplace : w.entry? (w.placeOf path) ≠ some .directory := by
    rw [← entry_of_locate hl, hplaceOf] at hfile
    exact fun hdir => hfile ((hmade.directories _).2 hdir)
  have hne : w.placeOf path ≠ [] := by
    intro hnil
    rw [hnil] at hplace
    exact hplace rfl
  have hmoved : ∀ q, moved.entry? q =
      if q = w.placeOf path then some (.file content) else w.entry? q := by
    intro q
    rw [hm', entry_put hne, hm, entry_erase_put hfree]
  have hkeeps : w.Keeps moved := keeps_of_file (by rw [hm', hm]; rfl) hplace hmoved
  have hread : moved.read path = .ok content := by
    refine read_of_locate hl (by rw [hm']; rfl) (fun q hq => ?_) hslash ?_
    · exact (hkeeps.directories q).2 ((hmade.directories q).1 hq)
    · rw [hplaceOf, hmoved, if_pos rfl]
  exact ⟨updated_of_file hkeeps.cwd hplace hmoved hread, hkeeps⟩

/-- A context changes the error only. -/
theorem within_apply (context : String) (x : Edit α) (w : Workspace) :
    within context x w = ((x w).1.mapError (Error.within context), (x w).2) := rfl

/-- The part of a replacement after its directory is there. -/
def install (path : String) (content : List UInt8) : Edit Unit := do
  let source ← create (dirOf path) (baseOf path) content
  rename source (temporaryPath (dirOf path) (baseOf path)) path content

/-- Replacing a file is two steps, each with its context. -/
theorem replace_eq (path : String) (content : List UInt8) :
    replace path content = (do
      within ("create dir " ++ dirOf path) (mkdirAll (dirOf path))
      within ("write file " ++ path) (install path content)) := rfl

/-- Installing a content is refused only where the path has no room or does not accept it, and then
puts nothing; else it puts the content there and keeps the rest. -/
theorem install_cases (path : String) (content : List UInt8) (w : Workspace) :
    (¬ (w.Fits (dirOf path) (baseOf path) ∧ w.Accepts path) ∧
        ∃ e w', install path content w = (.error e, w') ∧ Updated w w' []) ∨
      ∃ w', install path content w = (.ok (), w') ∧ Updated w w' [(path, content)] ∧
        w.Keeps w' := by
  rw [install, bind_apply]
  rcases create_cases (dirOf path) (baseOf path) content w with ⟨hfits, e, hc⟩ | ⟨source, hfree, hc⟩
  · rw [hc]
    exact .inl ⟨fun h => hfits h.1, e, w, rfl, .refl w⟩
  · rw [hc]
    dsimp only
    rcases rename_cases source (temporaryPath (dirOf path) (baseOf path)) path content
      (w.put source (.file content)) with ⟨haccepts, e, hr⟩ | ⟨haccepts, hr⟩
    · rw [hr]
      exact .inl ⟨fun h => haccepts (h.2.kept (keeps_put hfree content)), e, _, rfl,
        updated_erase_put hfree _⟩
    · rw [hr]
      exact .inr ⟨_, rfl, updated_move hfree rfl rfl haccepts⟩

/-- A replaced file is the only change; a refused replacement leaves the files as they were. -/
theorem replace_cases (path : String) (content : List UInt8) (w : Workspace) :
    (¬ w.Writable path ∧ ∃ e w', replace path content w = (.error e, w') ∧ Updated w w' []) ∨
      ∃ w', replace path content w = (.ok (), w') ∧ Updated w w' [(path, content)] ∧
        (w.Writable path → w.Keeps w') := by
  have hdirs := updated_mkdirAll (dirOf path) w
  -- Nothing is made when the directory is there, so the rest starts in the same workspace.
  have hfound : w.Writable path → mkdirAll (dirOf path) w = (.ok (), w) := by
    intro h
    rw [mkdirAll, get_bind_apply, h.directory]
    rfl
  rw [replace_eq, bind_apply, within_apply]
  rcases hmade : mkdirAll (dirOf path) w with ⟨e | _, w₁⟩ <;> rw [hmade] at hdirs hfound
  · exact .inl ⟨fun h => (nomatch hfound h), _, w₁, rfl, hdirs⟩
  · dsimp only [Except.mapError]
    rw [within_apply]
    rcases install_cases path content w₁ with ⟨hnot, e, w₂, hr, h⟩ | ⟨w₂, hr, h, hkeeps⟩
    · rw [hr]
      refine .inl ⟨fun hw => ?_, _, w₂, rfl, hdirs.append h⟩
      cases hfound hw
      exact hnot ⟨hw.fits, hw.accepts⟩
    · rw [hr]
      refine .inr ⟨w₂, rfl, hdirs.append h, fun hw => ?_⟩
      cases hfound hw
      exact hkeeps

end Edit

end ProtoStub

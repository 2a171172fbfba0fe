import ProtoStub.Proofs.Cutting
import ProtoStub.Proofs.Tables
import ProtoStub.Workspace

/-!
# Where paths lead

A path from the root in its shortest form names a place of a workspace: cutting it gives the names
on the way there, and nothing else (`ofText_pathOf`). Every path that was made absolute has this
form (`rooted_absolute`), so its directory and its last name put together give it back
(`joinPath_dirOf_baseOf`). Reading a file always ends at an entry of the workspace
(`Workspace.exists_entry_of_read`), and for a path in shortest form that entry stands at the place
it names (`Workspace.mem_filePaths_of_read`). That is why the paths of the files of a workspace
bound every search for imports.
-/

namespace ProtoStub

open Text

/-! ## Paths in shortest form -/

/-- A segment that is the name of an entry: not empty, without slashes, and neither of the two names
for the directory itself and the one around it. -/
def IsName (segment : String) : Prop :=
  segment ≠ "" ∧ segment ≠ "." ∧ segment ≠ ".." ∧ '/' ∉ segment.toList

instance (segment : String) : Decidable (IsName segment) :=
  inferInstanceAs (Decidable (_ ∧ _ ∧ _ ∧ _))

/-- The path is the shortest one, from the root, to some place. -/
def Rooted (path : String) : Prop :=
  ∃ place : List String, (∀ name ∈ place, IsName name) ∧ path = Workspace.pathOf place

section
variable {place : List String} {name : String}

/-- A name is one more segment. -/
theorem Path.push_name {rooted : Bool} (h : IsName name) (reversed : List String) :
    Path.push rooted reversed name = name :: reversed := by
  obtain ⟨hempty, hdot, hdots, -⟩ := h
  simp [Path.push, hempty, hdot, hdots]

theorem Path.foldl_push_names {rooted : Bool} (h : ∀ name ∈ place, IsName name)
    (reversed : List String) :
    place.foldl (Path.push rooted) reversed = place.reverse ++ reversed := by
  induction place generalizing reversed with
  | nil => rfl
  | cons name place ih =>
    rw [List.foldl_cons, Path.push_name (h name List.mem_cons_self),
      ih fun n hn => h n (List.mem_cons_of_mem _ hn)]
    simp

/-- One more segment of a path from the root leaves only names. -/
theorem Path.push_isName {reversed : List String} (h : ∀ name ∈ reversed, IsName name)
    {segment : String} (hs : '/' ∉ segment.toList) :
    ∀ name ∈ Path.push true reversed segment, IsName name := by
  unfold Path.push
  split
  · exact h
  · rename_i hplain
    simp only [Bool.or_eq_true, beq_iff_eq, not_or] at hplain
    split
    · cases reversed with
      | nil => simp
      | cons last before =>
        have hlast : (last == "..") = false := by
          simpa using (h last List.mem_cons_self).2.2.1
        simp only [hlast]
        exact fun n hn => h n (List.mem_cons_of_mem _ hn)
    · rename_i hdots
      intro n hn
      rcases List.mem_cons.1 hn with rfl | hn
      · exact ⟨hplain.1, hplain.2, by simpa using hdots, hs⟩
      · exact h n hn

theorem Path.foldl_push_isName {segments reversed : List String}
    (h : ∀ name ∈ reversed, IsName name) (hs : ∀ segment ∈ segments, '/' ∉ segment.toList) :
    ∀ name ∈ segments.foldl (Path.push true) reversed, IsName name := by
  induction segments generalizing reversed with
  | nil => exact h
  | cons segment segments ih =>
    rw [List.foldl_cons]
    exact ih (Path.push_isName h (hs segment List.mem_cons_self))
      fun x hx => hs x (List.mem_cons_of_mem _ hx)

/-- A text from the root means a path from the root, made of names. -/
theorem Path.ofText_of_absolute {s : String} (h : isAbsolute s = true) :
    ∃ place : List String, (∀ name ∈ place, IsName name) ∧ Path.ofText s = ⟨true, place⟩ := by
  refine ⟨((split '/' s).foldl (Path.push true) []).reverse, ?_, ?_⟩
  · intro name hname
    exact Path.foldl_push_isName (by simp) (fun _ hx => not_mem_of_mem_split hx) name
      (List.mem_reverse.1 hname)
  · have hrooted : startsWith s "/" = true := h
    simp only [Path.ofText, hrooted]

/-- A text from the root in shortest form. -/
theorem rooted_clean {s : String} (h : isAbsolute s = true) : Rooted (clean s) := by
  obtain ⟨place, hplace, ht⟩ := Path.ofText_of_absolute h
  exact ⟨place, hplace, by rw [clean, ht]; rfl⟩

/-- A path is in shortest form once it is made absolute. -/
theorem rooted_absolute (cwd s : String) : Rooted (absolute cwd s) := by
  rw [absolute]
  split
  · exact rooted_clean ‹_›
  · have hjoin : ∀ parts : List String, isAbsolute (join "/" ("/" :: parts)) = true := by
      intro parts
      cases parts with
      | nil => decide
      | cons part parts =>
        rw [join, String.intercalate_cons_cons]
        simp [isAbsolute, startsWith]
    rw [joinPath, List.filter_cons_of_pos (by decide)]
    exact rooted_clean (hjoin _)

theorem isAbsolute_pathOf (place : List String) : isAbsolute (Workspace.pathOf place) = true := by
  simp [Workspace.pathOf, Path.toText, isAbsolute, startsWith]

/-- What stands after the last slash of the path of a place, and what stands before it. -/
theorem pathOf_concat (place : List String) (name : String) :
    Workspace.pathOf (place ++ [name]) =
      (if place = [] then "" else Workspace.pathOf place) ++ "/" ++ name := by
  simp only [Workspace.pathOf, Path.toText, if_true]
  split
  · rename_i h
    subst h
    simp [join]
  · rename_i h
    rw [join, String.intercalate_append_of_ne_nil h (by simp)]
    simp [join, String.append_assoc]

/-- The pieces of the path of a place other than the root. -/
theorem split_pathOf (h : ∀ name ∈ place, IsName name) (hne : place ≠ []) :
    split '/' (Workspace.pathOf place) = "" :: place := by
  have hpieces : split '/' (join "/" place) = place :=
    split_join hne fun name hname => (h name hname).2.2.2
  have hcut : split '/' ("" ++ "/" ++ join "/" place) =
      split '/' "" ++ split '/' (join "/" place) :=
    split_append_singleton '/' "" (join "/" place)
  rw [hpieces] at hcut
  exact hcut

/-- The segments of the path of a place, walked from the root, lead there. -/
theorem foldl_push_split_pathOf (h : ∀ name ∈ place, IsName name) :
    (split '/' (Workspace.pathOf place)).foldl (Path.push true) [] = place.reverse := by
  by_cases hne : place = []
  · subst hne
    decide
  · have hempty : Path.push true [] "" = [] := by decide
    rw [split_pathOf h hne, List.foldl_cons, hempty, Path.foldl_push_names h, List.append_nil]

/-- A text that starts with the path of a place and goes on after a slash means what lies there. -/
theorem ofText_pathOf_append (h : ∀ name ∈ place, IsName name) (rest : String) :
    Path.ofText (Workspace.pathOf place ++ "/" ++ rest) =
      ⟨true, ((split '/' rest).foldl (Path.push true) place.reverse).reverse⟩ := by
  have habs : startsWith (Workspace.pathOf place ++ "/" ++ rest) "/" = true := by
    simp [Workspace.pathOf, Path.toText, startsWith]
  have hsplit := split_append_singleton '/' (Workspace.pathOf place) rest
  simp only [Path.ofText, habs]
  congr 2
  rw [← foldl_push_split_pathOf h, ← List.foldl_append]
  exact congrArg (List.foldl (Path.push true) []) hsplit

/-- The path of a place means that place. -/
theorem ofText_pathOf (h : ∀ name ∈ place, IsName name) :
    Path.ofText (Workspace.pathOf place) = ⟨true, place⟩ := by
  have habs : startsWith (Workspace.pathOf place) "/" = true := isAbsolute_pathOf place
  simp only [Path.ofText, habs, foldl_push_split_pathOf h, List.reverse_reverse]

/-- The place of an entry in a directory. -/
theorem joinPath_pathOf (h : ∀ n ∈ place, IsName n) (hname : IsName name) :
    joinPath [Workspace.pathOf place, name] = Workspace.pathOf (place ++ [name]) := by
  have hdir : Workspace.pathOf place ≠ "" := by
    intro he
    have habs := isAbsolute_pathOf place
    rw [he] at habs
    exact absurd habs (by decide)
  have hone : split '/' name = [name] := by
    have hjoin : split '/' (join "/" [name]) = [name] :=
      split_join (by simp) (by simpa using hname.2.2.2)
    rwa [join, String.intercalate_singleton] at hjoin
  have hfilter : [Workspace.pathOf place, name].filter (· != "") =
      [Workspace.pathOf place, name] := by
    simp [hdir, hname.1]
  rw [joinPath, hfilter]
  dsimp only
  rw [join, String.intercalate_cons_cons, String.intercalate_singleton, clean,
    ofText_pathOf_append h, hone, List.foldl_cons, List.foldl_nil, Path.push_name hname]
  simp [Workspace.pathOf]

/-- What stands before the last slash. -/
theorem beforeLast?_append {a b : String} (hb : '/' ∉ b.toList) :
    beforeLast? '/' (a ++ "/" ++ b) = some a := by
  have hrev : (a ++ "/" ++ b).toList.reverse = b.toList.reverse ++ '/' :: a.toList.reverse := by
    simp
  rw [beforeLast?, hrev, List.dropWhile_append_of_pos]
  · simp
  · intro c hc
    simp only [bne_iff_ne]
    rintro rfl
    exact hb (List.mem_reverse.1 hc)

/-- The directory of an entry is the place it lies in. -/
theorem dirOf_pathOf (h : ∀ n ∈ place, IsName n) (hname : IsName name) :
    dirOf (Workspace.pathOf (place ++ [name])) = Workspace.pathOf place := by
  rw [pathOf_concat, dirOf, beforeLast?_append hname.2.2.2]
  dsimp only
  split
  · rename_i hnil
    subst hnil
    decide
  · have hlast := ofText_pathOf_append h ""
    rw [String.append_empty] at hlast
    have hempty : (split '/' "").foldl (Path.push true) place.reverse = place.reverse := by
      have hone : split '/' "" = [""] := by decide
      simp [hone, Path.push]
    rw [clean, hlast, hempty, List.reverse_reverse]
    rfl

/-- The last segment of the path of an entry is its name. -/
theorem baseOf_pathOf (place : List String) (hname : IsName name) :
    baseOf (Workspace.pathOf (place ++ [name])) = name := by
  rw [pathOf_concat]
  generalize (if place = [] then "" else Workspace.pathOf place) = dir
  have hrev : (dir ++ "/" ++ name).toList.reverse =
      name.toList.reverse ++ '/' :: dir.toList.reverse := by simp
  have hslash : ∀ c ∈ name.toList.reverse, c ≠ '/' := by
    rintro c hc rfl
    exact hname.2.2.2 (List.mem_reverse.1 hc)
  have hnil : name.toList.reverse ≠ [] := by
    simp [hname.1]
  rw [baseOf, if_neg (by simp), hrev]
  obtain ⟨c, cs, hcs⟩ := List.exists_cons_of_ne_nil hnil
  have hc : c ≠ '/' := hslash c (hcs ▸ List.mem_cons_self)
  have hdrop : (name.toList.reverse ++ '/' :: dir.toList.reverse).dropWhile (· == '/') =
      name.toList.reverse ++ '/' :: dir.toList.reverse := by
    rw [hcs, List.cons_append, List.dropWhile_cons_of_neg (by simpa using hc)]
  have htake : (name.toList.reverse ++ '/' :: dir.toList.reverse).takeWhile (· != '/') =
      name.toList.reverse := by
    rw [List.takeWhile_append_of_pos (by simpa using hslash)]
    simp
  rw [hdrop]
  split
  · rename_i hempty
    simp at hempty
  · rw [htake, List.reverse_reverse, String.ofList_toList]

end

/-- A path in shortest form is put together from its directory and its last segment. -/
theorem Rooted.joinPath_dirOf_baseOf {path : String} (h : Rooted path) (hne : path ≠ "/") :
    joinPath [dirOf path, baseOf path] = path := by
  obtain ⟨place, hplace, rfl⟩ := h
  rcases List.eq_nil_or_concat place with rfl | ⟨place, name, rfl⟩
  · exact absurd rfl hne
  · rw [List.concat_eq_append] at *
    have hdir : ∀ n ∈ place, IsName n := fun n hn => hplace n (List.mem_append_left _ hn)
    have hname : IsName name := hplace name (by simp)
    rw [dirOf_pathOf hdir hname, baseOf_pathOf place hname, joinPath_pathOf hdir hname]

/-! ## Paths below a place -/

theorem Path.dropCommon_append (place rest : List String) :
    Path.dropCommon place (place ++ rest) = ([], rest) := by
  induction place with
  | nil => cases rest <;> rfl
  | cons name place ih => simp [Path.dropCommon, ih]

/-- A path that starts with a name starts with two dots only when the name does. -/
theorem startsWith_dots_join {first : String} (h : IsName first) (rest : List String) :
    startsWith (join "/" (first :: rest)) ".." = startsWith first ".." := by
  obtain ⟨hempty, hdot, -, -⟩ := h
  cases rest with
  | nil => rw [join, String.intercalate_singleton]
  | cons next rest =>
    rw [join, String.intercalate_cons_cons]
    simp only [startsWith, String.toList_append]
    -- A single character is followed by the slash, which is no dot.
    rcases hchars : first.toList with _ | ⟨a, _ | ⟨b, more⟩⟩
    · exact absurd (String.toList_eq_nil_iff.1 hchars) hempty
    · simp [List.isPrefixOf]
    · simp [List.isPrefixOf]

/-- The path from a place down to one that lies below it. -/
theorem below?_pathOf {place rest : List String} {first : String}
    (h : ∀ name ∈ place ++ first :: rest, IsName name) (hdots : startsWith first ".." = false) :
    below? (Workspace.pathOf place) (Workspace.pathOf (place ++ first :: rest)) =
      some (join "/" (first :: rest)) := by
  have hplace : ∀ name ∈ place, IsName name := fun n hn => h n (List.mem_append_left _ hn)
  have hfirst : IsName first := h first (by simp)
  rw [below?, relative?, ofText_pathOf hplace, ofText_pathOf h]
  simp [Path.relative?, Path.dropCommon_append, startsWith_dots_join hfirst, hdots]

/-! ## Entries -/

namespace Workspace

variable {w : Workspace}

/-- The root is always there. -/
@[simp] theorem entry_root (w : Workspace) : w.entry? [] = some .directory := rfl

/-- Any other entry is looked up. -/
theorem entry_of_ne_nil {place : List String} (h : place ≠ []) :
    w.entry? place = w.entries.lookup place :=
  if_neg (by simpa using h)

/-- An entry that is found stands in the list of entries. -/
theorem mem_entries_of_entry {place : List String} {content : List UInt8}
    (h : w.entry? place = some (.file content)) : (place, Entry.file content) ∈ w.entries := by
  have hne : place ≠ [] := by
    rintro rfl
    cases h
  rw [entry_of_ne_nil hne] at h
  exact mem_of_lookup h

/-- A way that leads to an entry ends at its place. -/
theorem entry_of_follow {segments : List String} {start place : List String} {e : Entry}
    (h : w.follow start segments = .ok (.taken place e)) : w.entry? place = some e := by
  induction segments generalizing start with
  | nil =>
    rw [follow] at h
    split at h
    · rename_i e' he
      cases h
      exact he
    · cases h
  | cons segment rest ih =>
    rw [follow] at h
    split at h
    · cases h
    · cases h
    · split at h
      · exact ih h
      · split at h
        · exact ih h
        · split at h
          · cases h
          · dsimp only at h
            split at h
            · exact ih h
            · split at h <;> cases h

/-- A way along names leads down to the place that they name. -/
theorem place_of_follow {names : List String} (hnames : ∀ name ∈ names, IsName name)
    {start place : List String} {e : Entry}
    (h : w.follow start names = .ok (.taken place e)) : place = start ++ names := by
  induction names generalizing start with
  | nil =>
    rw [follow] at h
    split at h
    · cases h
      simp
    · cases h
  | cons name rest ih =>
    obtain ⟨hempty, hdot, hdots, -⟩ := hnames name List.mem_cons_self
    have hplain : (name == "" || name == ".") = false := by simp [hempty, hdot]
    have hup : (name == "..") = false := by simp [hdots]
    rw [follow] at h
    simp only [hplain, hup, Bool.false_eq_true, ↓reduceIte] at h
    split at h
    · cases h
    · cases h
    · split at h
      · cases h
      · split at h
        · rw [ih (fun n hn => hnames n (List.mem_cons_of_mem _ hn)) h]
          simp
        · split at h <;> cases h

/-- What is read is the content of the entry that the path leads to. -/
theorem read_eq_ok_iff {path : String} {content : List UInt8} :
    w.read path = .ok content ↔ ∃ place, w.locate path = .ok (.taken place (.file content)) := by
  rw [read, find]
  cases w.locate path with
  | error e => simp [bind, Except.bind]
  | ok spot =>
    cases spot with
    | free place => simp [bind, Except.bind]
    | taken place e => cases e <;> simp [bind, Except.bind, pure, Except.pure]

/-- A path that leads somewhere can be followed segment by segment. -/
theorem follow_of_locate {path : String} {spot : Spot} (h : w.locate path = .ok spot) :
    w.follow (if isAbsolute path then [] else (Path.ofText ("/" ++ w.cwd)).segments)
      (split '/' path) = .ok spot := by
  rw [locate] at h
  split at h
  · cases h
  · split at h
    · cases h
    · split at h
      · cases h
      · exact h

/-- What is read is the content of a file of the workspace. -/
theorem exists_entry_of_read {path : String} {content : List UInt8}
    (h : w.read path = .ok content) : ∃ place, (place, Entry.file content) ∈ w.entries := by
  obtain ⟨place, hl⟩ := read_eq_ok_iff.1 h
  exact ⟨place, mem_entries_of_entry (entry_of_follow (follow_of_locate hl))⟩

/-- The root is a directory, so no file is read there. -/
theorem ne_root_of_read {path : String} {content : List UInt8} (h : w.read path = .ok content) :
    path ≠ "/" := by
  rintro rfl
  obtain ⟨spot, hl⟩ := read_eq_ok_iff.1 h
  have hf := follow_of_locate hl
  have habs : isAbsolute "/" = true := by decide
  have hroot : split '/' "/" = ["", ""] := by decide
  rw [if_pos habs, hroot] at hf
  simp [follow] at hf

/-- A path in shortest form that can be read is the path of a file of the workspace. -/
theorem mem_filePaths_of_read {path : String} (hp : Rooted path) {content : List UInt8}
    (h : w.read path = .ok content) : path ∈ w.filePaths := by
  obtain ⟨place, hplace, rfl⟩ := hp
  obtain ⟨spot, hl⟩ := read_eq_ok_iff.1 h
  have hf := follow_of_locate hl
  rw [if_pos (isAbsolute_pathOf place)] at hf
  suffices hspot : spot = place by
    have hentry := mem_entries_of_entry (entry_of_follow hf)
    rw [hspot] at hentry
    exact List.mem_filterMap.2 ⟨_, hentry, rfl⟩
  have hne : place ≠ [] := by
    rintro rfl
    exact ne_root_of_read h (by decide)
  have hstart : w.follow [] ("" :: place) = w.follow [] place := by
    rw [follow]
    simp
  rw [split_pathOf hplace hne, hstart] at hf
  exact place_of_follow hplace hf

end Workspace

end ProtoStub

import ProtoStub.Proofs.Following
import ProtoStub.Proofs.OutputPaths

/-!
# Lying below a directory

A path lies below a directory when the names on the way to it start with those on the way to the
directory (`LeadsDown`). Whether it does is judged by the text of the path from the one to the
other: two dots at its start count as a way up. So a way down that starts with a name of that kind
is missed (`dotted_directory_missed`), and no other is (`below?_of_leadsDown`, `below?_of_misses`).
`containment_exact` says what this means for the directory of an output and for the name of a file.
-/

namespace ProtoStub

open Text

/-- The names lead from the directory `root` down to `path`. -/
def LeadsDown (root path : String) (names : List String) : Prop :=
  (Path.ofText path).segments = (Path.ofText root).segments ++ names

instance (root path : String) (names : List String) : Decidable (LeadsDown root path names) :=
  inferInstanceAs (Decidable (_ = _))

/-- The first name starts with two dots. -/
def StartsDotted (names : List String) : Prop :=
  ∃ first, names.head? = some first ∧ startsWith first ".." = true

/-- The path is not found below `root`: it lies elsewhere, or the way down starts with two dots. -/
def Misses (root path : String) : Prop := ∀ names, LeadsDown root path names → StartsDotted names

section
variable {root path : String} {names : List String}

/-! ## The text of a way down -/

theorem not_startsDotted_nil : ¬ StartsDotted [] := by simp [StartsDotted]

theorem startsDotted_cons {first : String} {rest : List String} :
    StartsDotted (first :: rest) ↔ startsWith first ".." = true := by simp [StartsDotted]

/-- Paths in shortest form that lie below each other are those of a place and one below it. -/
theorem LeadsDown.exists_places (hroot : Rooted root) (hpath : Rooted path)
    (h : LeadsDown root path names) : ∃ base, (∀ n ∈ base, IsName n) ∧ (∀ n ∈ names, IsName n) ∧
      root = Workspace.pathOf base ∧ path = Workspace.pathOf (base ++ names) := by
  obtain ⟨base, hbase, rfl⟩ := hroot
  obtain ⟨place, hplace, rfl⟩ := hpath
  simp only [LeadsDown, ofText_pathOf hbase, ofText_pathOf hplace] at h
  subst h
  exact ⟨base, hbase, fun n hn => hplace n (List.mem_append_right _ hn), rfl, rfl⟩

/-- A way down that does not start with two dots is found. -/
theorem below?_of_leadsDown (hroot : Rooted root) (hpath : Rooted path)
    (h : LeadsDown root path names) (hdots : ¬ StartsDotted names) :
    below? root path = some (Path.toText ⟨false, names⟩) := by
  obtain ⟨base, hbase, hnames, rfl, rfl⟩ := h.exists_places hroot hpath
  have hplace := List.forall_mem_append.2 ⟨hbase, hnames⟩
  cases names with
  | nil =>
    simp only [below?, relative?, ofText_pathOf hbase, ofText_pathOf hplace, Path.relative?,
      Path.dropCommon_append]
    decide
  | cons first rest =>
    rw [startsDotted_cons, Bool.not_eq_true] at hdots
    exact below?_pathOf hplace hdots

/-- A path that starts with a name of two dots and more starts with two dots. -/
theorem startsWith_toText (hnames : ∀ n ∈ names, IsName n) (hdots : StartsDotted names) :
    startsWith (Path.toText ⟨false, names⟩) ".." = true := by
  cases names with
  | nil => exact absurd hdots not_startsDotted_nil
  | cons first rest =>
    have hjoin := startsWith_dots_join (hnames first List.mem_cons_self) rest
    rw [startsDotted_cons.1 hdots] at hjoin
    exact hjoin

/-- What lies elsewhere, or starts with two dots on the way down, is not found. -/
theorem below?_of_misses (hpath : Rooted path) (h : Misses root path) :
    below? root path = none := by
  obtain ⟨place, hplace, rfl⟩ := hpath
  rw [Option.eq_none_iff_forall_ne_some]
  intro rel hrel
  obtain ⟨names, hnames, rfl⟩ := below?_eq_some hplace hrel
  have hdown : LeadsDown root (Workspace.pathOf place) names := by
    rw [LeadsDown, ofText_pathOf hplace, hnames]
  have hdots := startsWith_toText (fun n hn => hplace n (hnames ▸ List.mem_append_right _ hn))
    (h names hdown)
  rw [below?, Option.filter_eq_some_iff, hdots] at hrel
  exact absurd hrel.2 (by decide)

/-! ## Directories of outputs -/

/-- The directory of a path in shortest form is in shortest form. -/
theorem Rooted.dirOf (h : Rooted path) : Rooted (dirOf path) := by
  obtain ⟨place, hplace, rfl⟩ := h
  rcases List.eq_nil_or_concat place with rfl | ⟨place, name, rfl⟩
  · exact ⟨[], by simp, by decide⟩
  · rw [List.concat_eq_append] at *
    have hdir : ∀ n ∈ place, IsName n := fun n hn => hplace n (List.mem_append_left _ hn)
    exact ⟨place, hdir, dirOf_pathOf hdir (hplace name (by simp))⟩

theorem Rooted.ne_empty (h : Rooted path) : path ≠ "" := by
  obtain ⟨place, -, rfl⟩ := h
  intro he
  have habs := isAbsolute_pathOf place
  rw [he] at habs
  exact absurd habs (by decide)

/-- A path in shortest form stays as it is when nothing is put behind it. -/
theorem Rooted.joinPath_empty (h : Rooted path) : joinPath [path, ""] = path := by
  have hfilter : [path, ""].filter (· != "") = [path] := by simp [h.ne_empty]
  obtain ⟨place, hplace, rfl⟩ := h
  rw [joinPath, hfilter]
  dsimp only
  rw [join, String.intercalate_singleton, clean, ofText_pathOf hplace]
  rfl

/-- The text of a way down, put behind the root, leads to the path. -/
theorem LeadsDown.joinPath_dirText (hroot : Rooted root) (hpath : Rooted path)
    (h : LeadsDown root path names) : joinPath [root, dirText names] = path := by
  obtain ⟨base, hbase, hnames, rfl, rfl⟩ := h.exists_places hroot hpath
  rw [dirText]
  split
  · rename_i hnil
    subst hnil
    rw [List.append_nil]
    exact hroot.joinPath_empty
  · rw [joinPath_toText _ hnames, ofText_pathOf hbase]
    rfl

/-- The directory of a file that is found below the root. -/
theorem relDir_of_leadsDown (hroot : Rooted root) (hpath : Rooted path)
    (h : LeadsDown root (dirOf path) names) (hdots : ¬ StartsDotted names) :
    Program.relDir root path = dirText names := by
  obtain ⟨base, -, hnames, -, -⟩ := h.exists_places hroot hpath.dirOf
  rw [Program.relDir, if_neg (by simpa using hroot.ne_empty),
    below?_of_leadsDown hroot hpath.dirOf h hdots, dirText]
  dsimp only
  by_cases hnil : names = []
  · subst hnil
    decide
  · have hdot : Path.toText ⟨false, names⟩ ≠ "." := by
      intro he
      have hof := ofText_toText hnames
      rw [he] at hof
      exact hnil (Path.mk.inj hof).2.symm
    rw [if_neg (by simpa using hdot), if_neg hnil]

theorem relDir_of_misses (hroot : Rooted root) (hpath : Rooted path)
    (h : Misses root (dirOf path)) : Program.relDir root path = "" := by
  rw [Program.relDir, if_neg (by simpa using hroot.ne_empty), below?_of_misses hpath.dirOf h]

/-- A way down from one path to another is the only one. -/
theorem LeadsDown.unique {names' : List String} (h : LeadsDown root path names)
    (h' : LeadsDown root path names') : names = names' :=
  List.append_cancel_left (h.symm.trans h')

theorem LeadsDown.misses (h : LeadsDown root path names) (hdots : StartsDotted names) :
    Misses root path := fun _ h' => h.unique h' ▸ hdots

/-- A directory below the root is given back exactly when the way down does not start with two
dots. -/
theorem joinPath_relDir_iff (hroot : Rooted root) (hpath : Rooted path)
    (h : LeadsDown root (dirOf path) names) :
    joinPath [root, Program.relDir root path] = dirOf path ↔ ¬ StartsDotted names := by
  constructor
  · intro hback hdots
    -- The root is given back instead, and the way down from there would be empty.
    rw [relDir_of_misses hroot hpath (h.misses hdots), hroot.joinPath_empty] at hback
    have hnil : LeadsDown root (dirOf path) [] := by rw [← hback, LeadsDown, List.append_nil]
    rw [h.unique hnil] at hdots
    exact not_startsDotted_nil hdots
  · intro hdots
    rw [relDir_of_leadsDown hroot hpath h hdots]
    exact h.joinPath_dirText hroot hpath.dirOf

/-! ## Names of files -/

/-- What is found below a root does not depend on how the root is written. -/
theorem leadsDown_absolute {cwd : String} (h : isAbsolute root = true) :
    LeadsDown (absolute cwd root) path names ↔ LeadsDown root path names := by
  rw [absolute, if_pos h, LeadsDown, LeadsDown, ofText_clean h]

variable {cwd fallback : String}

theorem below?_absolute_of_misses (hpath : Rooted path) (habs : isAbsolute root = true)
    (h : Misses root path) : below? (absolute cwd root) path = none :=
  below?_of_misses hpath fun names hnames => h names ((leadsDown_absolute habs).1 hnames)

/-- A file has its path from the first root that it is found below. -/
theorem displayName_of_leadsDown (hpath : Rooted path) {before after : List String}
    (habs : ∀ r ∈ before ++ root :: after, isAbsolute r = true)
    (hbefore : ∀ r ∈ before, Misses r path)
    (h : LeadsDown root path names) (hdots : ¬ StartsDotted names) :
    displayName cwd (before ++ root :: after) path fallback = Path.toText ⟨false, names⟩ := by
  have hnone : before.findSome? (fun r => below? (absolute cwd r) path) = none := by
    rw [List.findSome?_eq_none_iff]
    exact fun r hr => below?_absolute_of_misses hpath (habs r (by simp [hr])) (hbefore r hr)
  have hsome := below?_of_leadsDown (rooted_absolute cwd root) hpath
    ((leadsDown_absolute (habs root (by simp))).2 h) hdots
  rw [displayName, List.findSome?_append, hnone, Option.none_or, List.findSome?_cons, hsome]
  rfl

theorem displayName_of_misses (hpath : Rooted path) {roots : List String}
    (habs : ∀ r ∈ roots, isAbsolute r = true) (h : ∀ r ∈ roots, Misses r path) :
    displayName cwd roots path fallback = fallback := by
  have hnone : roots.findSome? (fun r => below? (absolute cwd r) path) = none := by
    rw [List.findSome?_eq_none_iff]
    exact fun r hr => below?_absolute_of_misses hpath (habs r hr) (h r hr)
  rw [displayName, hnone]
  rfl

end

/-- The directory of an output, put behind the root, is the directory of its file exactly when that
directory lies at or below the root and the way down does not start with two dots; otherwise it is
empty. The name of a file is its path from the first root that it lies at or below on a way of that
kind, and the fallback when there is none. -/
theorem containment_exact {root path : String} (hroot : Rooted root) (hpath : Rooted path) :
    (∀ names, LeadsDown root (dirOf path) names →
      (joinPath [root, Program.relDir root path] = dirOf path ↔ ¬ StartsDotted names)) ∧
    (Misses root (dirOf path) → Program.relDir root path = "") ∧
    ∀ (cwd fallback : String) (roots : List String), (∀ r ∈ roots, isAbsolute r = true) →
      (∀ before first after names, roots = before ++ first :: after →
        (∀ r ∈ before, Misses r path) → LeadsDown first path names → ¬ StartsDotted names →
        displayName cwd roots path fallback = Path.toText ⟨false, names⟩) ∧
      ((∀ r ∈ roots, Misses r path) → displayName cwd roots path fallback = fallback) := by
  refine ⟨fun names h => joinPath_relDir_iff hroot hpath h, relDir_of_misses hroot hpath,
    fun cwd fallback roots habs => ⟨?_, displayName_of_misses hpath habs⟩⟩
  rintro before first after names rfl hbefore h hdots
  exact displayName_of_leadsDown hpath habs hbefore h hdots

/-- A file two directories below a root, and the same file seen from two roots. -/
theorem orders_contained : Rooted "/r" ∧ Rooted "/r/d/a.proto" ∧
    joinPath ["/r", Program.relDir "/r" "/r/d/a.proto"] = dirOf "/r/d/a.proto" ∧
    Program.relDir "/q" "/r/d/a.proto" = "" ∧
    displayName "/" ["/q", "/r/./d/.."] "/r/d/a.proto" "a.proto" = "d/a.proto" ∧
    displayName "/" ["/q"] "/r/d/a.proto" "a.proto" = "a.proto" := by
  have hroot : Rooted "/r" := ⟨["r"], by decide, by decide⟩
  have hother : Rooted "/q" := ⟨["q"], by decide, by decide⟩
  have hpath : Rooted "/r/d/a.proto" := ⟨["r", "d", "a.proto"], by decide, by decide⟩
  have hmisses : ∀ path, (Path.ofText path).segments.head? ≠ some "q" → Misses "/q" path := by
    intro path hhead names h
    have hq : (Path.ofText "/q").segments = ["q"] := by decide
    rw [LeadsDown, hq] at h
    exact absurd (by rw [h]; rfl) hhead
  have hplain : ∀ {names}, (names.head?.map (startsWith · "..")).getD false = false →
      ¬ StartsDotted names := by
    rintro names h ⟨first, hfirst, hdots⟩
    rw [hfirst] at h
    exact absurd (h.symm.trans hdots) (by decide)
  have hfile := hmisses "/r/d/a.proto" (by decide)
  obtain ⟨hdir, -, hname⟩ := containment_exact hroot hpath
  obtain ⟨-, hempty, hother_name⟩ := containment_exact hother hpath
  refine ⟨hroot, hpath, (hdir ["d"] (by decide)).2 (hplain (by decide)),
    hempty (hmisses _ (by decide)), ?_, ?_⟩
  · exact (hname "/" "a.proto" _ (by decide)).1 ["/q"] "/r/./d/.." [] ["d", "a.proto"] rfl
      (by simpa using hfile) (by decide) (hplain (by decide))
  · exact (hother_name "/" "a.proto" ["/q"] (by decide)).2 (by simpa using hfile)

/-- A directory whose name starts with two dots is taken for one outside the root that it lies
in. -/
theorem dotted_directory_missed : Rooted "/r" ∧ Rooted "/r/..d/a.proto" ∧
    LeadsDown "/r" (dirOf "/r/..d/a.proto") ["..d"] ∧
    joinPath ["/r", Program.relDir "/r" "/r/..d/a.proto"] ≠ dirOf "/r/..d/a.proto" ∧
    LeadsDown "/r" "/r/..d/a.proto" ["..d", "a.proto"] ∧
    displayName "/" ["/r"] "/r/..d/a.proto" "a.proto" = "a.proto" :=
  ⟨⟨["r"], by decide, by decide⟩, ⟨["r", "..d", "a.proto"], by decide, by decide⟩, by decide,
    by decide, by decide, by decide⟩

end ProtoStub

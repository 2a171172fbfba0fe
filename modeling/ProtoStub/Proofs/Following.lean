import ProtoStub.Proofs.Placement

/-!
# Following paths

`Workspace.Leads` says how a path is followed in a workspace, one rule for each kind of segment; it
is `Workspace.follow` as a relation (`Workspace.leads_of_follow`, `Workspace.follow_of_leads`). By
induction over the rules, a path leads nowhere but to the place that it names, which does not depend
on the entries (`Workspace.place_of_locate`), and it still leads there in a workspace that has the
same directories and more files (`Workspace.locate_kept`).
-/

namespace ProtoStub

open Text

/-! ## The place that a path names -/

/-- Going up from a place leads to the directory it lies in. -/
theorem Path.push_up {place : List String} (h : ∀ name ∈ place, IsName name) :
    Path.push true place.reverse ".." = place.dropLast.reverse := by
  rcases List.eq_nil_or_concat place with rfl | ⟨front, last, rfl⟩
  · decide
  · rw [List.concat_eq_append] at *
    have hlast : (last == "..") = false := by simpa using (h last (by simp)).2.2.1
    simp [Path.push, hlast]

/-- Empty segments lead nowhere. -/
theorem Path.foldl_push_empty {segments : List String} (h : ∀ s ∈ segments, s = "")
    (reversed : List String) : segments.foldl (Path.push true) reversed = reversed := by
  induction segments with
  | nil => rfl
  | cons segment segments ih =>
    rw [List.foldl_cons, h segment List.mem_cons_self]
    exact ih fun s hs => h s (List.mem_cons_of_mem _ hs)

theorem ofText_clean {s : String} (h : isAbsolute s = true) :
    Path.ofText (clean s) = Path.ofText s := by
  obtain ⟨place, hplace, ht⟩ := Path.ofText_of_absolute h
  rw [clean, ht]
  exact ofText_pathOf hplace

/-- A path that does not start at the root is walked from the current directory. -/
theorem ofText_absolute {cwd s : String} (habs : isAbsolute s = false) (hs : s ≠ "") :
    Path.ofText (absolute cwd s) = (Path.ofText ("/" ++ cwd)).walk (split '/' s) := by
  rw [absolute, if_neg (by simp [habs])]
  by_cases hcwd : cwd = ""
  · subst hcwd
    have hjoin : joinPath ["/", "", s] = clean ("/" ++ "/" ++ s) := by
      simp [joinPath, hs, join, String.intercalate_cons_cons]
    rw [hjoin, ofText_clean (by simp [isAbsolute, startsWith]), ofText_append (by decide),
      String.append_empty]
  · have hjoin : joinPath ["/", cwd, s] = clean ("/" ++ "/" ++ cwd ++ "/" ++ s) := by
      simp [joinPath, hs, hcwd, join, String.intercalate_cons_cons, String.append_assoc]
    have hroot : Path.ofText "/" = ⟨true, []⟩ := by decide
    have hdir : Path.ofText ("/" ++ "/" ++ cwd) = Path.ofText ("/" ++ cwd) := by
      rw [ofText_append (by decide), hroot, ofText_slash]
    rw [hjoin, ofText_clean (by simp [isAbsolute, startsWith]), ofText_append (by simp), hdir]

/-- The place where a way ends. -/
def Spot.place : Spot → List String
  | .taken place _ | .free place => place

/-- What stands where a way ends. -/
def Spot.entry : Spot → Option Entry
  | .taken _ e => some e
  | .free _ => none

namespace Workspace

variable {w w' : Workspace}

/-- The end of a way to a place. -/
def spotAt (w : Workspace) (place : List String) : Spot :=
  match w.entry? place with
  | some e => .taken place e
  | none => .free place

/-- The place that a path names. -/
def placeOf (w : Workspace) (path : String) : List String :=
  (Path.ofText (w.absolute path)).segments

/-! ## Following a path -/

/-- The segments, followed from a place, lead to a spot. -/
inductive Leads (w : Workspace) : List String → List String → Spot → Prop
  | here {place : List String} {e : Entry} (h : w.entry? place = some e) :
    Leads w place [] (.taken place e)
  | stay {start rest : List String} {s : String} {spot : Spot}
    (hdir : w.entry? start = some .directory) (hs : s = "" ∨ s = ".")
    (h : Leads w start rest spot) : Leads w start (s :: rest) spot
  | up {start rest : List String} {spot : Spot} (hdir : w.entry? start = some .directory)
    (h : Leads w start.dropLast rest spot) : Leads w start (".." :: rest) spot
  | down {start rest : List String} {s : String} {spot : Spot}
    (hdir : w.entry? start = some .directory) (hs : s ≠ "" ∧ s ≠ "." ∧ s ≠ "..")
    (hlength : s.utf8ByteSize ≤ maxName) (h : Leads w (start ++ [s]) rest spot) :
    Leads w start (s :: rest) spot
  | free {start rest : List String} {s : String}
    (hdir : w.entry? start = some .directory) (hs : s ≠ "" ∧ s ≠ "." ∧ s ≠ "..")
    (hlength : s.utf8ByteSize ≤ maxName) (hnone : w.entry? (start ++ [s]) = none)
    (hrest : ∀ x ∈ rest, x = "") : Leads w start (s :: rest) (.free (start ++ [s]))

section
variable {start segments : List String} {spot : Spot}

/-- A way starts at an entry. -/
theorem Leads.exists_entry (h : w.Leads start segments spot) : ∃ e, w.entry? start = some e := by
  cases h with
  | here h => exact ⟨_, h⟩
  | stay hdir | up hdir | down hdir | free hdir => exact ⟨_, hdir⟩

theorem leads_of_follow (h : w.follow start segments = .ok spot) : w.Leads start segments spot := by
  fun_induction follow w start segments with
  | case1 place e he =>
    cases h
    exact .here he
  | case2 | case3 | case4 => cases h
  | case5 place s rest hdir hs ih => exact .stay hdir (by simpa using hs) (ih h)
  | case6 place s rest hdir hs hup ih =>
    rw [beq_iff_eq.1 hup]
    exact .up hdir (ih h)
  | case7 => cases h
  | case8 place s rest hdir hs hup hlength next e he ih =>
    exact .down hdir (by simpa [and_assoc] using And.intro hs hup) (by omega) (ih h)
  | case9 place s rest hdir hs hup hlength next hnone hrest =>
    cases h
    exact .free hdir (by simpa [and_assoc] using And.intro hs hup) (by omega) hnone
      (by simpa using hrest)
  | case10 => cases h

theorem follow_of_leads (h : w.Leads start segments spot) : w.follow start segments = .ok spot := by
  induction h with
  | here h => simp only [follow, h]
  | stay hdir hs _ ih => simp only [follow, hdir, ih, Bool.or_eq_true, beq_iff_eq, hs, if_true]
  | up hdir _ ih => simp [follow, hdir, ih]
  | down hdir hs hlength h ih =>
    obtain ⟨e, he⟩ := h.exists_entry
    simp [follow, hdir, hs, he, ih, Nat.not_lt.2 hlength]
  | free hdir hs hlength hnone hrest =>
    simpa [follow, hdir, hs, hnone, Nat.not_lt.2 hlength] using hrest

/-- A way ends at the place that its segments name. -/
theorem Leads.place_eq (h : w.Leads start segments spot) (hstart : ∀ name ∈ start, IsName name)
    (hslash : ∀ s ∈ segments, '/' ∉ s.toList) :
    spot.place = (segments.foldl (Path.push true) start.reverse).reverse := by
  have hnext : ∀ {place : List String} {s : String}, (s ≠ "" ∧ s ≠ "." ∧ s ≠ "..") →
      Path.push true place.reverse s = (place ++ [s]).reverse := by
    rintro place s ⟨hempty, hdot, hdots⟩
    simp [Path.push, hempty, hdot, hdots]
  induction h with
  | here => simp [Spot.place]
  | stay _ hs _ ih =>
    rw [List.foldl_cons, ih hstart fun s hs => hslash s (List.mem_cons_of_mem _ hs)]
    simp [Path.push, hs]
  | up _ _ ih =>
    rw [List.foldl_cons, Path.push_up hstart]
    exact ih (fun n hn => hstart n (List.dropLast_subset _ hn))
      fun s hs => hslash s (List.mem_cons_of_mem _ hs)
  | @down start rest s spot _ hs _ _ ih =>
    rw [List.foldl_cons, hnext hs]
    refine ih (fun n hn => ?_) fun s hs => hslash s (List.mem_cons_of_mem _ hs)
    rcases List.mem_append.1 hn with hn | hn
    · exact hstart n hn
    · rw [List.mem_singleton.1 hn]
      exact ⟨hs.1, hs.2.1, hs.2.2, hslash s List.mem_cons_self⟩
  | free _ hs _ _ hrest =>
    rw [List.foldl_cons, hnext hs, Path.foldl_push_empty hrest, List.reverse_reverse]
    rfl

theorem Leads.entry_eq (h : w.Leads start segments spot) : w.entry? spot.place = spot.entry := by
  induction h with
  | here h => exact h
  | stay _ _ _ ih | up _ _ ih | down _ _ _ _ ih => exact ih
  | free _ _ _ hnone => exact hnone

/-- A way still leads to its place in a workspace that has the same directories, unless something at
its end was taken away. A free place has to be the last thing on the way. -/
theorem Leads.kept (h : w.Leads start segments spot)
    (hdirs : ∀ place, w.entry? place = some .directory → w'.entry? place = some .directory)
    (hlast : ∀ place, spot = .free place → segments.getLast? ≠ some "")
    (hend : ∀ e, spot.entry = some e → ∃ e', w'.entry? spot.place = some e') :
    w'.Leads start segments (w'.spotAt spot.place) := by
  have htail : ∀ {s : String} {rest : List String} {spot : Spot},
      (∀ place, spot = .free place → (s :: rest).getLast? ≠ some "") →
      ∀ place, spot = .free place → rest.getLast? ≠ some "" := by
    intro s rest spot hlast place hspot hempty
    exact hlast place hspot (by simp [List.getLast?_cons, hempty])
  induction h with
  | here h =>
    obtain ⟨e', he'⟩ := hend _ rfl
    rw [spotAt, he']
    exact .here he'
  | stay hdir hs _ ih => exact .stay (hdirs _ hdir) hs (ih (htail hlast) hend)
  | up hdir _ ih => exact .up (hdirs _ hdir) (ih (htail hlast) hend)
  | down hdir hs hlength _ ih => exact .down (hdirs _ hdir) hs hlength (ih (htail hlast) hend)
  | @free start rest s hdir hs hlength hnone hrest =>
    rcases List.eq_nil_or_concat rest with rfl | ⟨front, last, rfl⟩
    · rw [spotAt, Spot.place]
      split
      · rename_i e he
        exact .down (hdirs _ hdir) hs hlength (.here he)
      · rename_i he
        exact .free (hdirs _ hdir) hs hlength he (by simp)
    · refine absurd ?_ (hlast _ rfl)
      simp [List.getLast?_cons, hrest last (by simp)]

end

section
variable {path : String} {spot : Spot}

theorem leads_of_locate (h : w.locate path = .ok spot) :
    w.Leads (if isAbsolute path then [] else (Path.ofText ("/" ++ w.cwd)).segments)
      (split '/' path) spot :=
  leads_of_follow (follow_of_locate h)

/-- A path leads nowhere but to the place that it names. -/
theorem place_of_locate (h : w.locate path = .ok spot) : spot.place = w.placeOf path := by
  have hne : path ≠ "" := by
    rintro rfl
    simp [locate] at h
  have hslash : ∀ s ∈ split '/' path, '/' ∉ s.toList := fun _ hs => not_mem_of_mem_split hs
  have hleads := leads_of_locate h
  split at hleads
  · rename_i habs
    have hrooted : startsWith path "/" = true := habs
    rw [placeOf, Workspace.absolute, ProtoStub.absolute, if_pos habs, ofText_clean habs,
      hleads.place_eq (by simp) hslash, Path.ofText, hrooted]
    rfl
  · rename_i habs
    have hcwd : isAbsolute ("/" ++ w.cwd) = true := by simp [isAbsolute, startsWith]
    obtain ⟨dir, hdir, ht⟩ := Path.ofText_of_absolute hcwd
    rw [ht] at hleads
    rw [placeOf, Workspace.absolute, ofText_absolute (by simpa using habs) hne, ht,
      hleads.place_eq hdir hslash]
    rfl

theorem entry_of_locate (h : w.locate path = .ok spot) :
    w.entry? (w.placeOf path) = spot.entry := by
  rw [← place_of_locate h]
  exact (leads_of_locate h).entry_eq

/-- A text that does not end with a slash has a last segment. -/
theorem getLast?_split (hne : path ≠ "") (h : endsWith path "/" = false) :
    (split '/' path).getLast? ≠ some "" := by
  intro hlast
  obtain ⟨front, hfront⟩ := List.getLast?_eq_some_iff.1 hlast
  have hjoin : join "/" (front ++ [""]) = path := hfront ▸ join_singleton_split '/' path
  by_cases hnil : front = []
  · subst hnil
    exact hne hjoin.symm
  · rw [join, String.intercalate_append_of_ne_nil hnil (by simp)] at hjoin
    have hsuffix : "/".toList <:+ path.toList := by
      simp [← hjoin]
    rw [endsWith, List.isSuffixOf_iff_suffix.2 hsuffix] at h
    cases h

/-- A path still leads to its place in a workspace that has the same directories, unless what it led
to was taken away. -/
theorem locate_kept (h : w.locate path = .ok spot) (hcwd : w'.cwd = w.cwd)
    (hdirs : ∀ place, w.entry? place = some .directory → w'.entry? place = some .directory)
    (hslash : ∀ place, spot = .free place → endsWith path "/" = false)
    (hend : ∀ e, spot.entry = some e → ∃ e', w'.entry? (w.placeOf path) = some e') :
    w'.locate path = .ok (w'.spotAt (w.placeOf path)) := by
  have hleads := leads_of_locate h
  rw [← place_of_locate h] at hend ⊢
  rw [locate] at h ⊢
  split at h
  · cases h
  · rename_i hne
    split at h
    · cases h
    · rename_i hnul
      split at h
      · cases h
      · rename_i hlength
        rw [if_neg hne, if_neg hnul, if_neg hlength, hcwd]
        refine follow_of_leads (hleads.kept hdirs (fun place hspot => ?_) hend)
        exact getLast?_split (by simpa using hne) (hslash place hspot)

theorem find_eq_ok_iff {e : Entry} :
    w.find path = .ok e ↔ ∃ place, w.locate path = .ok (.taken place e) := by
  rw [find]
  rcases w.locate path with _ | ⟨_, _⟩ | _ <;> simp [bind, Except.bind, pure, Except.pure]

/-- A directory that a path leads to is found again. -/
theorem find_directory_kept (h : w.find path = .ok .directory) (hcwd : w'.cwd = w.cwd)
    (hdirs : ∀ place, w.entry? place = some .directory → w'.entry? place = some .directory) :
    w'.find path = .ok .directory := by
  obtain ⟨place, hl⟩ := find_eq_ok_iff.1 h
  have hentry := hdirs _ (entry_of_locate hl)
  refine find_eq_ok_iff.2 ⟨w.placeOf path, ?_⟩
  rw [locate_kept hl hcwd hdirs (by simp) fun _ _ => ⟨_, hentry⟩, spotAt, hentry]

/-- A path can be read once a file is where it leads to. -/
theorem read_of_locate (h : w.locate path = .ok spot) (hcwd : w'.cwd = w.cwd)
    (hdirs : ∀ place, w.entry? place = some .directory → w'.entry? place = some .directory)
    (hslash : ∀ place, spot = .free place → endsWith path "/" = false)
    {content : List UInt8} (hfile : w'.entry? (w.placeOf path) = some (.file content)) :
    w'.read path = .ok content := by
  refine read_eq_ok_iff.2 ⟨w.placeOf path, ?_⟩
  rw [locate_kept h hcwd hdirs hslash fun _ _ => ⟨_, hfile⟩, spotAt, hfile]

end

end Workspace

end ProtoStub

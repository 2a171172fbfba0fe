import ProtoStub.JsonSchema.Document
import ProtoStub.Program.Build
import ProtoStub.Proofs.Location
import Mathlib.Data.List.TakeWhile

/-!
# Where documents are placed

A document lies at a path that does not start at the root and is made of names only
(`docPath_eq_toText`): an input lies below the directory of its schema file, seen from the root of
the run, and a file that is only imported lies in the directory of its import name, unless that
leads out of the place it starts from. Between two such paths there is always a relative path, and
walking it from the directory of the first leads to the second (`joinPath_relative?`): going up
takes back the segments that the two paths do not share.
-/

namespace ProtoStub

open Text

/-! ## Walking -/

/-- A text that goes on after a slash means what is reached by walking on. -/
theorem ofText_append {s : String} (h : s ≠ "") (t : String) :
    Path.ofText (s ++ "/" ++ t) = (Path.ofText s).walk (split '/' t) := by
  have hrooted : startsWith (s ++ "/" ++ t) "/" = startsWith s "/" := by
    cases hchars : s.toList with
    | nil => exact absurd (String.toList_eq_nil_iff.1 hchars) h
    | cons c cs => simp [startsWith, hchars, List.isPrefixOf]
  have hsplit : split '/' (s ++ "/" ++ t) = split '/' s ++ split '/' t :=
    split_append_singleton '/' s t
  rw [Path.ofText, hrooted, hsplit, List.foldl_append]
  simp only [Path.walk, Path.ofText, List.reverse_reverse]

/-- Behind a slash a text is walked from the root. -/
theorem ofText_slash (t : String) :
    Path.ofText ("/" ++ t) = Path.walk ⟨true, []⟩ (split '/' t) := by
  have hrooted : startsWith ("/" ++ t) "/" = true := by simp [startsWith]
  have hsplit : split '/' ("" ++ "/" ++ t) = split '/' "" ++ split '/' t :=
    split_append_singleton '/' "" t
  have hempty : (split '/' "").foldl (Path.push true) [] = [] := by decide
  rw [String.empty_append] at hsplit
  rw [Path.ofText, hrooted, hsplit, List.foldl_append, hempty]
  rfl

/-- Two texts joined into a path. -/
theorem joinPath_pair {a b : String} (ha : a ≠ "") (hb : b ≠ "") :
    joinPath [a, b] = ((Path.ofText a).walk (split '/' b)).toText := by
  have hfilter : [a, b].filter (· != "") = [a, b] := by simp [ha, hb]
  rw [joinPath, hfilter]
  dsimp only
  rw [join, String.intercalate_cons_cons, String.intercalate_singleton, clean, ofText_append ha]

/-! ## Texts of paths without root -/

section
variable {place segments : List String} {name : String}

/-- The pieces of the text of a path are walked like its segments; the text of the empty path is a
lone dot, which leads nowhere. -/
theorem foldl_push_split_toText {rooted : Bool} (h : ∀ x ∈ segments, '/' ∉ x.toList)
    (reversed : List String) :
    (split '/' (Path.toText ⟨false, segments⟩)).foldl (Path.push rooted) reversed =
      segments.foldl (Path.push rooted) reversed := by
  cases segments with
  | nil =>
    have hdot : split '/' (Path.toText ⟨false, []⟩) = ["."] := by decide
    rw [hdot]
    rfl
  | cons first rest =>
    have hpieces : split '/' (join "/" (first :: rest)) = first :: rest := split_join (by simp) h
    exact congrArg (List.foldl (Path.push rooted) reversed) hpieces

theorem toText_ne_empty (h : ∀ x ∈ segments, x ≠ "") : Path.toText ⟨false, segments⟩ ≠ "" := by
  cases segments with
  | nil => decide
  | cons first rest =>
    intro he
    have hjoin : join "/" (first :: rest) = "" := he
    cases rest with
    | nil =>
      rw [join, String.intercalate_singleton] at hjoin
      exact h first List.mem_cons_self hjoin
    | cons next rest =>
      rw [join, String.intercalate_cons_cons] at hjoin
      have := congrArg String.toList hjoin
      simp at this

/-- A path that does not start at the root has a text that does not. -/
theorem isAbsolute_toText (h : ∀ x ∈ segments, x ≠ "" ∧ '/' ∉ x.toList) :
    isAbsolute (Path.toText ⟨false, segments⟩) = false := by
  cases segments with
  | nil => decide
  | cons first rest =>
    obtain ⟨hne, hslash⟩ := h first List.mem_cons_self
    have hstart : ∀ more : String, isAbsolute (first ++ more) = false := by
      intro more
      cases hchars : first.toList with
      | nil => exact absurd (String.toList_eq_nil_iff.1 hchars) hne
      | cons c cs =>
        have hc : '/' ≠ c := by
          rintro rfl
          exact hslash (by simp [hchars])
        simp [isAbsolute, startsWith, hchars, List.isPrefixOf, hc]
    cases rest with
    | nil =>
      have hone := hstart ""
      rw [String.append_empty] at hone
      simpa [Path.toText, join, String.intercalate_singleton] using hone
    | cons next rest =>
      have hmore := hstart ("/" ++ join "/" (next :: rest))
      simpa [Path.toText, join, String.intercalate_cons_cons, String.append_assoc] using hmore

theorem startsWith_slash_toText (h : ∀ n ∈ place, IsName n) :
    startsWith (Path.toText ⟨false, place⟩) "/" = false :=
  isAbsolute_toText fun n hn => ⟨(h n hn).1, (h n hn).2.2.2⟩

/-- The text of a path made of names means that path. -/
theorem ofText_toText (h : ∀ n ∈ place, IsName n) :
    Path.ofText (Path.toText ⟨false, place⟩) = ⟨false, place⟩ := by
  have hfold : (split '/' (Path.toText ⟨false, place⟩)).foldl (Path.push false) [] =
      place.reverse := by
    rw [foldl_push_split_toText (fun n hn => (h n hn).2.2.2), Path.foldl_push_names h,
      List.append_nil]
  simp only [Path.ofText, startsWith_slash_toText h, hfold, List.reverse_reverse]

/-- A name in a directory that is reached by names. -/
theorem joinPath_name {dir : String} (hne : dir ≠ "") (hdir : Path.ofText dir = ⟨false, place⟩)
    (hname : IsName name) : joinPath [dir, name] = Path.toText ⟨false, place ++ [name]⟩ := by
  have hone : split '/' name = [name] := by
    have hjoin : split '/' (join "/" [name]) = [name] :=
      split_join (by simp) (by simpa using hname.2.2.2)
    rwa [join, String.intercalate_singleton] at hjoin
  rw [joinPath_pair hne hname.1, hdir, hone]
  simp [Path.walk, Path.push_name hname]

/-- A name in no directory. -/
theorem joinPath_empty_name (hname : IsName name) :
    joinPath ["", name] = Path.toText ⟨false, [name]⟩ := by
  have hone : ∀ n ∈ [name], IsName n := by simpa using hname
  have htext : Path.toText ⟨false, [name]⟩ = name := by
    simp [Path.toText, join, String.intercalate_singleton]
  have hfilter : ["", name].filter (· != "") = [name] := by simp [hname.1]
  have hclean := congrArg Path.toText (ofText_toText hone)
  rw [htext] at hclean
  rw [joinPath, hfilter]
  dsimp only
  rw [join, String.intercalate_singleton, clean, hclean, htext]

end

/-! ## From one path to another -/

/-- What is left of two lists comes after a common start. -/
theorem dropCommon_spec (as bs : List String) :
    ∃ common, as = common ++ (Path.dropCommon as bs).1 ∧
      bs = common ++ (Path.dropCommon as bs).2 := by
  fun_induction Path.dropCommon as bs with
  | case1 a as b bs hab ih =>
    obtain ⟨common, has, hbs⟩ := ih
    rw [beq_iff_eq] at hab
    exact ⟨a :: common, congrArg (a :: ·) has, by rw [hab]; exact congrArg (b :: ·) hbs⟩
  | case2 => exact ⟨[], rfl, rfl⟩
  | case3 => exact ⟨[], rfl, rfl⟩

/-- One more segment of a path without root: names, and going up only at the start. -/
theorem Path.push_low {reversed : List String} {segment : String}
    (h : ∃ names n, (∀ x ∈ names, IsName x) ∧ reversed = names ++ List.replicate n "..")
    (hs : '/' ∉ segment.toList) :
    ∃ names n, (∀ x ∈ names, IsName x) ∧
      Path.push false reversed segment = names ++ List.replicate n ".." := by
  obtain ⟨names, n, hnames, rfl⟩ := h
  by_cases hplain : segment = "" ∨ segment = "."
  · exact ⟨names, n, hnames, by simp [Path.push, hplain]⟩
  · obtain ⟨hempty, hdot⟩ := not_or.1 hplain
    by_cases hdots : segment = ".."
    · subst hdots
      cases names with
      | nil => exact ⟨[], n + 1, by simp, by cases n <;> simp [Path.push, List.replicate_succ]⟩
      | cons x names =>
        have hx : (x == "..") = false := by simpa using (hnames x List.mem_cons_self).2.2.1
        exact ⟨names, n, fun y hy => hnames y (List.mem_cons_of_mem _ hy), by simp [Path.push, hx]⟩
    · have hname : IsName segment := ⟨hempty, hdot, hdots, hs⟩
      refine ⟨segment :: names, n, ?_, Path.push_name hname _⟩
      intro y hy
      rcases List.mem_cons.1 hy with rfl | hy
      · exact hname
      · exact hnames y hy

/-- A path that stays below where it starts is made of names. -/
theorem names_of_isLocal {s : String} (h : isLocal s = true) :
    s ≠ "" ∧ ∃ place, (∀ n ∈ place, IsName n) ∧ Path.ofText s = ⟨false, place⟩ := by
  have hlow : ∀ (segments reversed : List String), (∀ x ∈ segments, '/' ∉ x.toList) →
      (∃ names n, (∀ x ∈ names, IsName x) ∧ reversed = names ++ List.replicate n "..") →
      ∃ names n, (∀ x ∈ names, IsName x) ∧
        segments.foldl (Path.push false) reversed = names ++ List.replicate n ".." := by
    intro segments
    induction segments with
    | nil => exact fun reversed _ h => h
    | cons segment segments ih =>
      intro reversed hs h
      exact ih _ (fun x hx => hs x (List.mem_cons_of_mem _ hx))
        (Path.push_low h (hs segment List.mem_cons_self))
  simp only [isLocal, Bool.and_eq_true, bne_iff_ne, Bool.not_eq_true'] at h
  obtain ⟨⟨hne, habs⟩, hhead⟩ := h
  have hrooted : startsWith s "/" = false := habs
  obtain ⟨names, n, hnames, hfold⟩ :=
    hlow (split '/' s) [] (fun _ hx => not_mem_of_mem_split hx) ⟨[], 0, by simp, rfl⟩
  have hpath : Path.ofText s = ⟨false, (names ++ List.replicate n "..").reverse⟩ := by
    simp only [Path.ofText, hrooted, hfold]
  cases n with
  | zero =>
    refine ⟨hne, names.reverse, fun x hx => hnames x (List.mem_reverse.1 hx), ?_⟩
    simpa using hpath
  | succ n =>
    rw [hpath, List.reverse_append, List.reverse_replicate, List.replicate_succ] at hhead
    exact absurd rfl hhead

/-- A directory whose path from the root of the run does not start with two dots. -/
theorem below?_eq_some {root rel : String} {place : List String} (h : ∀ n ∈ place, IsName n)
    (hrel : below? root (Workspace.pathOf place) = some rel) :
    ∃ below, place = (Path.ofText root).segments ++ below ∧ rel = Path.toText ⟨false, below⟩ := by
  rw [below?, Option.filter_eq_some_iff, relative?, ofText_pathOf h] at hrel
  obtain ⟨hrel, hdots⟩ := hrel
  obtain ⟨segments, hsegments, htext⟩ := Option.map_eq_some_iff.1 hrel
  have htext : rel = Path.toText ⟨false, segments⟩ := htext.symm
  rw [Path.relative?] at hsegments
  split at hsegments
  · cases hsegments
  dsimp only at hsegments
  split at hsegments
  · cases hsegments
  cases hsegments
  obtain ⟨common, hroot, hplace⟩ := dropCommon_spec (Path.ofText root).segments place
  generalize (Path.dropCommon (Path.ofText root).segments place).1 = up at *
  generalize (Path.dropCommon (Path.ofText root).segments place).2 = down at *
  cases up with
  | nil => exact ⟨down, by rw [hplace, hroot, List.append_nil], htext⟩
  | cons u up =>
    -- A path that goes up starts with two dots, and such a path is not below.
    have hstart : ∀ rest, startsWith (join "/" (".." :: rest)) ".." = true := by
      intro rest
      cases rest with
      | nil => decide
      | cons next rest =>
        rw [join, String.intercalate_cons_cons]
        simp [startsWith]
    have hrel : startsWith rel ".." = true := htext ▸ hstart _
    rw [hrel] at hdots
    cases hdots

end ProtoStub

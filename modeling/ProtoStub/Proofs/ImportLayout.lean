import ProtoStub.Proofs.Edits
import ProtoStub.Proofs.ImportNames
import ProtoStub.Proofs.OutputPaths
import Mathlib.Data.List.Induction

/-!
# Files laid out at their import names

A local name joined to a directory lies below the place of the directory, whatever text the
directory is given by (`Workspace.placeOf_joinPath`): walking a path and walking its lowest terms
comes to the same (`Path.foldl_push_lowest`).

Laying out is seen as a list of copies made one after another (`Workspace.Copied`, `LaidOut`).
Copies with one target overwrite each other, so they can only be right if their sources agree. That
is enough (`Workspace.Copied.target_eq`), also where a source is itself the work of an earlier copy:
such a source lies less deep than its own copy, and induction on the depth goes through
(`Workspace.Copied.source_eq`). Names that are the same in lowest terms have one target. So the
layout is right exactly when such names stand for files of one content (`layOut_content_iff`), and
it can be wrong, for names are told apart by their spelling (`twoSpellings_overwritten`).
-/

namespace ProtoStub

open Text

/-! ## Places of joined paths -/

namespace Path

/-- No segment of a path in lowest terms is a step in place. -/
theorem proper_foldl_push (rooted : Bool) (segments : List String) :
    ∀ x ∈ segments.foldl (push rooted) [], x ≠ "" ∧ x ≠ "." := by
  have hpush : ∀ {reversed : List String} {segment x : String}, x ∈ push rooted reversed segment →
      x ∈ reversed ∨ x ≠ "" ∧ x ≠ "." := by
    intro reversed segment x hx
    revert hx
    fun_cases push rooted reversed segment <;> grind
  induction segments using List.reverseRecOn with
  | nil => simp
  | append_singleton segments segment ih =>
    intro x hx
    rw [List.foldl_append] at hx
    exact (hpush hx).elim (ih x) id

/-- Segments lead from anywhere to where their lowest terms lead. -/
theorem foldl_push_lowest (rooted : Bool) (reversed segments : List String) :
    (segments.foldl (push false) []).reverse.foldl (push rooted) reversed =
      segments.foldl (push rooted) reversed := by
  induction segments using List.reverseRecOn with
  | nil => rfl
  | append_singleton segments segment ih =>
    have hproper := proper_foldl_push false segments
    rw [List.foldl_append, List.foldl_append, ← ih]
    generalize segments.foldl (push false) [] = lowest at hproper
    simp only [List.foldl_cons, List.foldl_nil]
    fun_cases push false lowest segment with
    | case1 _ hstay =>
      have hpush : ∀ reversed, push rooted reversed segment = reversed := by
        intro reversed
        simp only [push, hstay, if_true]
      rw [hpush]
    | case2 _ _ hrooted => cases hrooted
    | case3 _ hup => simp [beq_iff_eq.1 hup]
    | case4 _ hup last before => simp [beq_iff_eq.1 hup]
    | case5 _ hup last before hlast =>
      -- the step up takes back the segment before it
      obtain ⟨hempty, hdot⟩ := hproper last List.mem_cons_self
      have hdots : last ≠ ".." := by simpa using hlast
      simp [beq_iff_eq.1 hup, push, hempty, hdot, hdots]
    | case6 => simp

theorem ofText_of_relative {s : String} (h : isAbsolute s = false) :
    ofText s = ⟨false, ((split '/' s).foldl (push false) []).reverse⟩ := by
  have hrooted : startsWith s "/" = false := h
  rw [ofText, hrooted]

/-- A segment of a path in lowest terms is a piece of text. -/
theorem proper_segments (s : String) : ∀ x ∈ (ofText s).segments, x ≠ "" ∧ '/' ∉ x.toList := by
  intro x hx
  exact ⟨(proper_foldl_push _ _ x (List.mem_reverse.1 hx)).1, slash_notMem_segments s x hx⟩

theorem proper_append (s t : String) :
    ∀ x ∈ (ofText s).segments ++ (ofText t).segments, x ≠ "" ∧ '/' ∉ x.toList :=
  List.forall_mem_append.2 ⟨proper_segments s, proper_segments t⟩

end Path

section
variable {name : String}

/-- A name that stays below where it starts leads down from anywhere. -/
theorem foldl_push_of_isLocal (hname : isLocal name = true) (rooted : Bool)
    (reversed : List String) :
    (split '/' name).foldl (Path.push rooted) reversed =
      (Path.ofText name).segments.reverse ++ reversed := by
  obtain ⟨-, names, hnames, hpath⟩ := names_of_isLocal hname
  have habs : isAbsolute name = false := congrArg Path.rooted hpath
  have hlowest : ((split '/' name).foldl (Path.push false) []).reverse = names := by
    rw [Path.ofText_of_relative habs] at hpath
    exact congrArg Path.segments hpath
  rw [← Path.foldl_push_lowest, hlowest, Path.foldl_push_names hnames, hpath]

theorem joinPath_of_isLocal (base : String) (hname : isLocal name = true) :
    joinPath [base, name] = Path.toText
      ⟨(Path.ofText base).rooted, (Path.ofText base).segments ++ (Path.ofText name).segments⟩ := by
  have hne := (names_of_isLocal hname).1
  by_cases hbase : base = ""
  · have hempty : Path.ofText "" = ⟨false, []⟩ := by decide
    have hrooted : (Path.ofText name).rooted = false := by
      obtain ⟨-, names, -, hpath⟩ := names_of_isLocal hname
      rw [hpath]
    rw [hbase, hempty, List.nil_append, ← hrooted]
    simp [joinPath, hne, join, String.intercalate_singleton, clean]
  · rw [joinPath_pair hbase hne, Path.walk, foldl_push_of_isLocal hname]
    simp

/-- The path of a local name in a directory is that of the directory with the names behind it. -/
theorem ofText_joinPath (base : String) (hname : isLocal name = true) :
    Path.ofText (joinPath [base, name]) =
      ⟨(Path.ofText base).rooted, (Path.ofText base).segments ++ (Path.ofText name).segments⟩ := by
  obtain ⟨-, names, hnames, hpath⟩ := names_of_isLocal hname
  have hproper := Path.proper_append base name
  rw [joinPath_of_isLocal base hname]
  cases habs : isAbsolute base with
  | true =>
    obtain ⟨place, hplace, hof⟩ := Path.ofText_of_absolute habs
    rw [hof, hpath]
    exact ofText_pathOf (List.forall_mem_append.2 ⟨hplace, hnames⟩)
  | false =>
    rw [Path.ofText_of_relative habs, hpath] at hproper ⊢
    have htext : startsWith (Path.toText
        ⟨false, ((split '/' base).foldl (Path.push false) []).reverse ++ names⟩) "/" = false :=
      isAbsolute_toText hproper
    rw [Path.ofText, htext, foldl_push_split_toText fun x hx => (hproper x hx).2, List.foldl_append,
      Path.foldl_push_lowest, Path.foldl_push_names hnames]
    simp

end

namespace Workspace

/-- The current directory, from the root. -/
def home (w : Workspace) : List String := (Path.ofText ("/" ++ w.cwd)).segments

/-- A path leads to its place from the root or from the current directory. -/
theorem placeOf_eq (w : Workspace) (path : String) :
    w.placeOf path = ((Path.ofText path).segments.foldl (Path.push true)
      (if (Path.ofText path).rooted then [] else w.home.reverse)).reverse := by
  cases habs : isAbsolute path with
  | true =>
    obtain ⟨place, hplace, hof⟩ := Path.ofText_of_absolute habs
    rw [placeOf, Workspace.absolute, ProtoStub.absolute, if_pos habs, ofText_clean habs, hof,
      if_pos rfl, Path.foldl_push_names hplace]
    simp
  | false =>
    have hhome : (Path.ofText ("/" ++ w.cwd)).rooted = true := by simp [Path.ofText, startsWith]
    rw [Path.ofText_of_relative habs, if_neg (by simp), Path.foldl_push_lowest]
    by_cases hempty : path = ""
    · -- an empty path stays in the current directory
      subst hempty
      have hsplit : split '/' "" = [""] := by decide
      have hroot : Path.ofText "/" = ⟨true, []⟩ := by decide
      have hplace : w.placeOf "" = w.home := by
        by_cases hcwd : w.cwd = ""
        · rw [placeOf, home, Workspace.absolute, hcwd]
          decide
        · have hjoin : joinPath ["/", w.cwd, ""] = clean ("/" ++ "/" ++ w.cwd) := by
            simp [joinPath, hcwd, join, String.intercalate_cons_cons]
          rw [placeOf, home, Workspace.absolute, ProtoStub.absolute, if_neg (by simp [habs]), hjoin,
            ofText_clean (by simp [isAbsolute, startsWith]), ofText_append (by decide), hroot,
            ofText_slash]
      rw [hplace, hsplit]
      simp [Path.push]
    · rw [placeOf, Workspace.absolute, ofText_absolute habs hempty, Path.walk, hhome]
      rfl

theorem placeOf_absolute (w : Workspace) (path : String) :
    w.placeOf (w.absolute path) = w.placeOf path := by
  obtain ⟨place, hplace, hpath⟩ := rooted_absolute w.cwd path
  have habs : isAbsolute (w.absolute path) = true := by
    rw [Workspace.absolute, hpath]
    exact isAbsolute_pathOf place
  rw [placeOf, placeOf, Workspace.absolute, ProtoStub.absolute, if_pos habs, ofText_clean habs]

/-- A name that stays below where it starts lies below the directory it is joined to. -/
theorem placeOf_joinPath (w : Workspace) (base : String) {name : String}
    (hname : isLocal name = true) :
    w.placeOf (joinPath [base, name]) = w.placeOf base ++ (Path.ofText name).segments := by
  obtain ⟨-, names, hnames, hpath⟩ := names_of_isLocal hname
  rw [placeOf_eq, placeOf_eq w base, ofText_joinPath base hname, List.foldl_append, hpath,
    Path.foldl_push_names hnames]
  simp

/-! ## Copies -/

/-- A file that was read at one path and written at another. -/
structure Copy where
  source : String
  target : String
  content : List UInt8

/-- What a copy writes. -/
def Copy.written (x : Copy) : String × List UInt8 := (x.target, x.content)

variable {w : Workspace} {copies : List Copy} {x : Copy}

/-- The files of `w` after copies were made one after another. -/
def filesCopied (w : Workspace) (copies : List Copy) : List String → Option (List UInt8) :=
  w.filesAfter (copies.map Copy.written)

/-- Each copy has the content that its source had when it was made. -/
inductive Copied (w : Workspace) : List Copy → Prop
  | nil : Copied w []
  | snoc {copies : List Copy} {x : Copy} (h : Copied w copies)
    (hread : w.filesCopied copies (w.placeOf x.source) = some x.content) : Copied w (copies ++ [x])

/-- The content of a copy is that of its source after some of the other copies. -/
theorem Copied.exists_before (h : w.Copied copies) (hx : x ∈ copies) :
    ∃ before, before ⊆ copies ∧ w.filesCopied before (w.placeOf x.source) = some x.content := by
  induction h with
  | nil => cases hx
  | @snoc copies y h hread ih =>
    rcases List.mem_append.1 hx with hx | hx
    · obtain ⟨before, hsub, hbefore⟩ := ih hx
      exact ⟨before, fun z hz => List.mem_append_left _ (hsub hz), hbefore⟩
    · rw [List.mem_singleton.1 hx]
      exact ⟨copies, fun z hz => List.mem_append_left _ hz, hread⟩

/-- A place that no copy was written at is as before. -/
theorem filesCopied_of_ne {place : List String} (h : ∀ x ∈ copies, w.placeOf x.target ≠ place) :
    w.filesCopied copies place = w.fileAt? place := by
  refine filesAfter_of_ne fun y hy => ?_
  obtain ⟨x, hx, rfl⟩ := List.mem_map.1 hy
  exact h x hx

/-- The source of the first copy was a file before. -/
theorem Copied.exists_first (h : w.Copied copies) (hne : copies ≠ []) :
    ∃ x ∈ copies, w.fileAt? (w.placeOf x.source) = some x.content := by
  induction h with
  | nil => exact absurd rfl hne
  | @snoc copies y h hread ih =>
    by_cases hnil : copies = []
    · rw [filesCopied_of_ne (by simp [hnil])] at hread
      exact ⟨y, by simp, hread⟩
    · obtain ⟨x, hx, hfile⟩ := ih hnil
      exact ⟨x, List.mem_append_left _ hx, hfile⟩

/-- At a place that copies were written at stands the content of one of them. -/
theorem filesCopied_of_mem (hx : x ∈ copies) :
    ∃ y ∈ copies, w.placeOf y.target = w.placeOf x.target ∧
      w.filesCopied copies (w.placeOf x.target) = some y.content := by
  obtain ⟨z, hz, hplace, hfile⟩ :=
    filesAfter_of_mem (w := w) (List.mem_map_of_mem (f := Copy.written) hx)
  obtain ⟨y, hy, rfl⟩ := List.mem_map.1 hz
  exact ⟨y, hy, hplace, hfile⟩

/-- The source of a copy is out of the way of all copies, or it was made by one and lies less deep
than what is copied from it. -/
def Steady (w : Workspace) (copies : List Copy) (x : Copy) : Prop :=
  (∀ y ∈ copies, w.placeOf y.target ≠ w.placeOf x.source) ∨
    w.fileAt? (w.placeOf x.source) = none ∧
      (w.placeOf x.source).length < (w.placeOf x.target).length

/-- Copies with one target have sources with one content. -/
def Agree (w : Workspace) (copies : List Copy) : Prop :=
  ∀ x ∈ copies, ∀ y ∈ copies, w.placeOf x.target = w.placeOf y.target →
    w.filesCopied copies (w.placeOf x.source) = w.filesCopied copies (w.placeOf y.source)

/-- The sources still have what was copied from them. -/
theorem Copied.source_eq (h : w.Copied copies) (hsteady : ∀ x ∈ copies, w.Steady copies x)
    (hagree : w.Agree copies) (hx : x ∈ copies) :
    w.filesCopied copies (w.placeOf x.source) = some x.content := by
  -- A source that was made by a copy lies less deep than its own copy: induction on the depth.
  induction hn : (w.placeOf x.target).length using Nat.strong_induction_on generalizing x with
  | _ n ih =>
    obtain ⟨before, hsub, hbefore⟩ := h.exists_before hx
    rcases hsteady x hx with haway | ⟨hnone, hdepth⟩
    · rw [filesCopied_of_ne haway, ← hbefore, filesCopied_of_ne fun y hy => haway y (hsub hy)]
    · have hmade : ∃ y ∈ before, w.placeOf y.target = w.placeOf x.source := by
        by_contra hno
        rw [filesCopied_of_ne fun y hy he => hno ⟨y, hy, he⟩, hnone] at hbefore
        cases hbefore
      obtain ⟨y, hy, hplace⟩ := hmade
      -- `z` made the source that was read, `last` is what stands there in the end
      obtain ⟨z, hz, hztarget, hzcontent⟩ := filesCopied_of_mem (w := w) hy
      obtain ⟨last, hlast, hlasttarget, hlastcontent⟩ := filesCopied_of_mem (w := w) (hsub hy)
      rw [hplace] at hztarget hzcontent hlasttarget hlastcontent
      have hcontent : x.content = z.content := by simpa using hbefore.symm.trans hzcontent
      have hzsource := ih _ (by omega) (hsub hz) (congrArg List.length hztarget)
      have hlastsource := ih _ (by omega) hlast (congrArg List.length hlasttarget)
      calc w.filesCopied copies (w.placeOf x.source)
        _ = some last.content := hlastcontent
        _ = w.filesCopied copies (w.placeOf last.source) := hlastsource.symm
        _ = w.filesCopied copies (w.placeOf z.source) :=
          hagree last hlast z (hsub hz) (hlasttarget.trans hztarget.symm)
        _ = some z.content := hzsource
        _ = some x.content := by rw [hcontent]

/-- A target has what its source has. -/
theorem Copied.target_eq (h : w.Copied copies) (hsteady : ∀ x ∈ copies, w.Steady copies x)
    (hagree : w.Agree copies) (hx : x ∈ copies) :
    w.filesCopied copies (w.placeOf x.target) = w.filesCopied copies (w.placeOf x.source) := by
  obtain ⟨y, hy, htarget, hcontent⟩ := filesCopied_of_mem (w := w) hx
  rw [hcontent, ← h.source_eq hsteady hagree hy]
  exact hagree y hy x hx htarget

end Workspace

/-! ## Writing in place -/

/-- The last piece of a text that ends with a slash is empty. -/
theorem getLast?_split_of_endsWith {s : String} (h : endsWith s "/" = true) :
    (split '/' s).getLast? = some "" := by
  obtain ⟨front, hfront⟩ := List.isSuffixOf_iff_suffix.1 h
  have hs : s = String.ofList front ++ "/" ++ "" := by
    apply String.toList_inj.1
    simp [← hfront]
  have hcut : split '/' (String.ofList front ++ "/" ++ "") =
      split '/' (String.ofList front) ++ split '/' "" := split_append_singleton '/' _ _
  have hempty : split '/' "" = [""] := by decide
  rw [hs, hcut, hempty, List.getLast?_concat]

/-- A text in lowest terms ends with no slash, but for the root. -/
theorem endsWith_slash_toText {rooted : Bool} {segments : List String}
    (h : ∀ x ∈ segments, x ≠ "" ∧ '/' ∉ x.toList) (hne : Path.toText ⟨rooted, segments⟩ ≠ "/") :
    endsWith (Path.toText ⟨rooted, segments⟩) "/" = false := by
  by_cases hnil : segments = []
  · subst hnil
    cases rooted
    · decide
    · exact absurd (by decide) hne
  · have hpieces : split '/' (join "/" segments) = segments :=
      split_join hnil fun x hx => (h x hx).2
    have hcut : split '/' ("" ++ "/" ++ join "/" segments) =
        split '/' "" ++ split '/' (join "/" segments) := split_append_singleton '/' "" _
    have hlast : (split '/' (Path.toText ⟨rooted, segments⟩)).getLast? = segments.getLast? := by
      cases rooted with
      | false => simp [Path.toText, hnil, hpieces]
      | true =>
        rw [String.empty_append] at hcut
        simp [Path.toText, hcut, hpieces, List.getLast?_append, List.getLast?_eq_some_getLast hnil]
    rw [Bool.eq_false_iff]
    intro hend
    rw [getLast?_split_of_endsWith hend] at hlast
    exact (h "" (List.mem_of_getLast? hlast.symm)).1 rfl

namespace Edit

open Workspace

/-- Writing in place puts one content at one path. -/
theorem updated_write {path : String} {content : List UInt8} {w w' : Workspace}
    (hslash : path ≠ "/" → endsWith path "/" = false)
    (h : write path content w = (.ok (), w')) : Updated w w' [(path, content)] := by
  -- whether a file is there or the place is free, the content is put where the path leads
  have hput : ∀ {spot : Spot}, w.locate path = .ok spot → spot.entry ≠ some .directory →
      w.put spot.place (.file content) = w' → Updated w w' [(path, content)] := by
    intro spot hl hfile hw
    rw [place_of_locate hl] at hw
    rw [← entry_of_locate hl] at hfile
    have hne : w.placeOf path ≠ [] := by
      intro hnil
      rw [hnil] at hfile
      exact hfile rfl
    have hroot : path ≠ "/" := by
      rintro rfl
      refine hne ?_
      rw [placeOf, Workspace.absolute, ProtoStub.absolute, if_pos (by decide)]
      decide
    have hentry : ∀ q, w'.entry? q =
        if q = w.placeOf path then some (.file content) else w.entry? q := by
      intro q
      rw [← hw, entry_put hne]
    have hcwd : w'.cwd = w.cwd := by
      rw [← hw]
      rfl
    have hkeeps := keeps_of_file hcwd hfile hentry
    refine updated_of_file hcwd hfile hentry ?_
    exact read_of_locate hl hcwd (fun q => (hkeeps.directories q).2) (fun _ _ => hslash hroot)
      (by rw [hentry, if_pos rfl])
  rw [write, bind_apply, locate_apply] at h
  rcases hl : w.locate path with e | ⟨place, _ | old⟩ | place <;> rw [hl] at h
  · cases h
  · cases h
  · exact hput hl (by simp [Spot.entry]) (congrArg Prod.snd h)
  · exact hput hl (by simp [Spot.entry]) (congrArg Prod.snd h)

end Edit

namespace Schema

open Workspace

variable {root name path : String} {w w' : Workspace}

/-- A file that is laid out is copied to its name, and nothing else changes. -/
theorem layOutFile_ok (h : layOutFile root name path w = (.ok (), w')) :
    isLocal name = true ∧ ∃ content, w.read path = .ok content ∧
      Updated w w' [(joinPath [root, name], content)] := by
  have hlocal : isLocal name = true := by
    by_contra hno
    rw [Bool.not_eq_true] at hno
    simp only [layOutFile, hno, Bool.not_false, if_true] at h
    cases h
  have hslash : joinPath [root, name] ≠ "/" → endsWith (joinPath [root, name]) "/" = false := by
    rw [joinPath_of_isLocal root hlocal]
    exact endsWith_slash_toText (Path.proper_append root name)
  simp only [layOutFile, hlocal, Bool.not_true, Bool.false_eq_true, if_false, get_bind_apply] at h
  cases hread : w.read path with
  | error fault =>
    rw [hread] at h
    cases h
  | ok content =>
    rw [hread] at h
    dsimp only at h
    rw [Edit.within_apply, bind_apply] at h
    have hdirs := Edit.updated_mkdirAll (dirOf (joinPath [root, name])) w
    rcases hmade : Edit.mkdirAll (dirOf (joinPath [root, name])) w with ⟨e | _, w₁⟩ <;>
      rw [hmade] at h hdirs
    · cases h
    · dsimp only at h hdirs
      rcases hwrite : Edit.write (joinPath [root, name]) content w₁ with ⟨e | _, w₂⟩ <;>
        rw [hwrite] at h
      · cases h
      · cases h
        exact ⟨hlocal, content, rfl, hdirs.append (Edit.updated_write hslash hwrite)⟩

/-- `c` lays out a name below `root`. -/
def LaysOut (root : String) (c : Copy) (x : String × String) : Prop :=
  c.source = x.2 ∧ c.target = joinPath [root, x.1]

/-- `w'` is `w` after the files of `order` were copied to their names below `root`. -/
structure LaidOut (w w' : Workspace) (root : String) (order : ImportSet) (copies : List Copy) :
    Prop where
  copied : w.Copied copies
  updated : Updated w w' (copies.map Copy.written)
  locals : ∀ x ∈ order, isLocal x.1 = true
  reads : ∀ x ∈ order, ∃ content, w'.read x.2 = .ok content
  copy : ∀ x ∈ order, ∃ c ∈ copies, LaysOut root c x
  named : ∀ c ∈ copies, ∃ x ∈ order, LaysOut root c x

/-- One more file is one more copy. -/
theorem LaidOut.concat {w₀ : Workspace} {order : ImportSet} {copies : List Copy}
    (h : LaidOut w₀ w root order copies) (hfile : layOutFile root name path w = (.ok (), w')) :
    ∃ c, LaidOut w₀ w' root (order ++ [(name, path)]) (copies ++ [c]) := by
  obtain ⟨hlocal, content, hread, hstep⟩ := layOutFile_ok hfile
  have hlays : LaysOut root ⟨path, joinPath [root, name], content⟩ (name, path) := ⟨rfl, rfl⟩
  refine ⟨⟨path, joinPath [root, name], content⟩, h.copied.snoc (h.updated.read_eq hread),
    ?_, ?_, ?_, ?_, ?_⟩
  · rw [List.map_append]
    exact h.updated.append hstep
  · exact List.forall_mem_append.2 ⟨h.locals, by simpa using hlocal⟩
  · refine List.forall_mem_append.2 ⟨fun x hx => ?_, by simpa using hstep.exists_read hread⟩
    obtain ⟨before, hbefore⟩ := h.reads x hx
    exact hstep.exists_read hbefore
  · refine List.forall_mem_append.2 ⟨fun x hx => ?_, by simpa using .inr hlays⟩
    obtain ⟨c, hc, hx⟩ := h.copy x hx
    exact ⟨c, List.mem_append_left _ hc, hx⟩
  · refine List.forall_mem_append.2 ⟨fun c hc => ?_, by simpa using .inr hlays⟩
    obtain ⟨x, hx, hc⟩ := h.named c hc
    exact ⟨x, List.mem_append_left _ hx, hc⟩

/-- Files laid out one after another: by induction over those that are left. -/
theorem LaidOut.append {w₀ : Workspace} {order more : ImportSet} {copies : List Copy}
    (h : LaidOut w₀ w root order copies) (hrun : layOut more root w = (.ok (), w')) :
    ∃ copies, LaidOut w₀ w' root (order ++ more) copies := by
  induction more generalizing w order copies with
  | nil =>
    cases hrun
    exact ⟨copies, by simpa using h⟩
  | cons x more ih =>
    obtain ⟨name, path⟩ := x
    have hsteps : (layOutFile root name path >>= fun _ => layOut more root) w = (.ok (), w') := hrun
    rw [bind_apply] at hsteps
    rcases hfile : layOutFile root name path w with ⟨e | _, w₁⟩ <;> rw [hfile] at hsteps
    · cases hsteps
    · obtain ⟨c, hnext⟩ := h.concat hfile
      obtain ⟨copies, hall⟩ := ih hnext hsteps
      exact ⟨copies, by simpa using hall⟩

theorem laidOut_of_layOut {order : ImportSet} (h : layOut order root w = (.ok (), w')) :
    ∃ copies, LaidOut w w' root order copies := by
  have hstart : LaidOut w w root [] [] := ⟨.nil, .refl w, by simp, by simp, by simp, by simp⟩
  exact hstart.append h

/-! ## Names and their files -/

section
variable {scan : ImportScan} {s : Search} {dir : String} {names : List String} {set : ImportSet}

/-- A file that imports another is there, and so is the other. -/
theorem Search.Mentions.files {target : String} (h : s.Mentions scan path name target) :
    (∃ content, s.workspace.fileAt? (s.workspace.placeOf path) = some content) ∧
      ∃ content, s.workspace.fileAt? (s.workspace.placeOf target) = some content := by
  obtain ⟨imp, himp, rfl, -, hfind⟩ := h
  constructor
  · rw [declaredImports] at himp
    split at himp
    · rename_i content hread
      exact ⟨content, fileAt_of_read hread⟩
    · cases himp
  · obtain ⟨candidate, hcandidate, rfl⟩ := Option.map_eq_some_iff.1 hfind
    have hfile := List.find?_some hcandidate
    rw [placeOf_absolute]
    rw [isFile] at hfile
    split at hfile
    · rename_i content hok
      obtain ⟨place, hl⟩ := find_eq_ok_iff.1 hok
      exact ⟨content, fileAt?_eq_some_iff.2 (entry_of_locate hl)⟩
    · cases hfile

/-- Names asked for in a directory below the empty one have no files. -/
theorem not_below_of_file (hset : resolveImports scan s dir names = .ok set)
    (hempty : ∀ place, s.workspace.placeOf root <+: place → s.workspace.fileAt? place = none)
    (hlocal : ∀ x ∈ set, isLocal x.1 = true)
    (hfile : ∃ x ∈ set, ∃ content, s.workspace.fileAt? (s.workspace.placeOf x.2) = some content) :
    ¬ s.workspace.placeOf root <+: s.workspace.placeOf dir := by
  intro hbelow
  obtain ⟨-, hmem, -⟩ := named_of_resolveImports hset
  have hall : ∀ name path, s.Named scan dir names name path →
      s.workspace.placeOf root <+: s.workspace.placeOf path := by
    intro name path hnamed
    induction hnamed with
    | @asked name hname =>
      rw [placeOf_joinPath _ dir (hlocal _ ((hmem _ _).2 (.asked hname)))]
      exact hbelow.trans (List.prefix_append _ _)
    | imported _ hm ih =>
      obtain ⟨content, hcontent⟩ := hm.files.1
      rw [hempty _ ih] at hcontent
      cases hcontent
  obtain ⟨⟨name, path⟩, hx, content, hcontent⟩ := hfile
  rw [hempty _ (hall _ _ ((hmem _ _).1 hx))] at hcontent
  cases hcontent

/-- What is copied lies outside the empty directory, or it was asked for under a name that leads
there, and then lies less deep than its copy. -/
theorem steady_of_mem (hset : resolveImports scan s dir names = .ok set)
    (hempty : ∀ place, s.workspace.placeOf root <+: place → s.workspace.fileAt? place = none)
    (hdir : ¬ s.workspace.placeOf root <+: s.workspace.placeOf dir) {copies : List Copy}
    (htargets : ∀ c ∈ copies, s.workspace.placeOf root <+: s.workspace.placeOf c.target)
    {c : Copy} (hmem : (name, c.source) ∈ set) (hlocal : isLocal name = true)
    (htarget : c.target = joinPath [root, name]) : s.workspace.Steady copies c := by
  by_cases hbelow : s.workspace.placeOf root <+: s.workspace.placeOf c.source
  · right
    have hnone := hempty _ hbelow
    refine ⟨hnone, ?_⟩
    obtain ⟨-, hnamed, -⟩ := named_of_resolveImports hset
    generalize hsource : c.source = source at *
    cases (hnamed _ _).1 hmem with
    | asked hname =>
      rw [placeOf_joinPath _ dir hlocal] at hbelow
      rw [htarget, placeOf_joinPath _ dir hlocal, placeOf_joinPath _ root hlocal,
        List.length_append, List.length_append]
      have hshort : s.workspace.placeOf dir <+: s.workspace.placeOf root :=
        (List.prefix_or_prefix_of_prefix hbelow (List.prefix_append _ _)).resolve_left hdir
      have hlength : (s.workspace.placeOf dir).length ≠ (s.workspace.placeOf root).length := by
        intro he
        rw [hshort.eq_of_length he] at hdir
        exact hdir (List.prefix_refl _)
      have := hshort.length_le
      omega
    | imported _ hm =>
      obtain ⟨content, hcontent⟩ := hm.files.2
      rw [hnone] at hcontent
      cases hcontent
  · left
    intro y hy he
    have htarget' := htargets y hy
    rw [he] at htarget'
    exact hbelow htarget'

/-- Local names lead the same way exactly when they are the same in lowest terms. -/
theorem segments_eq_iff_clean_eq {name' : String} (hlocal : isLocal name = true)
    (hlocal' : isLocal name' = true) :
    (Path.ofText name).segments = (Path.ofText name').segments ↔ clean name = clean name' := by
  obtain ⟨-, place, hplace, hpath⟩ := names_of_isLocal hlocal
  obtain ⟨-, place', hplace', hpath'⟩ := names_of_isLocal hlocal'
  rw [clean, clean, hpath, hpath']
  constructor
  · intro h
    have hsame : place = place' := h
    rw [hsame]
  · intro h
    have hof := congrArg Path.ofText h
    rw [ofText_toText hplace, ofText_toText hplace'] at hof
    exact congrArg Path.segments hof

/-! ## What is laid out -/

namespace LaidOut

variable {copies : List Copy}

theorem perm {order : ImportSet} (h : LaidOut w w' root order copies) (hperm : order.Perm set) :
    LaidOut w w' root set copies := by
  refine ⟨h.copied, h.updated, ?_, ?_, ?_, ?_⟩
  · exact fun x hx => h.locals x (hperm.mem_iff.2 hx)
  · exact fun x hx => h.reads x (hperm.mem_iff.2 hx)
  · exact fun x hx => h.copy x (hperm.mem_iff.2 hx)
  · intro c hc
    obtain ⟨x, hx, hlays⟩ := h.named c hc
    exact ⟨x, hperm.mem_iff.1 hx, hlays⟩

theorem below (h : LaidOut w w' root set copies) :
    ∀ c ∈ copies, w.placeOf root <+: w.placeOf c.target := by
  intro c hc
  obtain ⟨x, hx, -, htarget⟩ := h.named c hc
  rw [htarget, placeOf_joinPath _ root (h.locals x hx)]
  exact List.prefix_append _ _

/-- Files that were there before stay as they are. -/
theorem read_kept (h : LaidOut w w' root set copies)
    (hempty : ∀ place, w.placeOf root <+: place → w.fileAt? place = none) {content : List UInt8}
    (hread : w.read path = .ok content) : w'.read path = .ok content := by
  obtain ⟨c, hc⟩ := h.updated.exists_read hread
  have hfile := fileAt_of_read hread
  have haway : ∀ y ∈ copies, w.placeOf y.target ≠ w.placeOf path := by
    intro y hy he
    have hbelow := h.below y hy
    rw [he] at hbelow
    rw [hempty _ hbelow] at hfile
    cases hfile
  have hafter : w.filesCopied copies (w.placeOf path) = some c := h.updated.read_eq hc
  rw [filesCopied_of_ne haway, hfile] at hafter
  rw [hc, Option.some.inj hafter]

theorem steady (h : LaidOut s.workspace w root set copies)
    (hset : resolveImports scan s dir names = .ok set)
    (hempty : ∀ place, s.workspace.placeOf root <+: place → s.workspace.fileAt? place = none) :
    ∀ c ∈ copies, s.workspace.Steady copies c := by
  intro c hc
  obtain ⟨first, hfirst, hfile⟩ := h.copied.exists_first (List.ne_nil_of_mem hc)
  obtain ⟨y, hy, hysource, -⟩ := h.named first hfirst
  have hdir : ¬ s.workspace.placeOf root <+: s.workspace.placeOf dir :=
    not_below_of_file hset hempty h.locals ⟨y, hy, first.content, hysource ▸ hfile⟩
  obtain ⟨x, hx, hsource, htarget⟩ := h.named c hc
  exact steady_of_mem hset hempty hdir h.below (hsource ▸ hx) (h.locals x hx) htarget

/-- Copies agree when names that are the same in lowest terms do. -/
theorem agree (h : LaidOut w w' root set copies)
    (hsame : ∀ x ∈ set, ∀ y ∈ set, clean x.1 = clean y.1 → w'.read x.2 = w'.read y.2) :
    w.Agree copies := by
  intro c hc d hd hplace
  obtain ⟨x, hx, hxsource, hxtarget⟩ := h.named c hc
  obtain ⟨y, hy, hysource, hytarget⟩ := h.named d hd
  rw [hxtarget, hytarget, placeOf_joinPath _ root (h.locals x hx),
    placeOf_joinPath _ root (h.locals y hy)] at hplace
  have hclean := (segments_eq_iff_clean_eq (h.locals x hx) (h.locals y hy)).1
    (List.append_cancel_left hplace)
  obtain ⟨content, hread⟩ := h.reads x hx
  have hread' := (hsame x hx y hy hclean).symm.trans hread
  rw [hxsource, hysource]
  exact (h.updated.read_eq hread).trans (h.updated.read_eq hread').symm

/-- What is read at a target and at a source is what stands there. -/
theorem read_eq_read (h : LaidOut w w' root set copies) {x : String × String} (hx : x ∈ set)
    (hcopies : ∀ c ∈ copies,
      w.filesCopied copies (w.placeOf c.target) = w.filesCopied copies (w.placeOf c.source)) :
    w'.read (joinPath [root, x.1]) = w'.read x.2 := by
  obtain ⟨c, hc, hsource, htarget⟩ := h.copy x hx
  obtain ⟨content, hread⟩ := h.reads x hx
  obtain ⟨content', hread'⟩ := h.updated.reads _ (List.mem_map_of_mem (f := Copy.written) hc)
  have hstands : some content' = some content := calc
    some content' = w.filesCopied copies (w.placeOf c.target) := (h.updated.read_eq hread').symm
    _ = w.filesCopied copies (w.placeOf c.source) := hcopies c hc
    _ = some content := hsource ▸ h.updated.read_eq hread
  rw [← htarget, hread, ← Option.some.inj hstands]
  exact hread'

end LaidOut

/-- Names are laid out below an empty directory, in any order. What was there before stays as it is,
and every name stands for a file that can be read. Then each name has the content of its file there,
exactly when names that are the same in lowest terms stand for files of the same content. -/
theorem layOut_content_iff {order : ImportSet} (hset : resolveImports scan s dir names = .ok set)
    (hempty : ∀ place, s.workspace.placeOf root <+: place → s.workspace.fileAt? place = none)
    (horder : order.Perm set) (hrun : layOut order root s.workspace = (.ok (), w)) :
    (∀ path content, s.workspace.read path = .ok content → w.read path = .ok content) ∧
      (∀ x ∈ set, ∃ content, w.read x.2 = .ok content) ∧
      ((∀ x ∈ set, w.read (joinPath [root, x.1]) = w.read x.2) ↔
        ∀ x ∈ set, ∀ y ∈ set, clean x.1 = clean y.1 → w.read x.2 = w.read y.2) := by
  obtain ⟨copies, hlaid⟩ := laidOut_of_layOut hrun
  have h := hlaid.perm horder
  refine ⟨fun path content hread => h.read_kept hempty hread, h.reads, ?_, ?_⟩
  · intro hall x hx y hy hclean
    have hsegments := (segments_eq_iff_clean_eq (h.locals x hx) (h.locals y hy)).2 hclean
    rw [← hall x hx, ← hall y hy, joinPath_of_isLocal root (h.locals x hx),
      joinPath_of_isLocal root (h.locals y hy), hsegments]
  · intro hsame x hx
    have hsteady := h.steady hset hempty
    exact h.read_eq_read hx fun c hc => h.copied.target_eq hsteady (h.agree hsame) hc

end

/-! ## One name in two spellings -/

theorem follow_enter {scan : ImportScan} {s : Search} {fresh : List String} {m : Mention}
    {rest : List Mention} {done : ImportSet} (h : m.name ∈ fresh) :
    follow scan s fresh (m :: rest) done =
      follow scan s (fresh.filter (· != m.name)) (s.mentions scan m.path ++ rest)
        (done ++ [(m.name, m.path)]) := by
  rw [follow, dif_pos h]

/-- Two files called `a.proto`: one is imported as `./a.proto`, the other from beside it. -/
def twoSpellings (content : List UInt8) : Workspace where
  entries :=
    [(["w"], .directory), (["w", "sub"], .directory),
      (["w", "main.proto"], .file (bytesOf "import \"./a.proto\"; import \"sub/b.proto\";")),
      (["w", "a.proto"], .file content),
      (["w", "sub", "a.proto"], .file []),
      (["w", "sub", "b.proto"], .file (bytesOf "import \"a.proto\";"))]

/-- What the names stand for. -/
def twoSpellingsNames : ImportSet :=
  [("main.proto", "/w/main.proto"), ("./a.proto", "/w/a.proto"), ("sub/b.proto", "/w/sub/b.proto"),
    ("a.proto", "/w/sub/a.proto")]

theorem twoSpellings_mentions : ∀ content ∈ [[], bytesOf ";"],
    importNames Definition.importsOf (twoSpellings content) =
        ["./a.proto", "sub/b.proto", "a.proto"] ∧
      Search.mentions Definition.importsOf ⟨twoSpellings content, []⟩ "/w/main.proto" =
        [⟨"./a.proto", "/w/a.proto", "/w/main.proto", 1⟩,
          ⟨"sub/b.proto", "/w/sub/b.proto", "/w/main.proto", 1⟩] ∧
      Search.mentions Definition.importsOf ⟨twoSpellings content, []⟩ "/w/a.proto" = [] ∧
      Search.mentions Definition.importsOf ⟨twoSpellings content, []⟩ "/w/sub/b.proto" =
        [⟨"a.proto", "/w/sub/a.proto", "/w/sub/b.proto", 1⟩] ∧
      Search.mentions Definition.importsOf ⟨twoSpellings content, []⟩ "/w/sub/a.proto" = [] := by
  decide +kernel

theorem resolveImports_twoSpellings (content : List UInt8) (h : content ∈ [[], bytesOf ";"]) :
    resolveImports Definition.importsOf ⟨twoSpellings content, []⟩ "/w" ["main.proto"] =
      .ok twoSpellingsNames := by
  obtain ⟨himports, hmain, ha, hb, hsub⟩ := twoSpellings_mentions content h
  have hpath : joinPath ["/w", "main.proto"] = "/w/main.proto" := by decide +kernel
  rw [resolveImports, himports, List.map_singleton, hpath, follow_enter (by decide), hmain,
    List.append_nil, follow_enter (by decide), ha, List.nil_append, follow_enter (by decide), hb,
    List.append_nil, follow_enter (by decide), hsub, List.append_nil, follow]
  rfl

theorem twoSpellings_empty (content : List UInt8) : ∀ place,
    (twoSpellings content).placeOf "/t" <+: place →
      (twoSpellings content).fileAt? place = none := by
  intro place hbelow
  by_contra hfile
  obtain ⟨c, hc⟩ := Option.ne_none_iff_exists'.1 hfile
  have hmem := mem_entries_of_entry (fileAt?_eq_some_iff.1 hc)
  have ht : (twoSpellings content).placeOf "/t" = ["t"] := by
    rw [placeOf, Workspace.absolute, ProtoStub.absolute, if_pos (by decide)]
    decide
  obtain ⟨rest, rfl⟩ := ht ▸ hbelow
  simp [twoSpellings] at hmem

theorem layOut_eq_ok {order : ImportSet} (h : (layOut order root w).1.toOption = some ()) :
    layOut order root w = (.ok (), (layOut order root w).2) := by
  rcases hrun : layOut order root w with ⟨e | _, w'⟩
  · rw [hrun] at h
    cases h
  · rfl

/-- With one content in both files, the two names have it wherever they end. -/
theorem twoSpellings_laid_out :
    resolveImports Definition.importsOf ⟨twoSpellings [], []⟩ "/w" ["main.proto"] =
      .ok twoSpellingsNames ∧
      ∃ w, layOut twoSpellingsNames.reverse "/t" (twoSpellings []) = (.ok (), w) ∧
        ∀ x ∈ twoSpellingsNames, w.read (joinPath ["/t", x.1]) = w.read x.2 := by
  have hset := resolveImports_twoSpellings [] (by simp)
  have hran : (layOut twoSpellingsNames.reverse "/t" (twoSpellings [])).1.toOption = some () ∧
      ∀ x ∈ twoSpellingsNames, ∀ y ∈ twoSpellingsNames, clean x.1 = clean y.1 →
        (layOut twoSpellingsNames.reverse "/t" (twoSpellings [])).2.read x.2 =
          (layOut twoSpellingsNames.reverse "/t" (twoSpellings [])).2.read y.2 := by
    decide +kernel
  have hrun := layOut_eq_ok hran.1
  obtain ⟨-, -, hiff⟩ :=
    layOut_content_iff hset (twoSpellings_empty []) (List.reverse_perm _) hrun
  exact ⟨hset, _, hrun, hiff.2 hran.2⟩

/-- With two contents, the later copy takes the place of the earlier: what is found at `./a.proto`
is not the file that the name stands for. -/
theorem twoSpellings_overwritten :
    resolveImports Definition.importsOf ⟨twoSpellings (bytesOf ";"), []⟩ "/w" ["main.proto"] =
      .ok twoSpellingsNames ∧
      (∀ place, (twoSpellings (bytesOf ";")).placeOf "/t" <+: place →
        (twoSpellings (bytesOf ";")).fileAt? place = none) ∧
      ("./a.proto", "/w/a.proto") ∈ twoSpellingsNames ∧
      ∃ w, layOut twoSpellingsNames "/t" (twoSpellings (bytesOf ";")) = (.ok (), w) ∧
        w.read "/w/a.proto" = .ok (bytesOf ";") ∧
        w.read (joinPath ["/t", "./a.proto"]) = .ok [] := by
  have hran : (layOut twoSpellingsNames "/t" (twoSpellings (bytesOf ";"))).1.toOption = some () ∧
      (layOut twoSpellingsNames "/t" (twoSpellings (bytesOf ";"))).2.read "/w/a.proto" =
        .ok (bytesOf ";") ∧
      (layOut twoSpellingsNames "/t" (twoSpellings (bytesOf ";"))).2.read
        (joinPath ["/t", "./a.proto"]) = .ok [] := by
    decide +kernel
  exact ⟨resolveImports_twoSpellings _ (by simp), twoSpellings_empty _, by decide, _,
    layOut_eq_ok hran.1, hran.2⟩

end Schema

end ProtoStub

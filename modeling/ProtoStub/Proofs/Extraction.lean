import ProtoStub.Output
import ProtoStub.VisualBasic.Word
import ProtoStub.Proofs.Cutting
import ProtoStub.Proofs.Letters
import ProtoStub.Proofs.Resolution
import ProtoStub.Proofs.References
import ProtoStub.Proofs.Tables

/-!
# Shared utilities

Extraction groups the units by directory and goes through the groups. The groups hold the units of
each directory with their numbers, ascending by directory (`groupByDir_eq`), and what is found about
one does not depend on the others. So after the scan there is a table of utilities by directory from
which both the list of utilities and the utility of each unit can be read (`Extracted`). The units
of a directory share a utility exactly when there are several of them and their clients do not add
up to zero, and with natural numbers that is when one has a client (`sharesUtility_nat_iff`). The
name of a utility is one word that is never reserved (`escape_utilityName`): upper case turns no
character into a mark (`toUpper_eq_mark`), and no reserved word ends as the name does.
-/

namespace ProtoStub

open Text

theorem mem_capitalize {word : List Char} {mark : Char} (hpos : 0 < mark.toNat)
    (hlow : mark.toNat < 65) (h : mark ∈ capitalize word) : mark ∈ word := by
  cases word with
  | nil => exact h
  | cons c cs =>
    rcases List.mem_cons.1 h with he | hmem
    · rw [toUpper_eq_mark hpos hlow he.symm]
      exact List.mem_cons_self
    · exact List.mem_cons_of_mem _ hmem

theorem mem_decapitalize {word : List Char} {mark : Char} (hpos : 0 < mark.toNat)
    (hlow : mark.toNat < 65) (h : mark ∈ decapitalize word) : mark ∈ word := by
  cases word with
  | nil => exact h
  | cons c cs =>
    rcases List.mem_cons.1 h with he | hmem
    · rw [toLower_eq_mark hpos hlow he.symm]
      exact List.mem_cons_self
    · exact List.mem_cons_of_mem _ hmem

/-- A mark in a name in Pascal case stands in the name, and is no dot. -/
theorem mem_pascalCase {name : String} {mark : Char} (hpos : 0 < mark.toNat)
    (hlow : mark.toNat < 65) (h : mark ∈ (pascalCase name).toList) :
    mark ∈ name.toList ∧ mark ≠ '.' := by
  rw [pascalCase, String.toList_ofList, List.mem_flatMap] at h
  obtain ⟨word, hword, hmark⟩ := h
  obtain ⟨hname, hcut⟩ := mem_of_mem_pieces (List.mem_filter.1 hword).1
    (mem_capitalize hpos hlow hmark)
  refine ⟨hname, ?_⟩
  rintro rfl
  simp at hcut

/-- A mark in a name in camel case stands in the name. -/
theorem mem_camelCase {name : String} {mark : Char} (hpos : 0 < mark.toNat)
    (hlow : mark.toNat < 65) (h : mark ∈ (camelCase name).toList) : mark ∈ name.toList := by
  have hword : ∀ w ∈ wordsOf name.toList, mark ∈ w → mark ∈ name.toList := fun w hw hmem =>
    (mem_of_mem_pieces (List.mem_filter.1 hw).1 hmem).1
  rw [camelCase, String.toList_ofList] at h
  cases hws : wordsOf name.toList with
  | nil =>
    rw [hws] at h
    cases h
  | cons w ws =>
    rw [hws] at h hword
    rcases List.mem_append.1 h with hmem | hmem
    · exact hword w List.mem_cons_self (mem_decapitalize hpos hlow hmem)
    · obtain ⟨v, hv, hmem⟩ := List.mem_flatMap.1 hmem
      exact hword v (List.mem_cons_of_mem w hv) (mem_capitalize hpos hlow hmem)

/-- A mark in the name of a utility stands in the name of its directory, and is no dot. -/
theorem mem_utilityName {dirName : String} {mark : Char} (hpos : 0 < mark.toNat)
    (hlow : mark.toNat < 65) (h : mark ∈ (utilityName dirName).toList) :
    mark ∈ dirName.toList ∧ mark ≠ '.' := by
  have hletters : ∀ c ∈ "Proto".toList ++ "HttpUtility".toList, 65 ≤ c.toNat := by simp
  have hword : mark ∉ "Proto".toList ++ "HttpUtility".toList := fun hm => by
    have := hletters mark hm
    omega
  rw [List.mem_append, not_or] at hword
  rw [utilityName, String.toList_append, List.mem_append] at h
  rcases h with h | h
  · split at h
    · exact mem_pascalCase hpos hlow h
    · rw [String.toList_append, List.mem_append] at h
      rcases h with h | h
      · exact absurd h hword.1
      · exact mem_pascalCase hpos hlow h
  · exact absurd h hword.2

namespace VisualBasic

/-- A name is no reserved word if no reserved word ends as it does. -/
theorem escape_append {tail : String}
    (h : ∀ w ∈ reservedWords, ¬ tail.toList.map toLower <:+ w.toList) (start : String) :
    escape (start ++ tail) = start ++ tail := by
  have hends : tail.toList.map toLower <:+ (foldCase (start ++ tail)).toList := by
    rw [foldCase, String.toList_ofList, String.toList_append, List.map_append]
    exact List.suffix_append _ _
  have hnot : foldCase (start ++ tail) ∉ reservedWords := fun hin => h _ hin hends
  rw [escape, if_neg (by rwa [List.contains_iff_mem])]

/-- The name of a utility is no reserved word. -/
theorem escape_utilityName (dirName : String) :
    escape (utilityName dirName) = utilityName dirName :=
  escape_append (by decide +kernel) _

/-- The name of a utility is one word. -/
theorem split_utilityName (dirName : String) :
    split '.' (utilityName dirName) = [utilityName dirName] := by
  refine split_of_not_mem fun h => ?_
  exact (mem_utilityName (by decide) (by decide) h).2 rfl

/-- A path that ends in the name of a utility is escaped in front of it. -/
theorem escapePath_utilityName (space dirName : String) :
    escapePath (space ++ "." ++ utilityName dirName) =
      escapePath space ++ "." ++ utilityName dirName := by
  have hdot : "." = String.singleton '.' := rfl
  rw [hdot, escapePath, escapePath, split_append_singleton, split_utilityName, List.map_append,
    List.map_singleton, escape_utilityName, ← hdot, join, String.intercalate_append_of_ne_nil
      (by simpa using split_ne_nil '.' space) (by simp), String.intercalate_singleton, join]

end VisualBasic

/-! ## Which units share -/

section
variable {Count : Type}

/-- The utility `s` is the one of the units `units` of the directory `dir`. -/
structure UtilityFor (options : ExtractOptions) (dir : String) (units : List (UnitSummary Count))
    (s : SharedUtility) : Prop where
  name : s.name = utilityName (if dir = "" then options.rootName else baseOf dir)
  path : s.path = joinPath [dir, s.name ++ options.extension]
  space : (byPath units).head?.map (·.namespaceName) = some s.namespaceName
  profile : s.profile = options.profile
  users : s.users = (byPath units).map (·.path)

theorem byPath_perm (units : List (UnitSummary Count)) : (byPath units).Perm units :=
  List.mergeSort_perm _ _

variable [Add Count] [OfNat Count 0] [BEq Count] [LawfulBEq Count]

/-- The units share a utility: there are several, and their clients do not add up to zero. -/
def SharesUtility (units : List (UnitSummary Count)) : Prop :=
  2 ≤ units.length ∧ clientsOf units ≠ 0

/-- The units of a directory have no utility, or share one, or are refused because one of them has
another request helper than the first. -/
theorem utilityFor_cases (options : ExtractOptions) (dir : String)
    (units : List (UnitSummary Count)) :
    (¬ SharesUtility units ∧ utilityFor options dir units = .ok none) ∨
    (SharesUtility units ∧ ∃ s, utilityFor options dir units = .ok (some s) ∧
      UtilityFor options dir units s) ∨
    ∃ u ∈ units, ∃ first ∈ units, u.helper ≠ first.helper ∧ utilityFor options dir units =
      .error (.emit u.path ("request helper differs from " ++ first.path)) := by
  by_cases hshare : SharesUtility units
  · have hperm := byPath_perm units
    have hif : (decide (units.length < 2) || clientsOf units == 0) = false := by
      simp only [Bool.or_eq_false_iff, decide_eq_false_iff_not, not_lt, beq_eq_false_iff_ne]
      exact hshare
    rw [utilityFor, hif]
    cases hsorted : byPath units with
    | nil =>
      rw [hsorted] at hperm
      have hlen := hperm.length_eq ▸ hshare.1
      simp at hlen
    | cons first rest =>
      rw [hsorted] at hperm
      cases hfind : rest.find? (·.helper != first.helper) with
      | none =>
        refine .inr (.inl ⟨hshare, _, by simp only [hfind]; rfl, ?_⟩)
        exact ⟨by simp, rfl, by rw [hsorted]; rfl, rfl, by rw [hsorted]⟩
      | some u =>
        have hu : u.helper ≠ first.helper := by simpa using List.find?_some hfind
        refine .inr (.inr ⟨u, ?_, first, ?_, hu, by simp only [hfind]; rfl⟩)
        · exact hperm.mem_iff.1 (List.mem_cons_of_mem _ (List.mem_of_find?_eq_some hfind))
        · exact hperm.mem_iff.1 List.mem_cons_self
  · have hif : (decide (units.length < 2) || clientsOf units == 0) = true := by
      simp only [SharesUtility, not_and_or, not_le, not_not] at hshare
      simpa using hshare
    exact .inl ⟨hshare, by rw [utilityFor, hif]; rfl⟩

/-- Units with one request helper are decided: they have a utility if they share one. -/
theorem exists_utilityFor (options : ExtractOptions) (dir : String)
    {units : List (UnitSummary Count)} {helper : String}
    (hhelper : ∀ u ∈ units, u.helper = helper) :
    (SharesUtility units ∧ ∃ s, utilityFor options dir units = .ok (some s) ∧
      UtilityFor options dir units s) ∨
    (¬ SharesUtility units ∧ utilityFor options dir units = .ok none) := by
  rcases utilityFor_cases options dir units with hnone | hsome | ⟨u, hu, first, hfirst, hne, -⟩
  · exact .inr hnone
  · exact .inl hsome
  · exact absurd ((hhelper u hu).trans (hhelper first hfirst).symm) hne

/-- A utility is that of units that share one. -/
theorem utilityFor_eq_some {options : ExtractOptions} {dir : String}
    {units : List (UnitSummary Count)} {s : SharedUtility}
    (h : utilityFor options dir units = .ok (some s)) :
    SharesUtility units ∧ UtilityFor options dir units s := by
  rcases utilityFor_cases options dir units with
    ⟨-, hnone⟩ | ⟨hshare, s', hs', hfor⟩ | ⟨u, -, first, -, -, he⟩
  · cases hnone.symm.trans h
  · cases hs'.symm.trans h
    exact ⟨hshare, hfor⟩
  · cases he.symm.trans h

end

/-- Units that are made of files share a utility when there are several and one has a client. -/
theorem sharesUtility_nat_iff {units : List (UnitSummary Nat)} :
    SharesUtility units ↔ 2 ≤ units.length ∧ ∃ u ∈ units, u.clients ≠ 0 := by
  have hsum : ∀ n, units.foldl (fun n u => n + u.clients) n = 0 ↔
      n = 0 ∧ ∀ u ∈ units, u.clients = 0 := by
    induction units with
    | nil => simp
    | cons u units ih =>
      intro n
      rw [List.foldl_cons, ih, List.forall_mem_cons, Nat.add_eq_zero_iff, and_assoc]
  have hnone : clientsOf units = 0 ↔ ∀ u ∈ units, u.clients = 0 := by
    rw [clientsOf, hsum]
    simp
  rw [SharesUtility, ne_eq, hnone]
  push Not
  rfl

/-! ## Groups -/

section
variable {Count : Type}

/-- The units of a directory with their numbers, in the order in which they come. -/
def numberedIn (units : List (UnitSummary Count)) (dir : String) :
    List (Nat × UnitSummary Count) :=
  ((List.range units.length).zip units).filter (·.2.dir == dir)

/-- The units of a directory, in the order in which they come. -/
def unitsIn (units : List (UnitSummary Count)) (dir : String) : List (UnitSummary Count) :=
  units.filter (·.dir == dir)

theorem map_numberedIn (units : List (UnitSummary Count)) (dir : String) :
    (numberedIn units dir).map (·.2) = unitsIn units dir := by
  have hzip : ((List.range units.length).zip units).map (·.2) = units :=
    List.map_snd_zip (by simp)
  calc (numberedIn units dir).map (·.2)
      = (((List.range units.length).zip units).map (·.2)).filter (·.dir == dir) := by
        rw [numberedIn, List.filter_map]
        rfl
    _ = unitsIn units dir := by rw [hzip, unitsIn]

theorem mem_unitsIn {units : List (UnitSummary Count)} {u : UnitSummary Count} {dir : String} :
    u ∈ unitsIn units dir ↔ u ∈ units ∧ u.dir = dir := by
  rw [unitsIn, List.mem_filter, beq_iff_eq]

/-- The groups hold what was entered, ascending by directory. -/
structure Grouped (entered : List (Nat × UnitSummary Count))
    (groups : List (String × List (Nat × UnitSummary Count))) : Prop where
  ascending : (groups.map (·.1)).Pairwise (· < ·)
  lookup : ∀ dir us, groups.lookup dir = some us ↔
    us ≠ [] ∧ us = entered.filter (·.2.dir == dir)

/-- What stands under a directory, which may be nothing. -/
theorem Grouped.getD_lookup {entered : List (Nat × UnitSummary Count)}
    {groups : List (String × List (Nat × UnitSummary Count))} (h : Grouped entered groups)
    (dir : String) : (groups.lookup dir).getD [] = entered.filter (·.2.dir == dir) := by
  cases hus : groups.lookup dir with
  | some us => exact ((h.lookup dir us).1 hus).2
  | none =>
    by_contra hne
    have hsome := (h.lookup dir _).2 ⟨Ne.symm hne, rfl⟩
    rw [hus] at hsome
    cases hsome

/-- Entering a unit under its directory. -/
theorem Grouped.enter {entered : List (Nat × UnitSummary Count)}
    {groups : List (String × List (Nat × UnitSummary Count))} (h : Grouped entered groups)
    (u : Nat × UnitSummary Count) : Grouped (entered ++ [u])
      (ProtoStub.enter u.2.dir ((groups.lookup u.2.dir).getD [] ++ [u]) groups) := by
  refine ⟨pairwise_enter h.ascending, fun dir us => ?_⟩
  rw [lookup_enter, h.getD_lookup, List.lookup_cons, List.filter_append]
  by_cases hdir : dir = u.2.dir
  · subst hdir
    simp only [BEq.rfl, List.filter_cons_of_pos, List.filter_nil, Option.some.injEq, eq_comm,
      ne_eq]
    constructor
    · rintro rfl
      simp
    · exact fun hus => hus.2
  · simp only [beq_false_of_ne hdir, beq_false_of_ne (Ne.symm hdir), Bool.false_eq_true,
      not_false_eq_true, List.filter_cons_of_neg, List.filter_nil, List.append_nil]
    exact h.lookup dir us

/-- After all units are entered, the groups hold them. -/
theorem grouped_groupByDir (units : List (UnitSummary Count)) :
    Grouped ((List.range units.length).zip units) (groupByDir units) := by
  have hrun : ∀ (us entered : List (Nat × UnitSummary Count)) groups, Grouped entered groups →
      Grouped (entered ++ us) (us.foldl (fun groups u =>
        ProtoStub.enter u.2.dir ((groups.lookup u.2.dir).getD [] ++ [u]) groups) groups) := by
    intro us
    induction us with
    | nil =>
      intro entered groups h
      rwa [List.append_nil]
    | cons u us ih =>
      intro entered groups h
      rw [List.append_cons]
      exact ih _ _ (h.enter u)
  exact hrun _ [] [] ⟨.nil, by simp⟩

/-- The directories of units, ascending. -/
def outputDirs (units : List (UnitSummary Count)) : List String := (groupByDir units).map (·.1)

theorem pairwise_outputDirs (units : List (UnitSummary Count)) :
    (outputDirs units).Pairwise (· < ·) :=
  (grouped_groupByDir units).ascending

theorem mem_groupByDir (units : List (UnitSummary Count)) {dir : String}
    {us : List (Nat × UnitSummary Count)} :
    (dir, us) ∈ groupByDir units ↔ us ≠ [] ∧ us = numberedIn units dir := by
  have h := grouped_groupByDir units
  rw [numberedIn, ← h.lookup dir us]
  exact ⟨lookup_eq_of_mem (h.ascending.imp fun hlt => hlt.ne), mem_of_lookup⟩

/-- Each directory stands with all of its units. -/
theorem groupByDir_eq (units : List (UnitSummary Count)) :
    groupByDir units = (outputDirs units).map fun dir => (dir, numberedIn units dir) := by
  rw [outputDirs, List.map_map]
  refine (List.map_id _).symm.trans (List.map_congr_left fun group hgroup => ?_)
  obtain ⟨dir, us⟩ := group
  rw [((mem_groupByDir units).1 hgroup).2]
  rfl

theorem mem_numberedIn {units : List (UnitSummary Count)} {dir : String} {i : Nat}
    {u : UnitSummary Count} :
    (i, u) ∈ numberedIn units dir ↔ units[i]? = some u ∧ u.dir = dir := by
  rw [numberedIn, List.mem_filter, beq_iff_eq, List.mem_iff_getElem?]
  simp only [Program.getElem?_zip_range, Option.map_eq_some_iff, Prod.mk.injEq]
  constructor
  · rintro ⟨⟨i, u, hu, rfl, rfl⟩, hdir⟩
    exact ⟨hu, hdir⟩
  · rintro ⟨hu, hdir⟩
    exact ⟨⟨i, u, hu, rfl, rfl⟩, hdir⟩

/-- The directories are those in which a unit lies. -/
theorem mem_outputDirs {units : List (UnitSummary Count)} {dir : String} :
    dir ∈ outputDirs units ↔ unitsIn units dir ≠ [] := by
  rw [outputDirs, ← map_numberedIn, ne_eq, List.map_eq_nil_iff]
  constructor
  · intro h
    obtain ⟨⟨dir, us⟩, hgroup, rfl⟩ := List.mem_map.1 h
    obtain ⟨hne, rfl⟩ := (mem_groupByDir units).1 hgroup
    exact hne
  · exact fun hne => List.mem_map.2 ⟨_, (mem_groupByDir units).2 ⟨hne, rfl⟩, rfl⟩

/-! ## The scan -/

/-- Setting items at the positions `ps` to one value. -/
theorem getElem?_foldl_set {α β : Type} (a : α) (ps : List (Nat × β)) (xs : List α) (i : Nat) :
    (ps.foldl (fun xs u => xs.set u.1 a) xs)[i]? =
      if i ∈ ps.map (·.1) then xs[i]?.map fun _ => a else xs[i]? := by
  induction ps generalizing xs with
  | nil => simp
  | cons u ps ih =>
    rw [List.foldl_cons, ih, List.getElem?_set, List.map_cons]
    by_cases hi : u.1 = i
    · subst hi
      by_cases hlt : u.1 < xs.length
      · simp [hlt]
      · simp [hlt]
    · have hmem : i ∈ u.1 :: ps.map (·.1) ↔ i ∈ ps.map (·.1) := by simp [Ne.symm hi]
      simp only [hmem, if_neg hi]

/-- Both parts of what was found can be read off a table of utilities by directory. -/
structure Reads (units : List (UnitSummary Count)) (shared : List (String × SharedUtility))
    (r : Sharing) : Prop where
  utilities : r.utilities = shared.map (·.2)
  uses : r.uses = units.map fun u => shared.lookup u.dir

/-- A new utility is set on the units of its directory and on no other. -/
theorem Reads.add {units : List (UnitSummary Count)} {shared : List (String × SharedUtility)}
    {r : Sharing} (h : Reads units shared r) {dir : String} (hdir : dir ∉ shared.map (·.1))
    (s : SharedUtility) : Reads units (shared ++ [(dir, s)]) (r.add s (numberedIn units dir)) := by
  refine ⟨by simp [Sharing.add, h.utilities], ?_⟩
  refine List.ext_getElem? fun i => ?_
  rw [Sharing.add, getElem?_foldl_set, h.uses]
  simp only [List.mem_map, Prod.exists, exists_and_right, exists_eq_right, mem_numberedIn,
    List.getElem?_map]
  cases hu : units[i]? with
  | none => simp
  | some u =>
    simp only [Option.some.injEq, Option.map_some, List.lookup_append, List.lookup_cons,
      List.lookup_nil, exists_eq_left']
    by_cases he : u.dir = dir
    · subst he
      simp [lookup_eq_none hdir]
    · simp [he, beq_false_of_ne he]

variable [Add Count] [OfNat Count 0] [BEq Count] {options : ExtractOptions}
  {units : List (UnitSummary Count)} {shared : List (String × SharedUtility)} {r r' : Sharing}

/-- Going through directories, each is decided by itself, and what is found is added to the
table. -/
theorem Reads.scan (h : Reads units shared r) (dirs : List String)
    (hnew : (shared.map (·.1) ++ dirs).Nodup)
    (hr : (dirs.map fun dir => (dir, numberedIn units dir)).foldlM (shareGroup options) r =
      .ok r') :
    ∃ found, List.Forall₂ (fun dir x => ∃ o,
        utilityFor options dir (unitsIn units dir) = .ok o ∧ x = o.map (dir, ·)) dirs found ∧
      Reads units (shared ++ found.filterMap id) r' := by
  induction dirs generalizing shared r with
  | nil =>
    cases hr
    exact ⟨[], .nil, by simpa using h⟩
  | cons dir dirs ih =>
    rw [List.map_cons, List.foldlM_cons] at hr
    obtain ⟨r₁, hr₁, hr⟩ := Program.bind_eq_ok_iff.1 hr
    rw [shareGroup, map_numberedIn] at hr₁
    cases ho : utilityFor options dir (unitsIn units dir) with
    | error e =>
      rw [ho] at hr₁
      cases hr₁
    | ok o =>
      rw [ho] at hr₁
      cases o with
      | none =>
        cases hr₁
        obtain ⟨found, hfound, hreads⟩ := ih h (hnew.sublist (by simp)) hr
        exact ⟨none :: found, .cons ⟨none, ho, rfl⟩ hfound, hreads⟩
      | some s =>
        cases hr₁
        have hdir : dir ∉ shared.map (·.1) := fun hmem =>
          (List.nodup_append.1 hnew).2.2 dir hmem dir List.mem_cons_self rfl
        have hnew' : ((shared ++ [(dir, s)]).map (·.1) ++ dirs).Nodup := by simpa using hnew
        obtain ⟨found, hfound, hreads⟩ := ih (h.add hdir s) hnew' hr
        refine ⟨some (dir, s) :: found, .cons ⟨some s, ho, rfl⟩ hfound, ?_⟩
        simpa using hreads

/-- What extraction found, with the table of utilities by directory that it can be read off. -/
structure Extracted (options : ExtractOptions) (units : List (UnitSummary Count))
    (shared : List (String × SharedUtility)) (r : Sharing) : Prop extends Reads units shared r where
  ascending : (shared.map (·.1)).Pairwise (· < ·)
  mem_iff : ∀ {dir : String} {s : SharedUtility}, (dir, s) ∈ shared ↔
    utilityFor options dir (unitsIn units dir) = .ok (some s)
  decided : ∀ dir, ∃ o, utilityFor options dir (unitsIn units dir) = .ok o

theorem Extracted.nodup (h : Extracted options units shared r) : (shared.map (·.1)).Nodup :=
  h.ascending.imp fun hlt => hlt.ne

/-- A directory has a utility exactly when its units share one. -/
theorem Extracted.mem_dirs_iff [LawfulBEq Count] (h : Extracted options units shared r)
    {dir : String} : dir ∈ shared.map (·.1) ↔ SharesUtility (unitsIn units dir) := by
  constructor
  · intro hdir
    obtain ⟨⟨dir, s⟩, hs, rfl⟩ := List.mem_map.1 hdir
    exact (utilityFor_eq_some (h.mem_iff.1 hs)).1
  · intro hshare
    obtain ⟨o, ho⟩ := h.decided dir
    rcases utilityFor_cases options dir (unitsIn units dir) with
      ⟨hnot, -⟩ | ⟨-, s, hs, -⟩ | ⟨u, -, first, -, -, he⟩
    · exact absurd hshare hnot
    · exact List.mem_map.2 ⟨(dir, s), h.mem_iff.2 hs, rfl⟩
    · cases he.symm.trans ho

section
variable {look : String → Except Error (Option SharedUtility)} {dirs : List String}
  {found : List (Option (String × SharedUtility))}

/-- What is found has its directories in order. -/
theorem keys_found (h : List.Forall₂ (fun dir x => ∃ o, look dir = .ok o ∧ x = o.map (dir, ·))
    dirs found) : ((found.filterMap id).map (·.1)).Sublist dirs := by
  induction h with
  | nil => exact .slnil
  | cons hx _ ih =>
    obtain ⟨o, -, rfl⟩ := hx
    cases o with
    | none => exact ih.cons _
    | some s => exact ih.cons_cons _

/-- What is found in a directory is what was decided there. -/
theorem mem_found_iff (h : List.Forall₂ (fun dir x => ∃ o, look dir = .ok o ∧ x = o.map (dir, ·))
    dirs found) {dir : String} {s : SharedUtility} :
    (dir, s) ∈ found.filterMap id ↔ dir ∈ dirs ∧ look dir = .ok (some s) := by
  induction h with
  | nil => simp
  | @cons first x dirs found hx _ ih =>
    obtain ⟨o, ho, rfl⟩ := hx
    cases o with
    | none =>
      rw [Option.map_none, List.filterMap_cons_none rfl, ih, List.mem_cons]
      constructor
      · rintro ⟨hdir, hs⟩
        exact ⟨.inr hdir, hs⟩
      · rintro ⟨rfl | hdir, hs⟩
        · rw [ho] at hs
          cases hs
        · exact ⟨hdir, hs⟩
    | some t =>
      rw [Option.map_some, List.filterMap_cons_some (f := id) rfl, List.mem_cons, ih, List.mem_cons]
      constructor
      · rintro (hfirst | ⟨hdir, hs⟩)
        · cases hfirst
          exact ⟨.inl rfl, ho⟩
        · exact ⟨.inr hdir, hs⟩
      · rintro ⟨rfl | hdir, hs⟩
        · rw [ho] at hs
          cases hs
          exact .inl rfl
        · exact .inr ⟨hdir, hs⟩

end

/-- Extraction decides every directory by itself. -/
theorem exists_extracted [LawfulBEq Count] (h : extract options units = .ok r) :
    ∃ shared, Extracted options units shared r := by
  have hdirs := pairwise_outputDirs units
  have hnodup : (outputDirs units).Nodup := hdirs.imp fun hlt => hlt.ne
  have hstart : Reads units [] { uses := units.map fun _ => none } := ⟨rfl, rfl⟩
  rw [extract, groupByDir_eq] at h
  obtain ⟨found, hfound, hreads⟩ := hstart.scan (outputDirs units) hnodup h
  refine ⟨found.filterMap id, hreads, hdirs.sublist (keys_found hfound), fun {dir s} => ?_,
    fun dir => ?_⟩
  · rw [mem_found_iff hfound, mem_outputDirs]
    refine and_iff_right_of_imp fun hs hnil => ?_
    have hlen := (utilityFor_eq_some hs).1.1
    rw [hnil] at hlen
    simp at hlen
  · by_cases hdir : dir ∈ outputDirs units
    · obtain ⟨i, hi⟩ := List.getElem?_of_mem hdir
      obtain ⟨x, -, o, ho, -⟩ := Program.forall₂_getElem? hfound hi
      exact ⟨o, ho⟩
    · rw [mem_outputDirs, not_not] at hdir
      rw [hdir]
      exact ⟨none, rfl⟩

/-- Extraction succeeds on units with one request helper. -/
theorem exists_extract [LawfulBEq Count] (options : ExtractOptions)
    {units : List (UnitSummary Count)} {helper : String}
    (hhelper : ∀ u ∈ units, u.helper = helper) : ∃ r, extract options units = .ok r := by
  have hrun : ∀ (dirs : List String) r, ∃ r',
      (dirs.map fun dir => (dir, numberedIn units dir)).foldlM (shareGroup options) r = .ok r' := by
    intro dirs
    induction dirs with
    | nil => exact fun r => ⟨r, rfl⟩
    | cons dir dirs ih =>
      intro r
      have hstep : ∃ r₁, shareGroup options r (dir, numberedIn units dir) = .ok r₁ := by
        rw [shareGroup, map_numberedIn]
        rcases exists_utilityFor options dir fun u hu => hhelper u (mem_unitsIn.1 hu).1 with
          ⟨-, s, hs, -⟩ | ⟨-, hs⟩
        · exact ⟨_, by rw [hs]⟩
        · exact ⟨_, by rw [hs]⟩
      obtain ⟨r₁, hr₁⟩ := hstep
      obtain ⟨r', hr'⟩ := ih r₁
      exact ⟨r', Program.bind_eq_ok_iff.2 ⟨r₁, hr₁, hr'⟩⟩
  rw [extract, groupByDir_eq]
  exact hrun _ _

end

end ProtoStub

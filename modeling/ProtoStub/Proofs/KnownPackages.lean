import ProtoStub.Proofs.ByteOrder
import ProtoStub.Proofs.Scoping

/-!
# Packages that the symbol table knows

The complaint about a name that stands for nothing tells how much of it is known: the longest part
before a dot below which something is declared. To find out whether anything is declared below `p`,
the table is asked only for its first name that is not below `p.`, in the order of bytes. That is
enough (`SymbolTable.Ascends.knows_iff_seek`), because the names that start with `p.` lie side by
side, whatever else sorts around the dot, and `p.` itself comes before all of them.

Tables ascend since each name is entered in its place: `SymbolTable.Ascends.insert` for one name,
`ascends_of_declareAll` for a run. The parts before the dots are tried longest first
(`pairwise_dottedStarts`), so the first known one is the longest (`knownPackage_longest`). Both the
question to the table and the search over the parts are about the first of a list in order
(`find?_eq_some_iff_of_pairwise`).
-/

namespace ProtoStub.Program

open Text
open Schema (FileSet)

/-! ## The first in order -/

/-- In a list in the order `r`, the first that meets a condition is the one that meets it and comes
after no other that does. -/
theorem find?_eq_some_iff_of_pairwise {α : Type} {r : α → α → Prop} {xs : List α}
    (h : xs.Pairwise r) (hasymm : ∀ a b, r a b → ¬ r b a) {p : α → Bool} {x : α} :
    xs.find? p = some x ↔ x ∈ xs ∧ p x = true ∧ ∀ y ∈ xs, p y = true → ¬ r y x := by
  rw [List.find?_eq_some_iff_append]
  constructor
  · rintro ⟨hx, before, after, rfl, hbefore⟩
    have hafter := (List.pairwise_cons.1 (List.pairwise_append.1 h).2.1).1
    refine ⟨by simp, hx, fun y hy hpy => ?_⟩
    rcases List.mem_append.1 hy with hy | hy
    · have hnot := hbefore y hy
      simp [hpy] at hnot
    · rcases List.mem_cons.1 hy with rfl | hy
      · exact fun hr => hasymm y y hr hr
      · exact hasymm x y (hafter y hy)
  · rintro ⟨hmem, hx, hfirst⟩
    obtain ⟨before, after, rfl⟩ := List.append_of_mem hmem
    refine ⟨hx, before, after, rfl, fun y hy => ?_⟩
    have hr := (List.pairwise_append.1 h).2.2 y hy x List.mem_cons_self
    rw [Bool.not_eq_true']
    exact Bool.eq_false_iff.2 fun hpy => hfirst y (List.mem_append_left _ hy) hpy hr

/-! ## Tables in ascending order -/

/-- The names of the table ascend in the order of bytes. -/
def SymbolTable.Ascends (t : SymbolTable) : Prop :=
  t.Pairwise fun e f => bytesOf e.fullName < bytesOf f.fullName

section
variable {t : SymbolTable} {e : Entry}

theorem SymbolTable.mem_insert {x : Entry} : x ∈ t.insert e ↔ x = e ∨ x ∈ t := by
  induction t with
  | nil => simp [SymbolTable.insert]
  | cons f rest ih =>
    rw [SymbolTable.insert]
    split
    · rw [List.mem_cons]
    · rw [List.mem_cons, ih, List.mem_cons]
      tauto

/-- A new name is entered in its place. -/
theorem SymbolTable.Ascends.insert (h : t.Ascends) (hnew : t.find e.fullName = none) :
    (t.insert e).Ascends := by
  have hne : ∀ f ∈ t, f.fullName ≠ e.fullName := by
    simpa [SymbolTable.find] using hnew
  clear hnew
  induction t with
  | nil => simp [SymbolTable.insert, SymbolTable.Ascends]
  | cons f rest ih =>
    obtain ⟨hf, hrest⟩ := List.pairwise_cons.1 h
    rw [SymbolTable.insert]
    split
    · rename_i hlt
      have hbefore := bytesOf_lt_iff.2 hlt
      refine List.pairwise_cons.2 ⟨fun x hx => ?_, h⟩
      rcases List.mem_cons.1 hx with rfl | hx
      · exact hbefore
      · exact List.lt_trans hbefore (hf x hx)
    · rename_i hge
      have hlt : f.fullName < e.fullName :=
        lt_of_le_of_ne (not_lt.1 hge) (hne f List.mem_cons_self)
      refine List.pairwise_cons.2 ⟨fun x hx => ?_, ?_⟩
      · rcases SymbolTable.mem_insert.1 hx with rfl | hx
        · exact bytesOf_lt_iff.2 hlt
        · exact hf x hx
      · exact ih hrest fun x hx => hne x (List.mem_cons_of_mem f hx)

end

section
variable {s : FileSet} {d d' : Declarations}

/-- The step: entering a name in its place keeps the table ascending. -/
theorem Step.ascends_run {st : Step} (h : d.symbols.Ascends) (hr : st.run s d = .ok d') :
    d'.symbols.Ascends := by
  obtain ⟨hnone, rfl⟩ := Step.run_eq_ok_iff.1 hr
  cases st with
  | message m =>
    rw [Declarations.add_message_symbols]
    exact h.insert hnone
  | enum e =>
    rw [Declarations.add_enum_symbols]
    exact h.insert hnone

/-- The table of a run ascends. -/
theorem ascends_of_declareAll (h : declareAll s = .ok d) : d.symbols.Ascends := by
  rw [declareAll_eq_foldlM] at h
  have hempty : SymbolTable.Ascends [] := List.Pairwise.nil
  exact keeps_of_run (fun h hr => Step.ascends_run h hr) hempty h

end

/-! ## Asking for the first name -/

/-- `p` stands before one of the dots of `name`. -/
def BeforeDot (p name : String) : Prop := ∃ rest, name = p ++ "." ++ rest

theorem startsWith_dot_iff {p name : String} :
    startsWith name (p ++ ".") = true ↔ BeforeDot p name := by
  rw [startsWith, List.isPrefixOf_iff_prefix]
  constructor
  · rintro ⟨rest, hrest⟩
    refine ⟨String.ofList rest, String.toList_inj.1 ?_⟩
    rw [String.toList_append, String.toList_ofList, hrest]
  · rintro ⟨rest, rfl⟩
    exact ⟨rest.toList, String.toList_append.symm⟩

instance (p name : String) : Decidable (BeforeDot p name) :=
  decidable_of_iff _ startsWith_dot_iff

/-- What stands before a dot is shorter. -/
theorem BeforeDot.length_lt {p name : String} (h : BeforeDot p name) : p.length < name.length := by
  obtain ⟨rest, rfl⟩ := h
  have hdot : ".".length = 1 := rfl
  rw [String.length_append, String.length_append]
  omega

namespace SymbolTable

/-- A name of the table has `p` before one of its dots. -/
def Knows (t : SymbolTable) (p : String) : Prop := ∃ e ∈ t, BeforeDot p e.fullName

/-- The least name of the table that is not below `key`, in the order of bytes. -/
structure IsFirstFrom (t : SymbolTable) (key : String) (e : Entry) : Prop where
  mem : e ∈ t
  notBelow : bytesOf key ≤ bytesOf e.fullName
  least : ∀ f ∈ t, bytesOf key ≤ bytesOf f.fullName → bytesOf e.fullName ≤ bytesOf f.fullName

variable {t : SymbolTable} {key p : String} {e : Entry}

theorem Ascends.seek_eq_some_iff (h : t.Ascends) : t.seek key = some e ↔ t.IsFirstFrom key e := by
  rw [seek, find?_eq_some_iff_of_pairwise h fun _ _ => List.lt_asymm]
  simp only [Bool.not_eq_true', decide_eq_false_iff_not, not_lt, ← bytesOf_le_iff, List.not_lt]
  exact ⟨fun h => ⟨h.1, h.2.1, h.2.2⟩, fun h => ⟨h.mem, h.notBelow, h.least⟩⟩

theorem seek_eq_none_iff : t.seek key = none ↔ ∀ e ∈ t, e.fullName < key := by
  simp [seek, List.find?_eq_none]

/-- The first name that is not below `p.` tells whether any name has `p` before a dot. -/
theorem Ascends.knows_iff_seek (h : t.Ascends) :
    t.Knows p ↔ ∃ e, t.seek (p ++ ".") = some e ∧ BeforeDot p e.fullName := by
  constructor
  · rintro ⟨f, hf, rest, hname⟩
    have hkey : p ++ "." ≤ f.fullName := hname ▸ le_append _ rest
    cases hseek : t.seek (p ++ ".") with
    | none => exact absurd (seek_eq_none_iff.1 hseek f hf) hkey.not_gt
    | some e =>
      -- the name that the table gives lies between `p.` and the known name
      obtain ⟨hmem, hnot, hleast⟩ := h.seek_eq_some_iff.1 hseek
      have hle := bytesOf_le_iff.1 (hleast f hf (bytesOf_le_iff.2 hkey))
      rw [hname, String.le_iff_toList_le, String.toList_append] at hle
      have hprefix := prefix_of_between (String.le_iff_toList_le.1 (bytesOf_le_iff.1 hnot)) hle
      exact ⟨e, rfl, startsWith_dot_iff.1 (List.isPrefixOf_iff_prefix.2 hprefix)⟩
  · rintro ⟨e, hseek, hdot⟩
    exact ⟨e, (h.seek_eq_some_iff.1 hseek).mem, hdot⟩

end SymbolTable

/-! ## The parts before the dots -/

/-- The parts of a name before its dots, longest first. -/
def dottedStarts (ref : String) : List String :=
  ((tails (split '.' ref).reverse.tail).filter (!·.isEmpty)).map fun segments =>
    join "." segments.reverse

/-- The search goes over the parts before the dots. -/
theorem knownPackage?_eq_find? (t : SymbolTable) (ref : String) :
    knownPackage? t ref = (dottedStarts ref).find? fun p =>
      (t.seek (p ++ ".")).any (startsWith ·.fullName (p ++ ".")) := by
  rw [knownPackage?, dottedStarts, List.find?_eq_findSome?_guard, List.findSome?_map]
  congr 1
  funext segments
  rcases Option.eq_none_or_eq_some (t.seek (join "." segments.reverse ++ ".")) with h | ⟨e, h⟩ <;>
    simp [Option.guard, h]

/-- Segments in front of others stand before a dot. -/
theorem beforeDot_join_append {a b : List String} (ha : a ≠ []) (hb : b ≠ []) :
    BeforeDot (join "." a) (join "." (a ++ b)) :=
  ⟨join "." b, String.intercalate_append_of_ne_nil ha hb⟩

/-- The starts that are tried are the parts before a dot, all of them. -/
theorem mem_dottedStarts {p ref : String} : p ∈ dottedStarts ref ↔ BeforeDot p ref := by
  simp only [dottedStarts, List.mem_map, List.mem_filter, tails_eq, List.mem_tails,
    Bool.not_eq_true', List.isEmpty_eq_false_iff]
  constructor
  · rintro ⟨segments, ⟨⟨more, hmore⟩, hne⟩, rfl⟩
    obtain ⟨last, front, hfront⟩ := List.exists_cons_of_ne_nil
      (mt List.reverse_eq_nil_iff.1 (split_ne_nil '.' ref))
    rw [hfront, List.tail_cons] at hmore
    have hsplit : split '.' ref = segments.reverse ++ (last :: more).reverse := by
      rw [← List.reverse_append, List.cons_append, hmore, ← hfront, List.reverse_reverse]
    have hdot := beforeDot_join_append (mt List.reverse_eq_nil_iff.1 hne)
      (mt List.reverse_eq_nil_iff.1 (List.cons_ne_nil last more))
    rwa [← hsplit, join_split] at hdot
  · rintro ⟨rest, rfl⟩
    have hrest := mt List.reverse_eq_nil_iff.1 (split_ne_nil '.' rest)
    refine ⟨(split '.' p).reverse, ⟨?_, mt List.reverse_eq_nil_iff.1 (split_ne_nil '.' p)⟩, ?_⟩
    · rw [split_append_dot, List.reverse_append, List.tail_append_of_ne_nil hrest]
      exact List.suffix_append _ _
    · rw [List.reverse_reverse, join_split]

/-- Each part before a dot is longer than those that come after it in the list. -/
theorem pairwise_dottedStarts (ref : String) :
    (dottedStarts ref).Pairwise fun p q => q.length < p.length := by
  rw [dottedStarts, List.pairwise_map]
  refine ((pairwise_tails _).filter _).imp_of_mem ?_
  rintro _ b - hb ⟨c, hc, rfl⟩
  have hne : b ≠ [] := by simpa using (List.mem_filter.1 hb).2
  rw [List.reverse_append]
  exact (beforeDot_join_append (mt List.reverse_eq_nil_iff.1 hne)
    (mt List.reverse_eq_nil_iff.1 hc)).length_lt

/-! ## The longest known part -/

/-- Of the parts of `ref` before its dots that the table knows, `p` is the longest. -/
structure SymbolTable.IsLongestKnown (t : SymbolTable) (ref p : String) : Prop where
  beforeDot : BeforeDot p ref
  knows : t.Knows p
  longest : ∀ q, BeforeDot q ref → t.Knows q → q.length ≤ p.length

section
variable {t : SymbolTable} {ref p : String}

theorem SymbolTable.Ascends.any_seek_iff (h : t.Ascends) :
    (t.seek (p ++ ".")).any (startsWith ·.fullName (p ++ ".")) = true ↔ t.Knows p := by
  simp only [h.knows_iff_seek, Option.any_eq_true, startsWith_dot_iff]

/-- The package that is named is the longest known one. -/
theorem SymbolTable.Ascends.knownPackage?_eq_some_iff (h : t.Ascends) :
    knownPackage? t ref = some p ↔ t.IsLongestKnown ref p := by
  rw [knownPackage?_eq_find?,
    find?_eq_some_iff_of_pairwise (pairwise_dottedStarts ref) fun _ _ => Nat.lt_asymm]
  simp only [h.any_seek_iff, mem_dottedStarts, Nat.not_lt]
  exact ⟨fun h => ⟨h.1, h.2.1, h.2.2⟩, fun h => ⟨h.beforeDot, h.knows, h.longest⟩⟩

/-- No package is named exactly when none is known. -/
theorem SymbolTable.Ascends.knownPackage?_eq_none_iff (h : t.Ascends) :
    knownPackage? t ref = none ↔ ∀ p, BeforeDot p ref → ¬ t.Knows p := by
  simp only [knownPackage?_eq_find?, List.find?_eq_none, h.any_seek_iff, mem_dottedStarts]

/-- The names of the table of a run are the declared ones. -/
theorem Declared.knows_iff {s : FileSet} {d : Declarations} (h : Declared s d) :
    d.symbols.Knows p ↔ ∃ name ∈ d.names, BeforeDot p name := by
  have hnames : ∀ name, name ∈ d.names ↔ ∃ e ∈ d.symbols, e.fullName = name := by
    intro name
    rw [← not_iff_not, ← h.indexed.find_eq_none_iff, SymbolTable.find, List.find?_eq_none]
    simp
  simp only [hnames, SymbolTable.Knows]
  grind

/-- In a table that ascends, the search finds the longest known part of a name before a dot, and
nothing only if no such part is known. The one name that the table is asked for, the least that is
not below the part with its dot, decides whether a part is known. The table of a run ascends, and
what it knows are the parts of the declared names before their dots. -/
theorem knownPackage_longest :
    (∀ {t : SymbolTable}, t.Ascends → ∀ ref,
      (∀ p, knownPackage? t ref = some p ↔ t.IsLongestKnown ref p) ∧
      (knownPackage? t ref = none ↔ ∀ p, BeforeDot p ref → ¬ t.Knows p) ∧
      (∀ key e, t.seek key = some e ↔ t.IsFirstFrom key e) ∧
      ∀ p, t.Knows p ↔ ∃ e, t.seek (p ++ ".") = some e ∧ BeforeDot p e.fullName) ∧
    ∀ {s : FileSet} {d : Declarations}, declareAll s = .ok d →
      d.symbols.Ascends ∧ ∀ p, d.symbols.Knows p ↔ ∃ name ∈ d.names, BeforeDot p name := by
  constructor
  · intro t h ref
    exact ⟨fun p => h.knownPackage?_eq_some_iff, h.knownPackage?_eq_none_iff,
      fun key e => h.seek_eq_some_iff, fun p => h.knows_iff_seek⟩
  · intro s d h
    exact ⟨ascends_of_declareAll h, fun p => (declared_of_declareAll h).knows_iff⟩

end

/-- Names that sort before, at and behind the dot of `a.b`. -/
def aroundDotSample : FileSet where
  files := [
    { path := "/p/a.proto", name := "a.proto", package := "a-b", messages := [{ name := "X" }] },
    { path := "/p/b.proto", name := "b.proto", package := "a.b", messages := [{ name := "X" }] },
    { path := "/p/c.proto", name := "c.proto", package := "ab", messages := [{ name := "X" }] }]

/-- The names with `a.b` before a dot are told apart from those on both sides of them. -/
theorem aroundDotSample_longest : ∃ d, declareAll aroundDotSample = .ok d ∧ d.symbols.Ascends ∧
    knownPackage? d.symbols "a.b.c.Y" = some "a.b" ∧ knownPackage? d.symbols "b.Y" = none := by
  obtain ⟨d, hd⟩ := declareAll_isOk_iff.2
    (by decide : ((stepsOf aroundDotSample).map Step.fullName).Nodup)
  obtain ⟨hascends, hknows⟩ := knownPackage_longest.2 hd
  have hnames : d.names = ["a-b.X", "a.b.X", "ab.X"] := by
    rw [Declarations.names, (declared_of_declareAll hd).messages, (declared_of_declareAll hd).enums]
    decide
  simp only [hnames] at hknows
  have hsearch := knownPackage_longest.1 hascends
  refine ⟨d, hd, hascends, ((hsearch _).1 _).2 ⟨by decide, (hknows _).2 (by decide), ?_⟩,
    (hsearch _).2.1.2 ?_⟩
  · simp only [hknows, ← mem_dottedStarts]
    decide
  · simp only [hknows, ← mem_dottedStarts]
    decide

end ProtoStub.Program

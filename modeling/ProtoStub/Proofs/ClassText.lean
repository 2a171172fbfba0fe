import ProtoStub.Proofs.BlockReading
import ProtoStub.Proofs.Definitions
import ProtoStub.Proofs.Extraction
import ProtoStub.Proofs.Properties
import ProtoStub.Token.Lexer
import Mathlib.Tactic.IntervalCases

/-!
# The text of a class

What is written for a message is one text. When the names of the program are words and no namespace
holds a line end, no line of it holds one either, so that the text is cut into exactly the lines
that were written (`split_textOfLines`). These read back to a class tree that describes the message
(`readBlock_lines`), and the lines that open a class or an enum are one for each message and enum
inside the message, at any depth (`ClassTree.Describes.opensEach`). `classOf_readsBack` puts both
together: nothing is lost, and nothing is written twice.
-/

namespace ProtoStub

open Text

/-! ## Marks in names -/

/-- A name of letters, digits and underscores. -/
def IsWord (name : String) : Prop := name ≠ "" ∧ ∀ c ∈ name.toList, continuesIdent c = true

instance (name : String) : Decidable (IsWord name) :=
  decidable_of_iff (name ≠ "" ∧ name.toList.all continuesIdent = true) (by simp [IsWord])

/-- The names that a program declares are words, and no namespace holds a line end. -/
structure Program.WordNames (p : Program) : Prop where
  message : ∀ m ∈ p.messages, IsWord m.name
  field : ∀ m ∈ p.messages, ∀ f ∈ m.fields, IsWord f.name
  enum : ∀ e ∈ p.enums, IsWord e.name
  value : ∀ e ∈ p.enums, ∀ v ∈ e.values, IsWord v.name
  namespaceName : ∀ f ∈ p.files, '\n' ∉ f.namespaceName.toList

/-- A character before the letters that is no part of words. -/
structure IsMark (mark : Char) : Prop where
  pos : 0 < mark.toNat
  low : mark.toNat < 65
  outside : continuesIdent mark = false

/-- A line end stands in no word. -/
theorem isMark_newline : IsMark '\n' := ⟨by decide, by decide, by decide +kernel⟩

/-- A blank stands in no word. -/
theorem isMark_space : IsMark ' ' := ⟨by decide, by decide, by decide +kernel⟩

section
variable {mark : Char}

/-- A mark stands in no word. -/
theorem IsWord.notMem {name : String} (h : IsWord name) (hmark : IsMark mark) :
    mark ∉ name.toList := by
  intro hmem
  exact absurd (h.2 mark hmem) (by rw [hmark.outside]; decide)

/-- No mark comes into the wire name of a word, in camel case or not. -/
theorem IsWord.notMem_jsonName {name : String} (h : IsWord name) (hmark : IsMark mark)
    (message : String) : mark ∉ (jsonName message name).toList := by
  rw [jsonName]
  split
  · exact h.notMem hmark
  · exact fun hmem => h.notMem hmark (mem_camelCase hmark.pos hmark.low hmem)

/-- A character of a joined text stands in the separator or in a part. -/
theorem mem_join {c : Char} {sep : String} {parts : List String}
    (h : c ∈ (join sep parts).toList) : c ∈ sep.toList ∨ ∃ part ∈ parts, c ∈ part.toList := by
  rw [join] at h
  induction parts with
  | nil => simp at h
  | cons part parts ih =>
    cases parts with
    | nil =>
      rw [String.intercalate_singleton] at h
      exact .inr ⟨part, List.mem_cons_self, h⟩
    | cons next parts =>
      simp only [String.intercalate_cons_cons, String.toList_append, List.mem_append] at h
      obtain (h | h) | h := h
      · exact .inr ⟨part, List.mem_cons_self, h⟩
      · exact .inl h
      · refine (ih h).imp_right ?_
        rintro ⟨x, hx, hmem⟩
        exact ⟨x, List.mem_cons_of_mem part hx, hmem⟩

end

/-! ## Types inside a message -/

namespace Program

open JsonSchema (IsParent eq_of_isParent le_of_isParent)
open Relation (ReflTransGen)
open Schema (FileSet)

/-- The type is the message `i`, or is declared in it at some depth. -/
inductive Contains (p : Program) (i : Nat) : TypeRef → Prop
  | self : Contains p i (.message i)
  | nested {t : TypeRef} {j : Nat} (hdeclared : p.IsDeclared t)
    (hparent : (p.info t).parent = some j) (h : Contains p i (.message j)) : Contains p i t

section
variable {s : FileSet} {options : BuildOptions} {d : Declarations} {p : Program} {i j : Nat}
  {t : TypeRef}

/-- What a contained message contains is contained. -/
theorem Contains.trans (h : p.Contains j t) (hj : p.Contains i (.message j)) :
    p.Contains i t := by
  induction h with
  | self => exact hj
  | nested hdeclared hparent _ ih => exact .nested hdeclared hparent ih

/-- From a contained message the parents lead to the outer one. -/
theorem Contains.reflTransGen (h : p.Contains i (.message j)) :
    ReflTransGen (IsParent p) j i := by
  generalize ht : TypeRef.message j = t at h
  induction h generalizing j with
  | self =>
    cases ht
    exact .refl
  | nested hdeclared hparent _ ih =>
    cases ht
    exact .head hparent (ih rfl)

/-- A type inside a message is the message, or one of its enums, or is inside one of the messages
in it. -/
theorem Built.contains_iff (hb : Built s options d p) : p.Contains i t ↔ t = .message i ∨
    (∃ e ∈ (p.message i).enums, t = .enum e) ∨ ∃ j ∈ (p.message i).messages, p.Contains j t := by
  constructor
  · intro h
    induction h with
    | self => exact .inl rfl
    | @nested t j hdeclared hparent _ ih =>
      obtain hj | ⟨e, -, he⟩ | ⟨k, hk, hcontains⟩ := ih
      · cases hj
        have hmember := hb.mem_members.2 ⟨hdeclared, hparent⟩
        rw [members, List.mem_append, List.mem_map, List.mem_map] at hmember
        obtain ⟨k, hk, rfl⟩ | ⟨e, he, rfl⟩ := hmember
        · exact .inr (.inr ⟨k, hk, .self⟩)
        · exact .inr (.inl ⟨e, he, rfl⟩)
      · cases he
      · exact .inr (.inr ⟨k, hk, .nested hdeclared hparent hcontains⟩)
  · have hnested : ∀ u ∈ p.members (.message i), p.Contains i u := fun u hu =>
      have hu := hb.mem_members.1 hu
      .nested hu.1 hu.2 .self
    rintro (rfl | ⟨e, he, rfl⟩ | ⟨j, hj, hcontains⟩)
    · exact .self
    · exact hnested _ (by simp [members, he])
    · exact hcontains.trans (hnested _ (by simp [members, hj]))

/-- A message does not contain its parent: parents stand before the messages in them. -/
theorem Built.not_contains_of_isParent (hb : Built s options d p) (h : IsParent p j i) :
    ¬ p.Contains j (.message i) := by
  intro hcontains
  have := hb.parent_lt j i h
  have := le_of_isParent hb.parent_lt hcontains.reflTransGen
  omega

/-- A type is inside one of the messages side by side at most. -/
theorem Built.eq_of_contains (hb : Built s options d p) {j j' : Nat} (h : p.Contains j t)
    (h' : p.Contains j' t) (hside : (p.message j).parent = (p.message j').parent) : j = j' := by
  cases t with
  | message a => exact eq_of_isParent hb.parent_lt h.reflTransGen h'.reflTransGen hside
  | enum e =>
    cases h with
    | nested _ hparent h =>
      cases h' with
      | nested _ hparent' h' =>
        cases hparent.symm.trans hparent'
        exact eq_of_isParent hb.parent_lt h.reflTransGen h'.reflTransGen hside
  | scalar | wellKnown | undefined =>
    cases h with
    | nested hdeclared => exact hdeclared.elim

end

end Program

namespace VisualBasic

open Program (Built Declarations BuildOptions build exists_built)
open Schema (FileSet)

/-- Escaping adds no line end. -/
theorem newline_notMem_escape {name : String} (h : '\n' ∉ name.toList) :
    '\n' ∉ (escape name).toList :=
  notMem_escape (by decide) h

/-- Escaping the segments of a path adds no line end. -/
theorem newline_notMem_escapePath {name : String} (h : '\n' ∉ name.toList) :
    '\n' ∉ (escapePath name).toList := by
  intro hmem
  rcases mem_join hmem with hdot | ⟨part, hpart, hmem⟩
  · simp at hdot
  · obtain ⟨piece, hpiece, rfl⟩ := List.mem_map.1 hpart
    obtain ⟨cs, hcs, rfl⟩ := List.mem_map.1 hpiece
    refine newline_notMem_escape (fun hin => ?_) hmem
    rw [String.toList_ofList] at hin
    exact h (mem_of_mem_pieces hcs hin).1

/-- The name of a property is a word in Pascal case, with a suffix perhaps. -/
theorem notMem_propertyName {mark : Char} (hmark : IsMark mark) {name : String} (h : IsWord name)
    (taken : List String) : mark ∉ (propertyName taken name).toList := by
  have hpascal : mark ∉ (pascalCase name).toList := fun hmem =>
    h.notMem hmark (mem_pascalCase hmark.pos hmark.low hmem).1
  have hsuffix : mark ∉ "Value".toList := by
    have hlow := hmark.low
    intro hmem
    have hletters : ∀ c ∈ "Value".toList, 65 ≤ c.toNat := by simp
    have := hletters mark hmem
    omega
  rw [propertyName]
  split
  · rw [String.toList_append, List.mem_append]
    exact fun hmem => hmem.elim hpascal hsuffix
  · exact hpascal

/-! ## Types on one line -/

/-- What holds of the members of a list and of the default holds of the member at a place. -/
theorem forall_getD {α : Type} {P : α → Prop} {xs : List α} {default : α} (h : ∀ x ∈ xs, P x)
    (hd : P default) (i : Nat) : P (xs.getD i default) := by
  rw [List.getD]
  cases hx : xs[i]? with
  | none => exact hd
  | some x => exact h x (List.mem_of_getElem? hx)

/-- The types of scalars are single words. -/
theorem newline_notMem_scalarType (s : Scalar) : '\n' ∉ (scalarType s).toList := by
  cases s <;> simp [scalarType]

/-- The types for well-known messages stand in a table without line ends. -/
theorem newline_notMem_wellKnownType {name : String} {type : TypeText}
    (h : wellKnownType? name = some type) : '\n' ∉ type.text.toList := by
  rw [wellKnownType?] at h
  split_ifs at h
  iterate 6
    · cases h
      simp
  · obtain ⟨s, -, rfl⟩ := Option.map_eq_some_iff.1 h
    cases s <;> simp [scalarType]

section
variable {p : Program} (hp : p.WordNames)
include hp

/-- No message has a line end in its name; one that is not there has the empty name. -/
theorem newline_notMem_messageName (i : Nat) : '\n' ∉ (p.message i).name.toList :=
  forall_getD (P := fun m => '\n' ∉ m.name.toList)
    (fun m hm => (hp.message m hm).notMem isMark_newline) (by simp) i

/-- No enum has a line end in its name. -/
theorem newline_notMem_enumName (i : Nat) : '\n' ∉ (p.enum i).name.toList :=
  forall_getD (P := fun e => '\n' ∉ e.name.toList)
    (fun e he => (hp.enum e he).notMem isMark_newline) (by simp) i

/-- No file has a line end in its namespace. -/
theorem newline_notMem_namespaceName (k : Nat) : '\n' ∉ (p.file k).namespaceName.toList :=
  forall_getD (P := fun f : Program.File => '\n' ∉ f.namespaceName.toList) hp.namespaceName
    (by simp) k

/-- The path of a message is made of names of messages. -/
theorem newline_notMem_messagePath (i : Nat) : '\n' ∉ (p.messagePath i).toList := by
  intro hmem
  rcases mem_join hmem with hdot | ⟨part, hpart, hmem⟩
  · simp at hdot
  · obtain ⟨j, -, rfl⟩ := List.mem_map.1 hpart
    exact newline_notMem_messageName hp j hmem

/-- The path of an enum is made of names too. -/
theorem newline_notMem_enumPath (i : Nat) : '\n' ∉ (p.enumPath i).toList := by
  have hname := newline_notMem_enumName hp i
  rw [Program.enumPath]
  split
  · exact hname
  · simp [newline_notMem_messagePath hp, hname]

/-- A type is named by its path, its namespace or both. -/
theorem newline_notMem_qualify (ref : TypeRef) (file : Nat) (fromMessage : Option Nat) :
    '\n' ∉ (p.qualify ref file fromMessage).name.toList := by
  have htarget : ∀ t, p.target? ref = some t → '\n' ∉ t.path.toList := by
    intro t ht
    cases ref with
    | message i =>
      cases ht
      exact newline_notMem_messagePath hp i
    | enum i =>
      cases ht
      exact newline_notMem_enumPath hp i
    | scalar | wellKnown | undefined => cases ht
  rw [Program.qualify]
  split
  · simp
  · rename_i t ht
    have hfull : '\n' ∉ ((p.file t.file).namespaceName ++ "." ++ t.path).toList := by
      simp [newline_notMem_namespaceName hp, htarget t ht]
    dsimp only
    split
    · exact hfull
    · split
      · exact hfull
      · exact htarget t ht

/-- A type that is written is that of a scalar, of a well-known message or a name. -/
theorem newline_notMem_typeName {file : Nat} {fromMessage : Option Nat} {ref : TypeRef}
    {type : TypeText} (h : typeName p file fromMessage ref = .ok type) :
    '\n' ∉ type.text.toList := by
  have hrooted : '\n' ∉ (rooted (p.qualify ref file fromMessage)).toList := by
    have hpath := newline_notMem_escapePath (newline_notMem_qualify hp ref file fromMessage)
    rw [rooted]
    split
    · simp [hpath]
    · exact hpath
  unfold typeName at h
  split at h
  · cases h
    exact newline_notMem_scalarType _
  · split at h
    · rename_i htype
      cases h
      exact newline_notMem_wellKnownType htype
    · cases h
  · dsimp only at h
    split at h
    · cases h
      simp
    split at h
    · cases h
    · cases h
      exact hrooted

end

/-! ## Classes on their lines -/

/-- The names in the class itself hold no line end. -/
structure ClassTree.SingleLined (c : ClassTree) : Prop where
  name : '\n' ∉ c.name.toList
  property : ∀ q ∈ c.properties,
    '\n' ∉ q.name.toList ∧ '\n' ∉ q.wireName.toList ∧ '\n' ∉ q.type.toList
  enum : ∀ e ∈ c.enums, '\n' ∉ e.name.toList ∧ ∀ v ∈ e.values, '\n' ∉ v.name.toList

section
variable {s : FileSet} {options : BuildOptions} {d : Declarations} {p : Program} {file i : Nat}
  {c : ClassTree}

/-- A property of the class comes from a field of the message, whose name is a word. -/
theorem ClassTree.Describes.exists_field (h : c.Describes p file i) (hb : Built s options d p)
    (hp : p.WordNames) {q : Property} (hq : q ∈ c.properties) :
    ∃ f type, IsWord f.name ∧ f.jsonName = jsonName (p.message i).name f.name ∧
      typeName p file (some i) f.type = .ok type ∧ q = propertyOf p i f type := by
  obtain ⟨n, hn⟩ := List.getElem?_of_mem hq
  obtain ⟨f, hf, type, htype, rfl⟩ := Program.forall₂_getElem? h.properties_eq.flip hn
  obtain ⟨hmem, hjson⟩ := hb.jsonName_eq (List.mem_of_getElem? hf)
  exact ⟨f, type, hp.field _ hmem f (List.mem_of_getElem? hf), hjson, htype, rfl⟩

/-- An enum of the class is one of the program or has no values; its values have words as names. -/
theorem ClassTree.Describes.forall_value (h : c.Describes p file i) (hp : p.WordNames)
    {e : Program.Enum} (he : e ∈ c.enums) :
    '\n' ∉ e.name.toList ∧ ∀ v ∈ e.values, IsWord v.name := by
  cases h with
  | mk _ _ henums _ =>
    rw [henums] at he
    obtain ⟨n, -, rfl⟩ := List.mem_map.1 he
    exact ⟨newline_notMem_enumName hp n,
      forall_getD (P := fun e : Program.Enum => ∀ v ∈ e.values, IsWord v.name) hp.value (by simp) n⟩

/-- The names in the class of a message are words, so its lines can be read. -/
theorem ClassTree.Describes.legible (h : c.Describes p file i) (hb : Built s options d p)
    (hp : p.WordNames) : c.Legible where
  property q hq := by
    obtain ⟨f, type, hf, hjson, -, rfl⟩ := h.exists_field hb hp hq
    refine ⟨?_, ?_⟩
    · rw [propertyOf_name]
      exact notMem_propertyName isMark_space hf _
    · rw [propertyOf, hjson]
      exact hf.notMem_jsonName isMark_space _
  value e he v hv := by
    have hv := (h.forall_value hp he).2 v hv
    exact ⟨hv.1, hv.notMem isMark_space⟩

/-- The names and types in the class of a message have no line end. -/
theorem ClassTree.Describes.singleLined (h : c.Describes p file i) (hb : Built s options d p)
    (hp : p.WordNames) : c.SingleLined where
  name := h.name_eq ▸ newline_notMem_messageName hp i
  property q hq := by
    obtain ⟨f, type, hf, hjson, htype, rfl⟩ := h.exists_field hb hp hq
    have htext := newline_notMem_typeName hp htype
    refine ⟨?_, ?_, ?_⟩
    · rw [propertyOf_name]
      exact notMem_propertyName isMark_newline hf _
    · rw [propertyOf, hjson]
      exact hf.notMem_jsonName isMark_newline _
    · rw [propertyOf]
      split
      · simp [htext]
      · exact htext
  enum e he := by
    obtain ⟨hname, hvalues⟩ := h.forall_value hp he
    exact ⟨hname, fun v hv => (hvalues v hv).notMem isMark_newline⟩

/-- Between separated blocks there are blank lines only. -/
theorem mem_separated {started : Bool} {blocks : List (List String)} {line : String}
    (h : line ∈ separated started blocks) : line = "" ∨ ∃ block ∈ blocks, line ∈ block := by
  induction blocks generalizing started with
  | nil => cases h
  | cons block blocks ih =>
    rw [separated, List.mem_append, List.mem_append] at h
    obtain (h | h) | h := h
    · cases started with
      | false => cases h
      | true => exact .inl (List.mem_singleton.1 h)
    · exact .inr ⟨block, List.mem_cons_self, h⟩
    · refine (ih h).imp_right ?_
      rintro ⟨b, hb, hmem⟩
      exact ⟨b, List.mem_cons_of_mem block hb, hmem⟩

/-- Indentation is made of blanks. -/
theorem newline_notMem_spaces (n : Nat) : '\n' ∉ (spaces n).toList := by
  simp [spaces]

/-- A natural number is written with digits. -/
theorem newline_notMem_natRepr (n : Nat) : '\n' ∉ n.repr.toList := by
  rw [Nat.repr, String.toList_ofList]
  intro hmem
  exact absurd (Nat.isDigit_of_mem_toDigits (by omega) (by omega) hmem) (by decide)

/-- A number is written with digits and a sign perhaps. -/
theorem newline_notMem_repr (n : Int) : '\n' ∉ n.repr.toList := by
  cases n with
  | ofNat n => exact newline_notMem_natRepr n
  | negSucc n =>
    rw [Int.repr, String.toList_append, List.mem_append]
    exact fun hmem => hmem.elim (by decide) (newline_notMem_natRepr (n + 1))

/-- No line of a property has a line end in it. -/
theorem newline_notMem_propertyLines {q : Property}
    (h : '\n' ∉ q.name.toList ∧ '\n' ∉ q.wireName.toList ∧ '\n' ∉ q.type.toList) (n : Nat) :
    ∀ line ∈ q.lines (spaces n ++ indent), '\n' ∉ line.toList := by
  intro line hline
  rw [Property.lines_eq, List.mem_append, List.mem_singleton, List.mem_singleton] at hline
  obtain rfl | rfl := hline
  · simp [newline_notMem_spaces, h.2.1]
  · simp [newline_notMem_spaces, newline_notMem_escape h.1, h.2.2]

/-- No line of an enum has a line end in it. -/
theorem newline_notMem_enumLines {e : Program.Enum}
    (h : '\n' ∉ e.name.toList ∧ ∀ v ∈ e.values, '\n' ∉ v.name.toList) (n : Nat) :
    ∀ line ∈ enumLines e (spaces n ++ indent), '\n' ∉ line.toList := by
  intro line hline
  rw [enumLines_eq, List.mem_append, List.mem_append, List.mem_singleton,
    List.mem_singleton] at hline
  obtain (rfl | hline) | rfl := hline
  · simp [newline_notMem_spaces, newline_notMem_escape h.1]
  · obtain ⟨v, hv, rfl⟩ := List.mem_map.1 hline
    simp [newline_notMem_spaces, newline_notMem_escape (h.2 v hv), newline_notMem_repr]
  · simp [newline_notMem_spaces]

/-- No line of a class holds a line end when the names in it hold none. -/
theorem newline_notMem_lines (h : ∀ x : ClassTree, x.Within c → x.SingleLined) (n : Nat) :
    ∀ line ∈ c.lines (spaces n), '\n' ∉ line.toList := by
  induction c using ClassTree.induction generalizing n with
  | h c ih =>
    intro line hline
    rw [ClassTree.lines_eq, List.mem_append, List.mem_append, List.mem_singleton,
      List.mem_singleton] at hline
    obtain (rfl | hline) | rfl := hline
    · simp [newline_notMem_spaces, newline_notMem_escape (h c .self).name]
    · rcases mem_separated hline with rfl | ⟨block, hblock, hmem⟩
      · simp
      rw [List.mem_append, List.mem_append, List.mem_map, List.mem_map, List.mem_map] at hblock
      obtain (⟨q, hq, rfl⟩ | ⟨e, he, rfl⟩) | ⟨x, hx, rfl⟩ := hblock
      · exact newline_notMem_propertyLines ((h c .self).property q hq) n line hmem
      · exact newline_notMem_enumLines ((h c .self).enum e he) n line hmem
      · rw [spaces_append_indent] at hmem
        exact ih x hx (fun y hy => h y (.nested hx hy)) _ line hmem
    · simp [newline_notMem_spaces]

/-- The text of a class is cut into the lines that were written. -/
theorem split_textOfLines (h : ∀ x : ClassTree, x.Within c → x.SingleLined) (n : Nat) :
    split '\n' (textOfLines (c.lines (spaces n))) = c.lines (spaces n) := by
  refine split_join ?_ (newline_notMem_lines h n)
  rw [ClassTree.lines_eq]
  simp

end

/-! ## Openings -/

/-- How the declaration of a type starts. -/
def opening (p : Program) : TypeRef → Option Statement
  | .message i => some (.openClass (escape (p.message i).name))
  | .enum i => some (.openEnum (escape (p.enum i).name))
  | _ => none

/-- The statements open each type with the property, and each of them once. -/
def OpensEach (p : Program) (P : TypeRef → Prop) (opened : List Statement) : Prop :=
  ∃ types : List TypeRef, types.Nodup ∧ (∀ t, t ∈ types ↔ P t) ∧
    opened.map some = types.map (opening p)

section
variable {s : FileSet} {options : BuildOptions} {d : Declarations} {p : Program} {file i : Nat}
  {P Q : TypeRef → Prop} {xs ys : List Statement} {c : ClassTree}

/-- Opening each of some types depends on which types they are only. -/
theorem OpensEach.congr (h : OpensEach p P xs) (hiff : ∀ t, Q t ↔ P t) : OpensEach p Q xs := by
  obtain ⟨types, hnodup, hmem, hopened⟩ := h
  exact ⟨types, hnodup, fun t => (hmem t).trans (hiff t).symm, hopened⟩

/-- Lines that open different types open all of them one behind the other. -/
theorem OpensEach.append (h : OpensEach p P xs) (h' : OpensEach p Q ys)
    (hdisjoint : ∀ t, P t → ¬ Q t) : OpensEach p (fun t => P t ∨ Q t) (xs ++ ys) := by
  obtain ⟨types, hnodup, hmem, hopened⟩ := h
  obtain ⟨types', hnodup', hmem', hopened'⟩ := h'
  refine ⟨types ++ types', List.nodup_append'.2 ⟨hnodup, hnodup', fun t ht ht' => ?_⟩,
    fun t => ?_, by rw [List.map_append, List.map_append, hopened, hopened']⟩
  · exact hdisjoint t ((hmem t).1 ht) ((hmem' t).1 ht')
  · rw [List.mem_append, hmem, hmem']

/-- The first line of a class opens its message. -/
theorem opensEach_message (p : Program) (i : Nat) :
    OpensEach p (· = .message i) [.openClass (escape (p.message i).name)] :=
  ⟨[.message i], List.nodup_singleton _, by simp, rfl⟩

/-- The first lines of enums open one each. -/
theorem opensEach_enums {indices : List Nat} (h : indices.Nodup) :
    OpensEach p (fun t => ∃ e ∈ indices, t = .enum e)
      ((indices.map p.enum).map fun e => .openEnum (escape e.name)) := by
  refine ⟨indices.map .enum, h.map fun a b hab => TypeRef.enum.inj hab, by simp [eq_comm], ?_⟩
  rw [List.map_map, List.map_map, List.map_map]
  rfl

/-- Classes side by side open the types in each of them, when each one does. -/
theorem opensEach_classes {margin : String} {indices : List Nat} {cs : List ClassTree}
    (hb : Built s options d p) (hnodup : indices.Nodup)
    (hside : ∀ a ∈ indices, ∀ b ∈ indices, (p.message a).parent = (p.message b).parent)
    (h : List.Forall₂ (ClassTree.Describes p file) indices cs)
    (heach : ∀ c ∈ cs, ∀ {j}, c.Describes p file j →
      OpensEach p (p.Contains j) (openings (c.lines margin))) :
    OpensEach p (fun t => ∃ j ∈ indices, p.Contains j t)
      (cs.flatMap fun c => openings (c.lines margin)) := by
  induction h with
  | nil => exact ⟨[], .nil, by simp, rfl⟩
  | @cons j c indices cs hc _ ih =>
    obtain ⟨hj, hnodup⟩ := List.nodup_cons.1 hnodup
    have hrest := ih hnodup
      (fun a ha b hb => hside a (List.mem_cons_of_mem j ha) b (List.mem_cons_of_mem j hb))
      fun x hx => heach x (List.mem_cons_of_mem c hx)
    refine ((heach c List.mem_cons_self hc).append hrest ?_).congr fun t => by simp
    rintro t ht ⟨k, hk, ht'⟩
    have hsame := hb.eq_of_contains ht ht'
      (hside j List.mem_cons_self k (List.mem_cons_of_mem j hk))
    exact hj (hsame ▸ hk)

/-- The lines of a class that describes a message open each type inside the message once. -/
theorem ClassTree.Describes.opensEach (h : c.Describes p file i) (hb : Built s options d p)
    (hp : p.WordNames) (n : Nat) :
    OpensEach p (p.Contains i) (openings (c.lines (spaces n))) := by
  induction c using ClassTree.induction generalizing i n with
  | h c ih =>
    have hmember : ∀ t ∈ p.members (.message i), (p.info t).parent = some i := fun t ht =>
      (hb.mem_members.1 ht).2
    have hparent : ∀ j ∈ (p.message i).messages, (p.message j).parent = some i := fun j hj =>
      hmember (.message j) (by simp [Program.members, hj])
    obtain ⟨hmessages, henums⟩ : (p.message i).messages.Nodup ∧ (p.message i).enums.Nodup :=
      hb.nodup_at (.inside i)
    have hlegible := h.legible hb hp
    cases h with
    | mk hname _ henumsEq hclasses =>
      have hbelow := opensEach_classes hb hmessages
        (fun a ha b hb => (hparent a ha).trans (hparent b hb).symm) hclasses
        fun x hx {j} hj => ih x hx hj (n + indent.length)
      rw [openings_lines hlegible, henumsEq, hname]
      refine ((opensEach_message p i).append ((opensEach_enums henums).append hbelow ?_) ?_).congr
        fun t => hb.contains_iff
      · rintro t ⟨e, he, rfl⟩ ⟨j, hj, hcontains⟩
        cases hcontains with
        | nested _ hparent' h =>
          cases (hmember (.enum e) (by simp [Program.members, he])).symm.trans hparent'
          exact hb.not_contains_of_isParent (hparent j hj) h
      · rintro t rfl (⟨e, -, he⟩ | ⟨j, hj, hcontains⟩)
        · cases he
        · exact hb.not_contains_of_isParent (hparent j hj) hcontains

end

/-! ## Reading a class back -/

/-- The lines are those of a class for the message `i`, indented by `n`. They read as a class with
one property for each field of the message, one enum for each of its enums and one class for each
message in it, and so on inside these; each type inside the message is opened once. -/
structure ReadsBack (p : Program) (file i n : Nat) (lines : List String) : Prop where
  block : ∃ c : ClassTree, c.Describes p file i ∧ readBlock lines = some (n, c.block)
  openings : OpensEach p (p.Contains i) (openings lines)

/-- The text that is written for a message of a program whose names are words reads back as the
message with everything inside it: nothing is lost, nothing is written twice, and there is nothing
else. -/
theorem classOf_readsBack {s : FileSet} {options : BuildOptions} {p : Program} {file i n : Nat}
    {code : Code} (h : build s options = .ok p) (hp : p.WordNames)
    (hcode : classOf p file (spaces n) i = .ok code) :
    ReadsBack p file i n (split '\n' (textOfLines code.lines)) := by
  obtain ⟨d, hb⟩ := exists_built h
  obtain ⟨c, hdescribes, hlines, -⟩ := exists_classTree hcode
  have hlegible : ∀ x : ClassTree, x.Within c → x.Legible := fun x hx =>
    have ⟨_, hj⟩ := hdescribes.within hx
    hj.legible hb hp
  have hsingle : ∀ x : ClassTree, x.Within c → x.SingleLined := fun x hx =>
    have ⟨_, hj⟩ := hdescribes.within hx
    hj.singleLined hb hp
  rw [← hlines, split_textOfLines hsingle]
  exact ⟨⟨c, hdescribes, readBlock_lines hlegible n⟩, hdescribes.opensEach hb hp n⟩

/-- A message with a field that is named like a keyword, an enum with a negative number and a
message two levels down. -/
def orderSample : FileSet where
  files := [
    { path := "/p/a.proto", name := "a.proto", package := "shop.v1"
      messages := [
        { name := "Order"
          fields := [
            { name := "class", number := 1, type := "string" },
            { name := "unit_prices", number := 2, type := "Line.Price", repeated := true }]
          enums := [{ name := "State", values := [⟨"OPEN", 0⟩, ⟨"LOST", -1⟩] }]
          messages := [
            { name := "Line"
              messages := [
                { name := "Price"
                  fields := [{ name := "state", number := 1, type := "State" }] }] }] }] }]

/-- The program of the sample. -/
def orderProgram : Program where
  files := [
    { path := "/p/a.proto", name := "a.proto", baseName := "a", package := "shop.v1"
      namespaceName := "Shop.V1", messages := [0] }]
  messages := [
    { name := "Order", fullName := "shop.v1.Order"
      fields := [⟨"class", "class", 1, false, .scalar .string⟩,
        ⟨"unit_prices", "unitPrices", 2, true, .message 2⟩]
      enums := [0], messages := [1] },
    { name := "Line", fullName := "shop.v1.Order.Line", parent := some 0, messages := [2] },
    { name := "Price", fullName := "shop.v1.Order.Line.Price", parent := some 1
      fields := [⟨"state", "state", 1, false, .enum 0⟩] }]
  enums := [
    { name := "State", fullName := "shop.v1.Order.State", parent := some 0
      values := [⟨"OPEN", 0⟩, ⟨"LOST", -1⟩] }]

/-- The sample is accepted. -/
theorem build_orderSample : build orderSample {} = .ok orderProgram :=
  Program.toOption_eq_some_iff.1 (by decide +kernel)

/-- The names of the sample are words. -/
theorem wordNames_orderProgram : orderProgram.WordNames where
  message := by decide
  field := by decide
  enum := by decide
  value := by decide
  namespaceName := by decide

/-- The class of the outermost message of the sample is written. -/
theorem exists_classOf_orderProgram :
    ∃ code, classOf orderProgram 0 (spaces indent.length) 0 = .ok code := by
  have hproperties : ∀ i < orderProgram.messages.length, ∀ margin, ∃ code,
      propertyLines orderProgram 0 i margin [] (orderProgram.message i).fields = .ok code := by
    intro i hi margin
    replace hi : i < 3 := hi
    interval_cases i <;> exact ⟨_, rfl⟩
  exact exists_classOf (by decide) hproperties (by decide) _

/-- The class of the sample reads back, with the message two levels down in it. -/
theorem orderSample_readsBack : build orderSample {} = .ok orderProgram ∧ orderProgram.WordNames ∧
    ∃ code, classOf orderProgram 0 (spaces indent.length) 0 = .ok code ∧
      ReadsBack orderProgram 0 0 indent.length (split '\n' (textOfLines code.lines)) := by
  obtain ⟨code, hcode⟩ := exists_classOf_orderProgram
  exact ⟨build_orderSample, wordNames_orderProgram, code, hcode,
    classOf_readsBack build_orderSample wordNames_orderProgram hcode⟩

end VisualBasic

end ProtoStub

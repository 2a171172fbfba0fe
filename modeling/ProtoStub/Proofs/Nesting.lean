import ProtoStub.Program.Qualify
import ProtoStub.Proofs.Definitions

/-!
# Types in their nest

Messages and enums are both named by paths: a type stands at the top of a file or in a message, and
`TypeInfo` is what the two kinds have in common. In a program that was built every type is reached
from the type at its top in exactly one way. `walk` follows names from member to member and collects
everything they lead to; the names of a path lead from the top to the type of the path and to
nothing else (`exists_walk`), since two types in one message never share a name
(`filter_members_name`). The proofs go down a path with `declared_induction`: from a type at the top
of a file to the types nested in it.
-/

namespace ProtoStub.Program

open Text (join)
open Schema (FileSet)

/-! ## What messages and enums have in common -/

/-- What is known of a message or an enum. -/
structure TypeInfo where
  name : String := ""
  fullName : String := ""
  /-- The dotted path below the namespace of the file. -/
  path : String := ""
  file : Nat := 0
  parent : Option Nat := none

/-- What is known of a type; nothing for types of other kinds. -/
def info (p : Program) : TypeRef → TypeInfo
  | .message i =>
    let m := p.message i
    ⟨m.name, m.fullName, p.messagePath i, m.file, m.parent⟩
  | .enum i =>
    let e := p.enum i
    ⟨e.name, e.fullName, p.enumPath i, e.file, e.parent⟩
  | _ => {}

/-- The type is a message or an enum of the program. -/
def IsDeclared (p : Program) : TypeRef → Prop
  | .message i => i < p.messages.length
  | .enum i => i < p.enums.length
  | _ => False

/-- The messages and enums nested directly in a type. -/
def members (p : Program) : TypeRef → List TypeRef
  | .message i => (p.message i).messages.map .message ++ (p.message i).enums.map .enum
  | _ => []

/-- The messages and enums at the top of a file. -/
def topTypes (p : Program) (k : Nat) : List TypeRef :=
  (p.file k).messages.map .message ++ (p.file k).enums.map .enum

/-- The type at the top of its file that a type is nested in; a type at the top is its own. -/
def topOf (p : Program) (t : TypeRef) : TypeRef :=
  match (p.chain (p.info t).parent).getLast? with
  | some i => .message i
  | none => t

/-- All types that the names lead to from `t`, each name from a type to its members. -/
def walk (p : Program) (t : TypeRef) : List String → List TypeRef
  | [] => [t]
  | name :: rest =>
    ((p.members t).filter fun u => (p.info u).name == name).flatMap (p.walk · rest)

/-- The names on the way to a type, from the top of its file. -/
def segments (p : Program) (t : TypeRef) : List String :=
  (p.chain (p.info t).parent).reverse.map (fun i => (p.message i).name) ++ [(p.info t).name]

/-- A walk by some names and then some more. -/
theorem walk_append (p : Program) (t : TypeRef) (names more : List String) :
    p.walk t (names ++ more) = (p.walk t names).flatMap (p.walk · more) := by
  induction names generalizing t with
  | nil => simp [walk]
  | cons name rest ih =>
    rw [List.cons_append, walk, walk, List.flatMap_assoc]
    exact congrArg (List.flatMap · _) (funext ih)

section
variable {s : FileSet} {options : BuildOptions} {d : Declarations} {p : Program} {t u : TypeRef}
  {j k : Nat}

/-! ## Listed types -/

theorem Built.isDeclared_message (h : Built s options d p) {x : DeclaredMessage}
    (hx : d.messages[j]? = some x) : p.IsDeclared (.message j) := by
  rw [IsDeclared, h.messages_length]
  exact (List.getElem?_eq_some_iff.1 hx).1

theorem Built.isDeclared_enum (h : Built s options d p) {x : DeclaredEnum}
    (hx : d.enums[j]? = some x) : p.IsDeclared (.enum j) := by
  rw [IsDeclared, h.enums, List.length_map]
  exact (List.getElem?_eq_some_iff.1 hx).1

/-- A message of the program comes from a declaration. -/
theorem Built.exists_declaredMessage (h : Built s options d p) (hj : p.IsDeclared (.message j)) :
    ∃ x fields, d.messages[j]? = some x ∧ p.message j = d.messageOf j x fields := by
  obtain ⟨x, fields, hx, he, -⟩ := h.getElem?_message (List.getElem?_eq_getElem hj)
  exact ⟨x, fields, hx, (message_of_getElem? (List.getElem?_eq_getElem hj)).trans he⟩

/-- An enum of the program comes from a declaration. -/
theorem Built.exists_declaredEnum (h : Built s options d p) (hj : p.IsDeclared (.enum j)) :
    ∃ x, d.enums[j]? = some x ∧ p.enum j = x.toEnum := by
  obtain ⟨x, hx, he⟩ := h.getElem?_enum (List.getElem?_eq_getElem hj)
  exact ⟨x, hx, (enum_of_getElem? (List.getElem?_eq_getElem hj)).trans he⟩

/-- The members of a message are the types whose parent it is. -/
theorem Built.mem_members (h : Built s options d p) :
    t ∈ p.members (.message j) ↔ p.IsDeclared t ∧ (p.info t).parent = some j := by
  cases t with
  | message i =>
    simp only [members, List.mem_append, List.mem_map, TypeRef.message.injEq, exists_eq_right,
      reduceCtorEq, and_false, exists_false, or_false, info]
    constructor
    · intro hi
      obtain ⟨x, hx, hparent⟩ := h.mem_message_messages.1 hi
      obtain ⟨fields, he⟩ := h.message_eq hx
      rw [he]
      exact ⟨h.isDeclared_message hx, hparent⟩
    · rintro ⟨hi, hparent⟩
      obtain ⟨x, fields, hx, he⟩ := h.exists_declaredMessage hi
      rw [he] at hparent
      exact h.mem_message_messages.2 ⟨x, hx, hparent⟩
  | enum i =>
    simp only [members, List.mem_append, List.mem_map, TypeRef.enum.injEq, exists_eq_right,
      reduceCtorEq, and_false, exists_false, false_or, info]
    constructor
    · intro hi
      obtain ⟨x, hx, hparent⟩ := h.mem_message_enums.1 hi
      rw [h.enum_eq hx]
      exact ⟨h.isDeclared_enum hx, hparent⟩
    · rintro ⟨hi, hparent⟩
      obtain ⟨x, hx, he⟩ := h.exists_declaredEnum hi
      rw [he] at hparent
      exact h.mem_message_enums.2 ⟨x, hx, hparent⟩
  | scalar | wellKnown | undefined => simp [members, IsDeclared]

/-- The types at the top of a file are those of the file without parent. -/
theorem Built.mem_topTypes (h : Built s options d p) :
    t ∈ p.topTypes k ↔
      p.IsDeclared t ∧ (p.info t).parent = none ∧ (p.info t).file = k := by
  cases t with
  | message i =>
    simp only [topTypes, List.mem_append, List.mem_map, TypeRef.message.injEq, exists_eq_right,
      reduceCtorEq, and_false, exists_false, or_false, info]
    constructor
    · intro hi
      obtain ⟨x, hx, hparent, hfile⟩ := h.mem_file_messages.1 hi
      obtain ⟨fields, he⟩ := h.message_eq hx
      rw [he]
      exact ⟨h.isDeclared_message hx, hparent, hfile⟩
    · rintro ⟨hi, hplace⟩
      obtain ⟨x, fields, hx, he⟩ := h.exists_declaredMessage hi
      rw [he] at hplace
      exact h.mem_file_messages.2 ⟨x, hx, hplace⟩
  | enum i =>
    simp only [topTypes, List.mem_append, List.mem_map, TypeRef.enum.injEq, exists_eq_right,
      reduceCtorEq, and_false, exists_false, false_or, info]
    constructor
    · intro hi
      obtain ⟨x, hx, hparent, hfile⟩ := h.mem_file_enums.1 hi
      rw [h.enum_eq hx]
      exact ⟨h.isDeclared_enum hx, hparent, hfile⟩
    · rintro ⟨hi, hplace⟩
      obtain ⟨x, hx, he⟩ := h.exists_declaredEnum hi
      rw [he] at hplace
      exact h.mem_file_enums.2 ⟨x, hx, hplace⟩
  | scalar | wellKnown | undefined => simp [topTypes, IsDeclared]

/-- A message holds nothing twice. -/
theorem Built.nodup_members (h : Built s options d p) : (p.members (.message j)).Nodup := by
  obtain ⟨hmessages, henums⟩ := h.nodup_at (.inside j)
  rw [members, List.nodup_append]
  refine ⟨hmessages.map fun a b => TypeRef.message.inj, henums.map fun a b => TypeRef.enum.inj, ?_⟩
  simp

/-- A nested type lies in the file of its parent, and has the full name of the parent in front of
its name. -/
theorem Built.info_nested (h : Built s options d p) (ht : p.IsDeclared t)
    (hp : (p.info t).parent = some j) : p.IsDeclared (.message j) ∧
      (p.info t).file = (p.message j).file ∧
      (p.info t).fullName = joinScope (p.message j).fullName (p.info t).name := by
  cases t with
  | message i =>
    obtain ⟨x, fields, hx, he⟩ := h.exists_declaredMessage ht
    simp only [info, he] at hp ⊢
    obtain ⟨-, outer, ho, hfile, hname⟩ := h.declared.message_parent hx hp
    obtain ⟨more, hj⟩ := h.message_eq ho
    rw [hj]
    exact ⟨h.isDeclared_message ho, hfile.symm, hname⟩
  | enum i =>
    obtain ⟨x, hx, he⟩ := h.exists_declaredEnum ht
    simp only [info, he] at hp ⊢
    obtain ⟨outer, ho, hfile, hname⟩ := h.declared.enum_parent (List.mem_of_getElem? hx) hp
    obtain ⟨more, hj⟩ := h.message_eq ho
    rw [hj]
    exact ⟨h.isDeclared_message ho, hfile.symm, hname⟩
  | scalar | wellKnown | undefined => exact ht.elim

/-- Types with the same full name are the same. -/
theorem Built.eq_of_fullName (h : Built s options d p) (ht : p.IsDeclared t) (hu : p.IsDeclared u)
    (hname : (p.info t).fullName = (p.info u).fullName) : t = u := by
  have hall : (p.messages.map (·.fullName) ++ p.enums.map (·.fullName)).Nodup :=
    h.fullNames_eq ▸ h.declared.nodup
  obtain ⟨hmessages, henums, hapart⟩ := List.nodup_append.1 hall
  have hmessage : ∀ {i}, i < p.messages.length →
      (p.messages.map (·.fullName))[i]? = some (p.message i).fullName := by
    intro i hi
    rw [List.getElem?_map, List.getElem?_eq_getElem hi,
      message_of_getElem? (List.getElem?_eq_getElem hi)]
    rfl
  have henum : ∀ {i}, i < p.enums.length →
      (p.enums.map (·.fullName))[i]? = some (p.enum i).fullName := by
    intro i hi
    rw [List.getElem?_map, List.getElem?_eq_getElem hi,
      enum_of_getElem? (List.getElem?_eq_getElem hi)]
    rfl
  cases t with
  | message i =>
    cases u with
    | message i' =>
      have hi := (hmessage ht).trans ((congrArg some hname).trans (hmessage hu).symm)
      exact congrArg _ ((List.getElem?_inj (by rwa [List.length_map]) hmessages).1 hi)
    | enum i' =>
      exact absurd hname (hapart _ (List.mem_of_getElem? (hmessage ht)) _
        (List.mem_of_getElem? (henum hu)))
    | scalar | wellKnown | undefined => exact hu.elim
  | enum i =>
    cases u with
    | message i' =>
      exact absurd hname.symm (hapart _ (List.mem_of_getElem? (hmessage hu)) _
        (List.mem_of_getElem? (henum ht)))
    | enum i' =>
      have hi := (henum ht).trans ((congrArg some hname).trans (henum hu).symm)
      exact congrArg _ ((List.getElem?_inj (by rwa [List.length_map]) henums).1 hi)
    | scalar | wellKnown | undefined => exact hu.elim
  | scalar | wellKnown | undefined => exact ht.elim

/-- A name leads from a message to one of its members at most. -/
theorem Built.filter_members_name (h : Built s options d p) (ht : p.IsDeclared t)
    (hp : (p.info t).parent = some j) :
    (p.members (.message j)).filter (fun u => (p.info u).name == (p.info t).name) = [t] := by
  have hmem : t ∈ p.members (.message j) := h.mem_members.2 ⟨ht, hp⟩
  have hunique : ∀ u ∈ p.members (.message j),
      ((p.info u).name == (p.info t).name) = (u == t) := by
    intro u hu
    obtain ⟨hdeclared, hparent⟩ := h.mem_members.1 hu
    rw [Bool.eq_iff_iff, beq_iff_eq, beq_iff_eq]
    refine ⟨fun hname => h.eq_of_fullName hdeclared ht ?_, fun he => he ▸ rfl⟩
    rw [(h.info_nested hdeclared hparent).2.2, (h.info_nested ht hp).2.2, hname]
  rw [List.filter_congr hunique, List.filter_beq, List.count_eq_one_of_mem h.nodup_members hmem]
  rfl

/-! ## Down a path -/

/-- What holds of the types at the top of files, and of a type when it holds of the message it is
nested in, holds of all types: parents have smaller numbers. -/
theorem Built.declared_induction (h : Built s options d p)
    {motive : (t : TypeRef) → p.IsDeclared t → Prop}
    (top : ∀ t ht, (p.info t).parent = none → motive t ht)
    (nested : ∀ t ht j, (p.info t).parent = some j → ∀ hj, motive (.message j) hj → motive t ht)
    (t : TypeRef) (ht : p.IsDeclared t) : motive t ht := by
  have hstep : ∀ t ht, (∀ j hj, (p.info t).parent = some j → motive (.message j) hj) →
      motive t ht := by
    intro t ht hparent
    cases hp : (p.info t).parent with
    | none => exact top t ht hp
    | some j =>
      have hj := (h.info_nested ht hp).1
      exact nested t ht j hp hj (hparent j hj hp)
  have hmessage : ∀ i hi, motive (.message i) hi := by
    intro i
    induction i using Nat.strongRecOn with
    | _ i ih => exact fun hi => hstep _ hi fun j hj hp => ih j (h.parent_lt i j hp) hj
  exact hstep t ht fun j hj _ => hmessage j hj

/-- The chain of a message of the program. -/
theorem Built.chain_message (h : Built s options d p) (hj : p.IsDeclared (.message j)) :
    p.chain (some j) = j :: p.chain (p.info (.message j)).parent :=
  chain_some h.parent_lt hj

theorem topOf_of_top (hp : (p.info t).parent = none) : p.topOf t = t := by
  simp [topOf, hp]

/-- A nested type has the top of its parent. -/
theorem Built.topOf_nested (h : Built s options d p) (hj : p.IsDeclared (.message j))
    (hp : (p.info t).parent = some j) : p.topOf t = p.topOf (.message j) := by
  rw [topOf, hp, h.chain_message hj, topOf, List.getLast?_cons]
  cases (p.chain (p.info (.message j)).parent).getLast? with
  | none => rfl
  | some i => rfl

theorem segments_of_top (hp : (p.info t).parent = none) : p.segments t = [(p.info t).name] := by
  simp [segments, hp]

/-- The way to a nested type goes through its parent. -/
theorem Built.segments_nested (h : Built s options d p) (hj : p.IsDeclared (.message j))
    (hp : (p.info t).parent = some j) :
    p.segments t = p.segments (.message j) ++ [(p.info t).name] := by
  rw [segments, hp, h.chain_message hj, List.reverse_cons, List.map_append]
  rfl

/-- The path of a type is made of the names on the way to it. -/
theorem Built.path_eq (h : Built s options d p) (ht : p.IsDeclared t) :
    (p.info t).path = join "." (p.segments t) := by
  have hmessage : ∀ {i}, p.IsDeclared (.message i) →
      p.messagePath i = join "." (p.segments (.message i)) := by
    intro i hi
    rw [messagePath, h.chain_message hi, pathOf, List.reverse_cons, List.map_append]
    rfl
  cases t with
  | message i => exact hmessage ht
  | enum i =>
    cases hp : (p.info (.enum i)).parent with
    | none =>
      rw [segments_of_top hp, join, String.intercalate_singleton]
      replace hp : (p.enum i).parent = none := hp
      simp only [info, enumPath, hp]
    | some j =>
      have hj := (h.info_nested ht hp).1
      rw [h.segments_nested hj hp, join,
        String.intercalate_append_of_ne_nil (by simp [segments]) (by simp),
        String.intercalate_singleton]
      replace hp : (p.enum i).parent = some j := hp
      simp only [info, enumPath, hp, hmessage hj]
      rfl
  | scalar | wellKnown | undefined => exact ht.elim

/-- The type at the top stands at the top of the file. -/
theorem Built.topOf_mem (h : Built s options d p) (ht : p.IsDeclared t) :
    p.topOf t ∈ p.topTypes (p.info t).file := by
  induction t, ht using h.declared_induction with
  | top t ht hp =>
    rw [topOf_of_top hp]
    exact h.mem_topTypes.2 ⟨ht, hp, rfl⟩
  | nested t ht j hp hj ih =>
    rw [h.topOf_nested hj hp, (h.info_nested ht hp).2.1]
    exact ih

/-- The names of a path lead from the type at its top to the type of the path alone. -/
theorem Built.exists_walk (h : Built s options d p) (ht : p.IsDeclared t) : ∃ rest,
    p.segments t = (p.info (p.topOf t)).name :: rest ∧ p.walk (p.topOf t) rest = [t] := by
  induction t, ht using h.declared_induction with
  | top t ht hp =>
    rw [segments_of_top hp, topOf_of_top hp]
    exact ⟨[], rfl, rfl⟩
  | nested t ht j hp hj ih =>
    obtain ⟨rest, hsegments, hwalk⟩ := ih
    refine ⟨rest ++ [(p.info t).name], ?_, ?_⟩
    · rw [h.segments_nested hj hp, hsegments, h.topOf_nested hj hp, List.cons_append]
    · rw [h.topOf_nested hj hp, walk_append, hwalk, List.flatMap_singleton, walk,
        h.filter_members_name ht hp]
      rfl

/-- The names on the way to a type are declared names. -/
theorem Built.mem_segments (h : Built s options d p) (ht : p.IsDeclared t) :
    ∀ name ∈ p.segments t, name ∈ s.declaredNames := by
  have hname : ∀ {t}, p.IsDeclared t → (p.info t).name ∈ s.declaredNames := by
    intro t ht
    cases t with
    | message i =>
      obtain ⟨x, fields, hx, he⟩ := h.exists_declaredMessage ht
      rw [info, he]
      exact h.declared.message_mem_names (List.mem_of_getElem? hx)
    | enum i =>
      obtain ⟨x, hx, he⟩ := h.exists_declaredEnum ht
      rw [info, he]
      exact h.declared.enum_mem_names (List.mem_of_getElem? hx)
    | scalar | wellKnown | undefined => exact ht.elim
  induction t, ht using h.declared_induction with
  | top t ht hp =>
    rw [segments_of_top hp]
    simpa using hname ht
  | nested t ht j hp hj ih =>
    rw [h.segments_nested hj hp, List.forall_mem_append]
    exact ⟨ih, by simpa using hname ht⟩

end

end ProtoStub.Program

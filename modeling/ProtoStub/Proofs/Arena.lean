import ProtoStub.Proofs.Membership
import ProtoStub.Proofs.Resolution
import Mathlib

/-!
# Programs are well-formed arenas

A program keeps its messages and enums in two flat lists and expresses nesting by numbers.
`Program.WellFormed` says that these numbers make sense: parents come before their children and
lie in the same file, every message and enum is listed at exactly one place, full names are paths
below the package and are distinct, and the type of every field and procedure is in range. Every
program that is built is well-formed, and its messages are the messages of the outline one by one,
each with the fields of its own declaration (`build_wellFormed`).

A sample is built by `cbv`, which rewrites with the equations of functions on texts from all over
the library; hence the import of all of it.
-/

namespace ProtoStub.Program

open Schema (FileSet)

/-! ## Positions -/

/-- Items that lie in one of `nf` files, at its top or in one of `nm` messages, are each listed once
over the tops of the files and the messages. -/
theorem positions_once {α : Type} {xs : List α} {file : α → Nat} {parent : α → Option Nat}
    {nf nm : Nat} (hfile : ∀ x ∈ xs, file x < nf)
    (hparent : ∀ x ∈ xs, ∀ j, parent x = some j → j < nm) :
    ((List.range nf).flatMap (fun k => positions (fun x => file x == k && parent x == none) xs) ++
        (List.range nm).flatMap (fun j => positions (fun x => parent x == some j) xs)).Perm
      (List.range xs.length) := by
  refine (List.perm_ext_iff_of_nodup ?_ List.nodup_range).2 fun i => ?_
  · rw [List.nodup_append, List.nodup_flatMap, List.nodup_flatMap]
    refine ⟨⟨fun _ _ => nodup_positions _ _, ?_⟩, ⟨fun _ _ => nodup_positions _ _, ?_⟩, ?_⟩
    · refine List.nodup_range.imp fun {k k'} hne i hi hi' => hne ?_
      obtain ⟨x, hx, ht⟩ := mem_positions.1 hi
      obtain ⟨x', hx', ht'⟩ := mem_positions.1 hi'
      cases hx.symm.trans hx'
      simp only [Bool.and_eq_true, beq_iff_eq] at ht ht'
      exact ht.1.symm.trans ht'.1
    · refine List.nodup_range.imp fun {j j'} hne i hi hi' => hne ?_
      obtain ⟨x, hx, ht⟩ := mem_positions.1 hi
      obtain ⟨x', hx', ht'⟩ := mem_positions.1 hi'
      cases hx.symm.trans hx'
      rw [beq_iff_eq] at ht ht'
      exact Option.some.inj (ht.symm.trans ht')
    · rintro i hi i' hi' rfl
      obtain ⟨k, -, hk⟩ := List.mem_flatMap.1 hi
      obtain ⟨j, -, hj⟩ := List.mem_flatMap.1 hi'
      obtain ⟨x, hx, ht⟩ := mem_positions.1 hk
      obtain ⟨x', hx', ht'⟩ := mem_positions.1 hj
      cases hx.symm.trans hx'
      simp only [Bool.and_eq_true, beq_iff_eq] at ht ht'
      cases ht.2.symm.trans ht'
  · rw [List.mem_append, List.mem_flatMap, List.mem_flatMap, List.mem_range]
    constructor
    · rintro (⟨_, -, hi⟩ | ⟨_, -, hi⟩)
      all_goals
        obtain ⟨x, hx, -⟩ := mem_positions.1 hi
        exact (List.getElem?_eq_some_iff.1 hx).1
    · intro hi
      have hx : xs[i]? = some xs[i] := List.getElem?_eq_getElem hi
      have hmem : xs[i] ∈ xs := List.getElem_mem hi
      cases hp : parent xs[i] with
      | none =>
        exact .inl ⟨file xs[i], List.mem_range.2 (hfile _ hmem),
          mem_positions.2 ⟨_, hx, by simp [hp]⟩⟩
      | some j =>
        exact .inr ⟨j, List.mem_range.2 (hparent _ hmem j hp),
          mem_positions.2 ⟨_, hx, by simp [hp]⟩⟩

/-! ## Chains and paths -/

section
variable {p : Program}

/-- The message at a number of the list. -/
theorem message_of_getElem? {i : Nat} {m : Message} (h : p.messages[i]? = some m) :
    p.message i = m := by
  rw [Program.message, List.getD_eq_getElem?_getD, h]
  rfl

/-- The enum at a number of the list. -/
theorem enum_of_getElem? {i : Nat} {e : Enum} (h : p.enums[i]? = some e) : p.enum i = e := by
  rw [Program.enum, List.getD_eq_getElem?_getD, h]
  rfl

/-- The file at a number of the list. -/
theorem file_of_getElem? {k : Nat} {f : File} (h : p.files[k]? = some f) : p.file k = f := by
  rw [Program.file, List.getD_eq_getElem?_getD, h]
  rfl

/-- There is an empty message beyond the end of the list. -/
theorem message_of_getElem?_none {i : Nat} (h : p.messages[i]? = none) :
    p.message i = { name := "" } := by
  rw [Program.message, List.getD_eq_getElem?_getD, h]
  rfl

/-- There is an empty file beyond the end of the list. -/
theorem file_of_getElem?_none {k : Nat} (h : p.files[k]? = none) :
    p.file k = { path := "" } := by
  rw [Program.file, List.getD_eq_getElem?_getD, h]
  rfl

/-- The chain of a message does not depend on the number of steps, once there are enough. -/
theorem chainWithin_eq (hp : ∀ i j, (p.message i).parent = some j → j < i) {i : Nat} :
    ∀ {n n' : Nat}, i < n → i < n' →
      p.chainWithin n (some i) = p.chainWithin n' (some i) := by
  induction i using Nat.strongRecOn with
  | _ i ih =>
    intro n n' hn hn'
    obtain ⟨n, rfl⟩ : ∃ k, n = k + 1 := ⟨n - 1, by omega⟩
    obtain ⟨n', rfl⟩ : ∃ k, n' = k + 1 := ⟨n' - 1, by omega⟩
    rw [chainWithin, chainWithin]
    cases h : (p.message i).parent with
    | none => cases n <;> cases n' <;> rfl
    | some j =>
      have hj := hp i j h
      rw [ih j hj (by omega : j < n) (by omega : j < n')]

/-- The chain of a message goes on with the chain of its parent. -/
theorem chain_some (hp : ∀ i j, (p.message i).parent = some j → j < i) {i : Nat}
    (hi : i < p.messages.length) : p.chain (some i) = i :: p.chain (p.message i).parent := by
  rw [chain, chain]
  obtain ⟨n, hn⟩ : ∃ n, p.messages.length = n + 1 := ⟨p.messages.length - 1, by omega⟩
  rw [hn, chainWithin]
  cases h : (p.message i).parent with
  | none => cases n <;> rfl
  | some j =>
    have hj := hp i j h
    rw [chainWithin_eq hp (by omega : j < n) (by omega : j < n + 1)]

@[simp] theorem chain_none : p.chain none = [] := by
  rw [chain]
  cases p.messages.length <;> rfl

/-- The path of a message at the top of its file is its name. -/
theorem messagePath_of_top (hp : ∀ i j, (p.message i).parent = some j → j < i) {i : Nat}
    (hi : i < p.messages.length) (h : (p.message i).parent = none) :
    p.messagePath i = (p.message i).name := by
  rw [messagePath, chain_some hp hi, h, chain_none]
  simp [pathOf]

/-- The path of a nested message is its name below the path of its parent. -/
theorem messagePath_of_nested (hp : ∀ i j, (p.message i).parent = some j → j < i) {i j : Nat}
    (hi : i < p.messages.length) (h : (p.message i).parent = some j) :
    p.messagePath i = p.messagePath j ++ "." ++ (p.message i).name := by
  have hj : j < p.messages.length := Nat.lt_trans (hp i j h) hi
  have hne : (p.chain (some j)).reverse.map (fun i => (p.message i).name) ≠ [] := by
    rw [chain_some hp hj]
    simp
  rw [messagePath, chain_some hp hi, h, messagePath, pathOf, pathOf, List.reverse_cons,
    List.map_append, String.intercalate_append_of_ne_nil hne (by simp)]
  simp

end

/-! ## Scopes -/

/-- A name that is not empty stays so in a scope. -/
theorem joinScope_ne_empty {scope name : String} (h : name ≠ "") : joinScope scope name ≠ "" := by
  rw [joinScope]
  split
  · exact h
  · intro he
    have := congrArg String.toList he
    simp at this

/-- A name in a scope in a scope has both scopes in front. -/
theorem joinScope_joinScope {outer scope name : String} (h : joinScope outer scope ≠ "") :
    joinScope (joinScope outer scope) name = joinScope outer (scope ++ "." ++ name) := by
  have hj : joinScope (joinScope outer scope) name = joinScope outer scope ++ "." ++ name := by
    rw [joinScope, if_neg (by simpa using h)]
  rw [hj, joinScope, joinScope]
  split
  · rfl
  · simp only [String.append_assoc]

/-! ## Well-formed programs -/

/-- The number of a message or enum type lies in its list. -/
def InRange (p : Program) : TypeRef → Prop
  | .message i => i < p.messages.length
  | .enum i => i < p.enums.length
  | _ => True

/-- The numbers of a program make sense. -/
structure WellFormed (p : Program) : Prop where
  /-- The file of a message exists. -/
  message_file : ∀ {i : Nat} {m : Message}, p.messages[i]? = some m → m.file < p.files.length
  /-- The parent of a message comes before it, in the same file. -/
  message_parent : ∀ {i : Nat} {m : Message} {j : Nat}, p.messages[i]? = some m →
    m.parent = some j → j < i ∧ (p.message j).file = m.file
  /-- The file of an enum exists. -/
  enum_file : ∀ {i : Nat} {e : Enum}, p.enums[i]? = some e → e.file < p.files.length
  /-- The parent of an enum exists, in the same file. -/
  enum_parent : ∀ {i : Nat} {e : Enum} {j : Nat}, p.enums[i]? = some e → e.parent = some j →
    j < p.messages.length ∧ (p.message j).file = e.file
  /-- Every message is listed once, over all files and messages. -/
  message_once : (p.files.flatMap (·.messages) ++ p.messages.flatMap (·.messages)).Perm
    (List.range p.messages.length)
  /-- Every enum is listed once, over all files and messages. -/
  enum_once : (p.files.flatMap (·.enums) ++ p.messages.flatMap (·.enums)).Perm
    (List.range p.enums.length)
  /-- A message without parent is listed in its file, any other in its parent. -/
  message_listed : ∀ {i : Nat} {m : Message}, p.messages[i]? = some m →
    (∀ k, i ∈ (p.file k).messages ↔ m.parent = none ∧ m.file = k) ∧
      ∀ j, i ∈ (p.message j).messages ↔ m.parent = some j
  /-- An enum without parent is listed in its file, any other in its parent. -/
  enum_listed : ∀ {i : Nat} {e : Enum}, p.enums[i]? = some e →
    (∀ k, i ∈ (p.file k).enums ↔ e.parent = none ∧ e.file = k) ∧
      ∀ j, i ∈ (p.message j).enums ↔ e.parent = some j
  /-- The full name of a message is its path below the package. -/
  message_fullName : ∀ {i : Nat} {m : Message}, p.messages[i]? = some m →
    m.fullName = joinScope (p.file m.file).package (p.messagePath i)
  /-- The full name of an enum is its path below the package. -/
  enum_fullName : ∀ {i : Nat} {e : Enum}, p.enums[i]? = some e →
    e.fullName = joinScope (p.file e.file).package (p.enumPath i)
  /-- No full name is used twice. -/
  names_nodup : (p.messages.map (·.fullName) ++ p.enums.map (·.fullName)).Nodup
  /-- The types of fields are in range. -/
  field_types : ∀ m ∈ p.messages, ∀ f ∈ m.fields, p.InRange f.type
  /-- The types of procedures are in range. -/
  method_types : ∀ f ∈ p.files, ∀ svc ∈ f.services, ∀ m ∈ svc.methods,
    p.InRange m.input ∧ p.InRange m.output

/-- What is listed in a place of the program. -/
def membersAt (p : Program) : Place → Members
  | .top k => ⟨(p.file k).messages, (p.file k).enums⟩
  | .inside j => ⟨(p.message j).messages, (p.message j).enums⟩

/-- The message is the message `x` of the outline: it has its file, its name and its fields, one by
one. -/
structure DeclaredFrom (m : Message) (x : Nat × String × Schema.Message) : Prop where
  file : m.file = x.1
  name : m.name = x.2.2.name
  fullName : m.fullName = joinScope x.2.1 x.2.2.name
  fields : List.Forall₂
    (fun f r => f.name = r.name ∧ f.number = r.number ∧ f.repeated = r.repeated)
    m.fields x.2.2.fields

section
variable {s : FileSet} {options : BuildOptions} {d : Declarations} {p : Program}

/-- A message of the program comes from the declared message with its number. -/
theorem Built.getElem?_message (h : Built s options d p) {i : Nat} {m : Message}
    (hm : p.messages[i]? = some m) : ∃ x fields, d.messages[i]? = some x ∧
      m = d.messageOf i x fields ∧
      resolveFields ⟨s, d.symbols⟩ (s.visibleFrom x.file) x.file x.fullName x.raw.name []
        x.raw.fields = .ok fields := by
  have hi : i < d.messages.length := h.messages_length ▸ (List.getElem?_eq_some_iff.1 hm).1
  have hx : d.messages[i]? = some d.messages[i] := List.getElem?_eq_getElem hi
  obtain ⟨fields, hp, hr⟩ := h.message hx
  exact ⟨_, fields, hx, Option.some.inj (hm.symm.trans hp), hr⟩

/-- An enum of the program comes from the declared enum with its number. -/
theorem Built.getElem?_enum (h : Built s options d p) {i : Nat} {e : Enum}
    (he : p.enums[i]? = some e) : ∃ x, d.enums[i]? = some x ∧ e = x.toEnum := by
  rw [h.enums, List.getElem?_map, Option.map_eq_some_iff] at he
  obtain ⟨x, hx, rfl⟩ := he
  exact ⟨x, hx, rfl⟩

/-- A file of the program comes from the file of the set with its number. -/
theorem Built.getElem?_file (h : Built s options d p) {k : Nat} {g : File}
    (hg : p.files[k]? = some g) : ∃ f services, s.files[k]? = some f ∧
      g = d.fileOf s options k f services ∧
      List.Forall₂
        (fun x y => resolveService ⟨s, d.symbols⟩ (s.visibleFrom k) k f.package x = .ok y)
        f.services services := by
  have hk : k < s.files.length := h.files_length ▸ (List.getElem?_eq_some_iff.1 hg).1
  have hf : s.files[k]? = some s.files[k] := List.getElem?_eq_getElem hk
  obtain ⟨services, hp, hr⟩ := h.file hf
  exact ⟨_, services, hf, Option.some.inj (hg.symm.trans hp), hr⟩

/-- The message of the program with the number of a declared message. -/
theorem Built.message_eq (h : Built s options d p) {i : Nat} {x : DeclaredMessage}
    (hx : d.messages[i]? = some x) : ∃ fields, p.message i = d.messageOf i x fields := by
  obtain ⟨fields, hp, -⟩ := h.message hx
  exact ⟨fields, message_of_getElem? hp⟩

/-- The enum of the program with the number of a declared enum. -/
theorem Built.enum_eq (h : Built s options d p) {i : Nat} {x : DeclaredEnum}
    (hx : d.enums[i]? = some x) : p.enum i = x.toEnum :=
  enum_of_getElem? (by rw [h.enums, List.getElem?_map, hx]; rfl)

/-- The file of the program with the number of a file of the set. -/
theorem Built.file_eq (h : Built s options d p) {k : Nat} {f : Schema.File}
    (hf : s.files[k]? = some f) : ∃ services, p.file k = d.fileOf s options k f services := by
  obtain ⟨services, hp, -⟩ := h.file hf
  exact ⟨services, file_of_getElem? hp⟩

/-- A message of the program is one of the declared messages, or empty beyond their end. -/
theorem Built.message_cases (h : Built s options d p) (i : Nat) :
    (∃ x fields, d.messages[i]? = some x ∧ p.message i = d.messageOf i x fields) ∨
      d.messages[i]? = none ∧ p.message i = { name := "" } := by
  cases hx : d.messages[i]? with
  | some x =>
    obtain ⟨fields, he⟩ := h.message_eq hx
    exact .inl ⟨x, fields, rfl, he⟩
  | none =>
    have hlen := h.messages_length ▸ List.getElem?_eq_none_iff.1 hx
    exact .inr ⟨rfl, message_of_getElem?_none (List.getElem?_eq_none hlen)⟩

/-- A file of the program is one of the files of the set, or empty beyond their end. -/
theorem Built.file_cases (h : Built s options d p) (k : Nat) :
    (∃ f services, s.files[k]? = some f ∧ p.file k = d.fileOf s options k f services) ∨
      s.files[k]? = none ∧ p.file k = { path := "" } := by
  cases hf : s.files[k]? with
  | some f =>
    obtain ⟨services, he⟩ := h.file_eq hf
    exact .inl ⟨f, services, rfl, he⟩
  | none =>
    have hlen := h.files_length ▸ List.getElem?_eq_none_iff.1 hf
    exact .inr ⟨rfl, file_of_getElem?_none (List.getElem?_eq_none hlen)⟩

/-- The parent of a message comes before it; there is nothing beyond the end of the list. -/
theorem Built.parent_lt (h : Built s options d p) (i j : Nat)
    (hp : (p.message i).parent = some j) : j < i := by
  rcases h.message_cases i with ⟨x, fields, hx, he⟩ | ⟨-, he⟩
  · rw [he] at hp
    exact (h.declared.message_parent hx hp).1
  · rw [he] at hp
    cases hp

/-- The positions listed in the messages of a program, number by number. -/
theorem Built.flatMap_messages (h : Built s options d p) {α : Type} {g : Message → List α}
    {g' : Nat → List α} (hg : ∀ i x fields, g (d.messageOf i x fields) = g' i) :
    p.messages.flatMap g = (List.range d.messages.length).flatMap g' := by
  rw [List.flatMap_def, List.flatMap_def]
  congr 1
  refine List.ext_getElem? fun i => ?_
  rw [List.getElem?_map, List.getElem?_map]
  cases hm : p.messages[i]? with
  | none =>
    have hlen := h.messages_length ▸ List.getElem?_eq_none_iff.1 hm
    rw [List.getElem?_eq_none (by simpa using hlen)]
    rfl
  | some m =>
    obtain ⟨x, fields, hx, rfl, -⟩ := h.getElem?_message hm
    rw [List.getElem?_range (List.getElem?_eq_some_iff.1 hx).1, Option.map_some, Option.map_some,
      hg]

/-- The positions listed in the files of a program, number by number. -/
theorem Built.flatMap_files (h : Built s options d p) {α : Type} {g : File → List α}
    {g' : Nat → List α} (hg : ∀ k f services, g (d.fileOf s options k f services) = g' k) :
    p.files.flatMap g = (List.range s.files.length).flatMap g' := by
  rw [List.flatMap_def, List.flatMap_def]
  congr 1
  refine List.ext_getElem? fun k => ?_
  rw [List.getElem?_map, List.getElem?_map]
  cases hg' : p.files[k]? with
  | none =>
    have hlen := h.files_length ▸ List.getElem?_eq_none_iff.1 hg'
    rw [List.getElem?_eq_none (by simpa using hlen)]
    rfl
  | some f =>
    obtain ⟨f, services, hf, rfl, -⟩ := h.getElem?_file hg'
    rw [List.getElem?_range (List.getElem?_eq_some_iff.1 hf).1, Option.map_some, Option.map_some,
      hg]

/-- The file of a declaration is a file of the program. -/
theorem Built.file_lt (h : Built s options d p) {k : Nat} {f : Schema.File}
    (hf : s.files[k]? = some f) : k < p.files.length :=
  h.files_length ▸ (List.getElem?_eq_some_iff.1 hf).1

/-- Every message is listed once. -/
theorem Built.message_once (h : Built s options d p) :
    (p.files.flatMap (·.messages) ++ p.messages.flatMap (·.messages)).Perm
      (List.range p.messages.length) := by
  rw [h.flatMap_files fun _ _ _ => rfl, h.flatMap_messages fun _ _ _ => rfl, h.messages_length]
  simp only [h.declared.membersAt_top, h.declared.membersAt_inside]
  refine positions_once (fun m hm => ?_) fun m hm j hj => ?_
  · obtain ⟨f, hf, -⟩ := h.declared.mem_allMessages hm
    exact (List.getElem?_eq_some_iff.1 hf).1
  · obtain ⟨i, hi⟩ := List.getElem?_of_mem hm
    exact Nat.lt_trans (h.declared.message_parent hi hj).1 (List.getElem?_eq_some_iff.1 hi).1

/-- Every enum is listed once. -/
theorem Built.enum_once (h : Built s options d p) :
    (p.files.flatMap (·.enums) ++ p.messages.flatMap (·.enums)).Perm
      (List.range p.enums.length) := by
  rw [h.flatMap_files fun _ _ _ => rfl, h.flatMap_messages fun _ _ _ => rfl, h.enums,
    List.length_map]
  simp only [h.declared.membersAt_top, h.declared.membersAt_inside]
  refine positions_once (fun e he => ?_) fun e he j hj => ?_
  · obtain ⟨f, hf, -⟩ := h.declared.mem_allEnums he
    exact (List.getElem?_eq_some_iff.1 hf).1
  · obtain ⟨outer, ho, -⟩ := h.declared.enum_parent he hj
    exact (List.getElem?_eq_some_iff.1 ho).1

/-- What a program lists in a place is what stands there. -/
theorem Built.membersAt_eq (h : Built s options d p) (place : Place) :
    p.membersAt place = d.standingAt place := by
  rw [← h.declared.listed.membersAt_eq]
  cases place with
  | top k =>
    rcases h.file_cases k with ⟨f, services, -, he⟩ | ⟨hf, he⟩
    · rw [membersAt, he]
      rfl
    · have hlen : d.tops.length ≤ k :=
        h.declared.listed.tops_length ▸ List.getElem?_eq_none_iff.1 hf
      rw [membersAt, he, Declarations.membersAt, List.getD_eq_default _ _ hlen]
  | inside j =>
    rcases h.message_cases j with ⟨x, fields, -, he⟩ | ⟨hx, he⟩
    · rw [membersAt, he]
      rfl
    · have hlen : d.nested.length ≤ j :=
        h.declared.listed.aligned ▸ List.getElem?_eq_none_iff.1 hx
      rw [membersAt, he, Declarations.membersAt, List.getD_eq_default _ _ hlen]

/-- The messages that are listed in a place. -/
theorem Built.mem_messages_at (h : Built s options d p) (place : Place) {i : Nat} :
    i ∈ (p.membersAt place).messages ↔
      ∃ x, d.messages[i]? = some x ∧ Place.of x.file x.parent = place := by
  rw [h.membersAt_eq, Declarations.standingAt, mem_positions]
  simp only [beq_iff_eq]

/-- The enums that are listed in a place. -/
theorem Built.mem_enums_at (h : Built s options d p) (place : Place) {i : Nat} :
    i ∈ (p.membersAt place).enums ↔
      ∃ x, d.enums[i]? = some x ∧ Place.of x.file x.parent = place := by
  rw [h.membersAt_eq, Declarations.standingAt, mem_positions]
  simp only [beq_iff_eq]

/-- Nothing is listed twice in a place. -/
theorem Built.nodup_at (h : Built s options d p) (place : Place) :
    (p.membersAt place).messages.Nodup ∧ (p.membersAt place).enums.Nodup := by
  simp only [h.membersAt_eq, Declarations.standingAt]
  exact ⟨nodup_positions _ _, nodup_positions _ _⟩

theorem Built.mem_file_messages (h : Built s options d p) {i k : Nat} :
    i ∈ (p.file k).messages ↔ ∃ x, d.messages[i]? = some x ∧ x.parent = none ∧ x.file = k := by
  simpa only [membersAt, Place.of_eq_top] using h.mem_messages_at (.top k)

theorem Built.mem_file_enums (h : Built s options d p) {i k : Nat} :
    i ∈ (p.file k).enums ↔ ∃ x, d.enums[i]? = some x ∧ x.parent = none ∧ x.file = k := by
  simpa only [membersAt, Place.of_eq_top] using h.mem_enums_at (.top k)

theorem Built.mem_message_messages (h : Built s options d p) {i j : Nat} :
    i ∈ (p.message j).messages ↔ ∃ x, d.messages[i]? = some x ∧ x.parent = some j := by
  simpa only [membersAt, Place.of_eq_inside] using h.mem_messages_at (.inside j)

theorem Built.mem_message_enums (h : Built s options d p) {i j : Nat} :
    i ∈ (p.message j).enums ↔ ∃ x, d.enums[i]? = some x ∧ x.parent = some j := by
  simpa only [membersAt, Place.of_eq_inside] using h.mem_enums_at (.inside j)

/-- No full name of a message is empty, when no declared name is. -/
theorem Declared.fullName_ne_empty (h : Declared s d)
    (hnames : ∀ name ∈ s.declaredNames, name ≠ "") {m : DeclaredMessage} (hm : m ∈ d.messages) :
    m.fullName ≠ "" := by
  obtain ⟨f, -, scope, -, hname⟩ := h.mem_allMessages hm
  rw [hname]
  exact joinScope_ne_empty (hnames _ (h.message_mem_names hm))

/-- The full name of a declared message is its path below the package, as long as no message has an
empty full name. -/
theorem Built.message_fullName_of_ne (h : Built s options d p)
    (hne : ∀ m ∈ d.messages, m.fullName ≠ "") {i : Nat} :
    ∀ {x : DeclaredMessage}, d.messages[i]? = some x →
      x.fullName = joinScope (p.file x.file).package (p.messagePath i) := by
  induction i using Nat.strongRecOn with
  | _ i ih =>
    intro x hx
    obtain ⟨fields, hm⟩ := h.message_eq hx
    have hi : i < p.messages.length := h.messages_length ▸ (List.getElem?_eq_some_iff.1 hx).1
    have hparent : (p.message i).parent = x.parent := by rw [hm]; rfl
    have hname : (p.message i).name = x.raw.name := by rw [hm]; rfl
    cases hp : x.parent with
    | none =>
      obtain ⟨f, hf, hfull⟩ := h.declared.message_top hx hp
      obtain ⟨services, hpf⟩ := h.file_eq hf
      rw [messagePath_of_top h.parent_lt hi (hparent.trans hp), hname, hpf]
      exact hfull
    | some j =>
      obtain ⟨hj, outer, ho, hfile, hfull⟩ := h.declared.message_parent hx hp
      have hio := ih j hj ho
      have hne := hne outer (List.mem_of_getElem? ho)
      rw [messagePath_of_nested h.parent_lt hi (hparent.trans hp), hname, hfull, ← hfile, hio,
        joinScope_joinScope (hio ▸ hne)]

/-- The full name of a declared enum is its path below the package, as long as no message has an
empty full name. -/
theorem Built.enum_fullName_of_ne (h : Built s options d p)
    (hne : ∀ m ∈ d.messages, m.fullName ≠ "") {i : Nat} {x : DeclaredEnum}
    (hx : d.enums[i]? = some x) :
    x.fullName = joinScope (p.file x.file).package (p.enumPath i) := by
  have he := h.enum_eq hx
  have hmem := List.mem_of_getElem? hx
  cases hp : x.parent with
  | none =>
    obtain ⟨f, hf, hfull⟩ := h.declared.enum_top hmem hp
    obtain ⟨services, hpf⟩ := h.file_eq hf
    rw [enumPath, he, hpf]
    simp only [DeclaredEnum.toEnum, hp]
    exact hfull
  | some j =>
    obtain ⟨outer, ho, hfile, hfull⟩ := h.declared.enum_parent hmem hp
    have hio := h.message_fullName_of_ne hne ho
    have hne := hne outer (List.mem_of_getElem? ho)
    rw [enumPath, he]
    simp only [DeclaredEnum.toEnum, hp]
    rw [hfull, ← hfile, hio, joinScope_joinScope (hio ▸ hne)]

/-- The full name of a declared message is its path below the package, as long as no name is
empty. -/
theorem Built.message_fullName (h : Built s options d p)
    (hnames : ∀ name ∈ s.declaredNames, name ≠ "") {i : Nat} {x : DeclaredMessage}
    (hx : d.messages[i]? = some x) :
    x.fullName = joinScope (p.file x.file).package (p.messagePath i) :=
  h.message_fullName_of_ne (fun _ hm => h.declared.fullName_ne_empty hnames hm) hx

/-- The full name of a declared enum is its path below the package, as long as no name is empty. -/
theorem Built.enum_fullName (h : Built s options d p)
    (hnames : ∀ name ∈ s.declaredNames, name ≠ "") {i : Nat} {x : DeclaredEnum}
    (hx : d.enums[i]? = some x) :
    x.fullName = joinScope (p.file x.file).package (p.enumPath i) :=
  h.enum_fullName_of_ne (fun _ hm => h.declared.fullName_ne_empty hnames hm) hx

/-- A resolved type is in range. -/
theorem Built.inRange_of_resolve (h : Built s options d p) {visible : List Nat} {file : Nat}
    {scope ref : String} {t : TypeRef}
    (hr : Names.resolve ⟨s, d.symbols⟩ visible file scope ref = .ok t) : p.InRange t := by
  rw [h.declared.indexed.resolve_eq_ok_iff] at hr
  cases hs : Scalar.ofWord? ref with
  | some w =>
    simp only [hs] at hr
    subst hr
    trivial
  | none =>
    simp only [hs] at hr
    obtain ⟨_, name, _, -, ht, -⟩ := hr
    cases ht with
    | wellKnown => trivial
    | message _ hm =>
      show _ < p.messages.length
      rw [h.messages_length]
      exact (List.getElem?_eq_some_iff.1 hm).1
    | enum _ he =>
      show _ < p.enums.length
      rw [h.enums, List.length_map]
      exact (List.getElem?_eq_some_iff.1 he).1

/-- The type of a field is in range. -/
theorem Built.field_inRange (h : Built s options d p) {m : Message} (hm : m ∈ p.messages)
    {f : Field} (hf : f ∈ m.fields) : p.InRange f.type := by
  obtain ⟨i, hi⟩ := List.getElem?_of_mem hm
  obtain ⟨x, fields, hx, rfl, hr⟩ := h.getElem?_message hi
  obtain ⟨-, -, -, new, hnew, rfl⟩ := resolveFields_eq_ok_iff.1 hr
  obtain ⟨k, hk⟩ := List.getElem?_of_mem hf
  obtain ⟨raw, -, hres⟩ := forall₂_getElem? hnew.flip hk
  exact h.inRange_of_resolve hres.1

/-- The types of a procedure are in range. -/
theorem Built.method_inRange (h : Built s options d p) {f : File} (hf : f ∈ p.files) {svc : Service}
    (hsvc : svc ∈ f.services) {m : Method} (hm : m ∈ svc.methods) :
    p.InRange m.input ∧ p.InRange m.output := by
  obtain ⟨k, hk⟩ := List.getElem?_of_mem hf
  obtain ⟨f, services, hsf, rfl, hr⟩ := h.getElem?_file hk
  obtain ⟨a, ha⟩ := List.getElem?_of_mem hsvc
  obtain ⟨raw, -, hres⟩ := forall₂_getElem? hr.flip ha
  obtain ⟨b, hb⟩ := List.getElem?_of_mem hm
  obtain ⟨rm, -, hrm⟩ := forall₂_getElem? (resolveService_eq_ok_iff.1 hres).1.flip hb
  obtain ⟨hin, hout, -⟩ := resolveMethod_eq_ok_iff.1 hrm
  exact ⟨h.inRange_of_resolve hin, h.inRange_of_resolve hout⟩

/-- The full names of a program are those that were declared. -/
theorem Built.fullNames_eq (h : Built s options d p) :
    p.messages.map (·.fullName) ++ p.enums.map (·.fullName) = d.names := by
  have hm : p.messages.map (·.fullName) = d.messages.map (·.fullName) := by
    refine List.ext_getElem? fun i => ?_
    rw [List.getElem?_map, List.getElem?_map]
    cases hx : d.messages[i]? with
    | none =>
      rw [List.getElem?_eq_none (h.messages_length ▸ List.getElem?_eq_none_iff.1 hx)]
      rfl
    | some x =>
      obtain ⟨fields, hpm, -⟩ := h.message hx
      rw [hpm]
      rfl
  rw [hm, h.enums, List.map_map]
  rfl

/-- The messages of a program are those of the outline, each with its own fields. -/
theorem Built.declaredFrom (h : Built s options d p) :
    List.Forall₂ DeclaredFrom p.messages s.allMessages := by
  have hmap := messagesOf_stepsOf_map s
  rw [← h.declared.messages] at hmap
  have hlen : p.messages.length = s.allMessages.length := by
    have := congrArg List.length hmap
    rw [List.length_map, List.length_map] at this
    exact h.messages_length.trans this
  refine List.forall₂_iff_get.2 ⟨hlen, fun i hi hi' => ?_⟩
  have hm : p.messages[i]? = some (p.messages.get ⟨i, hi⟩) := List.getElem?_eq_getElem hi
  obtain ⟨x, fields, hx, hme, hr⟩ := h.getElem?_message hm
  have hout : s.allMessages[i]? = some (s.allMessages.get ⟨i, hi'⟩) := List.getElem?_eq_getElem hi'
  have hat := congrArg (·[i]?) hmap
  simp only [List.getElem?_map, hx, hout, Option.map_some, Option.some.injEq, Prod.mk.injEq] at hat
  obtain ⟨hfile, hname, hraw⟩ := hat
  obtain ⟨-, -, -, new, hnew, rfl⟩ := resolveFields_eq_ok_iff.1 hr
  rw [hme]
  refine ⟨hfile, by rw [← hraw]; rfl, hname, ?_⟩
  rw [← hraw]
  refine hnew.flip.imp fun f r hf => ?_
  rw [hf.2]
  exact ⟨rfl, rfl, rfl⟩

end

/-- Every program that is built from files whose declared names are not empty is well-formed, and
its messages are the messages of the files in order, each with the fields of its own declaration. -/
theorem build_wellFormed {s : FileSet} {options : BuildOptions} {p : Program}
    (hnames : ∀ name ∈ s.declaredNames, name ≠ "") (h : build s options = .ok p) :
    p.WellFormed ∧ List.Forall₂ DeclaredFrom p.messages s.allMessages := by
  obtain ⟨d, hb⟩ := exists_built h
  have hd := hb.declared
  refine ⟨?_, hb.declaredFrom⟩
  constructor
  case message_file =>
    intro i m hm
    obtain ⟨x, fields, hx, rfl, -⟩ := hb.getElem?_message hm
    obtain ⟨f, hf, -⟩ := hd.mem_allMessages (List.mem_of_getElem? hx)
    exact hb.file_lt hf
  case message_parent =>
    intro i m j hm hp
    obtain ⟨x, fields, hx, rfl, -⟩ := hb.getElem?_message hm
    obtain ⟨hj, outer, ho, hfile, -⟩ := hd.message_parent hx hp
    obtain ⟨fields, he⟩ := hb.message_eq ho
    exact ⟨hj, by rw [he]; exact hfile⟩
  case enum_file =>
    intro i e he
    obtain ⟨x, hx, rfl⟩ := hb.getElem?_enum he
    obtain ⟨f, hf, -⟩ := hd.mem_allEnums (List.mem_of_getElem? hx)
    exact hb.file_lt hf
  case enum_parent =>
    intro i e j he hp
    obtain ⟨x, hx, rfl⟩ := hb.getElem?_enum he
    obtain ⟨outer, ho, hfile, -⟩ := hd.enum_parent (List.mem_of_getElem? hx) hp
    obtain ⟨fields, hm⟩ := hb.message_eq ho
    exact ⟨hb.messages_length ▸ (List.getElem?_eq_some_iff.1 ho).1, by rw [hm]; exact hfile⟩
  case message_once => exact hb.message_once
  case enum_once => exact hb.enum_once
  case message_listed =>
    intro i m hm
    obtain ⟨x, fields, hx, rfl, -⟩ := hb.getElem?_message hm
    refine ⟨fun k => hb.mem_file_messages.trans ?_, fun j => hb.mem_message_messages.trans ?_⟩
    · simp [hx, Declarations.messageOf]
    · simp [hx, Declarations.messageOf]
  case enum_listed =>
    intro i e he
    obtain ⟨x, hx, rfl⟩ := hb.getElem?_enum he
    refine ⟨fun k => hb.mem_file_enums.trans ?_, fun j => hb.mem_message_enums.trans ?_⟩
    · simp [hx, DeclaredEnum.toEnum]
    · simp [hx, DeclaredEnum.toEnum]
  case message_fullName =>
    intro i m hm
    obtain ⟨x, fields, hx, rfl, -⟩ := hb.getElem?_message hm
    exact hb.message_fullName hnames hx
  case enum_fullName =>
    intro i e he
    obtain ⟨x, hx, rfl⟩ := hb.getElem?_enum he
    exact hb.enum_fullName hnames hx
  case names_nodup => exact hb.fullNames_eq ▸ hd.nodup
  case field_types => exact fun m hm f hf => hb.field_inRange hm hf
  case method_types => exact fun f hf svc hsvc m hm => hb.method_inRange hf hsvc hm

/-- Two files, one of which imports the other and has messages and enums at several depths. -/
def nestedSample : FileSet where
  files := [
    { path := "/p/a.proto", name := "a.proto", package := "x"
      imports := [⟨"b.proto", "/p/b.proto", true⟩]
      messages := [
        { name := "A"
          fields := [{ name := "f", number := 1, type := "B" },
            { name := "g", number := 2, repeated := true, type := "y.C.E" }]
          messages := [{ name := "B", enums := [{ name := "K" }] }] }] },
    { path := "/p/b.proto", name := "b.proto", package := "y"
      messages := [{ name := "C", enums := [{ name := "E" }] }]
      services := [{ name := "S", methods := [{ name := "M", input := "C", output := ".y.C" }] }] }]

/-- The sample is built, and its program is well-formed. -/
theorem nestedSample_wellFormed : ∃ p, build nestedSample {} = .ok p ∧
    (∀ name ∈ nestedSample.declaredNames, name ≠ "") ∧ p.WellFormed ∧
      List.Forall₂ DeclaredFrom p.messages nestedSample.allMessages := by
  have hok : (build nestedSample {}).toOption.isSome = true := by cbv
  have hnames : ∀ name ∈ nestedSample.declaredNames, name ≠ "" := by decide
  cases h : build nestedSample {} with
  | error e => rw [h] at hok; cases hok
  | ok p => exact ⟨p, rfl, hnames, build_wellFormed hnames h⟩

end ProtoStub.Program

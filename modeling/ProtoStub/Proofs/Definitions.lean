import ProtoStub.JsonSchema.Document
import ProtoStub.Proofs.Arena
import ProtoStub.Proofs.Tables

/-!
# The definitions of a document

The document of a file describes the messages and enums that are found by going down from the top of
the file. In a program that was built these are exactly the messages and enums of the file, each met
once: a message lies below its parent, whose number is smaller (`mem_messagesOf`,
`nodup_messagesOf`). A definition stands under the path of its type, and a later definition under
the same key would replace an earlier one. Paths are distinct within a file as soon as no message
has an empty full name, since full names are distinct and are the paths below the package
(`perm_definitions`).
-/

namespace ProtoStub.Program

open Schema (FileSet)

/-! ## Listed messages and enums -/

section
variable {s : FileSet} {options : BuildOptions} {d : Declarations} {p : Program}

/-- The message at a number of the list is one of the list. -/
theorem message_mem {i : Nat} (hi : i < p.messages.length) : p.message i ∈ p.messages := by
  rw [message_of_getElem? (List.getElem?_eq_getElem hi)]
  exact List.getElem_mem hi

end

end ProtoStub.Program

namespace ProtoStub.JsonSchema

open Program (Built Declarations DeclaredMessage DeclaredEnum BuildOptions joinScope)
open Schema (FileSet)
open Relation (ReflTransGen)

/-! ## The messages below -/

section
variable {p : Program}

/-- What goes down from a message to those nested in it holds of all that are found. -/
theorem forall_mem_subtreeWithin {P : Nat → Prop}
    (hstep : ∀ i, P i → ∀ j ∈ (p.message i).messages, P j) {depth : Nat} :
    ∀ {indices : List Nat}, (∀ i ∈ indices, P i) → ∀ i ∈ subtreeWithin p depth indices, P i := by
  induction depth with
  | zero =>
    intro indices _ i hi
    cases hi
  | succ depth ih =>
    intro indices h i hi
    obtain ⟨r, hr, hi⟩ := List.mem_flatMap.1 hi
    rcases List.mem_cons.1 hi with rfl | hi
    · exact h i hr
    · exact ih (hstep r (h r hr)) i hi

/-- Going deeper finds no less. -/
theorem mem_subtreeWithin_of_le {i depth depth' : Nat} (hle : depth ≤ depth') :
    ∀ {indices : List Nat}, i ∈ subtreeWithin p depth indices →
      i ∈ subtreeWithin p depth' indices := by
  induction depth generalizing depth' with
  | zero =>
    intro indices hi
    cases hi
  | succ depth ih =>
    intro indices hi
    obtain ⟨depth', rfl⟩ : ∃ n, depth' = n + 1 := ⟨depth' - 1, by omega⟩
    obtain ⟨r, hr, hi⟩ := List.mem_flatMap.1 hi
    refine List.mem_flatMap.2 ⟨r, hr, List.mem_cons.2 ?_⟩
    exact (List.mem_cons.1 hi).imp_right (ih (by omega))

/-- What is nested in a message is found one level deeper. -/
theorem mem_subtreeWithin_succ {i j depth : Nat} (hi : i ∈ (p.message j).messages) :
    ∀ {indices : List Nat}, j ∈ subtreeWithin p depth indices →
      i ∈ subtreeWithin p (depth + 1) indices := by
  induction depth with
  | zero =>
    intro indices hj
    cases hj
  | succ depth ih =>
    intro indices hj
    obtain ⟨r, hr, hj⟩ := List.mem_flatMap.1 hj
    refine List.mem_flatMap.2 ⟨r, hr, List.mem_cons_of_mem _ ?_⟩
    rcases List.mem_cons.1 hj with rfl | hj
    · exact List.mem_flatMap.2 ⟨i, hi, List.mem_cons_self⟩
    · exact ih hj

/-- The message `b` is the parent of the message `a`. -/
def IsParent (p : Program) (a b : Nat) : Prop := (p.message a).parent = some b

/-- Going up leads to smaller numbers. -/
theorem le_of_isParent (hlt : ∀ a b, IsParent p a b → b < a) {a b : Nat}
    (h : ReflTransGen (IsParent p) a b) : b ≤ a := by
  induction h with
  | refl => exact Nat.le_refl a
  | tail _ hbc ih => exact Nat.le_trans (Nat.le_of_lt (hlt _ _ hbc)) ih

/-- Two messages side by side with a message below both of them are the same. Of two messages
above a third one lies above the other, hence above the common parent. -/
theorem eq_of_isParent (hlt : ∀ a b, IsParent p a b → b < a) {a r r' : Nat}
    (h : ReflTransGen (IsParent p) a r) (h' : ReflTransGen (IsParent p) a r')
    (hside : (p.message r).parent = (p.message r').parent) : r = r' := by
  have hfun : Relator.RightUnique (IsParent p) := fun a b c hb hc =>
    Option.some.inj (hb.symm.trans hc)
  have habove : ∀ {x y}, ReflTransGen (IsParent p) x y →
      (p.message x).parent = (p.message y).parent → x = y := by
    intro x y hxy hxy'
    rcases ReflTransGen.cases_head hxy with he | ⟨z, hxz, hzy⟩
    · exact he
    · have hyz : IsParent p y z := hxy'.symm.trans hxz
      have := hlt y z hyz
      have := le_of_isParent hlt hzy
      omega
  rcases ReflTransGen.total_of_right_unique hfun h h' with hr | hr
  · exact habove hr hside
  · exact (habove hr hside.symm).symm

/-- Below messages side by side no message is met twice. -/
theorem nodup_subtreeWithin (hlt : ∀ a b, IsParent p a b → b < a)
    (hlisted : ∀ a b, a ∈ (p.message b).messages → IsParent p a b)
    (hnodup : ∀ b, (p.message b).messages.Nodup) {depth : Nat} :
    ∀ {indices : List Nat}, indices.Nodup →
      (∀ a ∈ indices, ∀ b ∈ indices, (p.message a).parent = (p.message b).parent) →
      (subtreeWithin p depth indices).Nodup := by
  have hbelow : ∀ {r depth a}, a ∈ r :: subtreeWithin p depth (p.message r).messages →
      ReflTransGen (IsParent p) a r := by
    intro r depth a ha
    have hstep : ∀ i, ReflTransGen (IsParent p) i r → ∀ j ∈ (p.message i).messages,
        ReflTransGen (IsParent p) j r := fun i hi j hj => .head (hlisted j i hj) hi
    rcases List.mem_cons.1 ha with rfl | ha
    · exact .refl
    · exact forall_mem_subtreeWithin hstep (hstep r .refl) a ha
  induction depth with
  | zero =>
    intro indices _ _
    exact .nil
  | succ depth ih =>
    intro indices hnd hside
    rw [subtreeWithin, List.nodup_flatMap]
    constructor
    · intro r _
      refine List.nodup_cons.2 ⟨fun hr => ?_, ih (hnodup r) ?_⟩
      · -- Whatever is met below `r` has a greater number.
        have hgt : ∀ a ∈ subtreeWithin p depth (p.message r).messages, r < a :=
          forall_mem_subtreeWithin
            (fun i hi j hj => Nat.lt_trans hi (hlt j i (hlisted j i hj)))
            fun j hj => hlt j r (hlisted j r hj)
        exact Nat.lt_irrefl r (hgt r hr)
      · intro a ha b hb
        exact (hlisted a r ha).trans (hlisted b r hb).symm
    · refine List.Pairwise.imp_of_mem ?_ hnd
      intro r r' hr hr' hne a ha ha'
      exact hne (eq_of_isParent hlt (hbelow ha) (hbelow ha') (hside r hr r' hr'))

end

/-! ## The messages and enums of a file -/

/-- The messages of a file, at any depth, by ascending number. -/
def messagesIn (p : Program) (k : Nat) : List Nat :=
  (List.range p.messages.length).filter fun i => (p.message i).file == k

/-- The enums of a file, at any depth, by ascending number. -/
def enumsIn (p : Program) (k : Nat) : List Nat :=
  (List.range p.enums.length).filter fun i => (p.enum i).file == k

/-- One definition per message and enum of a file, each under the path of its type. -/
def definitionsIn (p : Program) (k : Nat) : List (String × Node) :=
  (messagesIn p k).map (fun i => (p.messagePath i, messageNode p k (p.message i))) ++
    (enumsIn p k).map fun i => (p.enumPath i, enumNode (p.enum i))

/-- All enums of a file as they are met going down from its top. -/
def enumsOf (p : Program) (f : Program.File) : List Nat :=
  f.enums ++ (messagesOf p f).flatMap fun i => (p.message i).enums

/-- The definitions of a file are those of the enums and the messages that are met. -/
theorem perm_definitionsOf (p : Program) (k : Nat) : (definitionsOf p k).Perm
    ((enumsOf p (p.file k)).map (enumDefinition p) ++
      (messagesOf p (p.file k)).map (messageDefinition p k)) := by
  rw [definitionsOf, enumsOf, List.map_append, List.map_flatMap, List.append_assoc]
  refine List.Perm.append_left _ ?_
  exact (List.map_append_flatMap_perm _ _ _).symm.trans List.perm_append_comm

section
variable {s : FileSet} {options : BuildOptions} {d : Declarations} {p : Program}

@[simp] theorem mem_messagesIn {i k : Nat} :
    i ∈ messagesIn p k ↔ i < p.messages.length ∧ (p.message i).file = k := by
  simp [messagesIn]

@[simp] theorem mem_enumsIn {i k : Nat} :
    i ∈ enumsIn p k ↔ i < p.enums.length ∧ (p.enum i).file = k := by
  simp [enumsIn]

/-- A declared message is a message of its file. -/
theorem mem_messagesIn_of_declared (h : Built s options d p) {i : Nat} {x : DeclaredMessage}
    (hx : d.messages[i]? = some x) : i ∈ messagesIn p x.file := by
  obtain ⟨fields, he⟩ := h.message_eq hx
  rw [mem_messagesIn, h.messages_length, he]
  exact ⟨(List.getElem?_eq_some_iff.1 hx).1, rfl⟩

/-- A declared enum is an enum of its file. -/
theorem mem_enumsIn_of_declared (h : Built s options d p) {i : Nat} {x : DeclaredEnum}
    (hx : d.enums[i]? = some x) : i ∈ enumsIn p x.file := by
  rw [mem_enumsIn, h.enum_eq hx, h.enums, List.length_map]
  exact ⟨(List.getElem?_eq_some_iff.1 hx).1, rfl⟩

/-- A message of the program was declared, with its parent and its file. -/
theorem declared_of_mem_messagesIn (h : Built s options d p) {i k : Nat} (hi : i ∈ messagesIn p k) :
    ∃ x, d.messages[i]? = some x ∧ x.file = k ∧ (p.message i).parent = x.parent := by
  obtain ⟨hlt, hfile⟩ := mem_messagesIn.1 hi
  obtain ⟨x, fields, hx, he, -⟩ := h.getElem?_message (List.getElem?_eq_getElem hlt)
  have hm : p.message i = d.messageOf i x fields :=
    Program.message_of_getElem? ((List.getElem?_eq_getElem hlt).trans (congrArg some he))
  rw [hm] at hfile ⊢
  exact ⟨x, hx, hfile, rfl⟩

/-- Going down from the top of a file finds exactly the messages of the file. -/
theorem mem_messagesOf (h : Built s options d p) {i k : Nat} :
    i ∈ messagesOf p (p.file k) ↔ i ∈ messagesIn p k := by
  constructor
  · refine forall_mem_subtreeWithin (fun a ha b hb => ?_) (fun a ha => ?_) i
    · obtain ⟨y, hy, hparent⟩ := h.mem_message_messages.1 hb
      obtain ⟨x, hx, hfile, -⟩ := declared_of_mem_messagesIn h ha
      obtain ⟨-, outer, ho, hsame, -⟩ := h.declared.message_parent hy hparent
      cases hx.symm.trans ho
      rw [← hfile, hsame]
      exact mem_messagesIn_of_declared h hy
    · obtain ⟨x, hx, -, rfl⟩ := h.mem_file_messages.1 ha
      exact mem_messagesIn_of_declared h hx
  · intro hi
    -- By induction on the number: a message is found at most as deep as its number says.
    have hfound : ∀ i ∈ messagesIn p k, i ∈ subtreeWithin p (i + 1) (p.file k).messages := by
      intro i
      induction i using Nat.strongRecOn with
      | _ i ih =>
        intro hi
        obtain ⟨x, hx, hfile, -⟩ := declared_of_mem_messagesIn h hi
        cases hparent : x.parent with
        | none =>
          have htop := h.mem_file_messages.2 ⟨x, hx, hparent, hfile⟩
          exact List.mem_flatMap.2 ⟨i, htop, List.mem_cons_self⟩
        | some j =>
          obtain ⟨hlt, outer, ho, hsame, -⟩ := h.declared.message_parent hx hparent
          have hj : j ∈ messagesIn p k := by
            rw [← hfile, ← hsame]
            exact mem_messagesIn_of_declared h ho
          have hbelow :=
            mem_subtreeWithin_succ (h.mem_message_messages.2 ⟨x, hx, hparent⟩) (ih j hlt hj)
          exact mem_subtreeWithin_of_le (by omega) hbelow
    exact mem_subtreeWithin_of_le (mem_messagesIn.1 hi).1 (hfound i hi)

/-- Going down from the top of a file meets no message twice. -/
theorem nodup_messagesOf (h : Built s options d p) (k : Nat) :
    (messagesOf p (p.file k)).Nodup := by
  have hnested : ∀ {a b}, a ∈ (p.message b).messages → IsParent p a b := by
    intro a b ha
    obtain ⟨x, hx, hparent⟩ := h.mem_message_messages.1 ha
    obtain ⟨fields, he⟩ := h.message_eq hx
    rw [IsParent, he]
    exact hparent
  have htop : ∀ {a}, a ∈ (p.file k).messages → (p.message a).parent = none := by
    intro a ha
    obtain ⟨x, hx, hparent, -⟩ := h.mem_file_messages.1 ha
    obtain ⟨fields, he⟩ := h.message_eq hx
    rw [he]
    exact hparent
  exact nodup_subtreeWithin h.parent_lt (fun a b => hnested) (fun b => (h.nodup_at (.inside b)).1)
    (h.nodup_at (.top k)).1 fun a ha b hb => (htop ha).trans (htop hb).symm

/-- The enums at the top of a file and in its messages are exactly the enums of the file. -/
theorem mem_enumsOf (h : Built s options d p) {i k : Nat} :
    i ∈ enumsOf p (p.file k) ↔ i ∈ enumsIn p k := by
  rw [enumsOf, List.mem_append, List.mem_flatMap]
  constructor
  · rintro (hi | ⟨j, hj, hi⟩)
    · obtain ⟨x, hx, -, rfl⟩ := h.mem_file_enums.1 hi
      exact mem_enumsIn_of_declared h hx
    · obtain ⟨x, hx, hparent⟩ := h.mem_message_enums.1 hi
      obtain ⟨outer, ho, hsame, -⟩ := h.declared.enum_parent (List.mem_of_getElem? hx) hparent
      obtain ⟨y, hy, hfile, -⟩ := declared_of_mem_messagesIn h ((mem_messagesOf h).1 hj)
      cases hy.symm.trans ho
      rw [← hfile, hsame]
      exact mem_enumsIn_of_declared h hx
  · intro hi
    obtain ⟨hlt, hfile⟩ := mem_enumsIn.1 hi
    obtain ⟨x, hx, -⟩ := h.getElem?_enum (List.getElem?_eq_getElem hlt)
    rw [h.enum_eq hx] at hfile
    cases hparent : x.parent with
    | none => exact .inl (h.mem_file_enums.2 ⟨x, hx, hparent, hfile⟩)
    | some j =>
      obtain ⟨outer, ho, hsame, -⟩ := h.declared.enum_parent (List.mem_of_getElem? hx) hparent
      refine .inr ⟨j, (mem_messagesOf h).2 ?_, h.mem_message_enums.2 ⟨x, hx, hparent⟩⟩
      have hj := mem_messagesIn_of_declared h ho
      rw [hsame] at hj
      exact hfile ▸ hj

/-- No enum of a file is met twice: its parent is where it is met. -/
theorem nodup_enumsOf (h : Built s options d p) (k : Nat) : (enumsOf p (p.file k)).Nodup := by
  rw [enumsOf, List.nodup_append, List.nodup_flatMap]
  refine ⟨(h.nodup_at (.top k)).2, ⟨fun j _ => (h.nodup_at (.inside j)).2, ?_⟩, ?_⟩
  · refine (nodup_messagesOf h k).imp fun {j j'} hne i hi hi' => hne ?_
    obtain ⟨x, hx, hparent⟩ := h.mem_message_enums.1 hi
    obtain ⟨x', hx', hparent'⟩ := h.mem_message_enums.1 hi'
    cases hx.symm.trans hx'
    exact Option.some.inj (hparent.symm.trans hparent')
  · rintro i hi i' hi' rfl
    obtain ⟨j, -, hi'⟩ := List.mem_flatMap.1 hi'
    obtain ⟨x, hx, hparent, -⟩ := h.mem_file_enums.1 hi
    obtain ⟨x', hx', hparent'⟩ := h.mem_message_enums.1 hi'
    cases hx.symm.trans hx'
    cases hparent.symm.trans hparent'

/-! ## Definitions -/

/-- All messages by number. -/
theorem map_message_range : (List.range p.messages.length).map p.message = p.messages := by
  refine List.ext_getElem (by simp) fun i hi hi' => ?_
  rw [List.getElem_map, List.getElem_range]
  exact Program.message_of_getElem? (List.getElem?_eq_getElem hi')

/-- All enums by number. -/
theorem map_enum_range : (List.range p.enums.length).map p.enum = p.enums := by
  refine List.ext_getElem (by simp) fun i hi hi' => ?_
  rw [List.getElem_map, List.getElem_range]
  exact Program.enum_of_getElem? (List.getElem?_eq_getElem hi')

/-- The full names of the messages and enums of a file are distinct. -/
theorem nodup_fullNames (h : Built s options d p) (k : Nat) :
    ((messagesIn p k).map (fun i => (p.message i).fullName) ++
      (enumsIn p k).map fun i => (p.enum i).fullName).Nodup := by
  have hall : (p.messages.map (·.fullName) ++ p.enums.map (·.fullName)).Nodup :=
    h.fullNames_eq ▸ h.declared.nodup
  refine List.Nodup.sublist (List.Sublist.append ?_ ?_) hall
  · rw [← map_message_range, List.map_map]
    exact List.filter_sublist.map _
  · rw [← map_enum_range, List.map_map]
    exact List.filter_sublist.map _

/-- The paths of the types of a file are distinct, as long as no message has an empty full name:
full names are, and they are the paths below the package. -/
theorem nodup_definitionsIn (h : Built s options d p) (hne : ∀ m ∈ p.messages, m.fullName ≠ "")
    (k : Nat) : ((definitionsIn p k).map (·.1)).Nodup := by
  have hdeclared : ∀ m ∈ d.messages, m.fullName ≠ "" := by
    intro m hm
    obtain ⟨i, hi⟩ := List.getElem?_of_mem hm
    obtain ⟨fields, hp, -⟩ := h.message hi
    exact hne _ (List.mem_of_getElem? hp)
  have hmessages : ∀ i ∈ messagesIn p k,
      (p.message i).fullName = joinScope (p.file k).package (p.messagePath i) := by
    intro i hi
    obtain ⟨x, hx, hfile, -⟩ := declared_of_mem_messagesIn h hi
    obtain ⟨fields, he⟩ := h.message_eq hx
    rw [he, ← hfile]
    exact h.message_fullName_of_ne hdeclared hx
  have henums : ∀ i ∈ enumsIn p k,
      (p.enum i).fullName = joinScope (p.file k).package (p.enumPath i) := by
    intro i hi
    obtain ⟨hlt, hfile⟩ := mem_enumsIn.1 hi
    obtain ⟨x, hx, -⟩ := h.getElem?_enum (List.getElem?_eq_getElem hlt)
    rw [h.enum_eq hx] at hfile ⊢
    rw [← hfile]
    exact h.enum_fullName_of_ne hdeclared hx
  have hnames : ((definitionsIn p k).map (·.1)).map (joinScope (p.file k).package) =
      (messagesIn p k).map (fun i => (p.message i).fullName) ++
        (enumsIn p k).map fun i => (p.enum i).fullName := by
    rw [definitionsIn, List.map_append, List.map_append, List.map_map, List.map_map, List.map_map,
      List.map_map]
    exact congrArg₂ (· ++ ·) (List.map_congr_left fun i hi => (hmessages i hi).symm)
      (List.map_congr_left fun i hi => (henums i hi).symm)
  exact (hnames ▸ nodup_fullNames h k).of_map _

/-- A document has one definition per message and enum of its file, as long as no message has an
empty full name. -/
theorem perm_definitions (h : Built s options d p) (hne : ∀ m ∈ p.messages, m.fullName ≠ "")
    (k : Nat) : (documentOf p k).definitions.Perm (definitionsIn p k) := by
  have hmessages : (messagesOf p (p.file k)).Perm (messagesIn p k) :=
    (List.perm_ext_iff_of_nodup (nodup_messagesOf h k) (List.nodup_range.filter _)).2
      fun _ => mem_messagesOf h
  have henums : (enumsOf p (p.file k)).Perm (enumsIn p k) :=
    (List.perm_ext_iff_of_nodup (nodup_enumsOf h k) (List.nodup_range.filter _)).2
      fun _ => mem_enumsOf h
  have hall : (definitionsOf p k).Perm (definitionsIn p k) := by
    refine (perm_definitionsOf p k).trans ?_
    exact ((henums.map _).append (hmessages.map _)).trans List.perm_append_comm
  have hkeys := (hall.map (·.1)).nodup_iff.2 (nodup_definitionsIn h hne k)
  rw [documentOf]
  refine (perm_foldl_enter (by simpa using hkeys)).trans ?_
  rw [List.append_nil]
  exact hall

end

end ProtoStub.JsonSchema

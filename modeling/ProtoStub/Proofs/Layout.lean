import ProtoStub.Proofs.Arena

/-!
# The place of a file in a program

The first pass numbers messages and enums as it meets them, file after file. So what a file declares
stands together in the lists of the program, and looks the same wherever it stands: only the number
of the file and the numbers of parents move (`fileSteps_eq_moved`). `Together` is a stretch of a
list that holds all items of one file. The messages and the enums of each file are such stretches
(`messages_together`, `enums_together`), and the lists of children, which are taken over the whole
program, can be taken over the stretch alone (`Together.positions_eq`).
-/

namespace ProtoStub.Program

open Schema (FileSet)

/-! ## Moving declarations -/

/-- A message put into the file `file`, with `base` messages in front of those it was among. -/
def DeclaredMessage.moved (file base : Nat) (m : DeclaredMessage) : DeclaredMessage :=
  { m with file, parent := m.parent.map (base + ·) }

/-- An enum put into the file `file`, with `base` messages in front of those it was among. -/
def DeclaredEnum.moved (file base : Nat) (e : DeclaredEnum) : DeclaredEnum :=
  { e with file, parent := e.parent.map (base + ·) }

/-- A step put into the file `file`, after `base` messages. -/
def Step.moved (file base : Nat) : Step → Step
  | .message m => .message (m.moved file base)
  | .enum e => .enum (e.moved file base)

/-- What a file declares, as if it were the only one: its messages. -/
def ownMessages (f : Schema.File) : List DeclaredMessage := messagesOf (fileSteps 0 (0, f))

/-- What a file declares, as if it were the only one: its enums. -/
def ownEnums (f : Schema.File) : List DeclaredEnum := enumsOf (fileSteps 0 (0, f))

section
variable {file base : Nat}

@[simp] theorem messagesOf_map_moved (steps : List Step) :
    messagesOf (steps.map (Step.moved file base)) =
      (messagesOf steps).map (DeclaredMessage.moved file base) := by
  induction steps with
  | nil => rfl
  | cons st rest ih =>
    cases st with
    | message m => exact congrArg (_ :: ·) ih
    | enum e => exact ih

@[simp] theorem enumsOf_map_moved (steps : List Step) :
    enumsOf (steps.map (Step.moved file base)) =
      (enumsOf steps).map (DeclaredEnum.moved file base) := by
  induction steps with
  | nil => rfl
  | cons st rest ih =>
    cases st with
    | message m => exact ih
    | enum e => exact congrArg (_ :: ·) ih

/-- Enums of one place, moved. -/
theorem enumEntries_moved (own : Nat) (parent : Option Nat) (scope : String)
    (es : List Schema.Enum) :
    ((enumEntries own parent scope es).map Step.enum).map (Step.moved file base) =
      (enumEntries file (parent.map (base + ·)) scope es).map .enum := by
  simp only [enumEntries, List.map_map]
  rfl

mutual

/-- The steps of a message, moved. -/
theorem messageSteps_moved (own : Nat) (parent : Option Nat) (scope : String) (start : Nat) :
    ∀ m : Schema.Message, (messageSteps own parent scope start m).map (Step.moved file base) =
      messageSteps file (parent.map (base + ·)) scope (base + start) m
  | ⟨name, line, fields, messages, enums⟩ => by
    rw [messageSteps, messageSteps, List.map_cons, List.map_append, enumEntries_moved,
      messagesSteps_moved own (some start) (joinScope scope name) (start + 1) messages]
    rfl

/-- The steps of messages, moved. -/
theorem messagesSteps_moved (own : Nat) (parent : Option Nat) (scope : String) (start : Nat) :
    ∀ ms : List Schema.Message,
      (messagesSteps own parent scope start ms).map (Step.moved file base) =
        messagesSteps file (parent.map (base + ·)) scope (base + start) ms
  | [] => by rw [messagesSteps, messagesSteps]; rfl
  | m :: rest => by
    have hm := messageSteps_moved own parent scope start m
    rw [messagesSteps, messagesSteps, List.map_append, hm,
      messagesSteps_moved own parent scope _ rest, ← hm, messagesOf_map_moved, List.length_map,
      Nat.add_assoc]

end

/-- The steps of a file are those of the file on its own, moved. -/
theorem fileSteps_eq_moved (f : Schema.File) :
    fileSteps base (file, f) = (fileSteps 0 (0, f)).map (Step.moved file base) := by
  rw [fileSteps, fileSteps, List.map_append, messagesSteps_moved, enumEntries_moved]
  rfl

end

/-! ## Stretches -/

/-- The items of `xs` in the file `k` are those of `own`, which stand together from `base` on. -/
def Together {α : Type} (file : α → Nat) (k base : Nat) (own xs : List α) : Prop :=
  ∃ before after, xs = before ++ own ++ after ∧ before.length = base ∧
    (∀ x ∈ before, file x ≠ k) ∧ ∀ x ∈ after, file x ≠ k

namespace Together

variable {α : Type} {file : α → Nat} {k base : Nat} {own xs : List α}

/-- An item of the stretch at its place in the list. -/
theorem getElem? (h : Together file k base own xs) {r : Nat} {x : α} (hr : own[r]? = some x) :
    xs[base + r]? = some x := by
  obtain ⟨before, after, rfl, rfl, -, -⟩ := h
  have hlt := (List.getElem?_eq_some_iff.1 hr).1
  rw [List.append_assoc, List.getElem?_append_right (by omega), Nat.add_sub_cancel_left,
    List.getElem?_append_left hlt, hr]

/-- An item of the file is one of the stretch. -/
theorem exists_of_file (h : Together file k base own xs) {i : Nat} {x : α} (hi : xs[i]? = some x)
    (hx : file x = k) : ∃ r, i = base + r ∧ own[r]? = some x := by
  obtain ⟨before, after, rfl, rfl, hb, ha⟩ := h
  rw [List.append_assoc] at hi
  rcases Nat.lt_or_ge i before.length with hlt | hge
  · rw [List.getElem?_append_left hlt] at hi
    exact absurd hx (hb x (List.mem_of_getElem? hi))
  · rw [List.getElem?_append_right hge] at hi
    refine ⟨i - before.length, by omega, ?_⟩
    rcases Nat.lt_or_ge (i - before.length) own.length with hlt | hge
    · rwa [List.getElem?_append_left hlt] at hi
    · rw [List.getElem?_append_right hge] at hi
      exact absurd hx (ha x (List.mem_of_getElem? hi))

/-- A test that only items of the file satisfy can be made on the stretch alone. -/
theorem positions_eq (h : Together file k base own xs) {test : α → Bool}
    (ht : ∀ x ∈ xs, test x = true → file x = k) :
    positions test xs = (positions test own).map (base + ·) := by
  obtain ⟨before, after, rfl, rfl, hb, ha⟩ := h
  have hbefore : positions test before = [] := by
    refine positions_eq_nil fun x hx => ?_
    rw [← Bool.not_eq_true]
    exact fun h => hb x hx (ht x (by simp [hx]) h)
  have hafter : positions test after = [] := by
    refine positions_eq_nil fun x hx => ?_
    rw [← Bool.not_eq_true]
    exact fun h => ha x hx (ht x (by simp [hx]) h)
  rw [positions_append, positions_append, hbefore, hafter, List.map_nil, List.append_nil,
    List.nil_append]

end Together

/-! ## The stretches of a file -/

/-- How many messages the files before the file `k` declare. -/
def messageBase (s : FileSet) (k : Nat) : Nat :=
  (messagesOf (filesSteps 0 ((numberedFiles s).take k))).length

/-- How many enums the files before the file `k` declare. -/
def enumBase (s : FileSet) (k : Nat) : Nat :=
  (enumsOf (filesSteps 0 ((numberedFiles s).take k))).length

/-- The steps of two lists of files. -/
theorem filesSteps_append (base : Nat) (a b : List (Nat × Schema.File)) :
    filesSteps base (a ++ b) =
      filesSteps base a ++ filesSteps (base + (messagesOf (filesSteps base a)).length) b := by
  induction a generalizing base with
  | nil => rfl
  | cons file rest ih =>
    rw [List.cons_append, filesSteps, filesSteps, ih, List.append_assoc, messagesOf_append,
      List.length_append, Nat.add_assoc]

/-- The messages of files lie in one of them. -/
theorem file_of_mem_messagesOf {base : Nat} {files : List (Nat × Schema.File)} {m : DeclaredMessage}
    (h : m ∈ messagesOf (filesSteps base files)) : m.file ∈ files.map (·.1) := by
  have hmem := List.mem_map_of_mem (f := fun x => (x.file, x.fullName, x.raw)) h
  rw [messagesOf_filesSteps_map] at hmem
  obtain ⟨x, hx, he⟩ := List.mem_map.1 hmem
  obtain ⟨file, hf, hx⟩ := List.mem_flatMap.1 hx
  obtain ⟨y, -, rfl⟩ := List.mem_map.1 hx
  exact List.mem_map.2 ⟨file, hf, congrArg Prod.fst he⟩

/-- The enums of files lie in one of them. -/
theorem file_of_mem_enumsOf {base : Nat} {files : List (Nat × Schema.File)} {e : DeclaredEnum}
    (h : e ∈ enumsOf (filesSteps base files)) : e.file ∈ files.map (·.1) := by
  have hmem := List.mem_map_of_mem (f := fun x => (x.file, x.fullName, x.raw)) h
  rw [(enumsOf_filesSteps_perm base files).mem_iff] at hmem
  obtain ⟨x, hx, he⟩ := List.mem_map.1 hmem
  obtain ⟨file, hf, hx⟩ := List.mem_flatMap.1 hx
  obtain ⟨y, -, rfl⟩ := List.mem_map.1 hx
  exact List.mem_map.2 ⟨file, hf, congrArg Prod.fst he⟩

section
variable {s : FileSet} {d : Declarations} {k : Nat} {f : Schema.File}

/-- The steps of a set, with those of the file `k` in the middle. -/
theorem stepsOf_eq (hk : s.files[k]? = some f) :
    ∃ base, stepsOf s = filesSteps 0 ((numberedFiles s).take k) ++
      (fileSteps 0 (0, f)).map (Step.moved k (messageBase s k)) ++
      filesSteps base ((numberedFiles s).drop (k + 1)) := by
  have hget : (numberedFiles s)[k]? = some (k, f) := by rw [getElem?_numberedFiles, hk]; rfl
  have hsplit : numberedFiles s =
      (numberedFiles s).take k ++ (k, f) :: (numberedFiles s).drop (k + 1) := by
    obtain ⟨hlt, he⟩ := List.getElem?_eq_some_iff.1 hget
    rw [← he, ← List.drop_eq_getElem_cons hlt, List.take_append_drop]
  refine ⟨messageBase s k + (messagesOf (fileSteps (messageBase s k) (k, f))).length, ?_⟩
  rw [stepsOf]
  conv_lhs => rw [hsplit]
  rw [filesSteps_append, filesSteps, Nat.zero_add, ← fileSteps_eq_moved, List.append_assoc]
  rfl

/-- The number `k` belongs to no file before or after the one at `k`. -/
theorem ne_of_mem_numberedFiles {k' : Nat} {rest : List (Nat × Schema.File)}
    (hrest : rest = (numberedFiles s).take k ∨ rest = (numberedFiles s).drop (k + 1))
    (hk' : k' ∈ rest.map (·.1)) : k' ≠ k := by
  have hfst : (numberedFiles s).map (·.1) = List.range s.files.length :=
    List.map_fst_zip (by simp)
  rcases hrest with rfl | rfl
  · rw [List.map_take, hfst, List.take_range] at hk'
    have := List.mem_range.1 hk'
    omega
  · rw [List.map_drop, hfst] at hk'
    obtain ⟨i, hi⟩ := List.mem_iff_getElem?.1 hk'
    rw [List.getElem?_drop] at hi
    obtain ⟨hlt, rfl⟩ := List.getElem?_eq_some_iff.1 hi
    rw [List.getElem_range]
    omega

/-- The messages of a file stand together. -/
theorem Declared.messages_together (h : Declared s d) (hk : s.files[k]? = some f) :
    Together (·.file) k (messageBase s k)
      ((ownMessages f).map (DeclaredMessage.moved k (messageBase s k))) d.messages := by
  obtain ⟨base, hsteps⟩ := stepsOf_eq hk
  refine ⟨_, messagesOf (filesSteps base ((numberedFiles s).drop (k + 1))), ?_, rfl, ?_, ?_⟩
  · rw [h.messages, hsteps, messagesOf_append, messagesOf_append, messagesOf_map_moved]
    rfl
  · exact fun m hm => ne_of_mem_numberedFiles (.inl rfl) (file_of_mem_messagesOf hm)
  · exact fun m hm => ne_of_mem_numberedFiles (.inr rfl) (file_of_mem_messagesOf hm)

/-- The enums of a file stand together. -/
theorem Declared.enums_together (h : Declared s d) (hk : s.files[k]? = some f) :
    Together (·.file) k (enumBase s k)
      ((ownEnums f).map (DeclaredEnum.moved k (messageBase s k))) d.enums := by
  obtain ⟨base, hsteps⟩ := stepsOf_eq hk
  refine ⟨_, enumsOf (filesSteps base ((numberedFiles s).drop (k + 1))), ?_, rfl, ?_, ?_⟩
  · rw [h.enums, hsteps, enumsOf_append, enumsOf_append, enumsOf_map_moved]
    rfl
  · exact fun e he => ne_of_mem_numberedFiles (.inl rfl) (file_of_mem_enumsOf he)
  · exact fun e he => ne_of_mem_numberedFiles (.inr rfl) (file_of_mem_enumsOf he)

/-- A message of a file at its number in the program. -/
theorem Declared.getElem?_own (h : Declared s d) (hk : s.files[k]? = some f) {r : Nat}
    {m : DeclaredMessage} (hr : (ownMessages f)[r]? = some m) :
    d.messages[messageBase s k + r]? = some (m.moved k (messageBase s k)) :=
  (h.messages_together hk).getElem? (by rw [List.getElem?_map, hr]; rfl)

/-- An enum of a file at its number in the program. -/
theorem Declared.getElem?_ownEnum (h : Declared s d) (hk : s.files[k]? = some f) {r : Nat}
    {e : DeclaredEnum} (hr : (ownEnums f)[r]? = some e) :
    d.enums[enumBase s k + r]? = some (e.moved k (messageBase s k)) :=
  (h.enums_together hk).getElem? (by rw [List.getElem?_map, hr]; rfl)

/-- A declared message is one of its file on its own. -/
theorem Declared.exists_own (h : Declared s d) (hk : s.files[k]? = some f) {i : Nat}
    {m : DeclaredMessage} (hi : d.messages[i]? = some m) (hm : m.file = k) :
    ∃ r own, i = messageBase s k + r ∧ (ownMessages f)[r]? = some own ∧
      m = own.moved k (messageBase s k) := by
  obtain ⟨r, rfl, hr⟩ := (h.messages_together hk).exists_of_file hi hm
  rw [List.getElem?_map, Option.map_eq_some_iff] at hr
  obtain ⟨own, ho, rfl⟩ := hr
  exact ⟨r, own, rfl, ho, rfl⟩

/-- A declared enum is one of its file on its own. -/
theorem Declared.exists_ownEnum (h : Declared s d) (hk : s.files[k]? = some f) {i : Nat}
    {e : DeclaredEnum} (hi : d.enums[i]? = some e) (he : e.file = k) :
    ∃ r own, i = enumBase s k + r ∧ (ownEnums f)[r]? = some own ∧
      e = own.moved k (messageBase s k) := by
  obtain ⟨r, rfl, hr⟩ := (h.enums_together hk).exists_of_file hi he
  rw [List.getElem?_map, Option.map_eq_some_iff] at hr
  obtain ⟨own, ho, rfl⟩ := hr
  exact ⟨r, own, rfl, ho, rfl⟩

/-! ## Children -/

/-- Moved numbers are compared as before. -/
theorem map_add_beq (base r : Nat) (a : Option Nat) :
    (a.map (base + ·) == some (base + r)) = (a == some r) := by
  cases a with
  | none => rfl
  | some i =>
    rw [Bool.eq_iff_iff, beq_iff_eq, beq_iff_eq]
    simp

/-- Moving leaves the top of the file at the top. -/
theorem map_add_beq_none (base : Nat) (a : Option Nat) :
    (a.map (base + ·) == none) = (a == none) := by
  cases a <;> rfl

/-- In a file on its own, too, the parent of a message comes before it. -/
theorem Declared.own_parent_lt (h : Declared s d) (hk : s.files[k]? = some f) {r r' : Nat}
    {m : DeclaredMessage} (hm : (ownMessages f)[r]? = some m) (hp : m.parent = some r') :
    r' < r := by
  have hparent : (m.moved k (messageBase s k)).parent = some (messageBase s k + r') := by
    rw [DeclaredMessage.moved, hp]
    rfl
  have hlt := (h.message_parent (h.getElem?_own hk hm) hparent).1
  omega

/-- In a file on its own, too, the parent of an enum is one of the messages. -/
theorem Declared.own_enum_parent (h : Declared s d) (hk : s.files[k]? = some f) {r r' : Nat}
    {e : DeclaredEnum} (he : (ownEnums f)[r]? = some e) (hp : e.parent = some r') :
    ∃ m, (ownMessages f)[r']? = some m := by
  have hparent : (e.moved k (messageBase s k)).parent = some (messageBase s k + r') := by
    rw [DeclaredEnum.moved, hp]
    rfl
  obtain ⟨outer, ho, hfile, -⟩ :=
    h.enum_parent (List.mem_of_getElem? (h.getElem?_ownEnum hk he)) hparent
  obtain ⟨r'', own, heq, hown, -⟩ := h.exists_own hk ho hfile
  rw [Nat.add_left_cancel heq]
  exact ⟨own, hown⟩

/-- The messages nested in a message of the file. -/
theorem Declared.nested_messages (h : Declared s d) (hk : s.files[k]? = some f) {r : Nat}
    (hr : r < (ownMessages f).length) :
    (d.membersAt (.inside (messageBase s k + r))).messages =
      (positions (·.parent == some r) (ownMessages f)).map (messageBase s k + ·) := by
  rw [h.membersAt_inside, (h.messages_together hk).positions_eq, positions_map]
  · simp only [DeclaredMessage.moved, map_add_beq]
  · intro m hm ht
    obtain ⟨i, hi⟩ := List.mem_iff_getElem?.1 hm
    obtain ⟨-, outer, ho, hfile, -⟩ := h.message_parent hi (beq_iff_eq.1 ht)
    rw [h.getElem?_own hk (List.getElem?_eq_getElem hr)] at ho
    cases ho
    exact hfile.symm

/-- The enums nested in a message of the file. -/
theorem Declared.nested_enums (h : Declared s d) (hk : s.files[k]? = some f) {r : Nat}
    (hr : r < (ownMessages f).length) :
    (d.membersAt (.inside (messageBase s k + r))).enums =
      (positions (·.parent == some r) (ownEnums f)).map (enumBase s k + ·) := by
  rw [h.membersAt_inside, (h.enums_together hk).positions_eq, positions_map]
  · simp only [DeclaredEnum.moved, map_add_beq]
  · intro e he ht
    obtain ⟨outer, ho, hfile, -⟩ := h.enum_parent he (beq_iff_eq.1 ht)
    rw [h.getElem?_own hk (List.getElem?_eq_getElem hr)] at ho
    cases ho
    exact hfile.symm

/-- The messages at the top of the file. -/
theorem Declared.top_messages (h : Declared s d) (hk : s.files[k]? = some f) :
    (d.membersAt (.top k)).messages =
      (positions (·.parent == none) (ownMessages f)).map (messageBase s k + ·) := by
  rw [h.membersAt_top, (h.messages_together hk).positions_eq, positions_map]
  · simp only [DeclaredMessage.moved, map_add_beq_none, BEq.rfl, Bool.true_and]
  · intro m _ ht
    rw [Bool.and_eq_true] at ht
    exact beq_iff_eq.1 ht.1

/-- The enums at the top of the file. -/
theorem Declared.top_enums (h : Declared s d) (hk : s.files[k]? = some f) :
    (d.membersAt (.top k)).enums =
      (positions (·.parent == none) (ownEnums f)).map (enumBase s k + ·) := by
  rw [h.membersAt_top, (h.enums_together hk).positions_eq, positions_map]
  · simp only [DeclaredEnum.moved, map_add_beq_none, BEq.rfl, Bool.true_and]
  · intro e _ ht
    rw [Bool.and_eq_true] at ht
    exact beq_iff_eq.1 ht.1

end

end ProtoStub.Program

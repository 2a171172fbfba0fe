import ProtoStub.Proofs.Outline

/-!
# What is listed in each place

The first pass lists every message and enum in its file or in the message around it. What is listed
in a place are the numbers of the declarations that stand there, in order
(`Declared.membersAt_eq`). It is an invariant of the pass (`Listed`): a step lists the number it
gives out in the place of the step, which is there already (`AllPlaced`), and a new message has an
empty list, because nothing stands in a message before it is declared.
-/

namespace ProtoStub.Program

open Schema (FileSet)

/-! ## Positions -/

/-- The positions whose items satisfy `test`, in order. -/
def positions {α : Type} (test : α → Bool) (xs : List α) : List Nat :=
  ((List.range xs.length).zip xs).filterMap fun (i, x) => if test x then some i else none

/-- The positions are those whose items satisfy the test. -/
theorem mem_positions {α : Type} {test : α → Bool} {xs : List α} {i : Nat} :
    i ∈ positions test xs ↔ ∃ x, xs[i]? = some x ∧ test x = true := by
  rw [positions, List.mem_filterMap]
  constructor
  · rintro ⟨⟨j, x⟩, hmem, h⟩
    obtain ⟨k, hk⟩ := List.mem_iff_getElem?.1 hmem
    rw [getElem?_zip_range, Option.map_eq_some_iff] at hk
    obtain ⟨x', hx', he⟩ := hk
    cases he
    dsimp only at h
    split at h
    · rename_i ht
      cases h
      exact ⟨x, hx', ht⟩
    · cases h
  · rintro ⟨x, hx, ht⟩
    refine ⟨(i, x), List.mem_iff_getElem?.2 ⟨i, ?_⟩, by simp [ht]⟩
    rw [getElem?_zip_range, hx]
    rfl

/-- Positions are listed once. -/
theorem nodup_positions {α : Type} (test : α → Bool) (xs : List α) :
    (positions test xs).Nodup := by
  have hsub : ∀ ys : List (Nat × α),
      List.Sublist (ys.filterMap fun y => if test y.2 then some y.1 else none)
        (ys.map (·.1)) := by
    intro ys
    induction ys with
    | nil => exact .slnil
    | cons y ys ih =>
      rw [List.filterMap_cons, List.map_cons]
      by_cases ht : test y.2
      · simpa [ht] using ih
      · simpa [ht] using ih.cons y.1
  refine (hsub _).nodup ?_
  rw [List.map_fst_zip (by simp)]
  exact List.nodup_range

/-- Positions in a list of changed items. -/
theorem positions_map {α β : Type} (test : β → Bool) (g : α → β) (xs : List α) :
    positions test (xs.map g) = positions (fun x => test (g x)) xs := by
  rw [positions, positions, List.length_map, List.zip_map_right, List.filterMap_map]
  rfl

/-- Positions in two lists put together. -/
theorem positions_append {α : Type} (test : α → Bool) (xs ys : List α) :
    positions test (xs ++ ys) = positions test xs ++ (positions test ys).map (xs.length + ·) := by
  have hzip : ((List.range ys.length).map (xs.length + ·)).zip ys =
      ((List.range ys.length).zip ys).map (Prod.map (xs.length + ·) id) := by
    rw [List.zip_map_left]
  rw [positions, List.length_append, List.range_add, List.zip_append (by simp),
    List.filterMap_append, hzip, List.filterMap_map, positions, positions, List.map_filterMap]
  congr 2
  funext y
  by_cases ht : test y.2 <;> simp [ht]

/-- One more item has the next position. -/
theorem positions_concat {α : Type} (test : α → Bool) (xs : List α) (x : α) :
    positions test (xs ++ [x]) = positions test xs ++ if test x then [xs.length] else [] := by
  rw [positions_append]
  by_cases h : test x <;> simp [positions, h]

/-- There are no positions where no item satisfies the test. -/
theorem positions_eq_nil {α : Type} {test : α → Bool} {xs : List α}
    (h : ∀ x ∈ xs, test x = false) : positions test xs = [] := by
  refine List.eq_nil_iff_forall_not_mem.2 fun i hi => ?_
  obtain ⟨x, hx, ht⟩ := mem_positions.1 hi
  rw [h x (List.mem_of_getElem? hx)] at ht
  cases ht

/-! ## Places -/

@[simp] theorem Place.of_eq_top {file k : Nat} {parent : Option Nat} :
    Place.of file parent = .top k ↔ parent = none ∧ file = k := by
  cases parent <;> simp [Place.of]

@[simp] theorem Place.of_eq_inside {file j : Nat} {parent : Option Nat} :
    Place.of file parent = .inside j ↔ parent = some j := by
  cases parent <;> simp [Place.of]

section
variable {s : FileSet} {d d' : Declarations} {place : Place}

theorem getD_modify {α : Type} {xs : List α} {i : Nat} (h : i < xs.length) (f : α → α) (j : Nat)
    (a : α) : (xs.modify i f).getD j a = if j = i then f (xs.getD j a) else xs.getD j a := by
  rw [List.getD_eq_getElem?_getD, List.getD_eq_getElem?_getD, List.getElem?_modify]
  by_cases hj : j = i
  · subst hj
    simp [h]
  · simp [hj, Ne.symm hj]

/-- A change of what is listed in a place changes it there and nowhere else. -/
theorem Declarations.membersAt_modifyAt (h : d.Fits place) (change : Members → Members)
    (other : Place) : (d.modifyAt place change).membersAt other =
      if other = place then change (d.membersAt other) else d.membersAt other := by
  cases place with
  | top k =>
    cases other with
    | top k' => simpa [modifyAt, membersAt] using getD_modify h change k' {}
    | inside k' => rfl
  | inside k =>
    cases other with
    | top k' => rfl
    | inside k' => simpa [modifyAt, membersAt] using getD_modify h change k' {}

/-- A new message has an empty list, like one that is not there. -/
theorem Declarations.membersAt_appendMessage (m : DeclaredMessage) (symbols : SymbolTable)
    (place : Place) : (d.appendMessage m symbols).membersAt place = d.membersAt place := by
  cases place with
  | top k => rfl
  | inside k =>
    simp only [membersAt, appendMessage, List.getD_eq_getElem?_getD]
    rcases Nat.lt_or_ge k d.nested.length with hlt | hge
    · rw [List.getElem?_append_left hlt]
    · rw [List.getElem?_append_right hge, List.getElem?_eq_none hge]
      cases k - d.nested.length <;> rfl

theorem Declarations.membersAt_appendEnum (e : DeclaredEnum) (symbols : SymbolTable)
    (place : Place) : (d.appendEnum e symbols).membersAt place = d.membersAt place := by
  cases place <;> rfl

/-- How the number that a step gives out is listed. -/
def Step.list (d : Declarations) : Step → Members → Members
  | .message _ => .addMessage d.messages.length
  | .enum _ => .addEnum d.enums.length

/-- A step lists its number in its place. -/
theorem Declarations.membersAt_add {st : Step} (h : d.Fits st.place) (place : Place) :
    (d.add st).membersAt place =
      if place = st.place then st.list d (d.membersAt place) else d.membersAt place := by
  cases st with
  | message m =>
    have hfits : d.Fits (.of m.file m.parent) := h
    rw [add, membersAt_modifyAt (hfits.appendMessage m _), membersAt_appendMessage]
    rfl
  | enum e =>
    have hfits : d.Fits (.of e.file e.parent) := h
    rw [add, membersAt_modifyAt (hfits.appendEnum e _), membersAt_appendEnum]
    rfl

/-! ## The invariant of the pass -/

/-- The numbers of the declarations that stand in a place, in order. -/
def Declarations.standingAt (d : Declarations) (place : Place) : Members where
  messages := positions (fun m => Place.of m.file m.parent == place) d.messages
  enums := positions (fun e => Place.of e.file e.parent == place) d.enums

/-- What a step declares stands in its place. -/
theorem Declarations.standingAt_add (st : Step) (place : Place) :
    (d.add st).standingAt place =
      if place = st.place then st.list d (d.standingAt place) else d.standingAt place := by
  cases st with
  | message m =>
    rw [standingAt, add_message_messages, add_message_enums, positions_concat]
    by_cases hplace : place = Place.of m.file m.parent
    · simp [hplace, Step.place, Step.list, Members.addMessage, standingAt]
    · simp [hplace, Ne.symm hplace, Step.place, standingAt]
  | enum e =>
    rw [standingAt, add_enum_messages, add_enum_enums, positions_concat]
    by_cases hplace : place = Place.of e.file e.parent
    · simp [hplace, Step.place, Step.list, Members.addEnum, standingAt]
    · simp [hplace, Ne.symm hplace, Step.place, standingAt]

/-- There is a list for each file and each message, and it holds what stands there. -/
structure Listed (s : FileSet) (d : Declarations) : Prop where
  aligned : d.Aligned
  tops_length : d.tops.length = s.files.length
  membersAt_eq : ∀ place, d.membersAt place = d.standingAt place

theorem Listed.start (s : FileSet) : Listed s (.start s) := by
  refine ⟨rfl, List.length_map _, fun place => ?_⟩
  cases place with
  | top k =>
    have hget : ((s.files.map fun _ => ({} : Members))[k]?).getD {} = {} := by
      rw [List.getElem?_map]
      cases s.files[k]? <;> rfl
    rw [Declarations.membersAt, List.getD_eq_getElem?_getD]
    exact hget
  | inside i => rfl

/-- The place of a step has a list. -/
theorem Listed.fits (h : Listed s d) {st : Step} (hst : st.Placed s d.messages) :
    d.Fits st.place := by
  have hfits : ∀ {file : Nat} {parent : Option Nat} {scope : String},
      PlacedAt s d.messages file parent scope → d.Fits (.of file parent) := by
    intro file parent scope hp
    cases parent with
    | none =>
      obtain ⟨f, hf, -⟩ := hp
      show file < d.tops.length
      rw [h.tops_length]
      exact (List.getElem?_eq_some_iff.1 hf).1
    | some j =>
      obtain ⟨m, hm, -⟩ := hp
      show j < d.nested.length
      rw [h.aligned]
      exact (List.getElem?_eq_some_iff.1 hm).1
  cases st with
  | message m | enum m =>
    obtain ⟨scope, hp, -⟩ := hst
    exact hfits hp

/-- A step keeps the lists in order. -/
theorem Listed.add (h : Listed s d) {st : Step} (hst : st.Placed s d.messages) :
    Listed s (d.add st) := by
  refine ⟨h.aligned.add st, ?_, fun place => ?_⟩
  · rw [← h.tops_length]
    cases st <;> exact Declarations.length_tops_modifyAt
  · rw [Declarations.membersAt_add (h.fits hst), Declarations.standingAt_add, h.membersAt_eq]

/-- A run of steps that have their places keeps the lists in order. -/
theorem Listed.run {steps : List Step} (h : Listed s d) (hplaced : AllPlaced s d.messages steps)
    (hr : steps.foldlM (Step.run s) d = .ok d') : Listed s d' := by
  induction steps generalizing d with
  | nil =>
    cases hr
    exact h
  | cons st rest ih =>
    obtain ⟨hst, hrest⟩ := hplaced
    rw [List.foldlM_cons] at hr
    cases hd : st.run s d with
    | error e => rw [hd] at hr; cases hr
    | ok d₁ =>
      rw [hd] at hr
      obtain ⟨-, rfl⟩ := Step.run_eq_ok_iff.1 hd
      refine ih (h.add hst) ?_ hr
      cases st with
      | message m => simpa using hrest
      | enum e => simpa using hrest

/-- After the first pass the lists are in order. -/
theorem Declared.listed (h : Declared s d) : Listed s d :=
  (Listed.start s).run (allPlaced_stepsOf s) h.run

/-- What is listed in a message are the declarations whose parent it is. -/
theorem Declared.membersAt_inside (h : Declared s d) (i : Nat) : d.membersAt (.inside i) =
    ⟨positions (·.parent == some i) d.messages, positions (·.parent == some i) d.enums⟩ := by
  have htest : ∀ (file : Nat) (parent : Option Nat),
      (Place.of file parent == .inside i) = (parent == some i) := by
    intro file parent
    rw [Bool.eq_iff_iff, beq_iff_eq, beq_iff_eq, Place.of_eq_inside]
  rw [h.listed.membersAt_eq, Declarations.standingAt]
  simp only [htest]

/-- What is listed in a file are its declarations without a parent. -/
theorem Declared.membersAt_top (h : Declared s d) (k : Nat) : d.membersAt (.top k) =
    ⟨positions (fun m => m.file == k && m.parent == none) d.messages,
      positions (fun e => e.file == k && e.parent == none) d.enums⟩ := by
  have htest : ∀ (file : Nat) (parent : Option Nat),
      (Place.of file parent == .top k) = (file == k && parent == none) := by
    intro file parent
    rw [Bool.eq_iff_iff, Bool.and_eq_true, beq_iff_eq, beq_iff_eq, beq_iff_eq, Place.of_eq_top,
      and_comm]
  rw [h.listed.membersAt_eq, Declarations.standingAt]
  simp only [htest]

end

end ProtoStub.Program

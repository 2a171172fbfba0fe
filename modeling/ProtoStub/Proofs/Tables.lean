import ProtoStub.Table
import Mathlib.Data.List.Nodup
import Mathlib.Data.List.Perm.Basic
import Mathlib.Data.String.Basic

/-!
# Tables

What is looked up in a table stands in it, and where keys are distinct what stands in it is looked
up (`mem_of_lookup`, `lookup_eq_of_mem`). A table with ascending keys is determined by what stands
in it (`table_ext`). Entering a value keeps the keys ascending (`pairwise_enter`) and is seen by
look-ups under its own key only (`lookup_enter`).
-/

namespace ProtoStub

/-! ## Looking up -/

section
variable {α β : Type} [BEq α] [LawfulBEq α] {table : List (α × β)} {key : α} {value : β}

/-- What is found under a key stands in the table. -/
theorem mem_of_lookup (h : table.lookup key = some value) : (key, value) ∈ table := by
  obtain ⟨before, after, rfl, -⟩ := List.lookup_eq_some_iff.1 h
  simp

/-- A value is found under its key when keys are distinct. -/
theorem lookup_eq_of_mem (hnd : (table.map (·.1)).Nodup) (h : (key, value) ∈ table) :
    table.lookup key = some value := by
  induction table with
  | nil => cases h
  | cons x table ih =>
    obtain ⟨k, v⟩ := x
    rw [List.map_cons, List.nodup_cons] at hnd
    rcases List.mem_cons.1 h with he | hmem
    · cases he
      exact List.lookup_cons_self
    · have hne : (key == k) = false := by
        rw [beq_eq_false_iff_ne]
        rintro rfl
        exact hnd.1 (List.mem_map.2 ⟨_, hmem, rfl⟩)
      rw [List.lookup_cons, hne]
      exact ih hnd.2 hmem

/-- Nothing is found under a key that is not there. -/
theorem lookup_eq_none (h : key ∉ table.map (·.1)) : table.lookup key = none := by
  rw [List.lookup_eq_none_iff]
  intro x hx
  rw [bne_iff_ne]
  exact fun he => h (List.mem_map.2 ⟨x, hx, he.symm⟩)

end

/-- Tables with ascending keys are equal when the same stands in them. -/
theorem table_ext {α : Type} {xs ys : List (String × α)} (hxs : (xs.map (·.1)).Pairwise (· < ·))
    (hys : (ys.map (·.1)).Pairwise (· < ·)) (h : ∀ x, x ∈ xs ↔ x ∈ ys) : xs = ys := by
  have hnodup : ∀ {zs : List (String × α)}, (zs.map (·.1)).Pairwise (· < ·) → zs.Nodup :=
    fun hzs => List.Nodup.of_map _ (hzs.imp fun hlt => hlt.ne)
  have hperm := (List.perm_ext_iff_of_nodup (hnodup hxs) (hnodup hys)).2 h
  exact hperm.eq_of_pairwise (fun a b _ _ hab hba => absurd hba hab.asymm)
    (List.pairwise_map.1 hxs) (List.pairwise_map.1 hys)

/-! ## Entering -/

section
variable {α : Type} {key : String} {value : α} {xs ds : List (String × α)} {x : String × α}

/-- What stands in a table after entering a value is the value or stood there before. -/
theorem mem_enter (h : x ∈ enter key value ds) : x = (key, value) ∨ x ∈ ds := by
  induction ds with
  | nil => exact .inl (List.mem_singleton.1 h)
  | cons d ds ih =>
    obtain ⟨k, v⟩ := d
    rw [enter] at h
    split at h
    · exact (List.mem_cons.1 h).imp_right (List.mem_cons_of_mem _)
    · split at h
      · exact List.mem_cons.1 h
      · rcases List.mem_cons.1 h with rfl | h
        · exact .inr List.mem_cons_self
        · exact (ih h).imp_right (List.mem_cons_of_mem _)

/-- The keys of a table are the one that was entered and those from before. -/
theorem mem_keys_enter {k : String} :
    k ∈ (enter key value ds).map (·.1) ↔ k = key ∨ k ∈ ds.map (·.1) := by
  induction ds with
  | nil => simp [enter]
  | cons d ds ih =>
    obtain ⟨first, v⟩ := d
    rw [enter]
    split
    · rename_i hfirst
      simp [beq_iff_eq.1 hfirst]
    · split
      · simp
      · rw [List.map_cons, List.map_cons, List.mem_cons, List.mem_cons, ih, or_left_comm]

/-- What stands in a table was entered there. -/
theorem mem_foldl_enter (h : x ∈ xs.foldl (fun ds d => enter d.1 d.2 ds) ds) :
    x ∈ xs ∨ x ∈ ds := by
  induction xs generalizing ds with
  | nil => exact .inr h
  | cons y xs ih =>
    rcases ih h with h | h
    · exact .inl (List.mem_cons_of_mem _ h)
    · rcases mem_enter h with rfl | h
      · exact .inl List.mem_cons_self
      · exact .inr h

/-- What is entered is found as if it stood in front. -/
theorem lookup_enter (k : String) :
    (enter key value ds).lookup k = ((key, value) :: ds).lookup k := by
  induction ds with
  | nil => rfl
  | cons d ds ih =>
    obtain ⟨first, v⟩ := d
    rw [enter]
    split
    · rename_i hfirst
      cases beq_iff_eq.1 hfirst
      cases hk : k == key <;> simp [List.lookup_cons, hk]
    · rename_i hfirst
      split
      · rfl
      · rw [List.lookup_cons, ih]
        cases hk : k == first with
        | false => simp [List.lookup_cons, hk]
        | true =>
          have hne : (k == key) = false := by
            rw [beq_iff_eq.1 hk, beq_eq_false_iff_ne]
            exact fun he => hfirst (beq_iff_eq.2 he.symm)
          simp [List.lookup_cons, hk, hne]

/-- Keys stay in ascending order. -/
theorem pairwise_enter (h : (ds.map (·.1)).Pairwise (· < ·)) :
    ((enter key value ds).map (·.1)).Pairwise (· < ·) := by
  induction ds with
  | nil => simp [enter]
  | cons d ds ih =>
    obtain ⟨first, v⟩ := d
    have hall := h
    rw [List.map_cons, List.pairwise_cons] at h
    rw [enter]
    split
    · rename_i hfirst
      cases beq_iff_eq.1 hfirst
      exact hall
    · rename_i hfirst
      split
      · rename_i hlt
        refine List.pairwise_cons.2 ⟨fun k hk => ?_, hall⟩
        rcases List.mem_cons.1 hk with rfl | hk
        · exact hlt
        · exact hlt.trans (h.1 k hk)
      · rename_i hlt
        have hgt : first < key := lt_of_le_of_ne (not_lt.1 hlt) (Ne.symm (by simpa using hfirst))
        refine List.pairwise_cons.2 ⟨fun k hk => ?_, ih h.2⟩
        obtain ⟨x, hx, rfl⟩ := List.mem_map.1 hk
        rcases mem_enter hx with rfl | hx
        · exact hgt
        · exact h.1 _ (List.mem_map_of_mem hx)

theorem pairwise_foldl_enter (h : (ds.map (·.1)).Pairwise (· < ·)) :
    ((xs.foldl (fun ds d => enter d.1 d.2 ds) ds).map (·.1)).Pairwise (· < ·) := by
  induction xs generalizing ds with
  | nil => exact h
  | cons x xs ih => exact ih (pairwise_enter h)

/-- What is entered under a new key is added. -/
theorem perm_enter (h : key ∉ ds.map (·.1)) : (enter key value ds).Perm ((key, value) :: ds) := by
  induction ds with
  | nil => exact .refl _
  | cons d ds ih =>
    obtain ⟨k, v⟩ := d
    rw [List.map_cons, List.mem_cons, not_or] at h
    rw [enter, if_neg (by simpa using h.1)]
    split
    · exact .refl _
    · exact ((ih h.2).cons (k, v)).trans (.swap ..)

/-- What is entered under distinct keys is all there. -/
theorem perm_foldl_enter (h : (xs.map (·.1) ++ ds.map (·.1)).Nodup) :
    (xs.foldl (fun ds d => enter d.1 d.2 ds) ds).Perm (xs ++ ds) := by
  induction xs generalizing ds with
  | nil => exact .refl _
  | cons x xs ih =>
    rw [List.map_cons, List.cons_append, List.nodup_cons, List.mem_append, not_or] at h
    obtain ⟨⟨hxs, hds⟩, hnd⟩ := h
    have hx : (enter x.1 x.2 ds).Perm (x :: ds) := perm_enter hds
    have hkeys : (xs.map (·.1) ++ (enter x.1 x.2 ds).map (·.1)).Nodup := by
      refine ((hx.map (·.1)).append_left (xs.map (·.1))).nodup_iff.2 ?_
      refine List.perm_middle.nodup_iff.2 (List.nodup_cons.2 ⟨?_, hnd⟩)
      rw [List.mem_append, not_or]
      exact ⟨hxs, hds⟩
    exact (ih hkeys).trans ((hx.append_left xs).trans List.perm_middle)

end

end ProtoStub

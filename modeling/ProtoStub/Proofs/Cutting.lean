import ProtoStub.Text.Split

/-!
# Cutting and joining text

Cutting a text at a character and joining the pieces with that character undo each other
(`join_singleton_split`, `split_join`), and a cut at a place where the text was put together cuts
its two parts (`split_append_singleton`).
-/

namespace ProtoStub.Text

/-- Cutting is the library's splitting. -/
theorem pieces_eq_splitOnP (p : Char → Bool) (cs : List Char) : pieces p cs = cs.splitOnP p := by
  induction cs with
  | nil => rfl
  | cons c cs ih =>
    rw [pieces, List.splitOnP_cons_eq_if_modifyHead, ih]
    split
    · rfl
    · cases h : cs.splitOnP p with
      | nil => exact absurd h (List.splitOnP_ne_nil p cs)
      | cons piece rest => rfl

theorem split_eq_splitOn (c : Char) (s : String) :
    split c s = (s.toList.splitOn c).map String.ofList := by
  rw [split, pieces_eq_splitOnP, List.splitOn_eq_splitOnP]

/-- The characters of pieces, as a list of lists. -/
theorem map_toList_map_ofList (css : List (List Char)) :
    (css.map String.ofList).map String.toList = css := by
  rw [List.map_map]
  have hid : String.toList ∘ String.ofList = id := by
    funext cs
    simp
  rw [hid, List.map_id]

/-- There is always a piece. -/
theorem split_ne_nil (c : Char) (s : String) : split c s ≠ [] := by
  simp [split_eq_splitOn, List.splitOn_ne_nil]

/-- The pieces joined again are the text. -/
theorem join_singleton_split (c : Char) (s : String) :
    join (String.singleton c) (split c s) = s := by
  apply String.toList_inj.1
  rw [join, String.toList_intercalate, split_eq_splitOn, map_toList_map_ofList,
    String.toList_singleton]
  exact List.intercalate_splitOn c

/-- The pieces of a text that is put together at the character. -/
theorem split_append_singleton (c : Char) (a b : String) :
    split c (a ++ String.singleton c ++ b) = split c a ++ split c b := by
  simp only [split_eq_splitOn, ← List.map_append]
  congr 1
  rw [String.toList_append, String.toList_append, String.toList_singleton, List.append_assoc]
  exact List.splitOn_append_cons_self _ _

/-- Parts without the character are the pieces of what they are joined to. -/
theorem split_join {c : Char} {parts : List String} (hne : parts ≠ [])
    (h : ∀ part ∈ parts, c ∉ part.toList) : split c (join (String.singleton c) parts) = parts := by
  rw [split_eq_splitOn, join, String.toList_intercalate, String.toList_singleton,
    List.splitOn_intercalate]
  · rw [List.map_map]
    have hid : String.ofList ∘ String.toList = id := by
      funext s
      simp
    rw [hid, List.map_id]
  · intro cs hcs
    obtain ⟨part, hp, rfl⟩ := List.mem_map.1 hcs
    exact h part hp
  · simpa using hne

/-- The characters of a piece are characters of the text that are not cut at. -/
theorem mem_of_mem_pieces {p : Char → Bool} {cs piece : List Char} (h : piece ∈ pieces p cs)
    {c : Char} (hc : c ∈ piece) : c ∈ cs ∧ p c = false := by
  induction cs generalizing piece with
  | nil =>
    rw [pieces, List.mem_singleton] at h
    subst h
    cases hc
  | cons d cs ih =>
    rw [pieces] at h
    split at h
    · rcases List.mem_cons.1 h with rfl | h
      · cases hc
      · exact ⟨List.mem_cons_of_mem _ (ih h hc).1, (ih h hc).2⟩
    · rename_i hd
      have hd : p d = false := by simpa using hd
      split at h
      · rename_i hnil
        rw [List.mem_singleton] at h
        subst h
        rw [List.mem_singleton] at hc
        exact ⟨by simp [hc], hc ▸ hd⟩
      · rename_i first rest hpieces
        rcases List.mem_cons.1 h with rfl | h
        · rcases List.mem_cons.1 hc with rfl | hc
          · exact ⟨List.mem_cons_self, hd⟩
          · have hin := ih (hpieces ▸ List.mem_cons_self) hc
            exact ⟨List.mem_cons_of_mem _ hin.1, hin.2⟩
        · have hin := ih (hpieces ▸ List.mem_cons_of_mem _ h) hc
          exact ⟨List.mem_cons_of_mem _ hin.1, hin.2⟩

/-- No piece has the character it was cut at. -/
theorem not_mem_of_mem_split {c : Char} {s piece : String} (h : piece ∈ split c s) :
    c ∉ piece.toList := by
  obtain ⟨cs, hcs, rfl⟩ := List.mem_map.1 h
  rw [String.toList_ofList]
  intro hc
  have hcut := (mem_of_mem_pieces hcs hc).2
  simp at hcut

/-- A text without the character is one piece. -/
theorem split_of_not_mem {c : Char} {s : String} (h : c ∉ s.toList) : split c s = [s] := by
  have hparts : ∀ part ∈ [s], c ∉ part.toList := by simpa using h
  have hjoin := split_join (by simp) hparts
  rwa [join, String.intercalate_singleton] at hjoin

end ProtoStub.Text

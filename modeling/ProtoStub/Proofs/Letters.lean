import ProtoStub.Text.Letter

/-!
# Letters, digits and marks

The letters and digits of ASCII are ranges of numbers (`isAlpha_iff`, `isDigit_iff`). How they fall
into the classes of all scripts is checked character by character (`forall_ascii`), and so is what a
change of case does to them. No change of case leads to a mark, which are the characters before the
letters (`toUpper_eq_mark`, `toLower_eq_mark`).
-/

namespace ProtoStub.Text

/-! ## Letters and digits of ASCII -/

section
variable {c : Char}

/-- The capitals as a range of numbers. -/
theorem isUpper_iff : c.isUpper = true ↔ 65 ≤ c.toNat ∧ c.toNat ≤ 90 :=
  decide_eq_true_iff

/-- The small letters as a range of numbers. -/
theorem isLower_iff : c.isLower = true ↔ 97 ≤ c.toNat ∧ c.toNat ≤ 122 :=
  Bool.and_eq_true_iff.trans (and_congr decide_eq_true_iff decide_eq_true_iff)

/-- The digits as a range of numbers. -/
theorem isDigit_iff : c.isDigit = true ↔ 48 ≤ c.toNat ∧ c.toNat ≤ 57 :=
  Bool.and_eq_true_iff.trans (and_congr decide_eq_true_iff decide_eq_true_iff)

/-- The letters as two ranges of numbers. -/
theorem isAlpha_iff : c.isAlpha = true ↔
    (65 ≤ c.toNat ∧ c.toNat ≤ 90) ∨ 97 ≤ c.toNat ∧ c.toNat ≤ 122 :=
  Bool.or_eq_true_iff.trans (or_congr isUpper_iff isLower_iff)

/-- What holds of the first numbers holds of the characters of ASCII. -/
@[elab_as_elim]
theorem forall_ascii {p : Char → Prop} (h : ∀ n < 128, p (Char.ofNat n)) (c : Char)
    (hc : c.toNat < 128) : p c :=
  Char.ofNat_toNat c ▸ h c.toNat hc

/-- A small letter, as the classes of all scripts see it. -/
theorem small_classes (h : c.isLower = true) :
    isUpper c = false ∧ isDigit c = false ∧ isLetter c = true ∧ toLower c = c := by
  have hrange := isLower_iff.1 h
  revert h
  exact forall_ascii (by decide +kernel) c (by omega)

/-- A digit, as the classes of all scripts see it. -/
theorem digit_classes (h : c.isDigit = true) :
    isUpper c = false ∧ isDigit c = true ∧ isLetter c = false ∧ toLower c = c ∧ toUpper c = c := by
  have hrange := isDigit_iff.1 h
  revert h
  exact forall_ascii (by decide +kernel) c (by omega)

/-- A capital, as the classes of all scripts see it. -/
theorem capital_classes (h : c.isUpper = true) :
    isUpper c = true ∧ isDigit c = false ∧ isLetter c = true ∧ toUpper (toLower c) = c := by
  have hrange := isUpper_iff.1 h
  revert h
  exact forall_ascii (by decide +kernel) c (by omega)

/-- A capital is a small letter in lower case. -/
theorem isLower_toLower (h : c.isUpper = true) : (toLower c).isLower = true := by
  have hrange := isUpper_iff.1 h
  revert h
  exact forall_ascii (by decide +kernel) c (by omega)

/-- Lower case forgets that a character of ASCII was in upper case before. -/
theorem toLower_toUpper (hc : c.toNat < 128) : toLower (toUpper c) = toLower c :=
  forall_ascii (by decide +kernel) c hc

/-- A character of ASCII in lower case stays as it is. -/
theorem toLower_toLower (hc : c.toNat < 128) : toLower (toLower c) = toLower c :=
  forall_ascii (by decide +kernel) c hc

end

/-! ## Marks -/

/-- Runs that lead to letters or beyond lead no character there to a mark. -/
theorem le_shiftBy {runs : List (Nat × Nat × Nat × Int)}
    (hruns : ∀ r ∈ runs, (65 : Int) ≤ r.1 + r.2.2.2) {n : Nat} (hn : 65 ≤ n) :
    65 ≤ shiftBy runs n := by
  rw [shiftBy]
  split
  · rename_i r hr
    have hrun := hruns r (List.mem_of_find?_eq_some hr)
    have hin := List.find?_some hr
    simp only [Bool.and_eq_true, decide_eq_true_eq] at hin
    omega
  · exact hn

/-- A character beyond the marks is none, nor is one that its number does not stand for. -/
theorem ofNat_ne_mark {n : Nat} {mark : Char} (hpos : 0 < mark.toNat) (hlow : mark.toNat < 65)
    (hn : 65 ≤ n) : Char.ofNat n ≠ mark := by
  rintro rfl
  by_cases hvalid : n.isValidChar
  · have hnumber : (Char.ofNat n).toNat = n := congrArg Char.toNat (dif_pos hvalid)
    omega
  · have hzero : (Char.ofNat n).toNat = 0 := congrArg Char.toNat (dif_neg hvalid)
    omega

/-- A change that keeps to letters in ASCII, and beyond it follows runs that lead to letters or
beyond, makes no mark of a character that is not that mark. -/
theorem eq_mark_of_change {change : Char → Char} (runs : List (Nat × Nat × Nat × Int))
    (hascii : ∀ n < 128, 65 ≤ (change (Char.ofNat n)).toNat ∨ change (Char.ofNat n) = Char.ofNat n)
    (hbeyond : ∀ c : Char, ¬ c.toNat < 128 → change c = Char.ofNat (shiftBy runs c.toNat))
    (hruns : ∀ r ∈ runs, (65 : Int) ≤ r.1 + r.2.2.2) {c mark : Char} (hpos : 0 < mark.toNat)
    (hlow : mark.toNat < 65) (h : change c = mark) : c = mark := by
  by_cases hc : c.toNat < 128
  · have hsame : 65 ≤ (change c).toNat ∨ change c = c := forall_ascii hascii c hc
    rcases hsame with hletter | hsame
    · rw [h] at hletter
      omega
    · exact hsame.symm.trans h
  · rw [hbeyond c hc] at h
    exact absurd h (ofNat_ne_mark hpos hlow (le_shiftBy hruns (by omega)))

/-- Upper case makes no mark of a character that is not that mark; marks are the characters before
the letters. -/
theorem toUpper_eq_mark {c mark : Char} (hpos : 0 < mark.toNat) (hlow : mark.toNat < 65)
    (h : toUpper c = mark) : c = mark :=
  eq_mark_of_change toUpperRuns (by decide +kernel) (fun _ hc => if_neg hc) (by decide +kernel) hpos
    hlow h

/-- Lower case makes no mark of a character that is not that mark. -/
theorem toLower_eq_mark {c mark : Char} (hpos : 0 < mark.toNat) (hlow : mark.toNat < 65)
    (h : toLower c = mark) : c = mark :=
  eq_mark_of_change toLowerRuns (by decide +kernel) (fun _ hc => if_neg hc) (by decide +kernel) hpos
    hlow h

end ProtoStub.Text

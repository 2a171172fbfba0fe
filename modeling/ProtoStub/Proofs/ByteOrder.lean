import ProtoStub.Proofs.Printing
import Mathlib.Data.String.Basic
import Mathlib.Tactic.Positivity

/-!
# The order of bytes

Texts are compared character by character, their bytes byte by byte, and both give one order
(`bytesOf_lt_iff`). The first byte of a character tells how many follow, and more follow a later
character; the bytes behind it are digits to the base 64, highest first (`utf8EncodeChar_eq`). So
the first byte that differs decides as the characters do (`utf8EncodeChar_append_lt`).

In this order the texts with one start lie side by side (`prefix_of_between`).
-/

namespace ProtoStub

open Text

/-! ## The bytes of a character -/

/-- The number of bytes behind the first one of a character. -/
def extraBytes (n : Nat) : Nat :=
  if n ≤ 127 then 0 else if n ≤ 2047 then 1 else if n ≤ 65535 then 2 else 3

/-- The first byte of a character. -/
def firstByte (n : Nat) : Nat :=
  if n ≤ 127 then n
  else if n ≤ 2047 then 192 + n / 64
  else if n ≤ 65535 then 224 + n / 64 ^ 2
  else 240 + n / 64 ^ 3

/-- The bytes for the last digits of a number to the base 64. -/
def digitBytes (n : Nat) : (digits : Nat) → List UInt8
  | 0 => []
  | digits + 1 => UInt8.ofNat (128 + n / 64 ^ digits % 64) :: digitBytes n digits

theorem toNat_val_lt (c : Char) : c.val.toNat < 1114112 := by
  rcases c.valid with h | h
  · change c.val.toNat < 0xd800 at h
    omega
  · exact h.2

/-- The first byte tells the length and the highest digit, the others hold a digit each. -/
theorem utf8EncodeChar_eq (c : Char) : String.utf8EncodeChar c =
    UInt8.ofNat (firstByte c.val.toNat) :: digitBytes c.val.toNat (extraBytes c.val.toNat) := by
  have hlast := toNat_val_lt c
  simp only [String.utf8EncodeChar, firstByte, extraBytes]
  generalize c.val.toNat = n at *
  split_ifs
  · rfl
  · have hfirst : n / 64 % 32 = n / 64 := by omega
    simp [digitBytes, hfirst, Nat.add_comm]
  · have hfirst : n / 4096 % 16 = n / 4096 := by omega
    simp [digitBytes, hfirst, Nat.add_comm]
  · have hfirst : n / 262144 % 8 = n / 262144 := by omega
    simp [digitBytes, hfirst, Nat.add_comm]

/-- The first byte is one, for all characters there are. -/
theorem firstByte_lt {n : Nat} (h : n < 1114112) : firstByte n < 256 := by
  rw [firstByte]
  split_ifs <;> omega

/-- Of two characters the later one has the greater first byte, or they differ in the digits of the
other bytes. -/
theorem firstByte_cases {m n : Nat} (h : m < n) :
    firstByte m < firstByte n ∨ firstByte m = firstByte n ∧ extraBytes m = extraBytes n ∧
      m % 64 ^ extraBytes m < n % 64 ^ extraBytes m := by
  simp only [firstByte, extraBytes]
  split_ifs <;> omega

theorem ofNat_lt_ofNat {m n : Nat} (hn : n < 256) (h : m < n) : UInt8.ofNat m < UInt8.ofNat n := by
  rw [UInt8.lt_iff_toNat_lt, UInt8.toNat_ofNat', UInt8.toNat_ofNat']
  omega

/-- Digits compare as the numbers that they write. -/
theorem digitBytes_append_lt {m n k : Nat} (h : m % 64 ^ k < n % 64 ^ k) (x y : List UInt8) :
    digitBytes m k ++ x < digitBytes n k ++ y := by
  induction k with
  | zero => simp [Nat.mod_one] at h
  | succ k ih =>
    rw [Nat.mod_pow_succ, Nat.mod_pow_succ] at h
    rw [digitBytes, digitBytes, List.cons_append, List.cons_append, List.cons_lt_cons_iff]
    have hn : n / 64 ^ k % 64 < 64 := Nat.mod_lt _ (by omega)
    rcases Nat.lt_trichotomy (m / 64 ^ k % 64) (n / 64 ^ k % 64) with hlt | heq | hgt
    · exact .inl (ofNat_lt_ofNat (by omega) (by omega))
    · exact .inr ⟨by rw [heq], ih (by rw [heq] at h; omega)⟩
    · -- a greater digit would outweigh all the digits behind it
      have hbig := Nat.mul_le_mul_left (64 ^ k) (Nat.succ_le_of_lt hgt)
      have hrest : n % 64 ^ k < 64 ^ k := Nat.mod_lt _ (by positivity)
      rw [Nat.mul_succ] at hbig
      omega

/-- The order of two characters is that of their bytes, whatever follows them. -/
theorem utf8EncodeChar_append_lt {c d : Char} (h : c < d) (x y : List UInt8) :
    String.utf8EncodeChar c ++ x < String.utf8EncodeChar d ++ y := by
  have hval : c.val.toNat < d.val.toNat := h
  rw [utf8EncodeChar_eq, utf8EncodeChar_eq, List.cons_append, List.cons_append,
    List.cons_lt_cons_iff]
  rcases firstByte_cases hval with hlt | ⟨hfirst, hextra, hrest⟩
  · exact .inl (ofNat_lt_ofNat (firstByte_lt (toNat_val_lt d)) hlt)
  · rw [← hextra]
    exact .inr ⟨by rw [hfirst], digitBytes_append_lt hrest x y⟩

/-! ## The order of texts -/

/-- The first character that differs decides, and so does the first byte. -/
theorem flatMap_utf8EncodeChar_lt {cs ds : List Char} (h : cs < ds) :
    cs.flatMap String.utf8EncodeChar < ds.flatMap String.utf8EncodeChar := by
  induction cs generalizing ds with
  | nil =>
    cases ds with
    | nil => exact absurd h (lt_irrefl _)
    | cons d ds => simp [utf8EncodeChar_eq]
  | cons c cs ih =>
    cases ds with
    | nil => exact absurd h (by simp)
    | cons d ds =>
      simp only [List.flatMap_cons]
      rcases List.cons_lt_cons_iff.1 h with hcd | ⟨rfl, hrest⟩
      · exact utf8EncodeChar_append_lt hcd _ _
      · exact List.append_left_lt (ih hrest)

/-- Texts are ordered as their bytes are. -/
theorem bytesOf_lt_iff {s t : String} : bytesOf s < bytesOf t ↔ s < t := by
  have hlt : ∀ {s t : String}, s < t → bytesOf s < bytesOf t := by
    intro s t h
    rw [bytesOf_eq, bytesOf_eq]
    exact flatMap_utf8EncodeChar_lt (String.lt_iff_toList_lt.1 h)
  refine ⟨fun h => ?_, hlt⟩
  rcases lt_trichotomy s t with hst | rfl | hts
  · exact hst
  · exact absurd h (List.lt_irrefl _)
  · exact absurd h (List.lt_asymm (hlt hts))

theorem bytesOf_le_iff {s t : String} : bytesOf s ≤ bytesOf t ↔ s ≤ t := by
  rw [← not_lt, ← List.not_lt, bytesOf_lt_iff]

/-- A text comes before its continuations. -/
theorem le_append (s rest : String) : s ≤ s ++ rest := by
  rw [String.le_iff_toList_le, String.toList_append]
  exact not_lt.1 (List.not_lt.2 List.le_append_left)

/-- Texts that differ before a cut are in the order of what stands before it. -/
theorem lt_of_take_lt_take {n : Nat} {cs ds : List Char} (h : cs.take n < ds.take n) : cs < ds := by
  induction n generalizing cs ds with
  | zero => exact absurd h (by simp)
  | succ n ih =>
    cases ds with
    | nil => exact absurd h (by simp)
    | cons d ds =>
      cases cs with
      | nil => exact List.nil_lt_cons d ds
      | cons c cs =>
        rw [List.take_succ_cons, List.take_succ_cons, List.cons_lt_cons_iff] at h
        exact List.cons_lt_cons_iff.2 (h.imp_right fun h => ⟨h.1, ih h.2⟩)

/-- Between a text and one that goes on after it there are only texts that start with it. -/
theorem prefix_of_between {start cs rest : List Char} (hstart : start ≤ cs)
    (hend : cs ≤ start ++ rest) : start <+: cs := by
  have hcut : (start ++ rest).take start.length = start := List.take_left
  refine List.prefix_iff_eq_take.2 (le_antisymm ?_ ?_)
  · refine not_lt.1 fun hlt => hstart.not_gt (lt_of_take_lt_take (n := start.length) ?_)
    rwa [List.take_length]
  · refine not_lt.1 fun hlt => hend.not_gt (lt_of_take_lt_take (n := start.length) ?_)
    rwa [hcut]

end ProtoStub

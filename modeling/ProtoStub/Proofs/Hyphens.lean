import ProtoStub.Route
import ProtoStub.Proofs.Cutting
import ProtoStub.Proofs.Letters

/-!
# Hyphens in kebab case

A name in kebab case is made of parts with one hyphen between neighbours; the parts are not empty,
have no hyphen in them, and put together they are the name in lower case without its word marks
(`hyphenated_kebabChars`). That alone says where hyphens cannot be: at an end, or beside another one
(`Hyphenated.singleHyphens`); so collapsing hyphens changes nothing (`kebabChars_of_not_mark`).
Where they are in a name without word marks is said by the neighbours on both sides, and by one more
character (`hyphenAfter_kebabTail`). `kebabCase_hyphens` puts the three together.
-/

namespace ProtoStub

open Text

/-! ## Texts cut by hyphens -/

/-- Single hyphens cut the text into parts, which make up `letters`. -/
def Hyphenated (text letters : List Char) : Prop :=
  ∃ parts : List (List Char), (∀ part ∈ parts, part ≠ [] ∧ '-' ∉ part) ∧
    text = ['-'].intercalate parts ∧ letters = parts.flatten

/-- No hyphen stands at an end of the text or beside another one. -/
structure SingleHyphens (text : List Char) : Prop where
  first : ¬ ['-'] <+: text
  last : ¬ ['-'] <:+ text
  apart : ¬ ['-', '-'] <:+: text

section
variable {text letters : List Char}

/-- A text with a double hyphen holds one as a part. -/
theorem double_of_hasDoubleHyphen (h : hasDoubleHyphen text = true) : ['-', '-'] <:+: text := by
  fun_induction hasDoubleHyphen text with
  | case1 a b cs ih =>
    rcases Bool.or_eq_true_iff.1 h with hpair | hrest
    · simp only [Bool.and_eq_true, beq_iff_eq] at hpair
      obtain ⟨rfl, rfl⟩ := hpair
      exact ⟨[], cs, rfl⟩
    · exact (ih hrest).trans (List.suffix_cons a _).isInfix
  | case2 => cases h

/-- Cutting the text at its hyphens leaves no empty piece. -/
theorem Hyphenated.nil_not_mem_splitOn (h : Hyphenated text letters) (hne : text ≠ []) :
    [] ∉ text.splitOn '-' := by
  obtain ⟨parts, hparts, rfl, -⟩ := h
  have hsome : parts ≠ [] := by
    rintro rfl
    exact hne rfl
  rw [List.splitOn_intercalate '-' (fun part hpart => (hparts part hpart).2) hsome]
  exact fun hnil => (hparts [] hnil).1 rfl

/-- On both sides of a hyphen there is something, and behind it no other hyphen. -/
theorem Hyphenated.sides {before after : List Char}
    (h : Hyphenated (before ++ '-' :: after) letters) :
    before ≠ [] ∧ after ≠ [] ∧ ∀ more, after ≠ '-' :: more := by
  have hnil : ([] : List Char).splitOn '-' = [[]] := by simp
  have hpieces := h.nil_not_mem_splitOn (by simp)
  rw [List.splitOn_append_cons_self, List.mem_append, not_or] at hpieces
  refine ⟨?_, ?_, ?_⟩
  · rintro rfl
    exact hpieces.1 (by simp [hnil])
  · rintro rfl
    exact hpieces.2 (by simp [hnil])
  · rintro more rfl
    have hcut : ('-' :: more).splitOn '-' = [].splitOn '-' ++ more.splitOn '-' :=
      List.splitOn_append_cons_self [] more
    exact hpieces.2 (by simp [hcut, hnil])

/-- Parts that are not empty keep their hyphens apart, and away from both ends. -/
theorem Hyphenated.singleHyphens (h : Hyphenated text letters) : SingleHyphens text where
  first := by
    rintro ⟨after, rfl⟩
    have h : Hyphenated ([] ++ '-' :: after) letters := h
    exact h.sides.1 rfl
  last := by
    rintro ⟨before, rfl⟩
    exact h.sides.2.1 rfl
  apart := by
    rintro ⟨before, after, rfl⟩
    rw [List.append_assoc] at h
    exact h.sides.2.2 after rfl

/-- In a text without double hyphens there is nothing to collapse. -/
theorem SingleHyphens.collapseHyphens_eq (h : SingleHyphens text) :
    collapseHyphens text = text := by
  rw [collapseHyphens, if_neg]
  exact fun hdouble => h.apart (double_of_hasDoubleHyphen hdouble)

/-- What is left without the hyphens. -/
theorem Hyphenated.filter_eq (h : Hyphenated text letters) :
    text.filter (· != '-') = letters := by
  obtain ⟨parts, hparts, rfl, rfl⟩ := h
  have hself : ∀ part ∈ parts, part.filter (· != '-') = part := by
    intro part hpart
    refine List.filter_eq_self.2 fun c hc => ?_
    rw [bne_iff_ne]
    rintro rfl
    exact (hparts part hpart).2 hc
  clear hparts
  induction parts with
  | nil => rfl
  | cons part parts ih =>
    obtain ⟨hpart, hrest⟩ := List.forall_mem_cons.1 hself
    cases parts with
    | nil => simp [hpart]
    | cons next parts =>
      rw [List.intercalate_cons_cons, List.filter_append, List.filter_append, hpart, ih hrest]
      simp

end

/-! ## The parts of a name -/

/-- A character turns into a hyphen only when it is one. -/
theorem toLower_ne_hyphen {c : Char} (h : c ≠ '-') : toLower c ≠ '-' :=
  fun hlower => h (toLower_eq_mark (by decide) (by decide) hlower)

theorem hyphen_not_mem_cons_toLower {c : Char} {last : List Char} (hc : '-' ≠ c)
    (hlast : '-' ∉ last) : '-' ∉ toLower c :: last := by
  rw [List.mem_cons, not_or]
  exact ⟨(toLower_ne_hyphen hc.symm).symm, hlast⟩

theorem hyphen_not_mem_map_toLower {cs : List Char} (h : '-' ∉ cs) : '-' ∉ cs.map toLower := by
  rw [List.mem_map]
  rintro ⟨c, hc, hlower⟩
  exact toLower_ne_hyphen (fun he => h (he ▸ hc)) hlower

/-- The pieces put together are the text without what it was cut at. -/
theorem flatten_pieces (p : Char → Bool) (cs : List Char) :
    (pieces p cs).flatten = cs.filter (!p ·) := by
  induction cs with
  | nil => rfl
  | cons c cs ih =>
    rw [pieces]
    split
    · rename_i hc
      simp [ih, hc]
    · rename_i hc
      rw [List.filter_cons_of_pos (by simpa using hc), ← ih]
      cases pieces p cs <;> rfl

/-- Texts that are joined, with the separator before the first too. -/
theorem cons_intercalate {α : Type} (sep : α) {parts : List (List α)} (hne : parts ≠ []) :
    sep :: [sep].intercalate parts = parts.flatMap (sep :: ·) := by
  induction parts with
  | nil => exact absurd rfl hne
  | cons part parts ih =>
    cases parts with
    | nil => simp
    | cons next parts =>
      rw [List.intercalate_cons_cons, List.flatMap_cons, ← ih (by simp)]
      simp

/-- A name with word marks is cut there and nowhere else. -/
theorem hyphenated_words (cs : List Char) :
    Hyphenated (['-'].intercalate ((wordsOf cs).map (·.map toLower)))
      ((cs.filter (!isWordMark ·)).map toLower) := by
  refine ⟨_, fun part hpart => ?_, rfl, ?_⟩
  · obtain ⟨word, hword, rfl⟩ := List.mem_map.1 hpart
    obtain ⟨hpiece, hne⟩ := List.mem_filter.1 hword
    refine ⟨by simpa using hne, hyphen_not_mem_map_toLower fun hmem => ?_⟩
    exact absurd (mem_of_mem_pieces hpiece hmem).2 (by decide)
  · rw [← flatten_pieces, ← List.map_flatten, wordsOf, fields, List.flatten_filter_not_isEmpty]

section
variable {cs : List Char}

/-- The rest of a name without hyphens: the end of the part that is open, and the parts behind
it. -/
theorem exists_parts_kebabTail (prev : Char) (h : '-' ∉ cs) :
    ∃ (last : List Char) (parts : List (List Char)), '-' ∉ last ∧
      (∀ part ∈ parts, part ≠ [] ∧ '-' ∉ part) ∧
      kebabTail prev cs = last ++ parts.flatMap ('-' :: ·) ∧
      cs.map toLower = last ++ parts.flatten := by
  induction cs generalizing prev with
  | nil => exact ⟨[], [], by simp, by simp, rfl, rfl⟩
  | cons c cs ih =>
    rw [List.mem_cons, not_or] at h
    obtain ⟨last, parts, hlast, hparts, htext, hletters⟩ := ih c h.2
    have hopen := hyphen_not_mem_cons_toLower h.1 hlast
    rw [kebabTail, List.map_cons, hletters, htext]
    split
    · refine ⟨[], (toLower c :: last) :: parts, by simp, ?_, by simp, by simp⟩
      exact List.forall_mem_cons.2 ⟨⟨by simp, hopen⟩, hparts⟩
    · exact ⟨toLower c :: last, parts, hopen, hparts, rfl, rfl⟩

/-- A word without hyphens is cut into parts that make it up in lower case. -/
theorem hyphenated_kebabWord (h : '-' ∉ cs) : Hyphenated (kebabWord cs) (cs.map toLower) := by
  cases cs with
  | nil => exact ⟨[], by simp, rfl, rfl⟩
  | cons c cs =>
    rw [List.mem_cons, not_or] at h
    obtain ⟨last, parts, hlast, hparts, htext, hletters⟩ := exists_parts_kebabTail c h.2
    refine ⟨(toLower c :: last) :: parts, ?_, ?_, by simp [hletters]⟩
    · exact List.forall_mem_cons.2 ⟨⟨by simp, hyphen_not_mem_cons_toLower h.1 hlast⟩, hparts⟩
    · have hsome : (toLower c :: last) :: parts ≠ [] := by simp
      have hjoin := cons_intercalate '-' hsome
      rw [List.flatMap_cons, List.cons_append, List.cons_append] at hjoin
      rw [kebabWord, htext, (List.cons.inj hjoin).2]

/-- A name without word marks is written without collapsing anything. -/
theorem kebabChars_of_not_mark (h : cs.any isWordMark = false) : kebabChars cs = kebabWord cs := by
  have hhyphen : '-' ∉ cs := fun hmem => absurd h (by simpa using ⟨'-', hmem, by decide⟩)
  rw [kebabChars, h, if_neg (by simp),
    (hyphenated_kebabWord hhyphen).singleHyphens.collapseHyphens_eq]

/-- A name in kebab case is its characters other than word marks, in lower case, cut by hyphens. -/
theorem hyphenated_kebabChars (cs : List Char) :
    Hyphenated (kebabChars cs) ((cs.filter (!isWordMark ·)).map toLower) := by
  cases hmarks : cs.any isWordMark with
  | true =>
    rw [kebabChars, if_pos hmarks]
    exact hyphenated_words cs
  | false =>
    have hnone : ∀ c ∈ cs, isWordMark c = false := by simpa using hmarks
    rw [kebabChars_of_not_mark hmarks, List.filter_eq_self.2 fun c hc => by simp [hnone c hc]]
    exact hyphenated_kebabWord fun hmem => absurd (hnone '-' hmem) (by decide)

/-! ## Where the hyphens are -/

/-- A hyphen of the text stands behind exactly `n` characters that are none. -/
def HyphenAfter (text : List Char) (n : Nat) : Prop :=
  ∃ before after, text = before ++ '-' :: after ∧ before.countP (· != '-') = n

theorem not_hyphenAfter_nil (n : Nat) : ¬ HyphenAfter [] n := by
  rintro ⟨before, after, h, -⟩
  simp at h

theorem hyphenAfter_hyphen_zero (text : List Char) : HyphenAfter ('-' :: text) 0 :=
  ⟨[], text, rfl, rfl⟩

theorem hyphenAfter_hyphen_succ (text : List Char) (n : Nat) :
    HyphenAfter ('-' :: text) (n + 1) ↔ HyphenAfter text (n + 1) := by
  constructor
  · rintro ⟨before, after, h, hcount⟩
    cases before with
    | nil => simp at hcount
    | cons x before =>
      obtain ⟨rfl, rfl⟩ := List.cons.inj h
      exact ⟨before, after, rfl, by simpa using hcount⟩
  · rintro ⟨before, after, rfl, hcount⟩
    exact ⟨'-' :: before, after, rfl, by simpa using hcount⟩

theorem not_hyphenAfter_cons_zero {c : Char} (hc : c ≠ '-') (text : List Char) :
    ¬ HyphenAfter (c :: text) 0 := by
  rintro ⟨before, after, h, hcount⟩
  cases before with
  | nil => exact hc (List.cons.inj h).1
  | cons x before =>
    obtain ⟨rfl, -⟩ := List.cons.inj h
    simp [hc] at hcount

theorem hyphenAfter_cons_succ {c : Char} (hc : c ≠ '-') (text : List Char) (n : Nat) :
    HyphenAfter (c :: text) (n + 1) ↔ HyphenAfter text n := by
  constructor
  · rintro ⟨before, after, h, hcount⟩
    cases before with
    | nil => exact absurd (List.cons.inj h).1 hc
    | cons x before =>
      obtain ⟨rfl, rfl⟩ := List.cons.inj h
      exact ⟨before, after, rfl, by simpa [hc] using hcount⟩
  · rintro ⟨before, after, rfl, hcount⟩
    exact ⟨c :: before, after, rfl, by simp [hc, hcount]⟩

/-- Behind `n` characters of the rest of a name there is a hyphen exactly when the last of them and
the next one call for it. -/
theorem hyphenAfter_kebabTail {prev : Char} (h : '-' ∉ cs) (n : Nat) :
    HyphenAfter (kebabTail prev cs) n ↔
      ∃ a b, (prev :: cs)[n]? = some a ∧ cs[n]? = some b ∧ kebabBreak a b cs[n + 1]? = true := by
  induction cs generalizing prev n with
  | nil => simp [kebabTail, not_hyphenAfter_nil]
  | cons c cs ih =>
    rw [List.mem_cons, not_or] at h
    have hc : toLower c ≠ '-' := toLower_ne_hyphen (Ne.symm h.1)
    cases n with
    | zero =>
      have hnext : (c :: cs)[0 + 1]? = cs.head? := by simp [List.head?_eq_getElem?]
      rw [kebabTail, hnext]
      split
      · rename_i hbreak
        simp [hyphenAfter_hyphen_zero, hbreak]
      · rename_i hbreak
        simp [not_hyphenAfter_cons_zero hc, hbreak]
    | succ n =>
      have hstep : HyphenAfter (kebabTail prev (c :: cs)) (n + 1) ↔
          HyphenAfter (kebabTail c cs) n := by
        rw [kebabTail]
        split
        · rw [hyphenAfter_hyphen_succ, hyphenAfter_cons_succ hc]
        · rw [hyphenAfter_cons_succ hc]
      rw [hstep, ih h.2]
      rfl

/-- A hyphen stands between two characters of a word exactly where they break. -/
theorem hyphenAfter_kebabWord (h : '-' ∉ cs) (n : Nat) : HyphenAfter (kebabWord cs) (n + 1) ↔
    ∃ a b, cs[n]? = some a ∧ cs[n + 1]? = some b ∧ kebabBreak a b cs[n + 2]? = true := by
  cases cs with
  | nil => simp [kebabWord, not_hyphenAfter_nil]
  | cons c cs =>
    rw [List.mem_cons, not_or] at h
    rw [kebabWord, hyphenAfter_cons_succ (toLower_ne_hyphen (Ne.symm h.1)),
      hyphenAfter_kebabTail h.2]
    rfl

end

/-- The neighbours `a` and `b` of a name are parted, where `next` follows: `b` is a capital, and `a`
is none or a small letter follows; or `b` is no capital and one of the two is a letter and the other
a digit, but not in `N2`. -/
def Parted (a b : Char) (next : Option Char) : Prop :=
  (isUpper b = true ∧ (isUpper a = false ∨ next.any isLower = true)) ∨
    isUpper b = false ∧
      ((isLetter a = true ∧ isDigit b = true) ∨ isDigit a = true ∧ isLetter b = true) ∧
      ¬ (a = 'N' ∧ b = '2')

instance (a b : Char) (next : Option Char) : Decidable (Parted a b next) :=
  inferInstanceAs (Decidable (_ ∨ _))

/-- The rule that is computed is the rule that is stated. -/
theorem kebabBreak_iff_parted (a b : Char) (next : Option Char) :
    kebabBreak a b next = true ↔ Parted a b next := by
  have hN : isDigit 'N' = false := by decide
  rw [kebabBreak, Parted]
  cases hb : isUpper b with
  | true => cases next <;> simp
  | false =>
    by_cases hpair : a = 'N' ∧ b = '2'
    · obtain ⟨rfl, rfl⟩ := hpair
      simp [hN, show isLetter 'N' = true by decide, show isDigit '2' = true by decide]
    · have hkept : (a == 'N' && b == '2') = false := by simpa using hpair
      cases isDigit b <;> cases isLetter a <;> simp [hpair, hkept, and_comm]

/-- In kebab case no hyphen stands at an end or beside another one, and without its hyphens the
text is the name in lower case without word marks. In a name without word marks a hyphen stands
between two neighbours exactly when they are parted. -/
theorem kebabCase_hyphens (name : String) :
    SingleHyphens (kebabCase name).toList ∧
      (kebabCase name).toList.filter (· != '-') =
        (name.toList.filter fun c => c != '_' && c != '-').map toLower ∧
      ('_' ∉ name.toList → '-' ∉ name.toList → ∀ (n : Nat) (a b : Char),
        name.toList[n]? = some a → name.toList[n + 1]? = some b →
        (HyphenAfter (kebabCase name).toList (n + 1) ↔ Parted a b name.toList[n + 2]?)) := by
  have hmarks : (fun c => !isWordMark c) = fun c => c != '_' && c != '-' := by
    funext c
    simp [isWordMark, bne]
  have hchars := hyphenated_kebabChars name.toList
  rw [hmarks] at hchars
  rw [kebabCase, String.toList_ofList]
  refine ⟨hchars.singleHyphens, hchars.filter_eq, fun hunder hhyphen n a b ha hb => ?_⟩
  have hnone : name.toList.any isWordMark = false := by
    rw [List.any_eq_false]
    intro c hc hmark
    simp only [isWordMark, Bool.or_eq_true, beq_iff_eq] at hmark
    rcases hmark with rfl | rfl
    · exact hunder hc
    · exact hhyphen hc
  rw [kebabChars_of_not_mark hnone, hyphenAfter_kebabWord hhyphen, ha, hb, ← kebabBreak_iff_parted]
  simp

/-- `N2XMLs` is written `n2-xm-ls`: no hyphen parts `N2` or the first two of three capitals, and the
last of them starts a word. -/
theorem n2XMLs_hyphens :
    ('_' ∉ "N2XMLs".toList ∧ '-' ∉ "N2XMLs".toList) ∧
      ¬ HyphenAfter (kebabCase "N2XMLs").toList 1 ∧ HyphenAfter (kebabCase "N2XMLs").toList 2 ∧
      ¬ HyphenAfter (kebabCase "N2XMLs").toList 3 ∧ HyphenAfter (kebabCase "N2XMLs").toList 4 := by
  have hunder : '_' ∉ "N2XMLs".toList := by decide
  have hhyphen : '-' ∉ "N2XMLs".toList := by decide
  have h := (kebabCase_hyphens "N2XMLs").2.2 hunder hhyphen
  exact ⟨⟨hunder, hhyphen⟩, mt (h 0 'N' '2' rfl rfl).1 (by decide),
    (h 1 '2' 'X' rfl rfl).2 (by decide), mt (h 2 'X' 'M' rfl rfl).1 (by decide),
    (h 3 'M' 'L' rfl rfl).2 (by decide)⟩

end ProtoStub

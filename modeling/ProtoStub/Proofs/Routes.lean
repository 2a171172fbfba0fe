import ProtoStub.Proofs.Hyphens
import Mathlib.Tactic.NormNum

/-!
# Routes of conventional names

A conventional name, here a stem, is made of words: a capital, small letters and perhaps digits
(`IsStem`). In kebab case a hyphen stands before each word but the first, and before the digits of a
word (`kebabChars_stem`): inside a run of letters or digits there is no break (`kebabTail_run`), and
the exception for `N2` never applies, because the capital of a word is followed by a small letter.
Cutting at the hyphens gives the runs back, and capitals come back with them, so Pascal case undoes
kebab case (`pascalCase_kebabCase`).

The digits at the end of a stem follow a small letter, so they are no version, and a version behind
it is read back whole (`splitVersion_version`). A stem in kebab case has no slash; so the parts of a
route can be told apart (`route_eq_iff`), and conventional names share a route only when they must
(`route_inj_of_stems`).
-/

namespace ProtoStub

open Text

/-! ## Stems -/

/-- A word of a conventional name: a capital, small letters, and digits behind them. -/
structure StemWord where
  capital : Char
  small : List Char
  digits : List Char
  isUpper_capital : capital.isUpper = true
  small_ne_nil : small ≠ []
  isLower_small : ∀ c ∈ small, c.isLower = true
  isDigit_digits : ∀ c ∈ digits, c.isDigit = true

namespace StemWord

/-- The characters of a word. -/
def text (w : StemWord) : List Char := w.capital :: (w.small ++ w.digits)

/-- What stands between the hyphens of a word in kebab case. -/
def parts (w : StemWord) : List (List Char) :=
  (toLower w.capital :: w.small) :: if w.digits = [] then [] else [w.digits]

end StemWord

/-- The name is made of words, at least one. -/
def IsStem (name : String) : Prop :=
  ∃ words : List StemWord, words ≠ [] ∧ name.toList = words.flatMap StemWord.text

/-! ## Kebab case -/

section
variable {prev : Char} {cs : List Char}

/-- Nothing is put inside a run of characters of a class without breaks. -/
theorem kebabTail_run {p : Char → Prop} (hlower : ∀ c, p c → toLower c = c)
    (hbreak : ∀ a b next, p a → p b → kebabBreak a b next = false) (hprev : p prev)
    (h : ∀ c ∈ cs, p c) (rest : List Char) :
    kebabTail prev (cs ++ rest) = cs ++ kebabTail (cs.getLastD prev) rest := by
  induction cs generalizing prev with
  | nil => rfl
  | cons c cs ih =>
    obtain ⟨hc, hcs⟩ := List.forall_mem_cons.1 h
    rw [List.cons_append, kebabTail, hbreak prev c _ hprev hc, hlower c hc, ih hc hcs,
      List.getLastD_cons]
    rfl

/-- The last character of a run is one of its class. -/
theorem getLastD_of_forall {p : Char → Prop} (hprev : p prev) (h : ∀ c ∈ cs, p c) :
    p (cs.getLastD prev) := by
  rw [List.getLastD_eq_getLast?]
  cases hlast : cs.getLast? with
  | none => exact hprev
  | some last => exact h last (List.mem_of_getLast? hlast)

/-- Small letters behind a capital, up to the last of them. -/
theorem kebabTail_small (hprev : prev.isUpper = true) (hne : cs ≠ [])
    (h : ∀ c ∈ cs, c.isLower = true) (rest : List Char) :
    ∃ last : Char, last.isLower = true ∧
      kebabTail prev (cs ++ rest) = cs ++ kebabTail last rest := by
  obtain ⟨c, cs, rfl⟩ := List.exists_cons_of_ne_nil hne
  obtain ⟨hc, hcs⟩ := List.forall_mem_cons.1 h
  obtain ⟨hup, hdigit, -, hlow⟩ := small_classes hc
  have hfirst : kebabBreak prev c (cs ++ rest).head? = false := by
    simp [kebabBreak, hup, hdigit, (capital_classes hprev).2.1]
  have hrun := kebabTail_run (fun a ha => (small_classes ha).2.2.2)
    (fun a b _ ha hb => by
      simp [kebabBreak, (small_classes hb).1, (small_classes hb).2.1, (small_classes ha).2.1])
    hc hcs rest
  refine ⟨_, getLastD_of_forall hc hcs, ?_⟩
  rw [List.cons_append, kebabTail, hfirst, hlow, hrun]
  rfl

/-- Digits behind a small letter, up to the last of them. -/
theorem kebabTail_digits (hprev : prev.isLower = true) (hne : cs ≠ [])
    (h : ∀ c ∈ cs, c.isDigit = true) (rest : List Char) :
    ∃ last : Char, last.isDigit = true ∧
      kebabTail prev (cs ++ rest) = '-' :: cs ++ kebabTail last rest := by
  obtain ⟨c, cs, rfl⟩ := List.exists_cons_of_ne_nil hne
  obtain ⟨hc, hcs⟩ := List.forall_mem_cons.1 h
  obtain ⟨hup, hdigit, -, hlow, -⟩ := digit_classes hc
  have hfirst : kebabBreak prev c (cs ++ rest).head? = true := by
    have hn : prev ≠ 'N' := by
      rintro rfl
      exact absurd hprev (by decide)
    simp [kebabBreak, hup, hdigit, (small_classes hprev).2.2.1, hn]
  have hrun := kebabTail_run (fun a ha => (digit_classes ha).2.2.2.1)
    (fun a b _ ha hb => by
      simp [kebabBreak, (digit_classes hb).1, (digit_classes ha).2.2.1, (digit_classes hb).2.2.1])
    hc hcs rest
  refine ⟨_, getLastD_of_forall hc hcs, ?_⟩
  rw [List.cons_append, kebabTail, hfirst, hlow, hrun]
  rfl

end

namespace StemWord

/-- A word from its capital on: a hyphen stands before each of its parts but the first. What follows
the word comes after a character that is no capital. -/
theorem kebabTail_text (w : StemWord) (rest : List Char) :
    ∃ last : Char, isUpper last = false ∧
      '-' :: toLower w.capital :: kebabTail w.capital (w.small ++ w.digits ++ rest) =
        w.parts.flatMap ('-' :: ·) ++ kebabTail last rest := by
  obtain ⟨last, hlast, hsmall⟩ := kebabTail_small w.isUpper_capital w.small_ne_nil w.isLower_small
    (w.digits ++ rest)
  rw [List.append_assoc, hsmall, parts]
  split
  · rename_i hnil
    exact ⟨last, (small_classes hlast).1, by simp [hnil]⟩
  · rename_i hne
    obtain ⟨digit, hdigit, hdigits⟩ := kebabTail_digits hlast hne w.isDigit_digits rest
    exact ⟨digit, (digit_classes hdigit).1, by simp [hdigits]⟩

/-- The parts of a word are runs of small letters and digits. -/
theorem mem_parts {w : StemWord} {part : List Char} (h : part ∈ w.parts) :
    part ≠ [] ∧ ∀ c ∈ part, c.isLower = true ∨ c.isDigit = true := by
  rw [parts, List.mem_cons] at h
  rcases h with rfl | h
  · refine ⟨by simp, fun c hc => .inl ?_⟩
    rcases List.mem_cons.1 hc with rfl | hc
    · exact isLower_toLower w.isUpper_capital
    · exact w.isLower_small c hc
  · split at h
    · cases h
    · rename_i hne
      rw [List.mem_singleton] at h
      subst h
      exact ⟨hne, fun c hc => .inr (w.isDigit_digits c hc)⟩

/-- The parts with their first letters in upper case are the word. -/
theorem flatMap_capitalize_parts (w : StemWord) : w.parts.flatMap capitalize = w.text := by
  have hcapital := (capital_classes w.isUpper_capital).2.2.2
  rw [parts, text]
  split
  · rename_i hnil
    simp [capitalize, hcapital, hnil]
  · rename_i hne
    obtain ⟨d, ds, hds⟩ := List.exists_cons_of_ne_nil hne
    have hd := (digit_classes (w.isDigit_digits d (by simp [hds]))).2.2.2.2
    simp [capitalize, hcapital, hds, hd]

/-- The characters of a word are letters and digits. -/
theorem isAlphanum_of_mem_text {w : StemWord} {c : Char} (h : c ∈ w.text) :
    c.isAlphanum = true := by
  rw [text, List.mem_cons, List.mem_append] at h
  change (c.isUpper || c.isLower || c.isDigit) = true
  rcases h with rfl | h | h
  · simp [w.isUpper_capital]
  · simp [w.isLower_small c h]
  · simp [w.isDigit_digits c h]

end StemWord

/-- Words after a character that is no capital: every part stands behind a hyphen. -/
theorem kebabTail_words (words : List StemWord) {prev : Char} (hprev : isUpper prev = false) :
    kebabTail prev (words.flatMap StemWord.text) =
      (words.flatMap StemWord.parts).flatMap ('-' :: ·) := by
  induction words generalizing prev with
  | nil => rfl
  | cons w words ih =>
    obtain ⟨last, hlast, hword⟩ := w.kebabTail_text (words.flatMap StemWord.text)
    have hbreak : ∀ next, kebabBreak prev w.capital next = true := by
      intro next
      simp [kebabBreak, (capital_classes w.isUpper_capital).1, hprev]
    rw [List.flatMap_cons, List.flatMap_cons, List.flatMap_append, StemWord.text, List.cons_append,
      kebabTail, if_pos (hbreak _), hword, ih hlast]

/-- Cutting at the separator gives the joined texts back. -/
theorem fields_intercalate {p : Char → Bool} {sep : Char} (hsep : p sep = true)
    {parts : List (List Char)} (h : ∀ part ∈ parts, part ≠ [] ∧ ∀ c ∈ part, p c = false) :
    fields p ([sep].intercalate parts) = parts := by
  have hfilter : parts.filter (!·.isEmpty) = parts :=
    List.filter_eq_self.2 fun part hpart => by simpa using (h part hpart).1
  rw [fields, pieces_eq_splitOnP]
  cases parts with
  | nil => rfl
  | cons part parts =>
    suffices hsplit : ([sep].intercalate (part :: parts)).splitOnP p = part :: parts by
      rw [hsplit, hfilter]
    clear hfilter
    induction parts generalizing part with
    | nil => rw [List.intercalate_singleton, List.splitOnP_eq_singleton (h part (by simp)).2]
    | cons next parts ih =>
      obtain ⟨hpart, hrest⟩ := List.forall_mem_cons.1 h
      rw [List.intercalate_cons_cons, List.append_assoc, List.singleton_append,
        List.splitOnP_append_cons_of_forall_mem hpart.2 sep hsep, ih next hrest]

/-- A stem in kebab case: its parts with hyphens between them. -/
theorem kebabChars_stem {words : List StemWord} (hne : words ≠ []) :
    kebabChars (words.flatMap StemWord.text) =
      ['-'].intercalate (words.flatMap StemWord.parts) := by
  have hmarks : (words.flatMap StemWord.text).any isWordMark = false := by
    rw [List.any_eq_false]
    intro c hc hmark
    obtain ⟨w, -, hc⟩ := List.mem_flatMap.1 hc
    have halnum := StemWord.isAlphanum_of_mem_text hc
    simp only [isWordMark, Bool.or_eq_true, beq_iff_eq] at hmark
    rcases hmark with rfl | rfl <;> exact absurd halnum (by decide)
  obtain ⟨w, words, rfl⟩ := List.exists_cons_of_ne_nil hne
  have hparts : (w :: words).flatMap StemWord.parts ≠ [] := by simp [StemWord.parts]
  obtain ⟨last, hlast, hword⟩ := w.kebabTail_text (words.flatMap StemWord.text)
  have hjoin := cons_intercalate '-' hparts
  rw [List.flatMap_cons, List.flatMap_append, ← kebabTail_words words hlast, ← hword] at hjoin
  rw [kebabChars_of_not_mark hmarks]
  exact (List.cons.inj hjoin).2.symm

/-- Pascal case undoes kebab case. -/
theorem IsStem.pascalCase_kebabCase {name : String} (h : IsStem name) :
    pascalCase (kebabCase name) = name := by
  obtain ⟨words, hne, htext⟩ := h
  have hparts : ∀ part ∈ words.flatMap StemWord.parts,
      part ≠ [] ∧ ∀ c ∈ part, (isWordMark c || c == '.') = false := by
    intro part hpart
    obtain ⟨w, -, hpart⟩ := List.mem_flatMap.1 hpart
    refine ⟨(StemWord.mem_parts hpart).1, fun c hc => ?_⟩
    have hclass := (StemWord.mem_parts hpart).2 c hc
    rw [Bool.eq_false_iff]
    intro hmark
    simp only [isWordMark, Bool.or_eq_true, beq_iff_eq] at hmark
    rcases hmark with (rfl | rfl) | rfl <;> exact absurd hclass (by decide)
  rw [pascalCase, kebabCase, String.toList_ofList, htext, kebabChars_stem hne,
    fields_intercalate (by decide) hparts, List.flatMap_assoc]
  simp only [StemWord.flatMap_capitalize_parts, ← htext, String.ofList_toList]

/-! ## Versions -/

/-- The digits of a number spell it. -/
theorem decimalValue_repr (n : Nat) : decimalValue n.repr.toList = n := by
  have hvalue : ∀ ds, decimalValue ds = Nat.ofDigitChars 10 ds 0 := by
    intro ds
    rw [decimalValue, Nat.ofDigitChars_eq_foldl]
    simp only [Nat.mul_comm]
  rw [hvalue, Nat.toList_repr, Nat.ofDigitChars_ten_toDigits]

/-- A name is cut at the last character that is no digit. -/
theorem splitVersion_append {stem digits : List Char} {v : Char} (hv : v.isDigit = false)
    (hdigits : ∀ d ∈ digits, d.isDigit = true) :
    splitVersion (String.ofList (stem ++ v :: digits)) =
      if v = 'V' ∧ stem ≠ [] ∧ digits ≠ [] then
        (String.ofList stem,
          if decimalValue digits < 1 ∨ maxVersion < decimalValue digits then 1
          else decimalValue digits)
      else (String.ofList (stem ++ v :: digits), 1) := by
  have hreverse : (String.ofList (stem ++ v :: digits)).toList.reverse =
      digits.reverse ++ v :: stem.reverse := by simp
  have hclass : ∀ d ∈ digits.reverse, d.isDigit = true :=
    fun d hd => hdigits d (List.mem_reverse.1 hd)
  have htake : (digits.reverse ++ v :: stem.reverse).takeWhile (·.isDigit) = digits.reverse := by
    rw [List.takeWhile_append_of_pos hclass]
    simp [hv]
  have hdrop : (digits.reverse ++ v :: stem.reverse).dropWhile (·.isDigit) = v :: stem.reverse := by
    rw [List.dropWhile_append_of_pos hclass]
    simp [hv]
  rw [splitVersion, hreverse, htake, hdrop]
  simp [and_assoc]

section
variable {name : String}

/-- What stands before the digits at the end of a stem is a small letter. -/
theorem IsStem.exists_append (h : IsStem name) : ∃ (front : List Char) (last : Char)
    (digits : List Char), last.isLower = true ∧ (∀ d ∈ digits, d.isDigit = true) ∧
      name.toList = front ++ last :: digits := by
  obtain ⟨words, hne, htext⟩ := h
  obtain ⟨words, w, rfl⟩ := (List.eq_nil_or_concat words).resolve_left hne
  obtain ⟨small, last, hsmall⟩ := (List.eq_nil_or_concat w.small).resolve_left w.small_ne_nil
  refine ⟨words.flatMap StemWord.text ++ w.capital :: small, last, w.digits,
    w.isLower_small last (by simp [hsmall]), w.isDigit_digits, ?_⟩
  simp [htext, StemWord.text, hsmall]

/-- The digits at the end of a stem are no version. -/
theorem IsStem.splitVersion_eq (h : IsStem name) : splitVersion name = (name, 1) := by
  obtain ⟨front, last, digits, hlast, hdigits, htext⟩ := h.exists_append
  have hrange := isLower_iff.1 hlast
  have hdigit : last.isDigit = false := by
    rw [Bool.eq_false_iff]
    intro hd
    have := isDigit_iff.1 hd
    omega
  have hv : last ≠ 'V' := by
    rintro rfl
    exact absurd hlast (by decide)
  have hname : String.ofList (front ++ last :: digits) = name := by
    rw [← htext, String.ofList_toList]
  rw [← hname, splitVersion_append hdigit hdigits, if_neg fun hall => hv hall.1]

/-- A version behind a stem is read back. -/
theorem IsStem.splitVersion_version (h : IsStem name) {n : Nat} (hpos : 1 ≤ n)
    (hmax : n ≤ maxVersion) : splitVersion (name ++ "V" ++ toString n) = (name, n) := by
  obtain ⟨front, last, digits, -, -, htext⟩ := h.exists_append
  have hdigits : ∀ d ∈ n.repr.toList, d.isDigit = true := by
    intro d hd
    rw [Nat.toList_repr] at hd
    exact Nat.isDigit_of_mem_toDigits (by omega) (by omega) hd
  have hname : name ++ "V" ++ toString n = String.ofList (name.toList ++ 'V' :: n.repr.toList) := by
    apply String.toList_inj.1
    simp
  rw [hname, splitVersion_append (by decide) hdigits, decimalValue_repr, if_pos, if_neg (by omega),
    String.ofList_toList]
  refine ⟨rfl, by simp [htext], ?_⟩
  rw [Nat.toList_repr]
  exact Nat.toDigits_ne_nil

/-! ## Routes -/

/-- There is no slash in a stem in kebab case. -/
theorem IsStem.slash_notMem (h : IsStem name) : '/' ∉ (kebabCase name).toList := by
  obtain ⟨words, hne, htext⟩ := h
  intro hslash
  rw [kebabCase, String.toList_ofList, htext, kebabChars_stem hne] at hslash
  obtain ⟨w, words, rfl⟩ := List.exists_cons_of_ne_nil hne
  have hmem := List.mem_cons_of_mem '-' hslash
  rw [cons_intercalate '-' (by simp [StemWord.parts])] at hmem
  obtain ⟨part, hpart, hc⟩ := List.mem_flatMap.1 hmem
  obtain ⟨w', -, hpart⟩ := List.mem_flatMap.1 hpart
  have hc : '/' ∈ part := by simpa using hc
  exact absurd ((StemWord.mem_parts hpart).2 _ hc) (by decide)

/-- Procedures whose stems are conventional have one route only when stem and version are the
same. -/
theorem route_eq_iff {baseName a b s t : String} {m n : Nat} (ha : splitVersion a = (s, m))
    (hb : splitVersion b = (t, n)) (hs : IsStem s) (ht : IsStem t) :
    route baseName a = route baseName b ↔ s = t ∧ m = n := by
  simp only [route, ha, hb]
  constructor
  · intro h
    have htail : kebabCase s ++ "/" ++ ("v" ++ toString m) =
        kebabCase t ++ "/" ++ ("v" ++ toString n) := by
      apply String.toList_inj.1
      simpa using congrArg String.toList h
    -- The first slash ends the stem, on both sides.
    have hfirst : ∀ {u : String} (v : String), '/' ∉ u.toList →
        split '/' (u ++ "/" ++ v) = u :: split '/' v := by
      intro u v hu
      exact (split_append_singleton '/' u v).trans (by rw [split_of_not_mem hu]; rfl)
    have hcut := congrArg (split '/') htail
    rw [hfirst _ hs.slash_notMem, hfirst _ ht.slash_notMem] at hcut
    have hkebab := (List.cons.inj hcut).1
    rw [hkebab, String.append_right_inj, String.append_right_inj] at htail
    have hstem := congrArg pascalCase hkebab
    rw [hs.pascalCase_kebabCase, ht.pascalCase_kebabCase] at hstem
    have hvalue := congrArg (decimalValue ·.toList) htail
    exact ⟨hstem, (decimalValue_repr _).symm.trans (hvalue.trans (decimalValue_repr _))⟩
  · rintro ⟨rfl, rfl⟩
    rfl

end

/-- Conventional names are read back from their routes: Pascal case undoes kebab case, a stem
without version has version one, and a version behind it is read back. So the routes of two
procedures of a file are the same only when their stems and versions are. -/
theorem route_inj_of_stems :
    (∀ s, IsStem s → pascalCase (kebabCase s) = s ∧ splitVersion s = (s, 1) ∧
      ∀ n, 1 ≤ n → n < 2 ^ 63 → splitVersion (s ++ "V" ++ toString n) = (s, n)) ∧
    ∀ baseName s t, IsStem s → IsStem t → ∀ n, 1 ≤ n → n < 2 ^ 63 →
      (∀ m, 1 ≤ m → m < 2 ^ 63 →
        (route baseName (s ++ "V" ++ toString m) = route baseName (t ++ "V" ++ toString n) ↔
          s = t ∧ m = n)) ∧
      (route baseName s = route baseName (t ++ "V" ++ toString n) ↔ s = t ∧ n = 1) := by
  have hversion : ∀ {s}, IsStem s → ∀ {n}, 1 ≤ n → n < 2 ^ 63 →
      splitVersion (s ++ "V" ++ toString n) = (s, n) := by
    intro s hs n hpos hlt
    exact hs.splitVersion_version hpos (by rw [maxVersion]; omega)
  refine ⟨fun s hs => ⟨hs.pascalCase_kebabCase, hs.splitVersion_eq, fun n => hversion hs⟩,
    fun baseName s t hs ht n hpos hlt => ⟨fun m hm hmlt => ?_, ?_⟩⟩
  · exact route_eq_iff (hversion hs hm hmlt) (hversion ht hpos hlt) hs ht
  · rw [route_eq_iff hs.splitVersion_eq (hversion ht hpos hlt) hs ht, eq_comm (a := 1)]

/-- A stem with digits in the middle and at the end. -/
theorem isStem_get2Users10 : IsStem "Get2Users10" :=
  ⟨[⟨'G', ['e', 't'], ['2'], by decide, by decide, by simp, by simp⟩,
    ⟨'U', ['s', 'e', 'r', 's'], ['1', '0'], by decide, by decide, by simp, by simp⟩],
    by simp, by decide⟩

/-- Its first version has the route of the stem alone, and the second has another. -/
theorem get2Users10_routes : IsStem "Get2Users10" ∧
    pascalCase (kebabCase "Get2Users10") = "Get2Users10" ∧
    splitVersion ("Get2Users10" ++ "V" ++ toString 2) = ("Get2Users10", 2) ∧
    route "users" "Get2Users10" = route "users" ("Get2Users10" ++ "V" ++ toString 1) ∧
    route "users" ("Get2Users10" ++ "V" ++ toString 1) ≠
      route "users" ("Get2Users10" ++ "V" ++ toString 2) := by
  have hstem := isStem_get2Users10
  obtain ⟨hback, -, hversion⟩ := route_inj_of_stems.1 _ hstem
  have hone := route_inj_of_stems.2 "users" _ _ hstem hstem 1 (by decide) (by norm_num)
  have htwo := route_inj_of_stems.2 "users" _ _ hstem hstem 2 (by decide) (by norm_num)
  refine ⟨hstem, hback, hversion 2 (by decide) (by norm_num), hone.2.2 ⟨rfl, rfl⟩, fun heq => ?_⟩
  exact absurd ((htwo.1 1 (by decide) (by norm_num)).1 heq).2 (by decide)

-- Outside the convention: a version behind a name that is no stem, and a number that is no version.
example : splitVersion "GetN2DataV3" = ("GetN2Data", 3) ∧ splitVersion "V2" = ("V2", 1) := by
  decide

end ProtoStub

import ProtoStub.Proofs.Letters
import ProtoStub.Proofs.Rendering
import ProtoStub.Token.Lexer
import Mathlib.Data.List.Infix
import Mathlib.Data.List.Nodup

/-!
# Cutting undoes printing

A source is a list of items, each a token as it is written, with layout before, between and after
them: blanks, comments to the end of their line and comments between marks (`Source`). What may be
written, and that two items are kept apart, is part of the types. Whatever the layout, cutting the
text of a source gives its items back, each on the line that the line ends before it count
(`tokenize_text`).

`skipGap_gapText` passes over layout, piece by piece; `Item.scanToken_text` reads one item, with one
lemma for each kind; `tokensFrom_itemsText` runs over all items, by induction on them.
-/

namespace ProtoStub

open Text

/-! ## Bytes -/

/-- A byte array is listed from the place `i` on behind what has been listed so far. -/
theorem toList_loop_toByteArray (bytes : List UInt8) (i : Nat) (listed : List UInt8) :
    ByteArray.toList.loop bytes.toByteArray i listed = listed.reverse ++ bytes.drop i := by
  have hdata : bytes.toByteArray.data.toList = bytes := by simp
  induction hn : bytes.length - i generalizing i listed with
  | zero =>
    have hsize : ¬i < bytes.toByteArray.size := by simp; omega
    rw [ByteArray.toList.loop, if_neg hsize, List.drop_eq_nil_of_le (by omega), List.append_nil]
  | succ n ih =>
    have hi : i < bytes.length := by omega
    have hsize : i < bytes.toByteArray.size := by simpa using hi
    have hbyte : bytes.toByteArray.get! i = bytes[i] := by
      rw [ByteArray.get!, getElem!_pos _ i hsize]
      simp
    rw [ByteArray.toList.loop, if_pos hsize, hbyte, ih _ _ (by omega), List.reverse_cons,
      List.append_assoc, List.singleton_append, List.drop_eq_getElem_cons hi]

/-- The bytes of a text, as its encoding lists them. -/
theorem bytesOf_eq (s : String) : bytesOf s = s.toList.flatMap String.utf8EncodeChar := by
  have hs : s.toByteArray = (s.toList.flatMap String.utf8EncodeChar).toByteArray := by
    rw [← List.utf8Encode, ← String.toByteArray_ofList, String.ofList_toList]
  rw [bytesOf, String.toUTF8_eq_toByteArray, hs, ByteArray.toList, toList_loop_toByteArray]
  rfl

/-- The bytes of a text are those of its characters, in order. -/
theorem bytesOf_eq_flatMap (s : String) : bytesOf s = s.toList.flatMap charBytes := by
  have hchar : charBytes = String.utf8EncodeChar := by
    funext c
    have h := bytesOf_eq (String.singleton c)
    rw [bytesOf] at h
    rw [charBytes, h]
    simp
  rw [hchar, bytesOf_eq]

/-- The bytes of an ASCII text are read back to its characters. -/
theorem glyphs_bytesOf_ascii {cs : List Char} (h : ∀ c ∈ cs, c.toNat < 128) :
    glyphs (bytesOf (String.ofList cs)) = cs.map Glyph.char := by
  rw [bytesOf_eq, String.toList_ofList]
  induction cs with
  | nil => simp [glyphs]
  | cons c cs ih =>
    have hc : c.val.toNat < 128 := h c (by simp)
    have henc : String.utf8EncodeChar c = [UInt8.ofNat c.val.toNat] := by
      simp only [String.utf8EncodeChar]
      rw [if_pos (by omega)]
    have hbyte : (UInt8.ofNat c.val.toNat).toNat = c.toNat := by
      rw [UInt8.toNat_ofNat']
      exact Nat.mod_eq_of_lt (by omega)
    have hseq : ∀ bs, sequenceAt (UInt8.ofNat c.val.toNat) bs = some (c, 0) := by
      intro bs
      have hlt : UInt8.ofNat c.val.toNat < 0x80 := by
        rw [UInt8.lt_iff_toNat_lt, hbyte]
        exact hc
      unfold sequenceAt
      rw [if_pos hlt, hbyte, Char.ofNat_toNat]
    rw [List.flatMap_cons, henc, List.singleton_append, glyphs]
    simp only [hseq, List.drop_zero, List.map_cons, ih fun d hd => h d (by simp [hd])]

namespace Printed

/-! ## What is written -/

/-- An ASCII character other than NUL. -/
def isPlain (c : Char) : Bool := 0 < c.toNat && c.toNat < 128

/-- A printable ASCII character. -/
def isShown (c : Char) : Bool := 32 ≤ c.toNat && c.toNat < 127

/-- One piece of layout. -/
inductive Piece where
  | blank (c : Char) (h : isBlank c = true)
  /-- A comment to the end of its line. -/
  | line (text : List Char) (h : ∀ c ∈ text, isPlain c = true ∧ c ≠ '\n')
  /-- A comment between marks; it holds no closing mark. -/
  | block (text : List Char) (h : ∀ c ∈ text, isPlain c = true) (hend : ¬['*', '/'] <:+: text)

/-- A piece of layout as it is written. -/
def Piece.text : Piece → List Char
  | blank c _ => [c]
  | line text _ => '/' :: '/' :: (text ++ ['\n'])
  | block text _ _ => '/' :: '*' :: (text ++ ['*', '/'])

/-- Layout as it is written. -/
def gapText (gap : List Piece) : List Char := gap.flatMap Piece.text

/-- The layout starts with a blank. -/
def StartsBlank (gap : List Piece) : Prop := ∃ c h rest, gap = .blank c h :: rest

/-- ASCII letters, digits and underscores, with no digit first. -/
def isAsciiName : List Char → Bool
  | [] => false
  | c :: cs => (c.isAlpha || c == '_') && cs.all fun d => d.isAlphanum || d == '_'

/-- ASCII punctuation other than quotes and the underscore. -/
def isPunctuation (c : Char) : Bool :=
  isShown c && c != ' ' && !c.isAlphanum && c != '"' && c != '\'' && c != rawQuote && c != '_'

/-- A character that stands for itself between quotes of either kind. -/
def IsQuotable (c : Char) : Prop := isShown c = true ∧ c ≠ '"' ∧ c ≠ '\'' ∧ c ≠ '\\'

instance (c : Char) : Decidable (IsQuotable c) := inferInstanceAs (Decidable (_ ∧ _))

/-- A token as it is written. -/
inductive Item where
  | ident (name : String) (h : isAsciiName name.toList = true)
  /-- A decimal number without leading zeros. -/
  | int (n : Nat)
  /-- A string between double or single quotes. -/
  | string (quote : Char) (hquote : quote = '"' ∨ quote = '\'') (value : String)
    (h : ∀ c ∈ value.toList, IsQuotable c)
  | mark (c : Char) (h : isPunctuation c = true)

/-- An item as it is written. -/
def Item.text : Item → List Char
  | ident name _ => name.toList
  | int n => n.repr.toList
  | string quote _ value _ => quote :: (value.toList ++ [quote])
  | mark c _ => [c]

/-- The token that an item writes. -/
def Item.lexeme : Item → Lexeme
  | ident name _ => .ident name
  | int n => .int n.repr
  | string _ _ value _ => .string (bytesOf value)
  | mark c _ => .symbol c

/-- Items with the layout after each, as they are written. -/
def itemsText (items : List (Item × List Piece)) : List Char :=
  items.flatMap fun (item, gap) => item.text ++ gapText gap

/-- A blank follows every item; the last may also end the source. -/
def Apart : List (Item × List Piece) → Prop
  | [] => True
  | (_, gap) :: rest => (StartsBlank gap ∨ gap = [] ∧ rest = []) ∧ Apart rest

/-- A source: layout, then items with the layout after each. -/
structure Source where
  before : List Piece
  items : List (Item × List Piece)
  apart : Apart items

namespace Source

/-- The text before the `k`-th item. -/
def textBefore (s : Source) (k : Nat) : List Char := gapText s.before ++ itemsText (s.items.take k)

/-- The text of the source. -/
def text (s : Source) : String := String.ofList (gapText s.before ++ itemsText s.items)

/-- The items with their lines: one more than the line ends before them. -/
def tokens (s : Source) : List Token :=
  s.items.mapIdx fun k (item, _) => ⟨item.lexeme, 1 + (s.textBefore k).count '\n'⟩

end Source

/-! ## Plain text has no faults -/

/-- All characters are ASCII and none is NUL. -/
def Plain (cs : List Char) : Prop := ∀ c ∈ cs, isPlain c = true

/-- Texts that are read as they are can be put together. -/
theorem Plain.append {cs ds : List Char} (hc : Plain cs) (hd : Plain ds) : Plain (cs ++ ds) :=
  fun c h => (List.mem_append.1 h).elim (hc c) (hd c)

/-- A plain character is no fault. -/
theorem glyphFault?_char {c : Char} (h : isPlain c = true) : glyphFault? (.char c) = none := by
  have hc : c ≠ Char.ofNat 0 := by
    rintro rfl
    exact absurd h (by decide)
  simp [glyphFault?, hc]

/-- Looking one character ahead meets no fault in a plain text. -/
theorem aheadFault?_map {cs : List Char} (h : Plain cs) : aheadFault? (cs.map .char) = none := by
  cases cs with
  | nil => rfl
  | cons c cs => exact glyphFault?_char (h c (by simp))

/-- A plain text has no first fault. -/
theorem firstFault?_map {cs : List Char} (h : Plain cs) : firstFault? (cs.map .char) = none := by
  rw [firstFault?, List.findSome?_eq_none_iff]
  intro g hg
  obtain ⟨c, hc, rfl⟩ := List.mem_map.1 hg
  exact glyphFault?_char (h c hc)

/-- Blanks are plain. -/
theorem isPlain_of_isBlank {c : Char} (h : isBlank c = true) : isPlain c = true := by
  simp only [isBlank, Bool.or_eq_true, beq_iff_eq] at h
  obtain ((rfl | rfl) | rfl) | rfl := h <;> decide

/-- The characters that can be shown are plain. -/
theorem isPlain_of_isShown {c : Char} (h : isShown c = true) : isPlain c = true := by
  simp only [isShown, isPlain, Bool.and_eq_true, decide_eq_true_eq] at h ⊢
  omega

/-- Of the ASCII characters only letters and the underscore start names. -/
theorem startsIdent_eq_false {c : Char} (h : isPlain c = true) (ha : c.isAlpha = false)
    (hc : c ≠ '_') : startsIdent c = false := by
  simp only [isPlain, Bool.and_eq_true, decide_eq_true_eq] at h
  have hlow : ¬128 ≤ c.toNat := by omega
  simp [startsIdent, isLetter, ha, hc, hlow]

/-- A piece of layout is plain, in all its three kinds. -/
theorem Piece.plain_text (p : Piece) : Plain p.text := by
  cases p with
  | blank c h =>
    intro d hd
    obtain rfl := List.mem_singleton.1 hd
    exact isPlain_of_isBlank h
  | line text h =>
    intro d hd
    simp only [Piece.text, List.mem_cons, List.mem_append, List.not_mem_nil, or_false] at hd
    obtain rfl | rfl | hd | rfl := hd
    · decide
    · decide
    · exact (h d hd).1
    · decide
  | block text h hend =>
    intro d hd
    simp only [Piece.text, List.mem_cons, List.mem_append, List.not_mem_nil, or_false] at hd
    obtain rfl | rfl | hd | rfl | rfl := hd
    · decide
    · decide
    · exact h d hd
    · decide
    · decide

/-- Layout is plain, piece by piece. -/
theorem plain_gapText (gap : List Piece) : Plain (gapText gap) := by
  intro c hc
  obtain ⟨p, -, hp⟩ := List.mem_flatMap.1 hc
  exact p.plain_text c hp

/-! ## Layout -/

/-- What ends an item: the end of the text, or a blank. -/
def Stops (after : List Char) : Prop := ∀ c ∈ after.head?, isBlank c = true

/-- The line ends of a text are its newline characters. -/
theorem lineEnds_map (cs : List Char) : lineEnds (cs.map .char) = cs.count '\n' := by
  rw [lineEnds, List.countP_map, List.count]
  rfl

/-- A blank is passed over, and counts as a line when it ends one. -/
theorem skipGap_blank {c : Char} (h : isBlank c = true) {rest : List Char} (hrest : Plain rest)
    (line mark : Nat) :
    skipGap ((c :: rest).map .char) line mark none =
      skipGap (rest.map .char) (line + [c].count '\n') mark none := by
  rw [List.map_cons, skipGap.eq_def]
  simp only [Glyph.all, h, if_true, aheadFault?_map hrest]
  simp [lineEnds, Glyph.is, List.count_cons]

/-- A comment to the end of its line is passed over up to that end, which is left. -/
theorem skipGap_line {text : List Char} (h : ∀ c ∈ text, isPlain c = true ∧ c ≠ '\n')
    (rest : List Char) (line mark : Nat) :
    skipGap (('/' :: '/' :: (text ++ '\n' :: rest)).map .char) line mark none =
      skipGap (('\n' :: rest).map .char) line line none := by
  have hinside : ∀ g ∈ text.map Glyph.char, (!g.is '\n') = true := by
    intro g hg
    obtain ⟨c, hc, rfl⟩ := List.mem_map.1 hg
    simp [Glyph.is, (h c hc).2]
  have htake : ((text ++ '\n' :: rest).map Glyph.char).takeWhile (!·.is '\n') =
      text.map Glyph.char := by
    rw [List.map_append, List.takeWhile_append_of_pos hinside]
    simp [Glyph.is]
  have hdrop : ((text ++ '\n' :: rest).map Glyph.char).dropWhile (!·.is '\n') =
      ('\n' :: rest).map Glyph.char := by
    rw [List.map_append, List.dropWhile_append_of_pos hinside]
    simp [Glyph.is]
  rw [List.map_cons, List.map_cons, skipGap.eq_def]
  simp only [htake, hdrop, firstFault?_map fun c hc => (h c hc).1]
  rfl

/-- A comment between marks ends at the first end mark, which is not in its text. -/
theorem splitBlockComment_text {text : List Char} (h : ¬['*', '/'] <:+: text) (rest : List Char) :
    splitBlockComment ((text ++ '*' :: '/' :: rest).map .char) =
      some (text.map .char, rest.map .char) := by
  induction text with
  | nil => rfl
  | cons c text ih =>
    have htail : ¬['*', '/'] <:+: text := fun ht => h (ht.trans (List.suffix_cons c text).isInfix)
    -- The closing mark does not start at `c`: the next character is the mark's own start, or
    -- inside.
    have hc : ∀ d ds, text ++ '*' :: '/' :: rest = d :: ds → ¬(c = '*' ∧ d = '/') := by
      rintro d ds hd ⟨rfl, rfl⟩
      cases text with
      | nil => simp at hd
      | cons e text =>
        obtain rfl : e = '/' := by simpa using (List.cons.inj hd).1
        exact h ⟨[], text, rfl⟩
    cases hd : text ++ '*' :: '/' :: rest with
    | nil => simp at hd
    | cons d ds =>
      have hmark : ((Glyph.char c).is '*' && (Glyph.char d).is '/') = false := by
        simpa [Glyph.is] using hc d ds hd
      have hrest := ih htail
      rw [hd, List.map_cons] at hrest
      rw [List.cons_append, hd, List.map_cons, List.map_cons, splitBlockComment, hmark, hrest]
      rfl

/-- A comment between marks is passed over with the lines in it. -/
theorem skipGap_block {text : List Char} (h : Plain text) (hend : ¬['*', '/'] <:+: text)
    {rest : List Char} (hrest : Plain rest) (line mark : Nat) :
    skipGap (('/' :: '*' :: (text ++ '*' :: '/' :: rest)).map .char) line mark none =
      skipGap (rest.map .char) (line + text.count '\n') line none := by
  rw [List.map_cons, List.map_cons, skipGap.eq_def]
  have hblank : (Glyph.char '/').all isBlank = false := by decide
  have hslash : (Glyph.char '/').is '/' = true := by decide
  have hnoLine : (Glyph.char '*').is '/' = false := by decide
  have hstar : (Glyph.char '*').is '*' = true := by decide
  simp only [hblank, hslash, hnoLine, hstar, if_true, Bool.false_eq_true, if_false]
  split
  · rename_i inside after hsplit
    rw [splitBlockComment_text hend rest] at hsplit
    cases hsplit
    rw [firstFault?_map h, aheadFault?_map hrest, lineEnds_map]
    rfl
  · rename_i hsplit
    rw [splitBlockComment_text hend rest] at hsplit
    cases hsplit

/-- A piece of layout is passed over; afterwards faults may be reported on another line. -/
theorem Piece.skipGap_text (p : Piece) {rest : List Char} (hrest : Plain rest) (line mark : Nat) :
    ∃ mark', skipGap ((p.text ++ rest).map .char) line mark none =
      skipGap (rest.map .char) (line + p.text.count '\n') mark' none := by
  cases p with
  | blank c h => exact ⟨mark, skipGap_blank h hrest line mark⟩
  | line text h =>
    have hcount : text.count '\n' = 0 := List.count_eq_zero.2 fun hmem => (h _ hmem).2 rfl
    refine ⟨line, ?_⟩
    rw [Piece.text, List.cons_append, List.cons_append, List.append_assoc, List.singleton_append,
      skipGap_line h, skipGap_blank rfl hrest]
    simp [List.count_append, hcount]
  | block text h hend =>
    refine ⟨line, ?_⟩
    rw [Piece.text, List.cons_append, List.cons_append, List.append_assoc, List.cons_append,
      List.singleton_append, skipGap_block h hend hrest]
    simp [List.count_append]

/-- Layout is passed over, and its line ends are counted. -/
theorem skipGap_gapText (gap : List Piece) {rest : List Char} (hrest : Plain rest)
    (line mark : Nat) :
    ∃ mark', skipGap ((gapText gap ++ rest).map .char) line mark none =
      skipGap (rest.map .char) (line + (gapText gap).count '\n') mark' none := by
  induction gap generalizing line mark with
  | nil => exact ⟨mark, by simp [gapText]⟩
  | cons p gap ih =>
    have hcons : gapText (p :: gap) = p.text ++ gapText gap := List.flatMap_cons
    obtain ⟨mark', hp⟩ := p.skipGap_text ((plain_gapText gap).append hrest) line mark
    obtain ⟨mark'', hgap⟩ := ih (line + p.text.count '\n') mark'
    refine ⟨mark'', ?_⟩
    rw [hcons, List.append_assoc, hp, hgap, List.count_append, Nat.add_assoc]

/-! ## Items -/

/-- A token that starts with `c` and goes on with `cs` is read as `lexeme`, up to a blank or the end
of the text. -/
def Scans (c : Char) (cs : List Char) (lexeme : Lexeme) : Prop :=
  ∀ {after : List Char}, Plain after → Stops after → ∀ line : Nat,
    scanToken (.char c) ((cs ++ after).map .char) line none = .ok ⟨lexeme, 0, after.map .char⟩

/-- The four blanks. -/
theorem isBlank_cases {c : Char} (h : isBlank c = true) :
    c = ' ' ∨ c = '\t' ∨ c = '\n' ∨ c = '\r' := by
  simpa [isBlank, or_assoc] using h

/-- The end of an item continues no token. -/
theorem Stops.not_continues {after : List Char} (h : Stops after) {p : Char → Bool}
    (hp : p ' ' = false ∧ p '\t' = false ∧ p '\n' = false ∧ p '\r' = false) :
    ∀ c ∈ after.head?, p c = false := by
  intro c hc
  obtain rfl | rfl | rfl | rfl := isBlank_cases (h c hc)
  · exact hp.1
  · exact hp.2.1
  · exact hp.2.2.1
  · exact hp.2.2.2

/-- Characters are read back from their glyphs. -/
theorem charsOf_map_char (cs : List Char) : charsOf (cs.map .char) = cs := by
  rw [charsOf, List.map_map]
  exact List.map_id cs

/-- The longest run of a class is cut off where the class ends. -/
theorem takeChars_append {p : Char → Bool} {cs after : List Char} (h : ∀ c ∈ cs, p c = true)
    (hafter : ∀ c ∈ after.head?, p c = false) :
    takeChars p ((cs ++ after).map .char) = cs ∧
      dropChars p ((cs ++ after).map .char) = after.map .char := by
  have hall : ∀ g ∈ cs.map Glyph.char, g.all p = true := by
    intro g hg
    obtain ⟨c, hc, rfl⟩ := List.mem_map.1 hg
    exact h c hc
  rw [takeChars, dropChars, List.map_append, List.takeWhile_append_of_pos hall,
    List.dropWhile_append_of_pos hall]
  have hchars := charsOf_map_char cs
  rw [charsOf] at hchars
  cases after with
  | nil => simpa using hchars
  | cons c after =>
    have hc : (Glyph.char c).all p = false := hafter c rfl
    simpa [hc] using hchars

/-- In front of plain text a token is finished without a fault. -/
theorem finish_plain (lexeme : Lexeme) (lines : Nat) {after : List Char} (h : Plain after) :
    Scanned.finish lexeme lines (after.map .char) = .ok ⟨lexeme, lines, after.map .char⟩ := by
  rw [Scanned.finish, aheadFault?_map h]

/-- A token that starts with no single quote is read like a plain one. -/
theorem scanToken_of_scanPlain {c : Char} (hc : c ≠ '\'') {gs : List Glyph} {s : Scanned}
    (h : scanPlain (.char c) gs = .ok s) (line : Nat) :
    scanToken (.char c) gs line none = .ok s := by
  have hquote : (Glyph.char c).is '\'' = false := by simpa [Glyph.is] using hc
  rw [scanToken, hquote, h]
  rfl

/-! ### Names -/

/-- A name is read as one word. -/
theorem scans_ident {c : Char} {cs : List Char} (h : isAsciiName (c :: cs) = true) :
    Scans c cs (.ident (String.ofList (c :: cs))) := by
  intro after hplain hstops line
  simp only [isAsciiName, Bool.and_eq_true, Bool.or_eq_true, List.all_eq_true, beq_iff_eq] at h
  have hstart : (Glyph.char c).all startsIdent = true := by
    simp only [Glyph.all, startsIdent, isLetter, Bool.or_eq_true, beq_iff_eq]
    exact h.1.elim (fun hc => .inr (.inl hc)) .inl
  have hcontinues : ∀ d ∈ cs, continuesIdent d = true := by
    intro d hd
    simp only [continuesIdent, startsIdent, isLetter, isDigit, Bool.or_eq_true, beq_iff_eq]
    obtain hd | hd := h.2 d hd
    · rw [Char.isAlphanum, Bool.or_eq_true] at hd
      exact hd.elim (fun ha => .inl (.inr (.inl ha))) fun hn => .inr (.inl hn)
    · exact .inl (.inl hd)
  obtain ⟨htake, hdrop⟩ := takeChars_append hcontinues (hstops.not_continues (by decide +kernel))
  have hquote : c ≠ '\'' := by
    rintro rfl
    exact absurd h.1 (by decide)
  refine scanToken_of_scanPlain hquote ?_ line
  rw [scanPlain, if_pos hstart, htake, hdrop, finish_plain _ _ hplain]
  rfl

/-! ### Numbers -/

/-- The radix of a numeral without leading zeros. -/
def radixOf (c : Char) : Radix := if c = '0' then .zeroOctal else .decimal

/-- A number in decimal announces no other radix: it starts with no zero, or is one. -/
theorem takeRadix_digits {c : Char} {cs after : List Char} (hzero : c = '0' → cs = [])
    (hstops : Stops after) : Numeral.takeRadix ((c :: (cs ++ after)).map .char) =
      (radixOf c, [], (c :: (cs ++ after)).map .char) := by
  by_cases hc : c = '0'
  · obtain rfl := hzero hc
    subst hc
    cases after with
    | nil => rfl
    | cons d after =>
      have hnone : Radix.announced? d = none := by
        obtain rfl | rfl | rfl | rfl := isBlank_cases (hstops d rfl) <;> rfl
      simp [Numeral.takeRadix, radixOf, hnone]
  · simp [Numeral.takeRadix, radixOf, hc]

/-- Digits without a leading zero are a whole numeral, up to a blank or the end of the text. -/
theorem take_digits {c : Char} {cs after : List Char} (hdigit : ∀ d ∈ c :: cs, d.isDigit = true)
    (hzero : c = '0' → cs = []) (hstops : Stops after) :
    Numeral.take ((c :: (cs ++ after)).map .char) =
      (⟨radixOf c, [], c :: cs, false, [], none⟩, after.map .char) := by
  have hcontinues : ∀ d ∈ c :: cs, (radixOf c).continues d = true :=
    fun d hd => continues_of_isDigit (hdigit d hd)
  have hstop : (radixOf c).continues ' ' = false ∧ (radixOf c).continues '\t' = false ∧
      (radixOf c).continues '\n' = false ∧ (radixOf c).continues '\r' = false := by
    cases radixOf c <;> decide
  obtain ⟨htake, hdrop⟩ := takeChars_append hcontinues (hstops.not_continues hstop)
  rw [List.cons_append] at htake hdrop
  have hpoint : (after.map Glyph.char).head?.any (·.is '.') = false := by
    cases after with
    | nil => rfl
    | cons d after =>
      obtain rfl | rfl | rfl | rfl := isBlank_cases (hstops d rfl) <;> rfl
  have hexponent : Numeral.takeExponent (after.map .char) = (none, after.map .char) := by
    cases after with
    | nil => rfl
    | cons d after =>
      obtain rfl | rfl | rfl | rfl := isBlank_cases (hstops d rfl) <;> rfl
  simp only [Numeral.take, takeRadix_digits hzero hstops, htake, hdrop, hpoint, hexponent,
    Bool.false_eq_true, if_false]

/-- A digit is worth less than ten. -/
theorem hexValue_lt_of_isDigit {c : Char} (h : c.isDigit = true) : hexValue c < 10 := by
  rw [hexValue, if_pos h]
  have hlow : '0'.toNat = 48 := rfl
  rw [isDigit_iff] at h
  omega

/-- Digits without a leading zero have no fault. -/
theorem fault?_digits {c : Char} {cs : List Char} (hdigit : ∀ d ∈ c :: cs, d.isDigit = true)
    (hzero : c = '0' → cs = []) :
    (Numeral.mk (radixOf c) [] (c :: cs) false [] none).fault? none = none := by
  have hmark : ∀ d ∈ c :: cs, d ≠ '_' := by
    rintro d hd rfl
    exact absurd (hdigit _ hd) (by decide)
  have hany : (c :: cs ++ []).any (· != '_') = true := by
    simpa using .inl (hmark c (by simp))
  have hwrong : (c :: cs).find? (fun d => d != '_' && (radixOf c).base ≤ hexValue d) = none := by
    rw [List.find?_eq_none]
    intro d hd
    by_cases hc : c = '0'
    · obtain rfl := hzero hc
      subst hc
      obtain rfl := List.mem_singleton.1 hd
      decide
    · have := hexValue_lt_of_isDigit (hdigit d hd)
      simp only [radixOf, if_neg hc, Radix.base, Bool.and_eq_true, decide_eq_true_eq, not_and]
      omega
  have hseparated : (c :: cs).contains '_' = false := by
    rw [List.contains_eq_mem, decide_eq_false_iff_not]
    exact fun hmem => hmark _ hmem rfl
  simp only [Numeral.fault?, Numeral.isFloat, hany, hwrong, hseparated]
  simp

/-- Decimal digits are read as one number. -/
theorem scans_digits {c : Char} {cs : List Char} (hdigit : ∀ d ∈ c :: cs, d.isDigit = true)
    (hzero : c = '0' → cs = []) : Scans c cs (.int (String.ofList (c :: cs))) := by
  intro after hplain hstops line
  have hc : c.isDigit = true := hdigit c (by simp)
  have hrange := isDigit_iff.1 hc
  have hstart : startsIdent c = false := by
    refine startsIdent_eq_false ?_ ?_ ?_
    · simp only [isPlain, Bool.and_eq_true, decide_eq_true_eq]
      omega
    · rw [Bool.eq_false_iff, Ne, isAlpha_iff]
      omega
    · rintro rfl
      exact absurd hc (by decide)
  have hquote : c ≠ '\'' := by
    rintro rfl
    exact absurd hc (by decide)
  refine scanToken_of_scanPlain hquote ?_ line
  have htake := take_digits hdigit hzero hstops
  rw [List.map_cons] at htake
  simp only [scanPlain, Glyph.all, hstart, hc, Bool.false_eq_true, if_false, Bool.true_or, if_true,
    htake, aheadFault?_map hplain, fault?_digits hdigit hzero, Numeral.isFloat, Numeral.spelling]
  simp

/-! ### Strings -/

/-- What can stand in quotes is plain. -/
theorem IsQuotable.isPlain {c : Char} (h : IsQuotable c) : isPlain c = true :=
  isPlain_of_isShown h.1

/-- A line end cannot be shown. -/
theorem ne_newline_of_isShown {c : Char} (h : isShown c = true) : c ≠ '\n' := by
  rintro rfl
  exact absurd h (by decide)

/-- What stands before the rest is found by the lengths. -/
theorem upTo_append (gs rest : List Glyph) : upTo (gs ++ rest) rest = gs := by
  simp [upTo]

/-- A text in double quotes ends at the first quote. -/
theorem afterDoubleQuoted_text {text : List Char} (h : ∀ c ∈ text, IsQuotable c)
    (after : List Char) :
    afterDoubleQuoted ((text ++ '"' :: after).map .char) = .ok (after.map .char) := by
  induction text with
  | nil =>
    rw [List.nil_append, List.map_cons, afterDoubleQuoted.eq_def]
    rfl
  | cons c text ih =>
    have hc := h c (by simp)
    have hnewline := ne_newline_of_isShown hc.1
    rw [List.cons_append, List.map_cons, afterDoubleQuoted.eq_def]
    simp only [glyphFault?_char hc.isPlain, Glyph.is, beq_iff_eq, hc.2.1, hnewline, hc.2.2.2,
      if_false]
    exact ih fun d hd => h d (by simp [hd])

/-- Without a backslash there is nothing to unescape. -/
theorem unescape_text {text : List Char} (h : ∀ c ∈ text, IsQuotable c) :
    unescape text = some (text.flatMap charBytes) := by
  induction text with
  | nil => simp [unescape]
  | cons c text ih =>
    have hc := h c (by simp)
    rw [unescape, ih fun d hd => h d (by simp [hd])]
    simp [hc.2.2.2]

/-- A text in double quotes is read as its bytes. -/
theorem scans_doubleQuoted {text : List Char} (h : ∀ c ∈ text, IsQuotable c) :
    Scans '"' (text ++ ['"']) (.string (text.flatMap charBytes)) := by
  intro after hplain _ line
  refine scanToken_of_scanPlain (by decide) ?_ line
  have hafter := afterDoubleQuoted_text h after
  have htext : charsOf (upTo (.char '"' :: (text ++ '"' :: after).map .char) (after.map .char)) =
      '"' :: (text ++ ['"']) := by
    have hsplit : Glyph.char '"' :: (text ++ '"' :: after).map .char =
        ('"' :: (text ++ ['"'])).map .char ++ after.map .char := by simp
    rw [hsplit, upTo_append, charsOf_map_char]
  have hinside : (('"' :: (text ++ ['"'])).drop 1).dropLast = text := by simp
  have hstart : (Glyph.char '"').all startsIdent = false := by decide +kernel
  have hdigit : (Glyph.char '"').all (·.isDigit) = false := by decide
  rw [List.append_assoc, List.singleton_append]
  simp only [scanPlain, hstart, hdigit, hafter, htext, hinside, unescape_text h]
  exact finish_plain _ _ hplain

/-- A text in single quotes ends at the first quote. -/
theorem splitSingleQuoted_text {text : List Char} (h : ∀ c ∈ text, IsQuotable c)
    (after : List Char) :
    splitSingleQuoted ((text ++ '\'' :: after).map .char) =
      some (text.map .char, after.map .char) := by
  induction text with
  | nil => cases after <;> rfl
  | cons c text ih =>
    have hc := h c (by simp)
    have hnewline := ne_newline_of_isShown hc.1
    have hrest := ih fun d hd => h d (by simp [hd])
    cases hd : text ++ '\'' :: after with
    | nil => simp at hd
    | cons d ds =>
      rw [hd, List.map_cons] at hrest
      rw [List.cons_append, hd, List.map_cons, List.map_cons, splitSingleQuoted]
      simp [Glyph.is, hc.2.2.1, hnewline, hc.2.2.2, hrest]

/-- A text in single quotes is read as its bytes. -/
theorem scans_singleQuoted {text : List Char} (h : ∀ c ∈ text, IsQuotable c) :
    Scans '\'' (text ++ ['\'']) (.string (text.flatMap charBytes)) := by
  intro after hplain _ line
  have hsplit := splitSingleQuoted_text h after
  have hlines : lineEnds (text.map .char) = 0 := by
    rw [lineEnds_map, List.count_eq_zero]
    exact fun hmem => ne_newline_of_isShown (h _ hmem).1 rfl
  have hclosed : Plain (text ++ ['\'']) := by
    intro c hc
    rcases List.mem_append.1 hc with hc | hc
    · exact (h c hc).isPlain
    · obtain rfl := List.mem_singleton.1 hc
      decide
  have herror : singleQuotedError? line ((text ++ '\'' :: after).map .char) (after.map .char) =
      none := by
    have happend : (text ++ '\'' :: after).map Glyph.char =
        (text ++ ['\'']).map .char ++ after.map .char := by simp
    rw [singleQuotedError?, happend, upTo_append, ← List.map_append, ← List.map_drop,
      ← List.map_take, ← List.map_append, aheadFault?_map (hclosed.append hplain),
      firstFault?_map]
    · rfl
    · exact Plain.append (fun c hc => hclosed c (List.mem_of_mem_drop hc))
        fun c hc => hplain c (List.mem_of_mem_take hc)
  rw [List.append_assoc, List.singleton_append, scanToken]
  simp only [hsplit, herror, charsOf_map_char, hlines]
  rfl

/-! ### Marks -/

/-- A punctuation mark is a token of its own. -/
theorem scans_mark {c : Char} (h : isPunctuation c = true) : Scans c [] (.symbol c) := by
  intro after hplain hstops line
  simp only [isPunctuation, Bool.and_eq_true, Bool.not_eq_true', bne_iff_ne, Char.isAlphanum,
    Bool.or_eq_false_iff] at h
  obtain ⟨⟨⟨⟨⟨⟨hshown, -⟩, halpha, hdigit⟩, hdouble⟩, hsingle⟩, hraw⟩, hunderscore⟩ := h
  have hstart : (Glyph.char c).all startsIdent = false :=
    startsIdent_eq_false (isPlain_of_isShown hshown) halpha hunderscore
  have hnumber : (Glyph.char c).all (·.isDigit) = false := hdigit
  -- A point before a blank starts no number.
  have hnext : (after.map Glyph.char).head?.any (·.all (·.isDigit)) = false := by
    cases after with
    | nil => rfl
    | cons d after => exact hstops.not_continues (p := Char.isDigit) (by decide) d rfl
  have hstring : (Glyph.char c).is '"' = false := by simpa [Glyph.is] using hdouble
  have hrawString : (Glyph.char c).is rawQuote = false := by simpa [Glyph.is] using hraw
  refine scanToken_of_scanPlain hsingle ?_ line
  simp only [scanPlain, List.nil_append, hstart, hnumber, hnext, hstring, hrawString,
    Bool.false_eq_true, if_false, Bool.and_false, Bool.or_false]
  exact finish_plain _ _ hplain

/-! ### All items -/

/-- Letters and digits can be shown. -/
theorem isShown_of_isAlphanum {c : Char} (h : c.isAlphanum = true) : isShown c = true := by
  rw [Char.isAlphanum, Bool.or_eq_true, isAlpha_iff, isDigit_iff] at h
  simp only [isShown, Bool.and_eq_true, decide_eq_true_eq]
  omega

/-- A name has letters, digits and underscores only. -/
theorem isAlphanum_of_isAsciiName {c : Char} {cs : List Char} (h : isAsciiName (c :: cs) = true) :
    ∀ d ∈ c :: cs, d.isAlphanum = true ∨ d = '_' := by
  simp only [isAsciiName, Bool.and_eq_true, Bool.or_eq_true, List.all_eq_true, beq_iff_eq] at h
  intro d hd
  rcases List.mem_cons.1 hd with rfl | hd
  · exact h.1.imp (fun ha => by simp [Char.isAlphanum, ha]) id
  · exact h.2 d hd

/-- A number is written with digits. -/
theorem isDigit_of_mem_repr {n : Nat} {c : Char} (h : c ∈ n.repr.toList) : c.isDigit = true := by
  rw [Nat.toList_repr] at h
  exact Nat.isDigit_of_mem_toDigits (by omega) (by omega) h

/-- Only zero is written with a zero first. -/
theorem eq_nil_of_repr_eq_zero_cons {n : Nat} {cs : List Char} (h : n.repr.toList = '0' :: cs) :
    cs = [] := by
  rcases Nat.eq_zero_or_pos n with rfl | hpos
  · have hnil : '0' :: [] = '0' :: cs := h
    exact (List.cons.inj hnil).2.symm
  · rw [Nat.toList_repr] at h
    exact absurd (by rw [h]; rfl) (Schema.head?_toDigits hpos)

/-- No character of an item ends a line, and all can be read. -/
theorem Item.isShown_text (item : Item) : ∀ c ∈ item.text, isShown c = true := by
  intro c hc
  cases item with
  | ident name h =>
    rw [Item.text] at hc
    cases hname : name.toList with
    | nil =>
      rw [hname] at hc
      cases hc
    | cons d ds =>
      rw [hname] at h hc
      obtain ha | rfl := isAlphanum_of_isAsciiName h c hc
      · exact isShown_of_isAlphanum ha
      · decide
  | int n => exact isShown_of_isAlphanum (by simp [Char.isAlphanum, isDigit_of_mem_repr hc])
  | string quote hquote value h =>
    have hshown : isShown quote = true := by obtain rfl | rfl := hquote <;> decide
    simp only [Item.text, List.mem_cons, List.mem_append, List.not_mem_nil, or_false] at hc
    obtain rfl | hc | rfl := hc
    · exact hshown
    · exact (h c hc).1
    · exact hshown
  | mark d h =>
    obtain rfl := List.mem_singleton.1 hc
    simp only [isPunctuation, Bool.and_eq_true] at h
    exact h.1.1.1.1.1.1

/-- A token as it is written is plain. -/
theorem Item.plain_text (item : Item) : Plain item.text :=
  fun c hc => isPlain_of_isShown (item.isShown_text c hc)

/-- No token goes over the end of a line. -/
theorem Item.count_text (item : Item) : item.text.count '\n' = 0 :=
  List.count_eq_zero.2 fun hmem => ne_newline_of_isShown (item.isShown_text _ hmem) rfl

/-- An item is read as its token, and no layout starts with it. -/
theorem Item.exists_scans (item : Item) : ∃ c cs, item.text = c :: cs ∧ c ≠ ' ' ∧
    (c = '/' → cs = []) ∧ Scans c cs item.lexeme := by
  cases item with
  | ident name h =>
    cases hname : name.toList with
    | nil =>
      rw [hname] at h
      cases h
    | cons c cs =>
      rw [hname] at h
      have hc := isAlphanum_of_isAsciiName h c (by simp)
      refine ⟨c, cs, hname, ?_, ?_, ?_⟩
      · rintro rfl
        exact absurd hc (by decide)
      · rintro rfl
        exact absurd hc (by decide)
      · have hscans : Scans c cs _ := scans_ident h
        rwa [← hname, String.ofList_toList] at hscans
  | int n =>
    have hdigit : ∀ d ∈ n.repr.toList, d.isDigit = true := fun d => isDigit_of_mem_repr
    cases hn : n.repr.toList with
    | nil =>
      rw [Nat.toList_repr] at hn
      exact absurd hn Nat.toDigits_ne_nil
    | cons c cs =>
      rw [hn] at hdigit
      have hc : c.isDigit = true := hdigit c (by simp)
      have hzero : c = '0' → cs = [] := by
        rintro rfl
        exact eq_nil_of_repr_eq_zero_cons hn
      refine ⟨c, cs, hn, ?_, ?_, ?_⟩
      · rintro rfl
        exact absurd hc (by decide)
      · rintro rfl
        exact absurd hc (by decide)
      · have hscans : Scans c cs _ := scans_digits hdigit hzero
        rwa [← hn, String.ofList_toList] at hscans
  | string quote hquote value h =>
    refine ⟨quote, value.toList ++ [quote], rfl, ?_, ?_, ?_⟩
    · rintro rfl
      exact absurd hquote (by decide)
    · rintro rfl
      exact absurd hquote (by decide)
    · rw [Item.lexeme, bytesOf_eq_flatMap]
      obtain rfl | rfl := hquote
      · exact scans_doubleQuoted h
      · exact scans_singleQuoted h
  | mark c h =>
    refine ⟨c, [], rfl, ?_, fun _ => rfl, scans_mark h⟩
    rintro rfl
    exact absurd h (by decide)

/-- Where an item starts, the layout has ended. -/
theorem Item.skipGap_text (item : Item) {after : List Char} (hstops : Stops after)
    (line mark : Nat) :
    skipGap ((item.text ++ after).map .char) line mark none =
      ⟨(item.text ++ after).map .char, line, none⟩ := by
  obtain ⟨c, cs, htext, hc, hslash, -⟩ := item.exists_scans
  have hshown : isShown c = true := item.isShown_text c (by simp [htext])
  have hblank : (Glyph.char c).all isBlank = false := by
    rw [Glyph.all, Bool.eq_false_iff]
    intro hb
    obtain rfl | rfl | rfl | rfl := isBlank_cases hb
    · exact hc rfl
    all_goals exact absurd hshown (by decide)
  rw [htext, List.cons_append, List.map_cons, skipGap.eq_def]
  simp only [hblank, Bool.false_eq_true, if_false]
  by_cases hcomment : c = '/'
  · obtain rfl := hslash hcomment
    subst hcomment
    cases after with
    | nil => rfl
    | cons d after =>
      -- Neither comment starts with a slash and a blank.
      obtain rfl | rfl | rfl | rfl := isBlank_cases (hstops d rfl) <;> rfl
  · have hslash : (Glyph.char c).is '/' = false := by simpa [Glyph.is] using hcomment
    simp only [hslash, Bool.false_eq_true, if_false]

/-! ## Sources -/

/-- A token is the first of the list when it is read and the rest is cut behind it. -/
theorem tokensFrom_of_scanToken {gs rest : List Glyph} {g : Glyph} {line tokenLine : Nat}
    {error gapError : Option LexError} {s : Scanned} {more : List Token}
    (hgap : skipGap gs line 0 error = ⟨g :: rest, tokenLine, gapError⟩)
    (hscan : scanToken g rest tokenLine gapError = .ok s)
    (hmore : tokensFrom s.rest (tokenLine + s.lines) none = .ok more) :
    tokensFrom gs line error = .ok (⟨s.lexeme, tokenLine⟩ :: more) := by
  rw [tokensFrom.eq_def]
  split
  · rename_i h
    rw [hgap] at h
    cases h
  · rename_i h
    rw [hgap] at h
    cases h
  · rename_i h
    rw [hgap] at h
    cases h
    split
    · rename_i h
      rw [hscan] at h
      cases h
    · rename_i h
      rw [hscan] at h
      cases h
      simp only [hmore]

/-- Nothing but layout gives no tokens. -/
theorem tokensFrom_nil_of_skipGap {gs : List Glyph} {line tokenLine : Nat}
    {error : Option LexError} (hgap : skipGap gs line 0 error = ⟨[], tokenLine, none⟩) :
    tokensFrom gs line error = .ok [] := by
  rw [tokensFrom.eq_def]
  split
  · rename_i h
    rw [hgap] at h
    cases h
  · rfl
  · rename_i h
    rw [hgap] at h
    cases h

/-- The text of a source is plain, item by item. -/
theorem plain_itemsText (items : List (Item × List Piece)) : Plain (itemsText items) := by
  intro c hc
  obtain ⟨⟨item, gap⟩, -, hmem⟩ := List.mem_flatMap.1 hc
  exact (item.plain_text.append (plain_gapText gap)) c hmem

/-- What follows an item stops it. -/
theorem Apart.stops {item : Item} {gap : List Piece} {items : List (Item × List Piece)}
    (h : Apart ((item, gap) :: items)) : Stops (gapText gap ++ itemsText items) := by
  intro c hc
  obtain ⟨d, hd, rest, rfl⟩ | ⟨rfl, rfl⟩ := h.1
  · have hhead : c = d := by simpa [gapText, Piece.text] using hc.symm
    exact hhead ▸ hd
  · simp [gapText, itemsText] at hc

/-- The items are cut out of their text, one after the other. The layout before the first of them
starts on `line`. -/
theorem tokensFrom_itemsText (before : List Piece) {items : List (Item × List Piece)}
    (hapart : Apart items) (line : Nat) :
    tokensFrom ((gapText before ++ itemsText items).map .char) line none =
      .ok (items.mapIdx fun k (item, _) =>
        ⟨item.lexeme, line + (gapText before ++ itemsText (items.take k)).count '\n'⟩) := by
  induction items generalizing before line with
  | nil =>
    obtain ⟨mark, hgap⟩ := @skipGap_gapText before [] (fun c hc => by cases hc) line 0
    have hend : skipGap [] (line + (gapText before).count '\n') mark none =
        ⟨[], line + (gapText before).count '\n', none⟩ := by rw [skipGap.eq_def]
    exact tokensFrom_nil_of_skipGap (hgap.trans hend)
  | cons entry items ih =>
    obtain ⟨item, gap⟩ := entry
    have hcons : ∀ rest, itemsText ((item, gap) :: rest) =
        item.text ++ (gapText gap ++ itemsText rest) := by
      intro rest
      simp [itemsText]
    have hstops := hapart.stops
    have hplain : Plain (gapText gap ++ itemsText items) :=
      (plain_gapText gap).append (plain_itemsText items)
    obtain ⟨c, cs, htext, -, -, hscans⟩ := item.exists_scans
    have hfirst : itemsText ((item, gap) :: items) =
        c :: (cs ++ (gapText gap ++ itemsText items)) := by
      rw [hcons, htext]
      rfl
    obtain ⟨mark, hgap⟩ := skipGap_gapText before (plain_itemsText ((item, gap) :: items)) line 0
    have hstart := item.skipGap_text hstops (line + (gapText before).count '\n') mark
    rw [← hcons] at hstart
    rw [hstart, hfirst, List.map_cons] at hgap
    have hrest := ih gap hapart.2 (line + (gapText before).count '\n')
    rw [hfirst, tokensFrom_of_scanToken hgap (hscans hplain hstops _) hrest, List.mapIdx_cons]
    have hlines : ∀ k, line + (gapText before).count '\n' +
        (gapText gap ++ itemsText (items.take k)).count '\n' =
          line +
            (gapText before ++ itemsText (((item, gap) :: items).take (k + 1))).count '\n' := by
      intro k
      rw [List.take_succ_cons, hcons]
      simp only [List.count_append, item.count_text]
      omega
    simp only [hlines]
    simp [itemsText]

/-- A plain text does not start with a byte order mark. -/
theorem dropMark_map {cs : List Char} (h : Plain cs) : dropMark (cs.map .char) = cs.map .char := by
  cases cs with
  | nil => rfl
  | cons c cs =>
    have hc : c ≠ '\uFEFF' := by
      rintro rfl
      exact absurd (h _ List.mem_cons_self) (by decide)
    simp [dropMark, Glyph.is, hc]

/-- Cutting undoes printing: the text of a source is cut into its items, whatever the layout around
them, each on the line that the line ends before it count. -/
theorem tokenize_text (s : Source) : tokenize (glyphs (bytesOf s.text)) = .ok s.tokens := by
  have hplain : Plain (gapText s.before ++ itemsText s.items) :=
    (plain_gapText s.before).append (plain_itemsText s.items)
  have hglyphs : glyphs (bytesOf s.text) =
      (gapText s.before ++ itemsText s.items).map Glyph.char := by
    refine glyphs_bytesOf_ascii fun c hc => ?_
    have := hplain c hc
    simp only [isPlain, Bool.and_eq_true, decide_eq_true_eq] at this
    exact this.2
  have hmark : dropMark ((gapText s.before ++ itemsText s.items).map .char) =
      (gapText s.before ++ itemsText s.items).map .char := dropMark_map hplain
  rw [hglyphs, tokenize, hmark, aheadFault?_map hplain]
  exact tokensFrom_itemsText s.before s.apart 1

/-- Items of each kind between comments; one comment starts inside another of the other kind. -/
def sampleSource : Source where
  before := [.block " one\n//".toList (by simp [isPlain]) (by decide +kernel), .blank '\n' rfl]
  items := [
    (.ident "size_2" rfl, [.blank ' ' rfl]),
    (.mark '=' rfl, [.blank '\t' rfl, .line "/* open".toList (by simp [isPlain])]),
    (.int 20, [.blank ' ' rfl]),
    (.string '\'' (.inr rfl) "a/b" (by simp [IsQuotable, isShown]), [])]
  apart := ⟨.inl ⟨' ', rfl, [], rfl⟩, .inl ⟨'\t', rfl, _, rfl⟩, .inl ⟨' ', rfl, [], rfl⟩,
    .inr ⟨rfl, rfl⟩, trivial⟩

example : sampleSource.text = "/* one\n//*/\nsize_2 =\t///* open\n20 'a/b'" ∧
    sampleSource.tokens =
      [⟨.ident "size_2", 3⟩, ⟨.symbol '=', 3⟩, ⟨.int "20", 4⟩, ⟨.string [97, 47, 98], 4⟩] := by
  decide +kernel

end Printed

end ProtoStub

import ProtoStub.Token.Numeral

/-!
# String literals

Strings come in three spellings. Between double quotes a backslash starts an escape; between back
quotes nothing does, and carriage returns are dropped; between single quotes a backslash only
shields the next character. The first two are cut and checked here glyph by glyph, and `unescape`
gives the bytes a double-quoted literal stands for.
-/

namespace ProtoStub

open Text

/-- The character that opens and closes a raw string. -/
def rawQuote : Char := Char.ofNat 96

/-- The first glyph read as a character; nothing at the end of the file. -/
def readChar (gs : List Glyph) : Except LexFault (Option Char) :=
  match aheadFault? gs with
  | some f => .error f
  | none => .ok (gs.head?.map Glyph.toChar)

/-- Skips `n` digits of the class `p`; fewer are an invalid escape. -/
def skipDigits (p : Char → Bool) : Nat → List Glyph → Except LexFault (List Glyph)
  | 0, gs => .ok gs
  | n + 1, gs => do
    match ← readChar gs with
    | some c => if p c then skipDigits p n (gs.drop 1) else .error .invalidEscape
    | none => .error .invalidEscape

/-- A digit of base eight. -/
def isOctalDigit (c : Char) : Bool := '0' ≤ c && c ≤ '7'

/-- Skips the rest of an escape, after its backslash. -/
def skipEscape (gs : List Glyph) : Except LexFault (List Glyph) := do
  match ← readChar gs with
  | none => .error .invalidEscape
  | some c =>
    if "abfnrtv\\\"".toList.contains c then .ok (gs.drop 1)
    else if isOctalDigit c then skipDigits isOctalDigit 3 gs
    else if c == 'x' then skipDigits isHexDigit 2 (gs.drop 1)
    else if c == 'u' then skipDigits isHexDigit 4 (gs.drop 1)
    else if c == 'U' then skipDigits isHexDigit 8 (gs.drop 1)
    else .error .invalidEscape

theorem skipDigits_length {p : Char → Bool} : ∀ {n : Nat} {gs rest : List Glyph},
    skipDigits p n gs = .ok rest → rest.length ≤ gs.length
  | 0, gs, rest, h => by simp only [skipDigits, Except.ok.injEq] at h; simp [h]
  | n + 1, gs, rest, h => by
    rw [skipDigits] at h
    cases hr : readChar gs with
    | error f => simp [hr, bind, Except.bind] at h
    | ok c =>
      cases c with
      | none => simp [hr, bind, Except.bind] at h
      | some c =>
        simp only [hr, bind, Except.bind] at h
        split at h
        · have := skipDigits_length h
          simp only [List.length_drop] at this
          omega
        · simp at h

theorem skipEscape_length {gs rest : List Glyph} (h : skipEscape gs = .ok rest) :
    rest.length ≤ gs.length := by
  rw [skipEscape] at h
  cases hr : readChar gs with
  | error f => simp [hr, bind, Except.bind] at h
  | ok c =>
    cases c with
    | none => simp [hr, bind, Except.bind] at h
    | some c =>
      simp only [hr, bind, Except.bind] at h
      split at h
      · simp only [Except.ok.injEq] at h
        simp [← h]
      · split at h
        · exact skipDigits_length h
        · have shorter : (gs.drop 1).length ≤ gs.length := by simp
          repeat' split at h
          · exact Nat.le_trans (skipDigits_length h) shorter
          · exact Nat.le_trans (skipDigits_length h) shorter
          · exact Nat.le_trans (skipDigits_length h) shorter
          · simp at h

/-- What follows a double-quoted literal, after its opening quote. -/
def afterDoubleQuoted (gs : List Glyph) : Except LexFault (List Glyph) :=
  match gs with
  | [] => .error .literalNotTerminated
  | g :: rest =>
    match glyphFault? g with
    | some f => .error f
    | none =>
      if g.is '"' then .ok rest
      else if g.is '\n' then .error .literalNotTerminated
      else if g.is '\\' then
        match h : skipEscape rest with
        | .ok rest' =>
          have := skipEscape_length h
          afterDoubleQuoted rest'
        | .error f => .error f
      else afterDoubleQuoted rest
termination_by gs.length

/-- What follows a raw string literal, after its opening quote. -/
def afterRaw : List Glyph → Except LexFault (List Glyph)
  | [] => .error .literalNotTerminated
  | g :: rest =>
    match glyphFault? g with
    | some f => .error f
    | none => if g.is rawQuote then .ok rest else afterRaw rest

/-- The glyphs a string in single quotes stands for and what follows it, after its opening quote;
nothing when a line end or the end of the file comes first. -/
def splitSingleQuoted : List Glyph → Option (List Glyph × List Glyph)
  | [] => none
  | [g] => if g.is '\'' then some ([], []) else none
  | g :: e :: rest =>
    if g.is '\'' then some ([], e :: rest)
    else if g.is '\n' then none
    else if g.is '\\' then (splitSingleQuoted rest).map fun (v, r) => (e :: v, r)
    else (splitSingleQuoted (e :: rest)).map fun (v, r) => (g :: v, r)

/-- The UTF-8 bytes of a character. -/
def charBytes (c : Char) : List UInt8 := (String.singleton c).toUTF8.toList

/-- The number spelled by digits of the given base. -/
def digitsValue (base : Nat) (ds : List Char) : Nat :=
  ds.foldl (fun n c => n * base + hexValue c) 0

/-- The byte of a one-letter escape. -/
def escapeByte? (c : Char) : Option UInt8 :=
  match c with
  | 'a' => some 7
  | 'b' => some 8
  | 't' => some 9
  | 'n' => some 10
  | 'v' => some 11
  | 'f' => some 12
  | 'r' => some 13
  | '\\' => some 92
  | '"' => some 34
  | _ => none

/-- The UTF-8 bytes of the character with code point `n`, if there is one. -/
def codePointBytes? (n : Nat) : Option (List UInt8) :=
  if n.isValidChar then some (charBytes (Char.ofNat n)) else none

/-- The bytes written by the escape after a backslash, and the number of characters it takes. -/
def escapeValue? (cs : List Char) : Option (List UInt8 × Nat) :=
  match cs with
  | [] => none
  | c :: rest =>
    match escapeByte? c with
    | some b => some ([b], 1)
    | none =>
      if isOctalDigit c then
        let v := digitsValue 8 (cs.take 3)
        if v ≤ 255 then some ([v.toUInt8], 3) else none
      else if c == 'x' then some ([(digitsValue 16 (rest.take 2)).toUInt8], 3)
      else if c == 'u' then (codePointBytes? (digitsValue 16 (rest.take 4))).map (·, 5)
      else if c == 'U' then (codePointBytes? (digitsValue 16 (rest.take 8))).map (·, 9)
      else none

/-- The bytes that the inside of a checked double-quoted literal stands for; nothing when an escape
writes no byte and no character. -/
def unescape : List Char → Option (List UInt8)
  | [] => some []
  | c :: rest =>
    if c == '\\' then do
      let (bytes, n) ← escapeValue? rest
      return bytes ++ (← unescape (rest.drop n))
    else do
      return charBytes c ++ (← unescape rest)
termination_by cs => cs.length
decreasing_by all_goals simp only [List.length_cons, List.length_drop]; omega

end ProtoStub

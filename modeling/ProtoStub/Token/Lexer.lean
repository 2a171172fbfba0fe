import ProtoStub.Token
import ProtoStub.Token.Literal
import ProtoStub.Text.Letter

/-!
# Cutting a file into tokens

`tokenize` cuts a file into tokens. Between tokens stand blanks and comments, the gap; a token is
the longest one that starts after it. A fault is reported on the line of the token being read, on
the line of the last comment when it lies in the gap after it, and on line zero when no token or
comment has started; the first fault wins, except that a string in single quotes that is never
closed is reported before a fault inside it.
-/

namespace ProtoStub

open Text

/-- Characters that only separate tokens. -/
def isBlank (c : Char) : Bool := c == ' ' || c == '\t' || c == '\n' || c == '\r'

/-- Characters that start a name. -/
def startsIdent (c : Char) : Bool := c == '_' || isLetter c

/-- Characters that continue a name. -/
def continuesIdent (c : Char) : Bool := startsIdent c || isDigit c

/-- The number of line ends among the glyphs. -/
def lineEnds (gs : List Glyph) : Nat := gs.countP (·.is '\n')

/-- The start of `gs` up to its suffix `rest`. -/
def upTo (gs rest : List Glyph) : List Glyph := gs.take (gs.length - rest.length)

/-- The inside of a block comment and what follows its end mark. -/
def splitBlockComment : List Glyph → Option (List Glyph × List Glyph)
  | [] => none
  | [_] => none
  | g :: h :: rest =>
    if g.is '*' && h.is '/' then some ([], rest)
    else (splitBlockComment (h :: rest)).map fun (inside, r) => (g :: inside, r)

/-- A block comment takes away at least its end. -/
theorem splitBlockComment_length : ∀ {gs inside rest : List Glyph},
    splitBlockComment gs = some (inside, rest) → rest.length < gs.length
  | [], _, _, h => by simp [splitBlockComment] at h
  | [_], _, _, h => by simp [splitBlockComment] at h
  | g :: k :: tail, inside, rest, h => by
    rw [splitBlockComment] at h
    split at h
    · simp only [Option.some.injEq, Prod.mk.injEq] at h
      simp only [← h.2, List.length_cons]
      omega
    · obtain ⟨⟨i, r⟩, hi, he⟩ := Option.map_eq_some_iff.1 h
      simp only [Prod.mk.injEq] at he
      have := splitBlockComment_length hi
      simp only [List.length_cons, ← he.2] at *
      omega

/-- Where the next token starts: what is left of the file, its line, and the first fault met on the
way. -/
structure Gap where
  rest : List Glyph
  line : Nat
  error : Option LexError
  deriving Repr, DecidableEq, Inhabited

/-- Passes over blanks and comments from `gs` on line `line`. Faults met before the first comment
are reported on line `mark`. -/
def skipGap (gs : List Glyph) (line mark : Nat) (error : Option LexError) : Gap :=
  match gs with
  | [] => ⟨[], line, error⟩
  | g :: rest =>
    if g.all isBlank then
      skipGap rest (line + lineEnds [g]) mark
        (error <|> (aheadFault? rest).map (⟨mark, ·⟩))
    else if g.is '/' then
      match rest with
      | [] => ⟨gs, line, error⟩
      | h :: body =>
        if h.is '/' then
          skipGap (body.dropWhile (!·.is '\n')) line line
            (error <|> (firstFault? (body.takeWhile (!·.is '\n'))).map (⟨line, ·⟩))
        else if h.is '*' then
          match hb : splitBlockComment body with
          | some (inside, after) =>
            have := splitBlockComment_length hb
            skipGap after (line + lineEnds inside) line
              (error <|> (firstFault? inside <|> aheadFault? after).map (⟨line, ·⟩))
          | none =>
            ⟨[], line + lineEnds body,
              error <|> some ⟨line, (firstFault? body).getD .commentNotTerminated⟩⟩
        else ⟨gs, line, error⟩
    else ⟨gs, line, error⟩
termination_by gs.length
decreasing_by
  · simp
  · have := (List.dropWhile_sublist (p := (!·.is '\n')) (l := body)).length_le
    simp only [List.length_cons]
    omega
  · simp only [List.length_cons]
    omega

/-- The characters of glyphs. -/
def charsOf (gs : List Glyph) : List Char := gs.map Glyph.toChar

/-- A token that has been read: its lexeme, the number of line ends inside it and what follows. -/
structure Scanned where
  lexeme : Lexeme
  lines : Nat
  rest : List Glyph
  deriving Repr, DecidableEq, Inhabited

/-- A token without line ends. The glyph after it is looked at, so its fault is the token's. -/
def Scanned.finish (lexeme : Lexeme) (lines : Nat) (rest : List Glyph) : Except LexFault Scanned :=
  match aheadFault? rest with
  | some f => .error f
  | none => .ok ⟨lexeme, lines, rest⟩

/-- The longest token at the start of `g :: rest`, which starts neither a gap nor a string in single
quotes. -/
def scanPlain (g : Glyph) (rest : List Glyph) : Except LexFault Scanned :=
  if g.all startsIdent then
    Scanned.finish (.ident (String.ofList (g.toChar :: takeChars continuesIdent rest))) 0
      (dropChars continuesIdent rest)
  else if g.all (·.isDigit) || (g.is '.' && rest.head?.any (·.all (·.isDigit))) then
    let (n, after) := Numeral.take (g :: rest)
    match n.fault? (aheadFault? after) with
    | some f => .error f
    | none =>
      let spelling := String.ofList n.spelling
      .ok ⟨if n.isFloat then .float spelling else .int spelling, 0, after⟩
  else if g.is '"' then
    match afterDoubleQuoted rest with
    | .error f => .error f
    | .ok after =>
      let text := charsOf (upTo (g :: rest) after)
      let inside := (text.drop 1).dropLast
      Scanned.finish (.string ((unescape inside).getD (text.flatMap charBytes))) 0 after
  else if g.is rawQuote then
    match afterRaw rest with
    | .error f => .error f
    | .ok after =>
      let inside := (upTo rest after).dropLast
      Scanned.finish (.string (((charsOf inside).filter (· != '\r')).flatMap charBytes))
        (lineEnds inside) after
  else Scanned.finish (.symbol g.toChar) 0 rest

/-- The error of a closed string in single quotes that starts on line `line`: a fault of its first
glyph counts for the token, a later one for no line. `rest` follows the opening quote and `after`
the closing one. -/
def singleQuotedError? (line : Nat) (rest after : List Glyph) : Option LexError :=
  (aheadFault? rest).map (⟨line, ·⟩) <|>
    (firstFault? ((upTo rest after).drop 1 ++ after.take 1)).map (⟨0, ·⟩)

/-- The token at the start of `g :: rest` on line `line`. `error` is the fault already met in the
gap before it. -/
def scanToken (g : Glyph) (rest : List Glyph) (line : Nat) (error : Option LexError) :
    Except LexError Scanned :=
  if g.is '\'' then
    match splitSingleQuoted rest with
    | none => .error ⟨line, .unterminatedString⟩
    | some (value, after) =>
      match error <|> singleQuotedError? line rest after with
      | some e => .error e
      | none => .ok ⟨.string ((charsOf value).flatMap charBytes), lineEnds value, after⟩
  else
    match error with
    | some e => .error e
    | none =>
      match scanPlain g rest with
      | .error f => .error ⟨line, f⟩
      | .ok scanned => .ok scanned

/-! ## Progress: a token leaves fewer glyphs -/

theorem dropChars_length (p : Char → Bool) (gs : List Glyph) :
    (dropChars p gs).length ≤ gs.length :=
  (List.dropWhile_sublist _).length_le

/-- Dropping a run takes away the glyph it starts with. -/
theorem dropChars_cons_length {p : Char → Bool} {g : Glyph} (gs : List Glyph) (h : g.all p = true) :
    (dropChars p (g :: gs)).length ≤ gs.length := by
  simp only [dropChars, List.dropWhile_cons, h, if_true]
  exact dropChars_length p gs

theorem afterDoubleQuoted_length {gs after : List Glyph} (h : afterDoubleQuoted gs = .ok after) :
    after.length ≤ gs.length := by
  fun_induction afterDoubleQuoted gs <;> simp_all <;> grind [skipEscape_length]

theorem afterRaw_length {gs after : List Glyph} (h : afterRaw gs = .ok after) :
    after.length ≤ gs.length := by
  fun_induction afterRaw gs <;> simp_all
  all_goals grind

theorem splitSingleQuoted_length {gs value after : List Glyph}
    (h : splitSingleQuoted gs = some (value, after)) : after.length ≤ gs.length := by
  fun_induction splitSingleQuoted gs generalizing value after <;> simp_all <;> grind

/-- An exponent takes away what belongs to it, or nothing. -/
theorem takeExponent_length (gs : List Glyph) :
    (Numeral.takeExponent gs).2.length ≤ gs.length := by
  unfold Numeral.takeExponent
  repeat' split
  all_goals simp only [List.length_cons, Nat.le_refl]
  all_goals grind [dropChars_length]

/-- After the digits of a numeral only its point, fraction and exponent are taken. -/
theorem take_length_le (gs : List Glyph) :
    (Numeral.take gs).2.length ≤
      (dropChars (Numeral.takeRadix gs).1.continues (Numeral.takeRadix gs).2.2).length := by
  simp only [Numeral.take]
  generalize dropChars (Numeral.takeRadix gs).1.continues (Numeral.takeRadix gs).2.2 = tail
  refine Nat.le_trans (takeExponent_length _) ?_
  split
  · exact Nat.le_trans (dropChars_length _ _) (by simp)
  · exact Nat.le_refl _

/-- A digit goes on with a numeral to any base; whether it fits is asked later. -/
theorem continues_of_isDigit {r : Radix} {c : Char} (h : c.isDigit = true) :
    r.continues c = true := by
  simp [Radix.continues, isHexDigit, h]

/-- A numeral that starts with a digit takes it. -/
theorem take_length_of_digit {g : Glyph} {gs : List Glyph} (h : g.all (·.isDigit) = true) :
    (Numeral.take (g :: gs)).2.length ≤ gs.length := by
  refine Nat.le_trans (take_length_le _) ?_
  cases g with
  | stray b => simp [Glyph.all] at h
  | char c =>
    have digit (r : Radix) : (Glyph.char c).all r.continues = true :=
      continues_of_isDigit (r := r) h
    simp only [Numeral.takeRadix]
    repeat' split
    · exact Nat.le_trans (dropChars_length _ _) (by simp)
    all_goals exact dropChars_cons_length _ (digit _)

/-- A numeral that starts with a point takes it. -/
theorem take_length_of_point {g : Glyph} {gs : List Glyph} (h : g.is '.' = true) :
    (Numeral.take (g :: gs)).2.length ≤ gs.length := by
  cases g with
  | stray b => simp [Glyph.is] at h
  | char c =>
    obtain rfl : c = '.' := by simpa [Glyph.is] using h
    have radix : Numeral.takeRadix (.char '.' :: gs) = (.decimal, [], .char '.' :: gs) := by
      simp [Numeral.takeRadix]
    have stays : dropChars Radix.decimal.continues (.char '.' :: gs) = .char '.' :: gs := by
      simp [dropChars, Glyph.all, Radix.continues]
    simp only [Numeral.take, radix, stays]
    refine Nat.le_trans (takeExponent_length _) ?_
    simpa [Glyph.is] using dropChars_length _ gs

/-- Finishing a token takes nothing more away. -/
theorem finish_rest {lexeme : Lexeme} {lines : Nat} {gs : List Glyph} {s : Scanned}
    (h : Scanned.finish lexeme lines gs = .ok s) : s.rest = gs := by
  unfold Scanned.finish at h
  split at h
  · simp at h
  · simp only [Except.ok.injEq] at h
    simp [← h]

/-- A token without quotes takes away its first glyph, and what is left is no longer. -/
theorem scanPlain_length {g : Glyph} {gs : List Glyph} {s : Scanned}
    (h : scanPlain g gs = .ok s) : s.rest.length ≤ gs.length := by
  unfold scanPlain at h
  split at h
  · exact finish_rest h ▸ dropChars_length _ gs
  split at h
  next hn =>
    have taken : (Numeral.take (g :: gs)).2.length ≤ gs.length := by
      rcases Bool.or_eq_true_iff.1 hn with digit | point
      · exact take_length_of_digit digit
      · exact take_length_of_point (Bool.and_eq_true_iff.1 point).1
    simp only at h
    split at h
    · simp at h
    · simp only [Except.ok.injEq] at h
      simpa [← h] using taken
  split at h
  · split at h
    · simp at h
    · next after ha => exact finish_rest h ▸ afterDoubleQuoted_length ha
  split at h
  · split at h
    · simp at h
    · next after ha => exact finish_rest h ▸ afterRaw_length ha
  · exact finish_rest h ▸ Nat.le_refl _

/-- Every token takes away its first glyph, and what is left is no longer. -/
theorem scanToken_length {g : Glyph} {gs : List Glyph} {line : Nat} {error : Option LexError}
    {s : Scanned} (h : scanToken g gs line error = .ok s) : s.rest.length ≤ gs.length := by
  unfold scanToken at h
  split at h
  · split at h
    · simp at h
    · next value after hs =>
      split at h
      · simp at h
      · simp only [Except.ok.injEq] at h
        simpa [← h] using splitSingleQuoted_length hs
  · split at h
    · simp at h
    · split at h
      · simp at h
      · next hs =>
        simp only [Except.ok.injEq] at h
        exact h ▸ scanPlain_length hs

/-- A gap may be empty, so it takes away something or nothing. -/
theorem skipGap_length (gs : List Glyph) (line mark : Nat) (error : Option LexError) :
    (skipGap gs line mark error).rest.length ≤ gs.length := by
  fun_induction skipGap gs line mark error <;>
    simp only [List.length_cons, List.length_nil, Nat.le_refl, Nat.zero_le] at *
  · omega
  · next body _ ih =>
    have := (List.dropWhile_sublist (!·.is '\n') (l := body)).length_le
    omega
  · omega

/-- The tokens of `gs`, which starts on line `line`; `error` is a fault already met. -/
def tokensFrom (gs : List Glyph) (line : Nat) (error : Option LexError) :
    Except LexError (List Token) :=
  match hg : skipGap gs line 0 error with
  | ⟨[], _, some e⟩ => .error e
  | ⟨[], _, none⟩ => .ok []
  | ⟨g :: rest, tokenLine, gapError⟩ =>
    match hs : scanToken g rest tokenLine gapError with
    | .error e => .error e
    | .ok s =>
      have gap : rest.length < gs.length := by
        have := skipGap_length gs line 0 error
        rw [hg] at this
        simp only [List.length_cons] at this
        omega
      have := scanToken_length hs
      match tokensFrom s.rest (tokenLine + s.lines) none with
      | .error e => .error e
      | .ok more => .ok (⟨s.lexeme, tokenLine⟩ :: more)
termination_by gs.length

/-- A byte order mark at the start of a file is no part of it. -/
def dropMark (gs : List Glyph) : List Glyph :=
  if gs.head?.any (·.is '\uFEFF') then gs.drop 1 else gs

/-- The tokens of a file. -/
def tokenize (file : List Glyph) : Except LexError (List Token) :=
  let gs := dropMark file
  tokensFrom gs 1 ((aheadFault? gs).map (⟨0, ·⟩))

end ProtoStub

import ProtoStub.Proofs.Relining

/-!
# Statements that are passed over

A body passes over lone semicolons and over the statements that its own words introduce. Such a
statement leaves no trace: whatever follows it is read as if it stood there alone
(`read_append_of_passesOver`), to the same content and with the same tokens left, and on other lines
to the same content on other lines.

`EndsAt` says where a statement can end, by the brackets open at each place (`netDepth`), without a
run over its tokens. `skipStatement_append` is the run: over a statement that ends at its last token
and not before, it stops there, or behind one more semicolon, which the body around it would pass
over as well.
-/

namespace ProtoStub.Schema

/-! ## Where a statement ends -/

/-- How many brackets the tokens leave open: those they open less those they close. -/
def netDepth (ts : List Token) : Int := ts.countP opens - ts.countP closes

theorem netDepth_concat (ts : List Token) (t : Token) : netDepth (ts ++ [t]) =
    netDepth ts + ((if opens t then 1 else 0) - (if closes t then 1 else 0)) := by
  simp only [netDepth, List.countP_append, List.countP_singleton]
  split_ifs <;> omega

/-- A statement can end with its `i`-th token: with a semicolon outside all brackets, or with a
brace that leaves no bracket open and has no semicolon behind it in the statement. -/
def EndsAt (ts : List Token) (i : Nat) : Prop :=
  (startsWithSymbol (ts.drop i) ';' = true ∧ netDepth (ts.take i) = 0) ∨
    startsWithSymbol (ts.drop i) '}' = true ∧ netDepth (ts.take (i + 1)) = 0 ∧
      startsWithSymbol (ts.drop (i + 1)) ';' = false

instance (ts : List Token) (i : Nat) : Decidable (EndsAt ts i) :=
  inferInstanceAs (Decidable (_ ∨ _))

/-- What follows the word of a statement: it ends with its last token and cannot end before. The
three kinds of brackets are counted together. -/
structure IsStatement (ts : List Token) : Prop where
  ends : EndsAt ts (ts.length - 1)
  first : ∀ i < ts.length - 1, ¬EndsAt ts i

instance (ts : List Token) : Decidable (IsStatement ts) :=
  decidable_of_iff (EndsAt ts (ts.length - 1) ∧ ∀ i < ts.length - 1, ¬EndsAt ts i)
    ⟨fun h => ⟨h.1, h.2⟩, fun h => ⟨h.ends, h.first⟩⟩

/-- Whether a statement ends at a token is decided by the token, by what is open there, and by a
semicolon behind it. -/
theorem endsAt_length_append (before : List Token) (t : Token) (after : List Token) :
    EndsAt (before ++ t :: after) before.length ↔
      (t.isSymbol ';' = true ∧ netDepth before = 0) ∨
        t.isSymbol '}' = true ∧ netDepth (before ++ [t]) = 0 ∧
          startsWithSymbol after ';' = false := by
  have htake : (before ++ t :: after).take (before.length + 1) = before ++ [t] := by
    rw [List.take_append, List.take_of_length_le (by omega)]
    simp
  have hdrop : (before ++ t :: after).drop (before.length + 1) = after := by
    rw [List.drop_append, List.drop_of_length_le (by omega)]
    simp
  simp [EndsAt, htake, hdrop, startsWithSymbol]

theorem closes_of_opens {t : Token} (h : opens t = true) : closes t = false := by
  simp only [opens, closes, Token.isSymbol, Bool.or_eq_true, beq_iff_eq, Bool.or_eq_false_iff,
    beq_eq_false_iff_ne] at h ⊢
  obtain (h | h) | h := h <;> simp [h]

/-- Inside a statement the run goes on, inside the brackets that are open then. -/
theorem skipStatement_of_not_endsAt {before : List Token} {t : Token} {after : List Token}
    (h : ¬EndsAt (before ++ t :: after) before.length) (hafter : after ≠ []) (ts : List Token) :
    skipStatement (netDepth before) (t :: (after ++ ts)) =
      skipStatement (netDepth (before ++ [t])) (after ++ ts) := by
  have hnext : startsWithSymbol (after ++ ts) ';' = startsWithSymbol after ';' := by
    cases after with
    | nil => exact absurd rfl hafter
    | cons t' after => rfl
  rw [endsAt_length_append] at h
  rw [netDepth_concat] at h ⊢
  rw [skipStatement, hnext]
  by_cases ho : opens t = true
  · simp [ho, closes_of_opens ho]
  by_cases hc : closes t = true
  · simp only [ho, hc, if_true, if_false, Bool.false_eq_true] at h ⊢
    rw [if_neg]
    · congr 1
    · simp only [Bool.and_eq_true, beq_iff_eq, Bool.not_eq_true']
      rintro ⟨⟨hdepth, hbrace⟩, hsemi⟩
      exact h (.inr ⟨hbrace, by omega, hsemi⟩)
  · simp only [ho, hc, if_false, Bool.false_eq_true] at h ⊢
    rw [if_neg]
    · congr 1
      omega
    · simp only [Bool.and_eq_true, beq_iff_eq]
      exact fun hend => h (.inl hend)

/-- The tokens `after` are `ts`, perhaps without a semicolon at the start. -/
def UpToSemicolon (ts after : List Token) : Prop :=
  after = ts ∨ ∃ t, t.isSymbol ';' = true ∧ ts = t :: after

/-- At the end of a statement the run stops. Behind a closing brace it first looks at what follows,
and takes a semicolon with it. -/
theorem skipStatement_of_endsAt {before : List Token} {t : Token}
    (h : EndsAt (before ++ [t]) before.length) (ts : List Token) :
    ∃ after, skipStatement (netDepth before) (t :: ts) = .ok ((), after) ∧
      UpToSemicolon ts after := by
  rw [endsAt_length_append, netDepth_concat] at h
  obtain ⟨hsemi, hdepth⟩ | ⟨hbrace, hdepth, -⟩ := h
  · have hlex : t.lexeme = .symbol ';' := by simpa [Token.isSymbol] using hsemi
    refine ⟨ts, ?_, .inl rfl⟩
    simp [skipStatement, hdepth, opens, closes, Token.isSymbol, hlex]
  have hlex : t.lexeme = .symbol '}' := by simpa [Token.isSymbol] using hbrace
  have ho : opens t = false := by simp [opens, Token.isSymbol, hlex]
  have hc : closes t = true := by simp [closes, Token.isSymbol, hlex]
  have hone : netDepth before = 1 := by
    simp only [ho, hc, if_true, Bool.false_eq_true, if_false] at hdepth
    omega
  cases hs : startsWithSymbol ts ';' with
  | false =>
    refine ⟨ts, ?_, .inl rfl⟩
    simp [skipStatement, ho, hc, hone, hbrace, hs]
  | true =>
    cases ts with
    | nil => cases hs
    | cons s ts =>
      have hslex : s.lexeme = .symbol ';' := by simpa [startsWithSymbol, Token.isSymbol] using hs
      refine ⟨ts, ?_, .inr ⟨s, hs, rfl⟩⟩
      simp [skipStatement, hone, hs, opens, closes, Token.isSymbol, hlex, hslex]

/-- The run over a statement that has `rest` left. -/
theorem skipStatement_append {before rest : List Token} (hrest : rest ≠ [])
    (hends : EndsAt (before ++ rest) ((before ++ rest).length - 1))
    (hfirst : ∀ i, before.length ≤ i → i < (before ++ rest).length - 1 →
      ¬EndsAt (before ++ rest) i) (ts : List Token) :
    ∃ after, skipStatement (netDepth before) (rest ++ ts) = .ok ((), after) ∧
      UpToSemicolon ts after := by
  induction rest generalizing before with
  | nil => exact absurd rfl hrest
  | cons t rest ih =>
    cases rest with
    | nil => exact skipStatement_of_endsAt (by simpa using hends) ts
    | cons t' rest =>
      have hgo := hfirst before.length (Nat.le_refl _) (by simp)
      rw [List.cons_append, skipStatement_of_not_endsAt hgo (List.cons_ne_nil t' rest)]
      have hassoc : before ++ [t] ++ t' :: rest = before ++ t :: t' :: rest := by simp
      refine ih (List.cons_ne_nil t' rest) (hassoc ▸ hends) fun i hi hlt => hassoc ▸ ?_
      exact hfirst i (by simp at hi; omega) (hassoc ▸ hlt)

/-- A statement is passed over with its word, perhaps with one semicolon behind it. -/
theorem IsStatement.skipStatement {t : Token} {w : String} (hw : t.isWord w = true)
    {body : List Token} (h : IsStatement body) (ts : List Token) :
    ∃ after, Schema.skipStatement 0 (t :: (body ++ ts)) = .ok ((), after) ∧
      UpToSemicolon ts after := by
  have hlex : t.lexeme = .ident w := by simpa [Token.isWord] using hw
  have hbody : body ≠ [] := by
    rintro rfl
    exact absurd h.ends (by decide)
  have hgo : Schema.skipStatement 0 (t :: (body ++ ts)) = Schema.skipStatement 0 (body ++ ts) := by
    simp [Schema.skipStatement, opens, closes, Token.isSymbol, hlex]
  rw [hgo]
  exact @skipStatement_append [] body hbody h.ends (fun i _ => h.first i) ts

/-! ## Bodies -/

/-- The bodies that pass statements over, each at some point of its loop: a file and a message with
what has been read of them so far, and the members of a oneof, an enum and a service. -/
inductive Body where
  | file (done : Parsed)
  | message (top : Message) (outer : List Message)
  | oneof
  | enum (name : String)
  | service (name : String)

namespace Body

/-- What a body is read to. -/
def Content : Body → Type
  | file _ => Parsed
  | message _ _ => Message
  | oneof => List Field
  | enum _ => List EnumValue
  | service _ => List Method

/-- The content of a body without lines. -/
def unlined : (b : Body) → b.Content → b.Content
  | file _ => Parsed.unlined
  | message _ _ => Message.unlined
  | oneof => List.map Field.unlined
  | enum _ => List.map id
  | service _ => List.map Method.unlined

/-- The words whose statements the body passes over. -/
def words : Body → List String
  | file _ => passedInFile
  | message _ _ => passedInMessage
  | oneof => ["option"]
  | enum _ => ["option", "reserved"]
  | service _ => ["option"]

/-- Reads the rest of the body. -/
def read : (b : Body) → Parser b.Content
  | file done => fun ts => (fileBody done ts).map (·, [])
  | message top outer => messageBody top outer
  | oneof => block .unterminatedOneof ["option"] field field_advances
  | enum name =>
    block (.unterminated .enum name) ["option", "reserved"] enumValue enumValue_advances
  | service name =>
    block (.unterminated .service name) ["option"] (serviceItem name) (serviceItem_advances name)

/-- The body passes the tokens over: a lone semicolon, or a statement with one of its words. -/
def PassesOver (b : Body) : List Token → Prop
  | [] => False
  | t :: body =>
    (t.isSymbol ';' = true ∧ body = []) ∨ b.words.any t.isWord = true ∧ IsStatement body

end Body

/-- The loop `p` passes over semicolons and over the statements that start with one of `words`. -/
structure Parser.Passes {α : Type} (p : Parser α) (words : List String) : Prop where
  semicolon : ∀ {t : Token}, t.isSymbol ';' = true → ∀ ts, p (t :: ts) = p ts
  statement : ∀ {t : Token}, words.any t.isWord = true → ∀ {ts after},
    skipStatement 0 (t :: ts) = .ok ((), after) → p (t :: ts) = p after

/-- A token with one of `words` is that word and no mark. -/
theorem exists_lexeme_of_any_isWord {words : List String} {t : Token}
    (h : words.any t.isWord = true) : ∃ w ∈ words, t.lexeme = .ident w := by
  obtain ⟨w, hw, ht⟩ := List.any_eq_true.1 h
  exact ⟨w, hw, by simpa [Token.isWord] using ht⟩

theorem block_passes {α : Type} (unterminated : Fault) (passed : List String) (item : Parser α)
    (advances : item.Advances) :
    Parser.Passes (block unterminated passed item @advances) passed where
  semicolon {t} ht ts := by
    have hlex : t.lexeme = .symbol ';' := by simpa [Token.isSymbol] using ht
    rw [block_cons]
    simp [Token.isSymbol, hlex]
  statement {t} ht ts after hskip := by
    obtain ⟨w, -, hlex⟩ := exists_lexeme_of_any_isWord ht
    rw [block_cons, ht, hskip]
    simp [Token.isSymbol, hlex]

theorem messageBody_passes (top : Message) (outer : List Message) :
    Parser.Passes (messageBody top outer) passedInMessage where
  semicolon {t} ht ts := by
    have hlex : t.lexeme = .symbol ';' := by simpa [Token.isSymbol] using ht
    rw [messageBody_cons]
    simp [Token.isSymbol, hlex]
  statement {t} ht ts after hskip := by
    obtain ⟨w, hw, hlex⟩ := exists_lexeme_of_any_isWord ht
    -- The words that a message reads are looked for first.
    have hread : w ≠ "message" ∧ w ≠ "enum" ∧ w ≠ "oneof" := by
      refine ⟨?_, ?_, ?_⟩ <;> rintro rfl <;> simp [passedInMessage] at hw
    rw [messageBody_cons, ht, hskip]
    simp [Token.isSymbol, Token.isWord, hlex, hread]

theorem fileBody_passes (done : Parsed) : Parser.Passes (Body.file done).read passedInFile where
  semicolon {t} ht ts := by
    simp only [Body.read]
    rw [fileBody_cons, ht, if_pos rfl]
  statement {t} ht ts after hskip := by
    obtain ⟨w, -, hlex⟩ := exists_lexeme_of_any_isWord ht
    simp only [Body.read]
    rw [fileBody_cons, ht, hskip]
    simp [Token.isSymbol, hlex]

/-- Every body passes over the statements that its own words introduce. -/
theorem Body.passes (b : Body) : b.read.Passes b.words := by
  cases b with
  | file done => exact fileBody_passes done
  | message top outer => exact messageBody_passes top outer
  | oneof => exact block_passes _ _ _ _
  | enum name => exact block_passes _ _ _ _
  | service name => exact block_passes _ _ _ _

/-- What is passed over before `ts` leaves no trace, whether `ts` is read or refused. -/
theorem Body.read_append {b : Body} {stmt : List Token} (h : b.PassesOver stmt) (ts : List Token) :
    b.read (stmt ++ ts) = b.read ts := by
  cases stmt with
  | nil => exact h.elim
  | cons t body =>
    obtain ⟨ht, rfl⟩ | ⟨ht, hbody⟩ := h
    · exact b.passes.semicolon ht ts
    · obtain ⟨w, -, hw⟩ := List.any_eq_true.1 ht
      obtain ⟨after, hskip, rfl | ⟨s, hs, rfl⟩⟩ := hbody.skipStatement hw ts
      · exact b.passes.statement ht hskip
      -- The semicolon behind the brace went with the statement; left alone it is passed over.
      · exact (b.passes.statement ht hskip).trans (b.passes.semicolon hs after).symm

/-! ## On other lines -/

theorem map_unlined_eq_iff {ts us : List Token} :
    ts.map Token.unlined = us.map Token.unlined ↔ ts.map (·.lexeme) = us.map (·.lexeme) := by
  have hlex : ∀ vs : List Token, (vs.map Token.unlined).map (·.lexeme) = vs.map (·.lexeme) := by
    intro vs
    rw [List.map_map]
    rfl
  have hunlined : ∀ vs : List Token, (vs.map (·.lexeme)).map (⟨·, 0⟩) = vs.map Token.unlined := by
    intro vs
    rw [List.map_map]
    rfl
  constructor
  · intro h
    rw [← hlex, h, hlex]
  · intro h
    rw [← hunlined, h, hunlined]

/-- Of two runs over the same tokens on other lines, one succeeds when the other does, with the same
result on other lines. -/
theorem exists_relined {α : Type} {p q : Parser α} {f : α → α}
    (hp : ∀ ts, q (ts.map Token.unlined) = Schema.unlined f (p ts))
    {ts us rest : List Token} {x : α}
    (hlex : us.map (·.lexeme) = ts.map (·.lexeme)) (h : p ts = .ok (x, rest)) :
    ∃ y rest', p us = .ok (y, rest') ∧ f y = f x ∧
      rest'.map (·.lexeme) = rest.map (·.lexeme) := by
  have heq : Schema.unlined f (p us) = Schema.unlined f (p ts) := by
    rw [← hp, ← hp, map_unlined_eq_iff.2 hlex]
  rw [h, unlined_ok] at heq
  rcases hus : p us with e | ⟨y, rest'⟩
  · rw [hus] at heq
    cases heq
  · rw [hus, unlined_ok] at heq
    injection heq with heq
    injection heq with hy hrest
    exact ⟨y, rest', rfl, hy, map_unlined_eq_iff.1 hrest⟩

/-- On other lines a body reads the same content, on other lines. -/
theorem Body.exists_read_relined {b : Body} {ts us rest : List Token} {x : b.Content}
    (hlex : us.map (·.lexeme) = ts.map (·.lexeme)) (h : b.read ts = .ok (x, rest)) :
    ∃ y rest', b.read us = .ok (y, rest') ∧ b.unlined y = b.unlined x ∧
      rest'.map (·.lexeme) = rest.map (·.lexeme) := by
  cases b with
  | file done =>
    refine exists_relined (q := (Body.file done.unlined).read) (fun ts => ?_) hlex h
    simp only [Body.read, fileBody_unlines]
    cases fileBody done ts <;> rfl
  | message top outer => exact exists_relined (messageBody_unlines top outer) hlex h
  | oneof => exact exists_relined (block_unlines field_unlines) hlex h
  | enum name => exact exists_relined (block_unlines enumValue_unlines) hlex h
  | service name => exact exists_relined (block_unlines (serviceItem_unlines name)) hlex h

/-- A statement that a body passes over is transparent: what the body reads from some point on, it
also reads with the statement put there, to the same content and with the same tokens left. Where
the statement moves what follows to other lines, only the lines of the content change. -/
theorem read_append_of_passesOver {b : Body} {stmt ts rest : List Token} {x : b.Content}
    (hstmt : b.PassesOver stmt) (h : b.read ts = .ok (x, rest)) :
    b.read (stmt ++ ts) = .ok (x, rest) ∧
      ∀ us : List Token, us.map (·.lexeme) = ts.map (·.lexeme) →
        ∃ y rest', b.read (stmt ++ us) = .ok (y, rest') ∧ b.unlined y = b.unlined x ∧
          rest'.map (·.lexeme) = rest.map (·.lexeme) := by
  refine ⟨by rw [Body.read_append hstmt, h], fun us hus => ?_⟩
  rw [Body.read_append hstmt]
  exact Body.exists_read_relined hus h

/-- An extension with brackets of two kinds and a semicolon inside them. -/
def passedExtension : List Token :=
  [word "extend", word "Quote", mark '{', word "repeated", word "int32", word "ids", mark '=',
    numeral 7, mark '[', word "packed", mark ']', mark ';', mark '}']

/-- The rest of a message, with a semicolon first and a field on `line`. -/
def restOfTrade (line : Nat) : List Token :=
  [mark ';', ⟨.ident "int64", line⟩, word "size", mark '=', numeral 2, mark ';', mark '}']

/-- The message `Trade` before its first field. -/
def openTrade : Body := .message { name := "Trade", line := 3 } []

/-- The message `Trade` with its field. -/
def trade (line fieldLine : Nat) : Message where
  name := "Trade"
  line := line
  fields := [⟨"size", fieldLine, 2, false, false, "int64"⟩]

/-- The extension is passed over inside a message, and the semicolon behind it goes with it. With
the extension in between, the field may stand on a later line. -/
theorem restOfTrade_read_append :
    openTrade.read (passedExtension ++ restOfTrade 4) = .ok (trade 3 4, []) ∧
      ∃ y rest, openTrade.read (passedExtension ++ restOfTrade 6) = .ok (y, rest) ∧
        openTrade.unlined y = trade 0 0 ∧ rest.map (·.lexeme) = [] := by
  have hpasses : openTrade.PassesOver passedExtension := .inr (by decide)
  have hread : messageBody { name := "Trade", line := 3 } [] (restOfTrade 4) =
      .ok (trade 3 4, []) := by decide +kernel
  obtain ⟨h, hlines⟩ := read_append_of_passesOver (b := openTrade) hpasses hread
  exact ⟨h, hlines (restOfTrade 6) rfl⟩

end ProtoStub.Schema

import ProtoStub.Proofs.Rendering

/-!
# Lines do not matter to the grammar

The grammar looks at lexemes only. The line of a token is copied into what is read, or into the
refusal, and decides nothing: tokens without their lines are read to the same, without its lines
(`Parser.Unlines`), and leave the same behind. Each production has one lemma, an equation between
its two runs, so a production that calls another rewrites with it. The loops go by the recursion of
the loop itself. `fileBody_unlines` and `messageBody_unlines` are the results for files and
messages.
-/

namespace ProtoStub

/-- A token without its line. -/
def Token.unlined (t : Token) : Token := { t with line := 0 }

/-- Only the line of a token is lost. -/
@[simp] theorem Token.unlined_mk (l : Lexeme) (line : Nat) : Token.unlined ⟨l, line⟩ = ⟨l, 0⟩ := rfl

/-- A symbol is told from its lexeme. -/
@[simp] theorem Token.unlined_isSymbol (t : Token) (c : Char) :
    t.unlined.isSymbol c = t.isSymbol c := rfl

/-- A word is told from its lexeme. -/
@[simp] theorem Token.unlined_isWord (t : Token) : t.unlined.isWord = t.isWord := rfl

/-- Looking ahead for a symbol does not look at lines. -/
@[simp] theorem startsWithSymbol_unlined (ts : List Token) (c : Char) :
    startsWithSymbol (ts.map Token.unlined) c = startsWithSymbol ts c := by
  cases ts <;> rfl

/-- Looking ahead for a word does not look at lines. -/
@[simp] theorem startsWithWord_unlined (ts : List Token) (w : String) :
    startsWithWord (ts.map Token.unlined) w = startsWithWord ts w := by
  cases ts <;> rfl

end ProtoStub

namespace ProtoStub.Schema

variable {α β : Type}

/-- A refusal without its line. -/
def Refusal.unlined : Refusal → Refusal
  | .fault line f => .fault (line.map fun _ => 0) f
  | .group _ => .group 0

/-- What was read and the tokens left over, without lines; `f` drops them from what was read. -/
def unlined (f : α → α) : Except Refusal (α × List Token) → Except Refusal (α × List Token)
  | .ok (x, rest) => .ok (f x, rest.map Token.unlined)
  | .error e => .error e.unlined

/-- What was read and what is left lose their lines one by one. -/
theorem unlined_ok (f : α → α) (x : α) (rest : List Token) :
    unlined f (.ok (x, rest)) = .ok (f x, rest.map Token.unlined) := rfl

/-- Tokens without lines are read to the same without lines. -/
def Parser.Unlines (p : Parser α) (f : α → α) : Prop :=
  ∀ ts, p (ts.map Token.unlined) = unlined f (p ts)

/-- A refusal takes its line from the token that it is about. -/
@[simp] theorem refuse_unlined (f : α → α) (ts : List Token) (fault : Option Lexeme → Fault) :
    refuse (ts.map Token.unlined) fault = unlined f (refuse ts fault) := by
  cases ts <;> rfl

/-- A name without its line. -/
def unlinedName (name : String × Nat) : String × Nat := (name.1, 0)

/-! ## Words and marks -/

/-- A symbol has no line to lose. -/
theorem symbol_unlines (c : Char) : (symbol c).Unlines id := by
  intro ts
  cases ts with
  | nil => rfl
  | cons t rest =>
    simp only [List.map_cons, symbol, Token.unlined_isSymbol, apply_ite (unlined id)]
    rfl

/-- A name keeps the line of its token beside it, which is lost. -/
theorem ident_unlines : ident.Unlines unlinedName := by
  intro ts
  cases ts with
  | nil => rfl
  | cons t rest =>
    obtain ⟨lexeme, line⟩ := t
    cases lexeme <;> rfl

/-- The rest of a dotted name goes by the recursion over its dots. -/
theorem dottedTail_unlines : dottedTail.Unlines id := by
  intro ts
  fun_induction dottedTail ts with
  | case1 => rfl
  | case2 t ht name line ts tail rest htail ih =>
    rw [htail] at ih
    rw [List.map_cons, List.map_cons, dottedTail.eq_def]
    simp only [Token.unlined_isSymbol, ht, if_true, Token.unlined_mk, ih, unlined, id]
  | case3 t ht name line ts e he ih =>
    rw [he] at ih
    rw [List.map_cons, List.map_cons, dottedTail.eq_def]
    simp only [Token.unlined_isSymbol, ht, if_true, Token.unlined_mk, ih, unlined]
  | case4 t ht rest hno =>
    rw [List.map_cons, dottedTail.eq_def]
    simp only [Token.unlined_isSymbol, ht, if_true]
    split
    · rename_i he
      cases rest with
      | nil => cases he
      | cons t' rest =>
        obtain ⟨lexeme, line⟩ := t'
        cases he
        exact absurd rfl (hno _ _ _)
    · exact refuse_unlined id rest _
  | case5 t ts ht =>
    rw [List.map_cons, dottedTail.eq_def]
    simp only [Token.unlined_isSymbol, ht]
    rfl

/-- A dotted name is put together without lines. -/
theorem dotted_unlines : dotted.Unlines id := by
  intro ts
  simp only [dotted, ident_unlines ts]
  rcases ident ts with e | ⟨⟨name, line⟩, rest⟩
  · rfl
  simp only [unlined, unlinedName, dottedTail_unlines rest]
  rcases dottedTail rest with e | ⟨tail, rest'⟩ <;> rfl

/-- A name in full has no line either. -/
theorem fullIdent_unlines : fullIdent.Unlines id := by
  intro ts
  cases ts with
  | nil => exact dotted_unlines []
  | cons t rest =>
    have hdotted := dotted_unlines (t :: rest)
    rw [List.map_cons] at hdotted
    simp only [List.map_cons, fullIdent, Token.unlined_isSymbol, apply_ite (unlined id), hdotted,
      dotted_unlines rest]
    rcases dotted rest with e | ⟨name, rest'⟩ <;> rfl

/-! ## Runs that are passed over -/

/-- Brackets are counted by lexeme, so the same tokens are passed over. -/
theorem skipStatement_unlines (depth : Int) : (skipStatement depth).Unlines id := by
  intro ts
  induction ts generalizing depth with
  | nil => rfl
  | cons t rest ih =>
    have hopens : opens t.unlined = opens t := rfl
    have hcloses : closes t.unlined = closes t := rfl
    simp only [List.map_cons, skipStatement, hopens, hcloses, Token.unlined_isSymbol,
      startsWithSymbol_unlined, apply_ite (unlined id), ih]
    rfl

/-- The square brackets of options are counted by lexeme too. -/
theorem skipOptions_unlines (depth : Nat) : (skipOptions depth).Unlines id := by
  intro ts
  induction ts generalizing depth with
  | nil => rfl
  | cons t rest ih =>
    simp only [List.map_cons, skipOptions, Token.unlined_isSymbol, apply_ite (unlined id), ih]
    rfl

/-- A member ends at the same token. -/
theorem endOfMember_unlines : endOfMember.Unlines id := by
  intro ts
  simp only [endOfMember, startsWithSymbol_unlined, skipOptions_unlines 0 ts,
    symbol_unlines ';' ts, apply_ite (unlined id)]
  rcases skipOptions 0 ts with e | ⟨x, rest⟩
  · rfl
  · simp only [unlined, symbol_unlines ';' rest]

/-! ## Blocks -/

section
variable {unterminated : Fault} {passed : List String} {item : Parser α}
  {advances : item.Advances}

/-- A block that has tokens left: it ends, passes something over, or reads an item and goes on. -/
theorem block_cons (t : Token) (rest : List Token) :
    block unterminated passed item @advances (t :: rest) =
      if t.isSymbol '}' then .ok ([], rest)
      else if t.isSymbol ';' then block unterminated passed item @advances rest
      else if passed.any t.isWord then
        match skipStatement 0 (t :: rest) with
        | .error e => .error e
        | .ok (_, after) => block unterminated passed item @advances after
      else
        match item (t :: rest) with
        | .error e => .error e
        | .ok (x, after) =>
          match block unterminated passed item @advances after with
          | .error e => .error e
          | .ok (xs, after') => .ok (x :: xs, after') := by
  rw [block.eq_def]
  dsimp only
  split
  · rfl
  split
  · rfl
  split
  · split <;> simp only [*]
  · split <;> grind

/-- A block without lines is read like the block when its items are. -/
theorem block_unlines {f : α → α} (hitem : item.Unlines f) :
    Parser.Unlines (block unterminated passed item @advances) (List.map f) := by
  intro ts
  -- Every turn of the loop leaves fewer tokens.
  induction hn : ts.length using Nat.strongRecOn generalizing ts with
  | _ n ih =>
    subst hn
    cases ts with
    | nil =>
      rw [List.map_nil, block.eq_def]
      rfl
    | cons t rest =>
      have hskip := skipStatement_unlines 0 (t :: rest)
      have hread := hitem (t :: rest)
      rw [List.map_cons] at hskip hread
      rw [List.map_cons, block_cons, block_cons, Token.unlined_isSymbol, Token.unlined_isSymbol,
        Token.unlined_isWord, hskip, hread]
      split_ifs
      · rfl
      · exact ih _ (by simp) rest rfl
      · rcases hs : skipStatement 0 (t :: rest) with e | ⟨x, after⟩
        · rfl
        · exact ih _ (skipStatement_advances 0 hs) after rfl
      · rcases hx : item (t :: rest) with e | ⟨x, after⟩
        · rfl
        · simp only [unlined, ih _ (advances hx) after rfl]
          rcases block unterminated passed item @advances after with e | ⟨xs, after'⟩ <;> rfl

end

/-- The head of a block has the line of its name. -/
theorem blockHead_unlines : blockHead.Unlines unlinedName := by
  intro ts
  simp only [blockHead, ident_unlines ts]
  rcases ident ts with e | ⟨name, rest⟩
  · rfl
  simp only [unlined, symbol_unlines '{' rest]
  rcases symbol '{' rest with e | ⟨x, rest'⟩ <;> rfl

/-! ## Members -/

/-- A number keeps the line of its token beside it. -/
theorem intLiteral_unlines (fault : Option Lexeme → Fault) :
    (intLiteral fault).Unlines unlinedName := by
  intro ts
  cases ts with
  | nil => rfl
  | cons t rest =>
    obtain ⟨lexeme, line⟩ := t
    cases lexeme <;> rfl

/-- A label is told from a word, and taken or not taken alike. -/
theorem fieldLabel_unlined (ts : List Token) :
    fieldLabel (ts.map Token.unlined) =
      ((fieldLabel ts).1, (fieldLabel ts).2.map Token.unlined) := by
  cases ts with
  | nil => rfl
  | cons t rest =>
    simp only [List.map_cons, fieldLabel, Token.unlined_isWord]
    split_ifs <;> rfl

/-- The type of a map is rewritten through its key and its value. -/
theorem mapType_unlines : mapType.Unlines id := by
  intro ts
  simp only [mapType, fullIdent_unlines ts]
  rcases fullIdent ts with e | ⟨key, rest⟩
  · rfl
  simp only [unlined, symbol_unlines ',' rest]
  rcases symbol ',' rest with e | ⟨x, rest⟩
  · rfl
  simp only [unlined, fullIdent_unlines rest]
  rcases fullIdent rest with e | ⟨value, rest⟩
  · rfl
  simp only [unlined, symbol_unlines '>' rest]
  rcases symbol '>' rest with e | ⟨x, rest⟩ <;> rfl

/-- Which kind of type stands there is told from a word and a symbol. -/
theorem fieldType_unlines : fieldType.Unlines id := by
  intro ts
  simp only [fieldType, startsWithWord_unlined, ← List.map_drop, startsWithSymbol_unlined,
    fullIdent_unlines ts, mapType_unlines (ts.drop 2)]
  split_ifs
  · rcases mapType (ts.drop 2) with e | ⟨value, rest⟩ <;> rfl
  · rcases fullIdent ts with e | ⟨type, rest⟩ <;> rfl

/-- The range of a number does not depend on where it stands. -/
theorem fieldNumber_unlines : fieldNumber.Unlines id := by
  intro ts
  simp only [fieldNumber, intLiteral_unlines _ ts]
  rcases intLiteral .expectedFieldNumber ts with e | ⟨⟨spelling, line⟩, rest⟩
  · rfl
  simp only [unlined, unlinedName]
  split_ifs <;> rfl

/-- A field has the line of its name; all its parts are rewritten in turn. -/
theorem field_unlines : field.Unlines Field.unlined := by
  intro ts
  have hline : (((ts.map Token.unlined).head?.map (·.line)).getD 0 : Nat) = 0 := by
    cases ts <;> rfl
  simp only [field, hline, fieldLabel_unlined, startsWithWord_unlined,
    fieldType_unlines (fieldLabel ts).2]
  split_ifs
  · rfl
  rcases fieldType (fieldLabel ts).2 with e | ⟨⟨isMap, type⟩, rest⟩
  · rfl
  simp only [unlined, id, ident_unlines rest]
  rcases ident rest with e | ⟨⟨name, line⟩, rest⟩
  · rfl
  simp only [unlined, unlinedName, symbol_unlines '=' rest]
  rcases symbol '=' rest with e | ⟨x, rest⟩
  · rfl
  simp only [unlined, fieldNumber_unlines rest]
  rcases fieldNumber rest with e | ⟨number, rest⟩
  · rfl
  simp only [unlined, endOfMember_unlines rest]
  rcases endOfMember rest with e | ⟨x, rest⟩ <;> rfl

/-- The fields of a oneof lose their lines one by one. -/
theorem oneof_unlines : oneof.Unlines (List.map Field.unlined) := by
  intro ts
  simp only [oneof, blockHead_unlines ts]
  rcases blockHead ts with e | ⟨name, rest⟩
  · rfl
  · exact block_unlines field_unlines rest

/-- The number of a value has no line. -/
theorem enumNumber_unlines : enumNumber.Unlines id := by
  intro ts
  have hsign : (if startsWithSymbol ts '-' then (ts.map Token.unlined).drop 1
      else ts.map Token.unlined) =
      (if startsWithSymbol ts '-' then ts.drop 1 else ts).map Token.unlined := by
    split_ifs
    · rw [List.map_drop]
    · rfl
  simp only [enumNumber, startsWithSymbol_unlined, hsign, intLiteral_unlines _ _]
  rcases intLiteral .expectedEnumValue _ with e | ⟨⟨spelling, line⟩, rest⟩
  · rfl
  simp only [unlined, unlinedName]
  split_ifs <;> rfl

/-- A value has no line. -/
theorem enumValue_unlines : enumValue.Unlines id := by
  intro ts
  simp only [enumValue, ident_unlines ts]
  rcases ident ts with e | ⟨⟨name, line⟩, rest⟩
  · rfl
  simp only [unlined, unlinedName, symbol_unlines '=' rest]
  rcases symbol '=' rest with e | ⟨x, rest⟩
  · rfl
  simp only [unlined, enumNumber_unlines rest]
  rcases enumNumber rest with e | ⟨number, rest⟩
  · rfl
  simp only [unlined, endOfMember_unlines rest]
  rcases endOfMember rest with e | ⟨x, rest⟩ <;> rfl

/-- An enum has the line of its name. -/
theorem enum_unlines : enum.Unlines Enum.unlined := by
  intro ts
  simp only [enum, blockHead_unlines ts]
  rcases blockHead ts with e | ⟨⟨name, line⟩, rest⟩
  · rfl
  have hvalues : block (.unterminated .enum name) ["option", "reserved"] enumValue
      enumValue_advances (rest.map Token.unlined) = _ := block_unlines enumValue_unlines rest
  simp only [unlined, unlinedName, hvalues]
  rcases block _ _ enumValue enumValue_advances rest with e | ⟨values, rest⟩
  · rfl
  · simp [Enum.unlined]

/-! ## Services -/

/-- The type of a request or a response has no line. -/
theorem rpcType_unlines : rpcType.Unlines id := by
  intro ts
  simp only [rpcType, symbol_unlines '(' ts]
  rcases symbol '(' ts with e | ⟨x, rest⟩
  · rfl
  have hstream : (if startsWithWord rest "stream" && !startsWithSymbol (rest.drop 1) ')'
      then (rest.map Token.unlined).drop 1 else rest.map Token.unlined) =
      (if startsWithWord rest "stream" && !startsWithSymbol (rest.drop 1) ')'
        then rest.drop 1 else rest).map Token.unlined := by
    split_ifs
    · rw [List.map_drop]
    · rfl
  have hnext : startsWithSymbol ((rest.map Token.unlined).drop 1) ')' =
      startsWithSymbol (rest.drop 1) ')' := by
    rw [← List.map_drop, startsWithSymbol_unlined]
  simp only [unlined, startsWithWord_unlined, hnext, hstream, fullIdent_unlines _]
  rcases fullIdent _ with e | ⟨type, rest⟩
  · rfl
  simp only [unlined, symbol_unlines ')' rest]
  rcases symbol ')' rest with e | ⟨x, rest⟩ <;> rfl

/-- A procedure ends at the same token, with a semicolon or with a block. -/
theorem rpcEnd_unlines (name : String) : (rpcEnd name).Unlines id := by
  intro ts
  have hoptions : block (.unterminated .rpc name) [] (skipStatement 0) (skipStatement_advances 0)
      ((ts.drop 1).map Token.unlined) = _ := block_unlines (skipStatement_unlines 0) (ts.drop 1)
  simp only [rpcEnd, startsWithSymbol_unlined, ← List.map_drop, hoptions, refuse_unlined id ts]
  split_ifs
  · rfl
  · rcases block _ _ (skipStatement 0) (skipStatement_advances 0) (ts.drop 1) with e | ⟨x, rest⟩
    all_goals rfl
  · rfl

/-- A procedure has the line of its name. -/
theorem rpc_unlines : rpc.Unlines Method.unlined := by
  intro ts
  simp only [rpc, ident_unlines ts]
  rcases ident ts with e | ⟨⟨name, line⟩, rest⟩
  · rfl
  simp only [unlined, unlinedName, rpcType_unlines rest]
  rcases rpcType rest with e | ⟨⟨clientStreaming, input⟩, rest⟩
  · rfl
  simp only [unlined, id, startsWithWord_unlined, ← List.map_drop, rpcType_unlines (rest.drop 1),
    refuse_unlined Method.unlined rest]
  split_ifs
  · rcases rpcType (rest.drop 1) with e | ⟨⟨serverStreaming, output⟩, rest⟩
    · rfl
    simp only [unlined, id, rpcEnd_unlines name rest]
    rcases rpcEnd name rest with e | ⟨x, rest⟩ <;> rfl
  · rfl

/-- A member of a service is a procedure or is refused, at the same token. -/
theorem serviceItem_unlines (service : String) : (serviceItem service).Unlines Method.unlined := by
  intro ts
  cases ts with
  | nil => rfl
  | cons t rest =>
    simp only [List.map_cons, serviceItem, Token.unlined_isWord, rpc_unlines rest]
    split_ifs <;> rfl

/-- A service has the line of its name, and its procedures have theirs. -/
theorem service_unlines : service.Unlines Service.unlined := by
  intro ts
  simp only [service, blockHead_unlines ts]
  rcases blockHead ts with e | ⟨⟨name, line⟩, rest⟩
  · rfl
  have hmethods : block (.unterminated .service name) ["option"] (serviceItem name)
      (serviceItem_advances name) (rest.map Token.unlined) = _ :=
    block_unlines (serviceItem_unlines name) rest
  simp only [unlined, unlinedName, hmethods]
  rcases block _ _ (serviceItem name) (serviceItem_advances name) rest with e | ⟨methods, rest⟩
  all_goals rfl

/-! ## Messages -/

/-- A message that has tokens left: it ends, or takes in what is read next and goes on. -/
theorem messageBody_cons (top : Message) (outer : List Message) (t : Token) (rest : List Token) :
    messageBody top outer (t :: rest) =
      if t.isSymbol '}' then
        match outer with
        | [] => .ok (top, rest)
        | next :: outer => messageBody { next with messages := next.messages ++ [top] } outer rest
      else if t.isSymbol ';' then messageBody top outer rest
      else if t.isWord "message" then
        match blockHead rest with
        | .error e => .error e
        | .ok ((name, line), after) => messageBody { name, line } (top :: outer) after
      else if t.isWord "enum" then
        match enum rest with
        | .error e => .error e
        | .ok (e, after) => messageBody { top with enums := top.enums ++ [e] } outer after
      else if t.isWord "oneof" then
        match oneof rest with
        | .error e => .error e
        | .ok (fields, after) => messageBody { top with fields := top.fields ++ fields } outer after
      else if passedInMessage.any t.isWord then
        match skipStatement 0 (t :: rest) with
        | .error e => .error e
        | .ok (_, after) => messageBody top outer after
      else
        match field (t :: rest) with
        | .error e => .error e
        | .ok (f, after) => messageBody { top with fields := top.fields ++ [f] } outer after := by
  rw [messageBody.eq_def]
  dsimp only
  split_ifs
  · rfl
  · rfl
  iterate 5
    · split <;> simp only [*]

/-- A message without lines, by the lists it holds. -/
theorem Message.unlined_eq (m : Message) : m.unlined =
    ⟨m.name, 0, m.fields.map Field.unlined, m.messages.map Message.unlined,
      m.enums.map Enum.unlined⟩ := by
  cases m
  rw [Message.unlined, Message.allUnlined_eq]

/-- A message without lines is read like the message, also inside messages that are still open. -/
theorem messageBody_unlines (top : Message) (outer : List Message) (ts : List Token) :
    messageBody top.unlined (outer.map Message.unlined) (ts.map Token.unlined) =
      unlined Message.unlined (messageBody top outer ts) := by
  induction hn : ts.length using Nat.strongRecOn generalizing top outer ts with
  | _ n ih =>
    subst hn
    cases ts with
    | nil =>
      rw [List.map_nil, messageBody.eq_1, messageBody.eq_1, Message.unlined_eq]
      rfl
    | cons t rest =>
      have hskip := skipStatement_unlines 0 (t :: rest)
      have hfield := field_unlines (t :: rest)
      rw [List.map_cons] at hskip hfield
      rw [List.map_cons, messageBody_cons, messageBody_cons]
      simp only [Token.unlined_isSymbol, Token.unlined_isWord, blockHead_unlines rest,
        enum_unlines rest, oneof_unlines rest, hskip, hfield]
      -- After each turn the message so far, without lines, is the one the other run has so far.
      split_ifs
      · cases outer with
        | nil => rfl
        | cons next outer =>
          rw [← ih _ (by simp) _ outer rest rfl]
          simp [Message.unlined_eq]
      · exact ih _ (by simp) top outer rest rfl
      · rcases hx : blockHead rest with e | ⟨⟨name, line⟩, after⟩
        · rfl
        · simp only [unlined_ok]
          rw [← ih _ (by have := blockHead_advances hx; simp; omega) _ _ after rfl]
          simp [Message.unlined_eq, unlinedName]
      · rcases hx : enum rest with e | ⟨e, after⟩
        · rfl
        · simp only [unlined_ok]
          rw [← ih _ (by have := enum_advances hx; simp; omega) _ outer after rfl]
          simp [Message.unlined_eq]
      · rcases hx : oneof rest with e | ⟨fields, after⟩
        · rfl
        · simp only [unlined_ok]
          rw [← ih _ (by have := oneof_advances hx; simp; omega) _ outer after rfl]
          simp [Message.unlined_eq]
      · rcases hx : skipStatement 0 (t :: rest) with e | ⟨x, after⟩
        · rfl
        · exact ih _ (skipStatement_advances 0 hx) top outer after rfl
      · rcases hx : field (t :: rest) with e | ⟨f, after⟩
        · rfl
        · simp only [unlined_ok]
          rw [← ih _ (field_advances hx) _ outer after rfl]
          simp [Message.unlined_eq]

/-- A message is its head and its body, which `messageBody_unlines` rewrites. -/
theorem message_unlines : message.Unlines Message.unlined := by
  intro ts
  simp only [message, blockHead_unlines ts]
  rcases blockHead ts with e | ⟨⟨name, line⟩, rest⟩
  · rfl
  · simp only [unlined_ok, ← messageBody_unlines]
    simp [Message.unlined_eq, unlinedName]

/-! ## Files -/

/-- An import without its line. -/
def ImportSite.unlined (site : ImportSite) : ImportSite := { site with line := 0 }

/-- The word before the path of an import is taken or not taken alike. -/
theorem importModifier_unlined (ts : List Token) : importModifier (ts.map Token.unlined) =
    ((importModifier ts).1, (importModifier ts).2.map Token.unlined) := by
  cases ts with
  | nil => rfl
  | cons t rest =>
    simp only [List.map_cons, importModifier, Token.unlined_isWord]
    split_ifs <;> rfl

/-- An import site has the line of its path. -/
theorem importPath_unlines : importPath.Unlines ImportSite.unlined := by
  intro ts
  cases ts with
  | nil => rfl
  | cons t rest =>
    obtain ⟨lexeme, line⟩ := t
    cases lexeme with
    | string path =>
      simp only [List.map_cons, Token.unlined_mk, importPath, symbol_unlines ';' rest]
      rcases symbol ';' rest with e | ⟨x, rest⟩ <;> rfl
    | _ => rfl

/-- Whether an import is public does not depend on lines. -/
theorem importStatement_unlines :
    importStatement.Unlines fun (site, isPublic) => (site.unlined, isPublic) := by
  intro ts
  simp only [importStatement, importModifier_unlined, importPath_unlines (importModifier ts).2]
  rcases importPath (importModifier ts).2 with e | ⟨site, rest⟩ <;> rfl

/-- A package has no line. -/
theorem packageStatement_unlines : packageStatement.Unlines id := by
  intro ts
  simp only [packageStatement, fullIdent_unlines ts]
  rcases fullIdent ts with e | ⟨name, rest⟩
  · rfl
  simp only [unlined, symbol_unlines ';' rest]
  rcases symbol ';' rest with e | ⟨x, rest⟩ <;> rfl

/-- A file without lines is read like the file. -/
theorem fileBody_unlines (done : Parsed) (ts : List Token) :
    fileBody done.unlined (ts.map Token.unlined) =
      ((fileBody done ts).map Parsed.unlined).mapError Refusal.unlined := by
  induction hn : ts.length using Nat.strongRecOn generalizing done ts with
  | _ n ih =>
    subst hn
    cases ts with
    | nil =>
      rw [List.map_nil, fileBody.eq_1, fileBody.eq_1]
      rfl
    | cons t rest =>
      have hskip := skipStatement_unlines 0 (t :: rest)
      rw [List.map_cons] at hskip
      rw [List.map_cons, fileBody_cons, fileBody_cons]
      simp only [Token.unlined_isSymbol, Token.unlined_isWord, packageStatement_unlines rest,
        importStatement_unlines rest, message_unlines rest, enum_unlines rest,
        service_unlines rest, hskip]
      split_ifs
      · exact ih _ (by simp) done rest rfl
      · rcases hx : skipStatement 0 (t :: rest) with e | ⟨x, after⟩
        · rfl
        · exact ih _ (skipStatement_advances 0 hx) done after rfl
      · rcases hx : packageStatement rest with e | ⟨name, after⟩
        · rfl
        · simp only [unlined_ok]
          rw [← ih _ (by have := packageStatement_advances hx; simp; omega) _ after rfl]
          simp [Parsed.unlined]
      · rcases hx : importStatement rest with e | ⟨⟨site, isPublic⟩, after⟩
        · rfl
        · simp only [unlined_ok]
          rw [← ih _ (by have := importStatement_advances hx; simp; omega) _ after rfl]
          simp [Parsed.unlined, ImportSite.unlined]
      · rcases hx : message rest with e | ⟨m, after⟩
        · rfl
        · simp only [unlined_ok]
          rw [← ih _ (by have := message_advances hx; simp; omega) _ after rfl]
          simp [Parsed.unlined, Message.allUnlined_eq]
      · rcases hx : enum rest with e | ⟨e, after⟩
        · rfl
        · simp only [unlined_ok]
          rw [← ih _ (by have := enum_advances hx; simp; omega) _ after rfl]
          simp [Parsed.unlined]
      · rcases hx : service rest with e | ⟨s, after⟩
        · rfl
        · simp only [unlined_ok]
          rw [← ih _ (by have := service_advances hx; simp; omega) _ after rfl]
          simp [Parsed.unlined]
      · rfl

end ProtoStub.Schema

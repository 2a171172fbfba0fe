import ProtoStub.Proofs.Identifiers
import ProtoStub.Proofs.Relining

/-!
# Every turn of a loop reads a token

Nothing in the grammar counts: its loops go on by what stands next, and the end of the tokens can be
looked at again and again. They end because every turn takes tokens away. `Loop.turn` is one turn
of each loop; it goes on with what is left or leaves, and when it goes on it has read something
(`Loop.turn_consumes`). The productions are these loops (`Loop.read_eq_turn`), with a
message inside another one read as a production of its own (`messageBody_append`). So a loop leaves
after at most one turn for each token and one more (`Loop.exists_runs`), whatever the tokens are.

`parsing_progresses` says this of all productions and loops: success leaves an end of the tokens, a
shorter one unless only options were looked for, and reading a file ends.
-/

namespace ProtoStub.Schema

/-! ## Productions -/

/-- The options in square brackets behind a member, if there are any. -/
def bracketOptions : Parser Unit := fun ts =>
  if startsWithSymbol ts '[' then skipOptions 0 ts else .ok ((), ts)

/-- Options behind a member leave an end of the tokens; there may be none, so it need not be
shorter. -/
theorem bracketOptions_drops : bracketOptions.Drops := by
  intro ts x rest h
  rw [bracketOptions] at h
  split at h
  · exact skipOptions_drops 0 h
  · cases h
    exact List.suffix_refl ts

/-- A statement that is passed over from its start has a token. -/
theorem wholeStatement_advances : Parser.Advances (skipStatement 0) := skipStatement_advances 0

/-- The productions that read a part of a file. -/
inductive Production where
  | fullIdent
  | statement
  | bracketOptions
  | message
  | oneof
  | field
  | enum
  | service
  | rpc
  | rpcType
  deriving DecidableEq

/-- What a production leaves of the tokens. One that a word introduces starts at that word. -/
def Production.leaves : Production → List Token → Except Refusal (List Token)
  | fullIdent, ts => (Schema.fullIdent ts).map (·.2)
  | statement, ts => (skipStatement 0 ts).map (·.2)
  | bracketOptions, ts => (Schema.bracketOptions ts).map (·.2)
  | message, ts => (Schema.message (ts.drop 1)).map (·.2)
  | oneof, ts => (Schema.oneof (ts.drop 1)).map (·.2)
  | field, ts => (Schema.field ts).map (·.2)
  | enum, ts => (Schema.enum (ts.drop 1)).map (·.2)
  | service, ts => (Schema.service (ts.drop 1)).map (·.2)
  | rpc, ts => (Schema.rpc (ts.drop 1)).map (·.2)
  | rpcType, ts => (Schema.rpcType ts).map (·.2)

/-- `rest` is what is left of `ts` when some of it was read. -/
def Consumed (ts rest : List Token) : Prop := rest <:+ ts ∧ rest.length < ts.length

theorem Consumed.tail (t : Token) (ts : List Token) : Consumed (t :: ts) ts :=
  ⟨List.suffix_cons t ts, by simp⟩

/-- What is consumed of an end of the tokens is consumed of the tokens. -/
theorem Consumed.trans_suffix {ts us rest : List Token} (h : Consumed us rest) (hus : us <:+ ts) :
    Consumed ts rest :=
  ⟨h.1.trans hus, h.2.trans_le hus.length_le⟩

section
variable {α : Type} {p : Parser α} {ts rest : List Token}

/-- A success whose content was dropped had some content. -/
theorem exists_of_map_eq_ok (h : (p ts).map (·.2) = .ok rest) : ∃ x, p ts = .ok (x, rest) := by
  rcases hp : p ts with e | ⟨x, after⟩
  · rw [hp] at h
    cases h
  · rw [hp] at h
    cases h
    exact ⟨x, rfl⟩

/-- A production that drops tokens and advances consumes what it reads. -/
theorem consumed_of_map_eq_ok (hdrops : p.Drops) (hadvances : p.Advances)
    (h : (p ts).map (·.2) = .ok rest) : Consumed ts rest := by
  obtain ⟨x, hx⟩ := exists_of_map_eq_ok h
  exact ⟨hdrops hx, hadvances hx⟩

end

/-- A production that succeeds has read something; only options may be missing. -/
theorem Production.consumed {p : Production} {ts rest : List Token} (h : p.leaves ts = .ok rest) :
    rest <:+ ts ∧ (p ≠ .bracketOptions → rest.length < ts.length) := by
  have hword : ∀ {us : List Token}, us = ts.drop 1 → Consumed us rest → Consumed ts rest :=
    fun hus hc => hc.trans_suffix (hus ▸ List.drop_suffix 1 ts)
  have hof : Consumed ts rest → rest <:+ ts ∧ (p ≠ .bracketOptions → rest.length < ts.length) :=
    fun hc => ⟨hc.1, fun _ => hc.2⟩
  cases p with
  | fullIdent => exact hof (consumed_of_map_eq_ok fullIdent_drops fullIdent_advances h)
  | statement =>
    exact hof (consumed_of_map_eq_ok (skipStatement_drops 0) wholeStatement_advances h)
  | bracketOptions =>
    obtain ⟨x, hx⟩ := exists_of_map_eq_ok h
    exact ⟨bracketOptions_drops hx, fun hne => absurd rfl hne⟩
  | message => exact hof (hword rfl (consumed_of_map_eq_ok message_drops message_advances h))
  | oneof => exact hof (hword rfl (consumed_of_map_eq_ok oneof_drops oneof_advances h))
  | field => exact hof (consumed_of_map_eq_ok field_drops field_advances h)
  | enum => exact hof (hword rfl (consumed_of_map_eq_ok enum_drops enum_advances h))
  | service => exact hof (hword rfl (consumed_of_map_eq_ok service_drops service_advances h))
  | rpc => exact hof (hword rfl (consumed_of_map_eq_ok rpc_drops rpc_advances h))
  | rpcType => exact hof (consumed_of_map_eq_ok rpcType_drops rpcType_advances h)

/-! ## Turns -/

/-- What one turn of a loop comes to. -/
inductive Turn (σ ρ : Type) where
  /-- Another turn, on what is left of the tokens. -/
  | again (state : σ) (rest : List Token)
  /-- The end of the loop. -/
  | leave (result : Except Refusal ρ)

namespace Turn

variable {σ ρ α : Type}

/-- Goes on behind what was read, or leaves with the refusal. -/
def behind (r : Except Refusal (α × List Token)) (next : α → σ) : Turn σ ρ :=
  match r with
  | .error e => .leave (.error e)
  | .ok (x, rest) => .again (next x) rest

/-- A turn on `ts` that goes on has read something. -/
def Consumes (ts : List Token) : Turn σ ρ → Prop
  | again _ rest => Consumed ts rest
  | leave _ => True

/-- A turn that reads a production and goes on behind it consumes what the production does. -/
theorem consumes_behind {p : Parser α} (hdrops : p.Drops) (hadvances : p.Advances)
    (ts : List Token) (next : α → σ) : (behind (p ts) next : Turn σ ρ).Consumes ts := by
  rcases h : p ts with e | ⟨x, rest⟩
  · trivial
  · exact ⟨hdrops h, hadvances h⟩

theorem Consumes.cons {ts : List Token} {turn : Turn σ ρ} (h : turn.Consumes ts) (t : Token) :
    turn.Consumes (t :: ts) := by
  cases turn with
  | again state rest => exact Consumed.trans_suffix h (List.suffix_cons t ts)
  | leave => trivial

/-- What a loop comes to after a turn, where `read` is the loop from then on. -/
def run (read : σ → List Token → Except Refusal ρ) : Turn σ ρ → Except Refusal ρ
  | again state rest => read state rest
  | leave result => result

end Turn

/-- One more word of a dotted name. -/
def dottedTurn (name : String) : List Token → Turn String (String × List Token)
  | [] => .leave (.ok (name, []))
  | t :: rest =>
    if t.isSymbol '.' then .behind (ident rest) fun word => name ++ ("." ++ word.1)
    else .leave (.ok (name, t :: rest))

/-- One token of a statement that is passed over. -/
def statementTurn (depth : Int) : List Token → Turn Int (Unit × List Token)
  | [] => .leave (refuse [] fun _ => .unexpectedEnd)
  | t :: rest =>
    if opens t then .again (depth + 1) rest
    else if closes t then
      if depth == 1 && t.isSymbol '}' && !startsWithSymbol rest ';' then .leave (.ok ((), rest))
      else .again (depth - 1) rest
    else if t.isSymbol ';' && depth == 0 then .leave (.ok ((), rest))
    else .again depth rest

/-- One token of the options of a member. -/
def optionsTurn (depth : Nat) : List Token → Turn Nat (Unit × List Token)
  | [] => .leave (refuse [] fun _ => .unexpectedEnd)
  | t :: rest =>
    if t.isSymbol '[' then .again (depth + 1) rest
    else if t.isSymbol ']' then
      if depth ≤ 1 then .leave (.ok ((), rest)) else .again (depth - 1) rest
    else .again depth rest

/-- One item of a block. -/
def blockTurn {α : Type} (unterminated : Fault) (passed : List String) (item : Parser α)
    (items : List α) : List Token → Turn (List α) (List α × List Token)
  | [] => .leave (refuse [] fun _ => unterminated)
  | t :: rest =>
    if t.isSymbol '}' then .leave (.ok (items, rest))
    else if t.isSymbol ';' then .again items rest
    else if passed.any t.isWord then .behind (skipStatement 0 (t :: rest)) fun _ => items
    else .behind (item (t :: rest)) fun x => items ++ [x]

/-- One member of a message. -/
def messageTurn (top : Message) : List Token → Turn Message (Message × List Token)
  | [] => .leave (refuse [] fun _ => .unterminated .message top.name)
  | t :: rest =>
    if t.isSymbol '}' then .leave (.ok (top, rest))
    else if t.isSymbol ';' then .again top rest
    else if t.isWord "message" then
      .behind (message rest) fun m => { top with messages := top.messages ++ [m] }
    else if t.isWord "enum" then
      .behind (enum rest) fun e => { top with enums := top.enums ++ [e] }
    else if t.isWord "oneof" then
      .behind (oneof rest) fun fields => { top with fields := top.fields ++ fields }
    else if passedInMessage.any t.isWord then .behind (skipStatement 0 (t :: rest)) fun _ => top
    else .behind (field (t :: rest)) fun f => { top with fields := top.fields ++ [f] }

/-- One statement of a file. -/
def fileTurn (done : Parsed) : List Token → Turn Parsed Parsed
  | [] => .leave (.ok done)
  | t :: rest =>
    if t.isSymbol ';' then .again done rest
    else if passedInFile.any t.isWord then .behind (skipStatement 0 (t :: rest)) fun _ => done
    else if t.isWord "package" then
      .behind (packageStatement rest) fun package =>
        { done with file := { done.file with package } }
    else if t.isWord "import" then
      .behind (importStatement rest) fun (site, isPublic) =>
        let imports := done.file.imports ++ [{ path := Text.textOf site.path, isPublic }]
        { file := { done.file with imports }, sites := done.sites ++ [site] }
    else if t.isWord "message" then
      .behind (message rest) fun m =>
        { done with file := { done.file with messages := done.file.messages ++ [m] } }
    else if t.isWord "enum" then
      .behind (enum rest) fun e =>
        { done with file := { done.file with enums := done.file.enums ++ [e] } }
    else if t.isWord "service" then
      .behind (service rest) fun s =>
        { done with file := { done.file with services := done.file.services ++ [s] } }
    else .leave (refuse (t :: rest) fun _ => .unexpected t.lexeme)

/-! ## Loops -/

/-- What was read, put behind `x`. -/
def onto {α : Type} [Append α] (x : α) (r : Except Refusal (α × List Token)) :
    Except Refusal (α × List Token) :=
  r.map fun (y, rest) => (x ++ y, rest)

/-- The loops of the grammar. -/
inductive Loop where
  | dotted
  | statement
  | options
  | message
  | oneof
  | enum (name : String)
  | service (name : String)
  | rpc (name : String)
  | file

namespace Loop

/-- What a loop carries from turn to turn. -/
def State : Loop → Type
  | dotted => String
  | statement => Int
  | options => Nat
  | message => Message
  | oneof => List Field
  | enum _ => List EnumValue
  | service _ => List Method
  | rpc _ => List Unit
  | file => Parsed

/-- What a loop comes to. -/
def Result : Loop → Type
  | dotted => String × List Token
  | statement | options => Unit × List Token
  | message => Message × List Token
  | oneof => List Field × List Token
  | enum _ => List EnumValue × List Token
  | service _ => List Method × List Token
  | rpc _ => List Unit × List Token
  | file => Parsed

/-- One turn of a loop. -/
def turn : (l : Loop) → l.State → List Token → Turn l.State l.Result
  | dotted => dottedTurn
  | statement => statementTurn
  | options => optionsTurn
  | message => messageTurn
  | oneof => blockTurn .unterminatedOneof ["option"] field
  | enum name => blockTurn (.unterminated .enum name) ["option", "reserved"] enumValue
  | service name => blockTurn (.unterminated .service name) ["option"] (serviceItem name)
  | rpc name => blockTurn (.unterminated .rpc name) [] (skipStatement 0)
  | file => fileTurn

/-- The part of a production that is the loop, from a state on. -/
def read : (l : Loop) → l.State → List Token → Except Refusal l.Result
  | dotted => fun name ts => onto name (dottedTail ts)
  | statement => skipStatement
  | options => skipOptions
  | message => fun top => messageBody top []
  | oneof => fun fields ts =>
    onto fields (block .unterminatedOneof ["option"] field field_advances ts)
  | enum name => fun values ts =>
    onto values
      (block (.unterminated .enum name) ["option", "reserved"] enumValue enumValue_advances ts)
  | service name => fun methods ts =>
    onto methods (block (.unterminated .service name) ["option"] (serviceItem name)
      (serviceItem_advances name) ts)
  | rpc name => fun passed ts =>
    onto passed (block (.unterminated .rpc name) [] (skipStatement 0) wholeStatement_advances ts)
  | file => fileBody

end Loop

/-! ## A turn reads something -/

theorem dottedTurn_consumes (name : String) (ts : List Token) :
    (dottedTurn name ts).Consumes ts := by
  cases ts with
  | nil => trivial
  | cons t rest =>
    rw [dottedTurn]
    split
    · exact (Turn.consumes_behind ident_drops ident_advances rest _).cons t
    · trivial

theorem statementTurn_consumes (depth : Int) (ts : List Token) :
    (statementTurn depth ts).Consumes ts := by
  cases ts with
  | nil => trivial
  | cons t rest =>
    rw [statementTurn]
    split_ifs <;> first | trivial | exact .tail t rest

theorem optionsTurn_consumes (depth : Nat) (ts : List Token) :
    (optionsTurn depth ts).Consumes ts := by
  cases ts with
  | nil => trivial
  | cons t rest =>
    rw [optionsTurn]
    split_ifs <;> first | trivial | exact .tail t rest

theorem blockTurn_consumes {α : Type} {item : Parser α} (hdrops : item.Drops)
    (hadvances : item.Advances) (unterminated : Fault) (passed : List String) (items : List α)
    (ts : List Token) : (blockTurn unterminated passed item items ts).Consumes ts := by
  cases ts with
  | nil => trivial
  | cons t rest =>
    rw [blockTurn]
    split_ifs
    · trivial
    · exact .tail t rest
    · exact Turn.consumes_behind (skipStatement_drops 0) wholeStatement_advances _ _
    · exact Turn.consumes_behind hdrops hadvances _ _

/-- A member of a message is a production that advances, and so is the head of a message inside. -/
theorem messageTurn_consumes (top : Message) (ts : List Token) :
    (messageTurn top ts).Consumes ts := by
  cases ts with
  | nil => trivial
  | cons t rest =>
    rw [messageTurn]
    split_ifs
    · trivial
    · exact .tail t rest
    · exact (Turn.consumes_behind message_drops message_advances rest _).cons t
    · exact (Turn.consumes_behind enum_drops enum_advances rest _).cons t
    · exact (Turn.consumes_behind oneof_drops oneof_advances rest _).cons t
    · exact Turn.consumes_behind (skipStatement_drops 0) wholeStatement_advances _ _
    · exact Turn.consumes_behind field_drops field_advances _ _

theorem fileTurn_consumes (done : Parsed) (ts : List Token) : (fileTurn done ts).Consumes ts := by
  cases ts with
  | nil => trivial
  | cons t rest =>
    rw [fileTurn]
    split_ifs
    · exact .tail t rest
    · exact Turn.consumes_behind (skipStatement_drops 0) wholeStatement_advances _ _
    · exact (Turn.consumes_behind packageStatement_drops packageStatement_advances rest _).cons t
    · exact (Turn.consumes_behind importStatement_drops importStatement_advances rest _).cons t
    · exact (Turn.consumes_behind message_drops message_advances rest _).cons t
    · exact (Turn.consumes_behind enum_drops enum_advances rest _).cons t
    · exact (Turn.consumes_behind service_drops service_advances rest _).cons t
    · trivial

/-- The step: when a turn of any loop goes on, it has read something. -/
theorem Loop.turn_consumes (l : Loop) (s : l.State) (ts : List Token) :
    (l.turn s ts).Consumes ts := by
  cases l with
  | dotted => exact dottedTurn_consumes s ts
  | statement => exact statementTurn_consumes s ts
  | options => exact optionsTurn_consumes s ts
  | message => exact messageTurn_consumes s ts
  | oneof => exact blockTurn_consumes field_drops field_advances _ _ s ts
  | enum name => exact blockTurn_consumes enumValue_drops enumValue_advances _ _ s ts
  | service name =>
    exact blockTurn_consumes (serviceItem_drops name) (serviceItem_advances name) _ _ s ts
  | rpc name =>
    exact blockTurn_consumes (skipStatement_drops 0) wholeStatement_advances _ _ s ts
  | file => exact fileTurn_consumes s ts

/-! ## The productions go turn by turn -/

/-- A dotted name goes on as its turns do. -/
theorem dotted_read_eq_turn (name : String) (ts : List Token) :
    onto name (dottedTail ts) =
      (dottedTurn name ts).run fun name ts => onto name (dottedTail ts) := by
  cases ts with
  | nil => simp [dottedTail, dottedTurn, onto, Turn.run, Except.map]
  | cons t rest =>
    rw [dottedTail.eq_def, dottedTurn]
    dsimp only
    split
    · rcases rest with _ | ⟨⟨lexeme, line⟩, after⟩
      · rfl
      · cases lexeme with
        | ident word =>
          simp only [ident, Turn.behind, Turn.run]
          rcases dottedTail after with _ | ⟨tail, after'⟩
          · rfl
          · simp [onto, Except.map, String.append_assoc]
        | int | float | string | symbol => rfl
    · simp [onto, Turn.run, Except.map]

theorem skipStatement_eq_turn (depth : Int) (ts : List Token) :
    skipStatement depth ts = (statementTurn depth ts).run skipStatement := by
  cases ts with
  | nil => rfl
  | cons t rest =>
    rw [skipStatement, statementTurn]
    split_ifs <;> rfl

theorem skipOptions_eq_turn (depth : Nat) (ts : List Token) :
    skipOptions depth ts = (optionsTurn depth ts).run skipOptions := by
  cases ts with
  | nil => rfl
  | cons t rest =>
    rw [skipOptions, optionsTurn]
    split_ifs <;> rfl

/-- A block goes on as its turns do; the items read so far stand in front. -/
theorem block_eq_turn {α : Type} (unterminated : Fault) (passed : List String) (item : Parser α)
    (advances : item.Advances) (items : List α) (ts : List Token) :
    onto items (block unterminated passed item @advances ts) =
      (blockTurn unterminated passed item items ts).run fun items ts =>
        onto items (block unterminated passed item @advances ts) := by
  cases ts with
  | nil =>
    rw [block.eq_def]
    rfl
  | cons t rest =>
    rw [block_cons, blockTurn]
    split_ifs
    · simp [onto, Turn.run, Except.map]
    · rfl
    · rcases skipStatement 0 (t :: rest) with _ | ⟨_, after⟩ <;> rfl
    · rcases item (t :: rest) with _ | ⟨x, after⟩
      · rfl
      · simp only [Turn.behind, Turn.run]
        rcases block unterminated passed item @advances after with _ | ⟨xs, after'⟩
        · rfl
        · simp [onto, Except.map]

/-- A message inside another one is read to its end before the other one goes on. -/
theorem messageBody_append (inner : Message) (outs : List Message) (top : Message)
    (outer : List Message) (ts : List Token) :
    messageBody inner (outs ++ top :: outer) ts =
      match messageBody inner outs ts with
      | .error e => .error e
      | .ok (m, rest) =>
        messageBody { top with messages := top.messages ++ [m] } outer rest := by
  induction hn : ts.length using Nat.strongRecOn generalizing inner outs ts with
  | _ n ih =>
    subst hn
    cases ts with
    | nil =>
      rw [messageBody.eq_def, messageBody.eq_def]
      rfl
    | cons t rest =>
      rw [messageBody_cons, messageBody_cons]
      split_ifs
      · cases outs with
        | nil => rfl
        | cons next outs => exact ih rest.length (by simp) _ outs rest rfl
      · exact ih rest.length (by simp) inner outs rest rfl
      · rcases hread : blockHead rest with e | ⟨⟨name, line⟩, after⟩
        · rfl
        · have := blockHead_advances hread
          exact ih after.length (by simp; omega) _ (inner :: outs) after rfl
      · rcases hread : enum rest with e | ⟨x, after⟩
        · rfl
        · have := enum_advances hread
          exact ih after.length (by simp; omega) _ outs after rfl
      · rcases hread : oneof rest with e | ⟨x, after⟩
        · rfl
        · have := oneof_advances hread
          exact ih after.length (by simp; omega) _ outs after rfl
      · rcases hread : skipStatement 0 (t :: rest) with e | ⟨x, after⟩
        · rfl
        · exact ih after.length (wholeStatement_advances hread) _ outs after rfl
      · rcases hread : field (t :: rest) with e | ⟨x, after⟩
        · rfl
        · exact ih after.length (field_advances hread) _ outs after rfl

/-- A message goes on as its turns do, with nothing around it. -/
theorem messageBody_eq_turn (top : Message) (ts : List Token) :
    messageBody top [] ts = (messageTurn top ts).run fun top => messageBody top [] := by
  cases ts with
  | nil =>
    rw [messageBody.eq_def]
    rfl
  | cons t rest =>
    rw [messageBody_cons, messageTurn]
    split_ifs
    · rfl
    · rfl
    · rw [message]
      rcases blockHead rest with _ | ⟨⟨name, line⟩, after⟩
      · rfl
      · have happend := messageBody_append { name, line } [] top [] after
        rw [List.nil_append] at happend
        dsimp only
        rw [happend]
        rcases messageBody { name, line } [] after with _ | ⟨m, after'⟩ <;> rfl
    · rcases enum rest with _ | ⟨e, after⟩ <;> rfl
    · rcases oneof rest with _ | ⟨fields, after⟩ <;> rfl
    · rcases skipStatement 0 (t :: rest) with _ | ⟨_, after⟩ <;> rfl
    · rcases field (t :: rest) with _ | ⟨f, after⟩ <;> rfl

theorem fileBody_eq_turn (done : Parsed) (ts : List Token) :
    fileBody done ts = (fileTurn done ts).run fileBody := by
  cases ts with
  | nil =>
    rw [fileBody.eq_def]
    rfl
  | cons t rest =>
    rw [fileBody_cons, fileTurn]
    split_ifs
    · rfl
    · rcases skipStatement 0 (t :: rest) with _ | ⟨_, after⟩ <;> rfl
    · rcases packageStatement rest with _ | ⟨package, after⟩ <;> rfl
    · rcases importStatement rest with _ | ⟨⟨site, isPublic⟩, after⟩ <;> rfl
    · rcases message rest with _ | ⟨m, after⟩ <;> rfl
    · rcases enum rest with _ | ⟨e, after⟩ <;> rfl
    · rcases service rest with _ | ⟨s, after⟩ <;> rfl
    · rfl

/-- Every loop of the grammar is the run of its turns. -/
theorem Loop.read_eq_turn (l : Loop) (s : l.State) (ts : List Token) :
    l.read s ts = (l.turn s ts).run l.read := by
  cases l with
  | dotted => exact dotted_read_eq_turn s ts
  | statement => exact skipStatement_eq_turn s ts
  | options => exact skipOptions_eq_turn s ts
  | message => exact messageBody_eq_turn s ts
  | oneof | enum | service | rpc => exact block_eq_turn _ _ _ _ s ts
  | file => exact fileBody_eq_turn s ts

/-! ## Loops end -/

/-- From a state on, the loop leaves in its `n`-th turn, with a result. -/
inductive Loop.Runs (l : Loop) : Nat → l.State → List Token → Except Refusal l.Result → Prop
  | leave {s : l.State} {ts : List Token} {r : Except Refusal l.Result}
    (h : l.turn s ts = .leave r) : Runs l 1 s ts r
  | again {n : Nat} {s s' : l.State} {ts rest : List Token} {r : Except Refusal l.Result}
    (h : l.turn s ts = .again s' rest) (hrest : Runs l n s' rest r) : Runs l (n + 1) s ts r

/-- A loop leaves, after one turn for each token and one more at the latest. -/
theorem Loop.exists_runs (l : Loop) (s : l.State) (ts : List Token) :
    ∃ n ≤ ts.length + 1, l.Runs n s ts (l.read s ts) := by
  induction hn : ts.length using Nat.strongRecOn generalizing s ts with
  | _ n ih =>
    subst hn
    have hconsumes := l.turn_consumes s ts
    have hread := l.read_eq_turn s ts
    cases hturn : l.turn s ts with
    | leave r =>
      rw [hread, hturn]
      exact ⟨1, by omega, .leave hturn⟩
    | again s' rest =>
      rw [hturn] at hread hconsumes
      obtain ⟨n, hle, hruns⟩ := ih rest.length hconsumes.2 s' rest rfl
      refine ⟨n + 1, by have := hconsumes.2; omega, ?_⟩
      rw [hread]
      exact .again hturn hruns

/-- Reading goes forward and ends. A production that succeeds leaves an end of the tokens, and has
read at least one of them unless it only looked for options; a turn of a loop that goes on has read
at least one; so every loop leaves, with what its production reads, and so does the reading of a
file. -/
theorem parsing_progresses :
    (∀ (p : Production) (ts rest : List Token), p.leaves ts = .ok rest →
      rest <:+ ts ∧ (p ≠ .bracketOptions → rest.length < ts.length)) ∧
    (∀ (l : Loop) (s s' : l.State) (ts rest : List Token), l.turn s ts = .again s' rest →
      rest <:+ ts ∧ rest.length < ts.length) ∧
    (∀ (l : Loop) (s : l.State) (ts : List Token),
      ∃ n ≤ ts.length + 1, l.Runs n s ts (l.read s ts)) ∧
    ∀ (path : String) (ts : List Token),
      ∃ n ≤ ts.length + 1, Loop.file.Runs n { file := { path } } ts (parseFile path ts) := by
  refine ⟨fun p ts rest => Production.consumed, fun l s s' ts rest h => ?_, Loop.exists_runs,
    fun path ts => Loop.file.exists_runs _ ts⟩
  have hconsumes := l.turn_consumes s ts
  rwa [h] at hconsumes

/-- A statement with a closing bracket too many, which leaves one open to the left of it: the first
semicolon does not end it, and the second does. -/
def unbalancedStatement : List Token :=
  [word "option", mark ')', mark ';', mark '(', mark ';', mark '}']

/-- A statement that closes more than it opens is left behind too, at a depth below zero. -/
theorem unbalancedStatement_progresses :
    Production.statement.leaves unbalancedStatement = .ok [mark '}'] ∧
      [mark '}'].length < unbalancedStatement.length ∧
      Loop.statement.turn (-1 : Int) (unbalancedStatement.drop 2) =
        .again (-1 : Int) (unbalancedStatement.drop 3) ∧
      unbalancedStatement.drop 3 <:+ unbalancedStatement.drop 2 := by
  have hleaves : Production.statement.leaves unbalancedStatement = .ok [mark '}'] := rfl
  have hturn : Loop.statement.turn (-1 : Int) (unbalancedStatement.drop 2) =
      .again (-1 : Int) (unbalancedStatement.drop 3) := rfl
  obtain ⟨hproductions, hloops, -⟩ := parsing_progresses
  exact ⟨hleaves, (hproductions _ _ _ hleaves).2 (by decide), hturn, (hloops _ _ _ _ _ hturn).1⟩

end ProtoStub.Schema

import ProtoStub.Proofs.Outline
import ProtoStub.Schema.Source
import Mathlib.Data.List.TakeWhile

/-!
# Declared names are identifiers

The names that a schema file declares are words of its text: a production reads from the front of
the tokens and leaves an end of them (`Parser.Drops`), and the name of a message or an enum is one
of the words on the way. So what holds of all words of a file holds of all names that it declares
(`names_of_fileBody`). Words are made of letters, digits and underscores, hence no declared name has
a dot in it (`dot_notMem_of_parseSource`).
-/

namespace ProtoStub

open Text

/-! ## Words -/

/-- All words among the tokens satisfy `P`. -/
def Words (P : String → Prop) (ts : List Token) : Prop :=
  ∀ t ∈ ts, ∀ name, t.lexeme = .ident name → P name

/-- What is left of some tokens has no new words. -/
theorem Words.suffix {P : String → Prop} {ts rest : List Token} (h : Words P ts)
    (hr : rest <:+ ts) : Words P rest :=
  fun t ht => h t (hr.mem ht)

/-- Passing over what follows a token does not change it. -/
theorem finish_lexeme {lexeme : Lexeme} {lines : Nat} {gs : List Glyph} {s : Scanned}
    (h : Scanned.finish lexeme lines gs = .ok s) : s.lexeme = lexeme := by
  unfold Scanned.finish at h
  split at h
  · cases h
  · cases h
    rfl

/-- The characters at the front of a text that are taken satisfy the test. -/
theorem mem_takeChars {p : Char → Bool} {gs : List Glyph} {c : Char} (h : c ∈ takeChars p gs) :
    p c = true := by
  rw [takeChars] at h
  obtain ⟨g, hg, rfl⟩ := List.mem_map.1 h
  have hall := List.mem_takeWhile_imp hg
  cases g with
  | char c => exact hall
  | stray b => cases hall

/-- A token that is read is a word only when all its characters are characters of words. -/
theorem continuesIdent_of_scanPlain {g : Glyph} {gs : List Glyph} {s : Scanned}
    (h : scanPlain g gs = .ok s) {name : String} (hname : s.lexeme = .ident name) :
    ∀ c ∈ name.toList, continuesIdent c = true := by
  unfold scanPlain at h
  split at h
  · rename_i hg
    cases (finish_lexeme h).symm.trans hname
    intro c hc
    rw [String.toList_ofList] at hc
    rcases List.mem_cons.1 hc with rfl | hc
    · cases g with
      | char c => simpa [continuesIdent, Glyph.toChar, Glyph.all] using .inl hg
      | stray b => cases hg
    · exact mem_takeChars hc
  split at h
  · dsimp only at h
    split at h
    · cases h
    · cases h
      dsimp only at hname
      split at hname <;> cases hname
  split at h
  · split at h
    · cases h
    · cases (finish_lexeme h).symm.trans hname
  split at h
  · split at h
    · cases h
    · cases (finish_lexeme h).symm.trans hname
  · cases (finish_lexeme h).symm.trans hname

/-- The words among all tokens are those that `scanPlain` reads. -/
theorem continuesIdent_of_scanToken {g : Glyph} {gs : List Glyph} {line : Nat}
    {error : Option LexError} {s : Scanned} (h : scanToken g gs line error = .ok s) {name : String}
    (hname : s.lexeme = .ident name) : ∀ c ∈ name.toList, continuesIdent c = true := by
  unfold scanToken at h
  split at h
  · split at h
    · cases h
    · split at h
      · cases h
      · cases h
        cases hname
  · split at h
    · cases h
    · split at h
      · cases h
      · rename_i hs
        cases h
        exact continuesIdent_of_scanPlain hs hname

/-- The words of a file are made of the characters of words. -/
theorem words_of_tokensFrom {gs : List Glyph} {line : Nat} {error : Option LexError}
    {ts : List Token} (h : tokensFrom gs line error = .ok ts) :
    Words (fun name => ∀ c ∈ name.toList, continuesIdent c = true) ts := by
  fun_induction tokensFrom gs line error generalizing ts with
  | case1 => cases h
  | case2 =>
    cases h
    exact fun t ht => by cases ht
  | case3 => cases h
  | case4 => cases h
  | case5 gs line error g rest tokenLine gapError hg s hs gap hlen more hmore ih =>
    cases h
    intro t ht name hname
    rcases List.mem_cons.1 ht with rfl | ht
    · exact continuesIdent_of_scanToken hs hname
    · exact ih hmore t ht name hname

/-- No word has a dot in it. -/
theorem words_of_tokenize {file : List Glyph} {ts : List Token} (h : tokenize file = .ok ts) :
    Words (fun name => '.' ∉ name.toList) ts := by
  have hdot : continuesIdent '.' = false := by decide +kernel
  intro t ht name hname hmem
  have := words_of_tokensFrom h t ht name hname '.' hmem
  rw [hdot] at this
  cases this

end ProtoStub

namespace ProtoStub.Schema

/-! ## Productions read from the front -/

/-- Success leaves an end of the tokens. -/
def Parser.Drops {α : Type} (p : Parser α) : Prop :=
  ∀ {ts : List Token} {x : α} {rest : List Token}, p ts = .ok (x, rest) → rest <:+ ts

/-- An end of what is left after dropping tokens is an end of all. -/
theorem suffix_of_suffix_drop {ts rest : List Token} {n : Nat} (h : rest <:+ ts.drop n) :
    rest <:+ ts :=
  h.trans (List.drop_suffix n ts)

attribute [local grind →] List.IsSuffix.trans suffix_of_suffix_drop
attribute [local grind =] List.suffix_cons_iff

/-- A symbol leaves the tokens behind it. -/
theorem symbol_drops (c : Char) : (symbol c).Drops := by
  intro ts x rest h
  unfold symbol at h
  repeat' split at h
  all_goals simp_all [refuse]

/-- A name leaves the tokens behind it. -/
theorem ident_drops : ident.Drops := by
  intro ts x rest h
  unfold ident at h
  split at h <;> simp_all [refuse]

/-- The rest of a dotted name leaves an end, by the recursion over its dots. -/
theorem dottedTail_drops : dottedTail.Drops := by
  intro ts s rest h
  fun_induction dottedTail ts generalizing s rest <;> simp_all [refuse]
  grind

/-- A word is followed by the rest of the name. -/
theorem dotted_drops : dotted.Drops := by
  intro ts x rest h
  unfold dotted at h
  repeat' split at h
  all_goals grind [ident_drops, dottedTail_drops, Parser.Drops]

/-- A dot in front is dropped first. -/
theorem fullIdent_drops : fullIdent.Drops := by
  intro ts x rest h
  unfold fullIdent at h
  repeat' split at h
  all_goals grind [dotted_drops, Parser.Drops]

/-- Passing over tokens drops them one by one. -/
theorem skipStatement_drops (depth : Int) : (skipStatement depth).Drops := by
  intro ts x rest h
  fun_induction skipStatement depth ts <;> simp_all [refuse] <;> grind

/-- Passing over options drops tokens one by one. -/
theorem skipOptions_drops (depth : Nat) : (skipOptions depth).Drops := by
  intro ts x rest h
  fun_induction skipOptions depth ts <;> simp_all [refuse] <;> grind

/-- Options are dropped, then a semicolon. -/
theorem endOfMember_drops : endOfMember.Drops := by
  intro ts x rest h
  unfold endOfMember at h
  repeat' split at h
  all_goals grind [symbol_drops, skipOptions_drops, Parser.Drops]

/-- A block drops what its items drop, by the recursion over the block. -/
theorem block_drops {α : Type} {unterminated : Fault} {passed : List String} {item : Parser α}
    (advances : item.Advances) (hitem : item.Drops) :
    Parser.Drops (block unterminated passed item advances) := by
  intro ts xs rest h
  fun_induction block unterminated passed item advances ts generalizing xs rest <;>
    simp_all [refuse] <;> grind [skipStatement_drops, Parser.Drops]

/-- A name is dropped, then a brace. -/
theorem blockHead_drops : blockHead.Drops := by
  intro ts x rest h
  unfold blockHead at h
  repeat' split at h
  all_goals grind [ident_drops, symbol_drops, Parser.Drops]

/-- A number leaves the tokens behind it. -/
theorem intLiteral_drops (fault : Option Lexeme → Fault) : (intLiteral fault).Drops := by
  intro ts x rest h
  unfold intLiteral at h
  split at h <;> simp_all [refuse]

/-- A key, a comma, a value and a bracket are dropped. -/
theorem mapType_drops : mapType.Drops := by
  intro ts x rest h
  unfold mapType at h
  repeat' split at h
  all_goals grind [fullIdent_drops, symbol_drops, Parser.Drops]

/-- The word `map` is dropped with what follows, or a name is. -/
theorem fieldType_drops : fieldType.Drops := by
  intro ts x rest h
  unfold fieldType at h
  repeat' split at h
  all_goals grind [fullIdent_drops, mapType_drops, Parser.Drops]

/-- An equals sign is dropped, then a number. -/
theorem fieldNumber_drops : fieldNumber.Drops := by
  intro ts x rest h
  unfold fieldNumber at h
  repeat' split at h
  all_goals grind [intLiteral_drops, Parser.Drops]

/-- A label is dropped or is not there. -/
theorem fieldLabel_suffix (ts : List Token) : (fieldLabel ts).2 <:+ ts := by
  unfold fieldLabel
  repeat' split
  all_goals simp

/-- What the label leaves is an end, and each part of the field leaves an end of that. -/
theorem field_drops : field.Drops := by
  intro ts x rest h
  unfold field at h
  have := fieldLabel_suffix ts
  repeat' split at h
  all_goals grind [fieldType_drops, ident_drops, symbol_drops, fieldNumber_drops,
    endOfMember_drops, Parser.Drops]

/-- A head is dropped, then a block of fields. -/
theorem oneof_drops : oneof.Drops := by
  intro ts x rest h
  unfold oneof at h
  split at h
  · cases h
  · rename_i hhead
    exact (block_drops field_advances field_drops h).trans (blockHead_drops hhead)

/-- A sign is dropped, if there is one, then a number. -/
theorem enumNumber_drops : enumNumber.Drops := by
  intro ts x rest h
  unfold enumNumber at h
  grind [intLiteral_drops, Parser.Drops]

/-- A name, an equals sign, a number and an end are dropped. -/
theorem enumValue_drops : enumValue.Drops := by
  intro ts x rest h
  unfold enumValue at h
  repeat' split at h
  all_goals grind [ident_drops, symbol_drops, enumNumber_drops, endOfMember_drops, Parser.Drops]

/-- A head is dropped, then a block of values. -/
theorem enum_drops : enum.Drops := by
  intro ts x rest h
  unfold enum at h
  split at h
  · cases h
  · rename_i hhead
    split at h
    · cases h
    · rename_i hblock
      cases h
      exact (block_drops enumValue_advances enumValue_drops hblock).trans (blockHead_drops hhead)

/-- The brackets and the word `stream` are dropped around the name. -/
theorem rpcType_drops : rpcType.Drops := by
  intro ts x rest h
  unfold rpcType at h
  repeat' split at h
  all_goals grind [fullIdent_drops, symbol_drops, Parser.Drops]

/-- A semicolon is dropped, or a block. -/
theorem rpcEnd_drops (name : String) : (rpcEnd name).Drops := by
  intro ts x rest h
  unfold rpcEnd at h
  split at h
  · cases h
    exact List.drop_suffix 1 ts
  · split at h
    · split at h
      · cases h
      · rename_i hblock
        cases h
        exact (block_drops (skipStatement_advances 0) (skipStatement_drops 0) hblock).trans
          (List.drop_suffix 1 ts)
    · cases h

/-- A name, two types and an end are dropped. -/
theorem rpc_drops : rpc.Drops := by
  intro ts x rest h
  unfold rpc at h
  repeat' split at h
  all_goals grind [ident_drops, rpcType_drops, rpcEnd_drops, Parser.Drops, refuse]

/-- A member that is no procedure is refused and leaves nothing. -/
theorem serviceItem_drops (service : String) : (serviceItem service).Drops := by
  intro ts x rest h
  unfold serviceItem at h
  repeat' split at h
  all_goals grind [rpc_drops, Parser.Drops, refuse]

/-- A head is dropped, then a block of procedures. -/
theorem service_drops : service.Drops := by
  intro ts x rest h
  unfold service at h
  split at h
  · cases h
  · rename_i hhead
    split at h
    · cases h
    · rename_i hblock
      cases h
      exact (block_drops (serviceItem_advances _) (serviceItem_drops _) hblock).trans
        (blockHead_drops hhead)

/-- The body of a message drops its members, by the recursion of `messageBody`. -/
theorem messageBody_drops (top : Message) (outer : List Message) :
    Parser.Drops (messageBody top outer) := by
  intro ts m rest h
  fun_induction messageBody top outer ts <;>
    grind [refuse, blockHead_drops, enum_drops, oneof_drops, skipStatement_drops, field_drops,
      Parser.Drops]

/-- A head is dropped, then a body. -/
theorem message_drops : message.Drops := by
  intro ts x rest h
  unfold message at h
  split at h
  · cases h
  · rename_i hhead
    exact (messageBody_drops _ _ h).trans (blockHead_drops hhead)

/-- The word before a path is dropped or is not there. -/
theorem importModifier_suffix (ts : List Token) : (importModifier ts).2 <:+ ts := by
  unfold importModifier
  repeat' split
  all_goals simp

/-- A path is dropped, then a semicolon. -/
theorem importPath_drops : importPath.Drops := by
  intro ts x rest h
  unfold importPath at h
  repeat' split at h
  all_goals grind [symbol_drops, Parser.Drops, refuse]

/-- What the word before the path leaves is an end. -/
theorem importStatement_drops : importStatement.Drops := by
  intro ts x rest h
  unfold importStatement at h
  have := importModifier_suffix ts
  repeat' split at h
  all_goals grind [importPath_drops, Parser.Drops]

/-- A name is dropped, then a semicolon. -/
theorem packageStatement_drops : packageStatement.Drops := by
  intro ts x rest h
  unfold packageStatement at h
  repeat' split at h
  all_goals grind [symbol_drops, fullIdent_drops, Parser.Drops]

/-! ## Names of messages and enums -/

/-- The names of a message, of its enums and of all that is nested in it satisfy `P`. -/
inductive Message.NamesAll (P : String → Prop) : Message → Prop
  | intro {m : Message} (hname : P m.name) (henums : ∀ e ∈ m.enums, P e.name)
    (hnested : ∀ n ∈ m.messages, NamesAll P n) : NamesAll P m

/-- The names of all messages and enums of a file satisfy `P`. -/
structure File.NamesAll (P : String → Prop) (f : File) : Prop where
  messages : ∀ m ∈ f.messages, m.NamesAll P
  enums : ∀ e ∈ f.enums, P e.name

section
variable {P : String → Prop}

/-- The name in the head of a block is a word. -/
theorem name_of_blockHead {ts rest : List Token} {name : String} {line : Nat} (h : Words P ts)
    (hhead : blockHead ts = .ok ((name, line), rest)) : P name := by
  rw [blockHead] at hhead
  split at hhead
  · cases hhead
  · rename_i r hident
    split at hhead
    · cases hhead
    · cases hhead
      unfold ident at hident
      split at hident
      · cases hident
        exact h _ List.mem_cons_self _ rfl
      · cases hident

/-- The name of an enum is a word of the file. -/
theorem name_of_enum {ts rest : List Token} {e : Enum} (h : Words P ts)
    (he : enum ts = .ok (e, rest)) : P e.name := by
  rw [enum] at he
  split at he
  · cases he
  · rename_i hhead
    split at he
    · cases he
    · cases he
      exact name_of_blockHead h hhead

/-- A message is read from words that satisfy `P` when the messages around it are. -/
theorem names_of_messageBody {top m : Message} {outer : List Message} {ts rest : List Token}
    (h : Words P ts) (htop : top.NamesAll P) (houter : ∀ o ∈ outer, o.NamesAll P)
    (hm : messageBody top outer ts = .ok (m, rest)) : m.NamesAll P := by
  fun_induction messageBody top outer ts with
  | case1 => cases hm
  | case2 top t ts ht =>
    cases hm
    exact htop
  | case3 top t ts ht next outer ih =>
    refine ih (h.suffix (List.suffix_cons _ _)) ?_
      (fun o ho => houter o (List.mem_cons_of_mem _ ho)) hm
    obtain ⟨hname, henums, hnested⟩ := houter next List.mem_cons_self
    refine .intro hname henums fun n hn => ?_
    rcases List.mem_append.1 hn with hn | hn
    · exact hnested n hn
    · rw [List.mem_singleton.1 hn]
      exact htop
  | case4 top outer t ts _ _ ih => exact ih (h.suffix (List.suffix_cons _ _)) htop houter hm
  | case5 => cases hm
  | case6 top outer t ts _ _ _ name line after hhead _ ih =>
    have hts := h.suffix (List.suffix_cons t ts)
    refine ih (hts.suffix (blockHead_drops hhead)) ?_ ?_ hm
    · exact .intro (name_of_blockHead hts hhead) (by simp) (by simp)
    · intro o ho
      rcases List.mem_cons.1 ho with rfl | ho
      · exact htop
      · exact houter o ho
  | case7 => cases hm
  | case8 top outer t ts _ _ _ _ e after he _ ih =>
    have hts := h.suffix (List.suffix_cons t ts)
    refine ih (hts.suffix (enum_drops he)) ?_ houter hm
    obtain ⟨hname, henums, hnested⟩ := htop
    refine .intro hname (fun e' he' => ?_) hnested
    rcases List.mem_append.1 he' with he' | he'
    · exact henums e' he'
    · rw [List.mem_singleton.1 he']
      exact name_of_enum hts he
  | case9 => cases hm
  | case10 top outer t ts _ _ _ _ _ fields after hf _ ih =>
    obtain ⟨hname, henums, hnested⟩ := htop
    exact ih ((h.suffix (List.suffix_cons t ts)).suffix (oneof_drops hf))
      (.intro hname henums hnested) houter hm
  | case11 => cases hm
  | case12 top outer t ts _ _ _ _ _ _ _ after hs _ ih =>
    exact ih (h.suffix (skipStatement_drops 0 hs)) htop houter hm
  | case13 => cases hm
  | case14 top outer t ts _ _ _ _ _ _ f after hf _ ih =>
    obtain ⟨hname, henums, hnested⟩ := htop
    exact ih (h.suffix (field_drops hf)) (.intro hname henums hnested) houter hm

/-- The names of a message and of all it contains are words of the file. -/
theorem names_of_message {ts rest : List Token} {m : Message} (h : Words P ts)
    (hm : message ts = .ok (m, rest)) : m.NamesAll P := by
  rw [message] at hm
  split at hm
  · cases hm
  · rename_i hhead
    refine names_of_messageBody (h.suffix (blockHead_drops hhead)) ?_ (by simp) hm
    exact .intro (name_of_blockHead h hhead) (by simp) (by simp)

/-- The rest of a file is read from words that satisfy `P` when its part so far is. -/
theorem names_of_fileBody {done parsed : Parsed} {ts : List Token} (h : Words P ts)
    (hdone : done.file.NamesAll P) (hp : fileBody done ts = .ok parsed) :
    parsed.file.NamesAll P := by
  fun_induction fileBody done ts with
  | case1 done =>
    cases hp
    exact hdone
  | case2 done t ts _ ih => exact ih (h.suffix (List.suffix_cons t ts)) hdone hp
  | case3 => cases hp
  | case4 done t ts _ _ _ after hs _ ih => exact ih (h.suffix (skipStatement_drops 0 hs)) hdone hp
  | case5 => cases hp
  | case6 done t ts _ _ _ package after hpackage _ ih =>
    exact ih ((h.suffix (List.suffix_cons t ts)).suffix (packageStatement_drops hpackage))
      ⟨hdone.messages, hdone.enums⟩ hp
  | case7 => cases hp
  | case8 done t ts _ _ _ _ site isPublic after himport _ imports ih =>
    exact ih ((h.suffix (List.suffix_cons t ts)).suffix (importStatement_drops himport))
      ⟨hdone.messages, hdone.enums⟩ hp
  | case9 => cases hp
  | case10 done t ts _ _ _ _ _ m after hm _ ih =>
    have hts := h.suffix (List.suffix_cons t ts)
    refine ih (hts.suffix (message_drops hm)) ⟨fun m' hm' => ?_, hdone.enums⟩ hp
    rcases List.mem_append.1 hm' with hm' | hm'
    · exact hdone.messages m' hm'
    · rw [List.mem_singleton.1 hm']
      exact names_of_message hts hm
  | case11 => cases hp
  | case12 done t ts _ _ _ _ _ _ e after he _ ih =>
    have hts := h.suffix (List.suffix_cons t ts)
    refine ih (hts.suffix (enum_drops he)) ⟨hdone.messages, fun e' he' => ?_⟩ hp
    rcases List.mem_append.1 he' with he' | he'
    · exact hdone.enums e' he'
    · rw [List.mem_singleton.1 he']
      exact name_of_enum hts he
  | case13 => cases hp
  | case14 done t ts _ _ _ _ _ _ _ svc after hsvc _ ih =>
    exact ih ((h.suffix (List.suffix_cons t ts)).suffix (service_drops hsvc))
      ⟨hdone.messages, hdone.enums⟩ hp
  | case15 => cases hp

/-- What holds of each message with its nested ones holds of all of them. -/
theorem names_of_allWithNested {ms : List Message} {Q : String × Message → Prop}
    (h : ∀ m ∈ ms, ∀ scope, ∀ x ∈ m.withNested scope, Q x) (scope : String) :
    ∀ x ∈ Message.allWithNested scope ms, Q x := by
  induction ms with
  | nil => exact fun x hx => by cases hx
  | cons m ms ih =>
    intro x hx
    rw [Message.allWithNested] at hx
    rcases List.mem_append.1 hx with hx | hx
    · exact h m List.mem_cons_self scope x hx
    · exact ih (fun m' hm' => h m' (List.mem_cons_of_mem _ hm')) x hx

/-- What holds of the names of a message and of all that is nested in it holds in its outline. -/
theorem names_of_withNested {m : Message} (h : m.NamesAll P) (scope : String) :
    ∀ x ∈ m.withNested scope, P x.2.name ∧ ∀ e ∈ x.2.enums, P e.name := by
  induction h generalizing scope with
  | @intro m hname henums hnested ih =>
    obtain ⟨name, line, fields, messages, enums⟩ := m
    rw [Message.withNested]
    intro x hx
    rcases List.mem_cons.1 hx with rfl | hx
    · exact ⟨hname, henums⟩
    · exact names_of_allWithNested ih _ x hx

/-- No message and no enum of a file has a dot in its name. -/
theorem dot_notMem_of_parseSource {path : String} {source : List Text.Glyph} {parsed : Parsed}
    (h : parseSource path source = .ok parsed) :
    ∀ name ∈ parsed.file.allMessages.map (·.2.name) ++ parsed.file.allEnums.map (·.2.name),
      '.' ∉ name.toList := by
  rw [parseSource] at h
  split at h
  · cases h
  rename_i ts htokens
  split at h
  · cases h
  rename_i hparse
  cases h
  obtain ⟨hmessages, henums⟩ :=
    names_of_fileBody (words_of_tokenize htokens) ⟨by simp, by simp⟩ hparse
  have hall := names_of_allWithNested (fun m hm => names_of_withNested (hmessages m hm))
    parsed.file.package
  intro name hname
  rcases List.mem_append.1 hname with hname | hname
  · obtain ⟨x, hx, rfl⟩ := List.mem_map.1 hname
    exact (hall x hx).1
  · obtain ⟨x, hx, rfl⟩ := List.mem_map.1 hname
    rcases List.mem_append.1 hx with hx | hx
    · obtain ⟨e, he, rfl⟩ := List.mem_map.1 hx
      exact henums e he
    · obtain ⟨y, hy, hx⟩ := List.mem_flatMap.1 hx
      obtain ⟨e, he, rfl⟩ := List.mem_map.1 hx
      exact (hall y hy).2 e he

end

end ProtoStub.Schema

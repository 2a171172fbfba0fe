import ProtoStub.Proofs.Identifiers
import ProtoStub.Proofs.Rendering
import Mathlib.Algebra.Group.Int.Defs

/-!
# Every file that is read has a canonical form

What the grammar reads is canonical (`canonical_of_fileBody`), so it can be written in the one fixed
way and read back (`parseFile_canonical`). The grammar never reads a file that would be read
otherwise once written out: a type that starts with the word `group` is refused, a type that starts
with the word `stream` is read as a stream unless the word stands alone, and an enum value called
`option` or `reserved` is passed over. A type is kept as a text, so its first word has to be found
again in it: this is where words without dots are needed (`startsWithWord_of_fullIdent`).
-/

namespace ProtoStub.Schema

open Text

/-- Words have no dots in them. -/
abbrev DotFree (ts : List Token) : Prop := Words (fun w => '.' ∉ w.toList) ts

/-! ## The first word of a name -/

/-- What is read after the first word of a dotted name is more words, each behind a dot. -/
theorem words_of_dottedTail {ts rest : List Token} {tail : String} (hw : DotFree ts)
    (h : dottedTail ts = .ok (tail, rest)) :
    ∃ words : List String, (∀ w ∈ words, '.' ∉ w.toList) ∧
      tail = String.join (words.map ("." ++ ·)) := by
  fun_induction dottedTail ts generalizing tail rest with
  | case1 =>
    cases h
    exact ⟨[], by simp, rfl⟩
  | case2 t ht name line ts tail' rest' htail ih =>
    cases h
    have hts : DotFree ts := hw.suffix ((List.suffix_cons _ _).trans (List.suffix_cons _ _))
    obtain ⟨words, hwords, rfl⟩ := ih hts htail
    refine ⟨name :: words, ?_, by simp [String.join_cons]⟩
    intro w hmem
    rcases List.mem_cons.1 hmem with rfl | hmem
    · exact hw ⟨.ident w, line⟩ (by simp) w rfl
    · exact hwords w hmem
  | case3 => cases h
  | case4 => cases h
  | case5 t ts _ =>
    cases h
    exact ⟨[], by simp, rfl⟩

/-- A dotted name is written with the word that it was read from first. -/
theorem first_of_dotted {ts rest : List Token} {name : String} (hw : DotFree ts)
    (h : dotted ts = .ok (name, rest)) :
    ∃ w line ts' after, ts = ⟨.ident w, line⟩ :: ts' ∧ dottedTokens name = word w :: after := by
  unfold dotted ident at h
  split at h
  · cases h
  rename_i w line after hident
  split at hident
  · rename_i w' line' ts'
    cases hident
    split at h
    · rename_i tail rest' htail
      cases h
      obtain ⟨words, hwords, rfl⟩ := words_of_dottedTail (hw.suffix (List.suffix_cons _ _)) htail
      have hfree : ∀ v ∈ w :: words, '.' ∉ v.toList := by
        intro v hv
        rcases List.mem_cons.1 hv with rfl | hv
        · exact hw _ List.mem_cons_self _ rfl
        · exact hwords v hv
      have hsplit : split '.' (w ++ String.join (words.map ("." ++ ·))) = w :: words := by
        rw [← join_cons_eq]
        exact split_join (by simp) hfree
      refine ⟨w, line, after, words.flatMap fun v => [mark '.', word v], rfl, ?_⟩
      rw [dottedTokens, hsplit]
    · cases h
  · cases hident

/-- A name that is written with a word first was read from that word. -/
theorem startsWithWord_of_fullIdent {ts rest : List Token} {name w : String} (hw : DotFree ts)
    (h : fullIdent ts = .ok (name, rest)) (hfirst : startsWithWord (nameTokens name) w = true) :
    startsWithWord ts w = true := by
  have hplain : dotted ts = .ok (name, rest) → startsWithWord ts w = true := by
    intro hd
    obtain ⟨v, line, ts', after, rfl, htokens⟩ := first_of_dotted hw hd
    rw [nameTokens] at hfirst
    split at hfirst
    · simp at hfirst
    · rw [htokens, startsWithWord_cons, word_isWord, beq_iff_eq] at hfirst
      simp [hfirst, Token.isWord]
  unfold fullIdent at h
  split at h
  · split at h
    · split at h
      · rename_i name' rest' hd
        cases h
        have hcs : ("." ++ name').toList = '.' :: name'.toList := by simp
        rw [nameTokens, hcs] at hfirst
        simp at hfirst
      · cases h
    · exact hplain h
  · exact hplain h

/-! ## Members -/

/-- A type is not read as a group when the tokens it is read from do not start with that word. -/
theorem fieldType_canonical {ts rest : List Token} {isMap : Bool} {type : String} (hw : DotFree ts)
    (hgroup : startsWithWord ts "group" = false) (h : fieldType ts = .ok ((isMap, type), rest)) :
    isMap = false → startsWithWord (nameTokens type) "group" = false := by
  intro hmap
  unfold fieldType at h
  split at h
  · split at h
    · cases h
    · cases h
      cases hmap
  · split at h
    · cases h
    · rename_i hident
      cases h
      by_contra hne
      rw [Bool.not_eq_false] at hne
      rw [startsWithWord_of_fullIdent hw hident hne] at hgroup
      cases hgroup

/-- The number of a field fits. -/
theorem fieldNumber_range {ts rest : List Token} {v : Int} (h : fieldNumber ts = .ok (v, rest)) :
    0 ≤ v ∧ v < 0x80000000 := by
  unfold fieldNumber at h
  split at h
  · cases h
  · split at h
    · rename_i hlt
      cases h
      omega
    · cases h

/-- A field that is read is canonical. -/
theorem field_canonical {ts rest : List Token} {f : Field} (hw : DotFree ts)
    (h : field ts = .ok (f, rest)) : f.Canonical := by
  unfold field at h
  dsimp only at h
  split at h
  · cases h
  rename_i hgroup
  rw [Bool.not_eq_true] at hgroup
  split at h
  · cases h
  rename_i isMap type afterType htype
  split at h
  · cases h
  split at h
  · cases h
  split at h
  · cases h
  rename_i number afterNumber hnumber
  split at h
  · cases h
  cases h
  obtain ⟨hnonneg, hlt⟩ := fieldNumber_range hnumber
  exact ⟨hnonneg, hlt, fieldType_canonical (hw.suffix (fieldLabel_suffix ts)) hgroup htype⟩

/-- The number of an enum value has 32 bits. -/
theorem enumNumber_range {ts rest : List Token} {v : Int} (h : enumNumber ts = .ok (v, rest)) :
    -0x80000000 ≤ v ∧ v < 0x80000000 := by
  unfold enumNumber at h
  dsimp only at h
  split at h
  · cases h
  rename_i spelling line after _
  generalize (if startsWithSymbol ts '-' = true then -(intValue spelling : Int)
    else intValue spelling) = value at h
  split at h
  · cases h
  split at h
  · cases h
  rename_i hrange
  cases h
  simpa using hrange

/-- An enum value that is read, and not passed over, is canonical. -/
theorem enumValue_canonical {t : Token} {ts rest : List Token} {v : EnumValue}
    (hpassed : ["option", "reserved"].any t.isWord = false)
    (h : enumValue (t :: ts) = .ok (v, rest)) : v.Canonical := by
  unfold enumValue ident at h
  split at h
  · cases h
  rename_i name line afterName hident
  split at h
  · cases h
  split at h
  · cases h
  rename_i number afterNumber hnumber
  split at h
  · cases h
  cases h
  obtain ⟨hge, hlt⟩ := enumNumber_range hnumber
  refine ⟨?_, hge, hlt⟩
  split at hident
  · rename_i heq
    cases heq
    cases hident
    intro hmem
    rw [List.any_eq_false] at hpassed
    exact hpassed _ hmem (by simp [Token.isWord])
  · cases hident

/-- What holds of every item that is read holds of all items of a block. An item is read where the
tokens do not start like what is passed over. -/
theorem forall_of_block {α : Type} {P : α → Prop} {unterminated : Fault} {passed : List String}
    {item : Parser α} {advances : item.Advances} {ts rest : List Token} {xs : List α}
    (hdrops : item.Drops)
    (hitem : ∀ t ts' x after, t :: ts' <:+ ts → passed.any t.isWord = false →
      item (t :: ts') = .ok (x, after) → P x)
    (h : block unterminated passed item @advances ts = .ok (xs, rest)) : ∀ x ∈ xs, P x := by
  fun_induction block unterminated passed item advances ts generalizing xs rest with
  | case1 => cases h
  | case2 t ts _ =>
    cases h
    simp
  | case3 t ts _ _ ih =>
    exact ih (fun t' ts' x after hs => hitem t' ts' x after (hs.trans (List.suffix_cons _ _))) h
  | case4 => cases h
  | case5 t ts _ _ _ u after hskip _ ih =>
    exact ih (fun t' ts' x after' hs =>
      hitem t' ts' x after' (hs.trans (skipStatement_drops 0 hskip))) h
  | case6 => cases h
  | case7 => cases h
  | case8 t ts _ _ hpassed x after hx _ xs' rest' hblock ih =>
    cases h
    rw [Bool.not_eq_true] at hpassed
    intro y hy
    rcases List.mem_cons.1 hy with rfl | hy
    · exact hitem t ts y after (List.suffix_refl _) hpassed hx
    · exact ih (fun t' ts' z after' hs => hitem t' ts' z after' (hs.trans (hdrops hx))) hblock y hy

/-- An enum that is read is canonical. -/
theorem enum_canonical {ts rest : List Token} {e : Enum} (h : enum ts = .ok (e, rest)) :
    e.Canonical := by
  unfold enum at h
  split at h
  · cases h
  split at h
  · cases h
  rename_i hblock
  cases h
  exact forall_of_block enumValue_drops
    (fun t ts' v after _ hpassed hv => enumValue_canonical hpassed hv) hblock

/-- The fields of a oneof that is read are canonical. -/
theorem oneof_canonical {ts rest : List Token} {fs : List Field} (hw : DotFree ts)
    (h : oneof ts = .ok (fs, rest)) : ∀ f ∈ fs, f.Canonical := by
  unfold oneof at h
  split at h
  · cases h
  rename_i hhead
  exact forall_of_block field_drops
    (fun t ts' f after hs _ hf =>
      field_canonical (hw.suffix (hs.trans (blockHead_drops hhead))) hf) h

/-! ## Procedures -/

/-- A request or response that is read is read for what it is. A lone word `stream` is followed by
the closing parenthesis, hence is the whole name. -/
theorem rpcType_notStreamed {ts rest : List Token} {stream : Bool} {type : String} (hw : DotFree ts)
    (h : rpcType ts = .ok ((stream, type), rest)) : NotStreamed stream type := by
  unfold rpcType at h
  split at h
  · cases h
  rename_i u inside hopen
  dsimp only at h
  split at h
  · cases h
  rename_i type' after hident
  split at h
  · cases h
  cases h
  intro hstream hfirst
  simp only [hstream, Bool.false_eq_true, if_false] at hident
  have hinside : DotFree inside := hw.suffix (symbol_drops '(' hopen)
  have hword := startsWithWord_of_fullIdent hinside hident hfirst
  rw [hword, Bool.true_and, Bool.not_eq_false'] at hstream
  cases inside with
  | nil => cases hword
  | cons t inside =>
    have ht : t.lexeme = .ident "stream" := by simpa [Token.isWord] using hword
    obtain ⟨lexeme, line⟩ := t
    cases ht
    have hstop : startsWithSymbol inside '.' = false := by
      cases inside with
      | nil => rfl
      | cons t' inside =>
        have ht' : t'.lexeme = .symbol ')' := by simpa [Token.isSymbol] using hstream
        simp [Token.isSymbol, ht']
    simp only [fullIdent, Token.isSymbol, dotted, ident, dottedTail_stop hstop] at hident
    cases hident
    rfl

/-- A procedure that is read is canonical. -/
theorem serviceItem_canonical {service : String} {ts rest : List Token} {m : Method}
    (hw : DotFree ts) (h : serviceItem service ts = .ok (m, rest)) : m.Canonical := by
  unfold serviceItem at h
  split at h
  · split at h
    · rename_i t ts _
      have hts : DotFree ts := hw.suffix (List.suffix_cons _ _)
      unfold rpc at h
      split at h
      · cases h
      rename_i name line afterName hident
      have hname := hts.suffix (ident_drops hident)
      split at h
      · cases h
      rename_i client input afterInput hinput
      split at h
      · split at h
        · cases h
        rename_i server output afterOutput houtput
        split at h
        · cases h
        cases h
        have hreturns := (hname.suffix (rpcType_drops hinput)).suffix (List.drop_suffix 1 _)
        exact ⟨rpcType_notStreamed hname hinput, rpcType_notStreamed hreturns houtput⟩
      · cases h
    · cases h
  · cases h

/-- The procedures of a service that is read are canonical. -/
theorem service_canonical {ts rest : List Token} {s : Service} (hw : DotFree ts)
    (h : service ts = .ok (s, rest)) : ∀ m ∈ s.methods, m.Canonical := by
  unfold service at h
  split at h
  · cases h
  rename_i name line inside hhead
  split at h
  · cases h
  rename_i hblock
  cases h
  exact forall_of_block (serviceItem_drops name)
    (fun t ts' m after hs _ hm =>
      serviceItem_canonical (hw.suffix (hs.trans (blockHead_drops hhead))) hm) hblock

/-! ## Messages -/

/-- What is added at the end of a list satisfies `P` when both parts do. -/
theorem forall_mem_concat {α : Type} {P : α → Prop} {xs : List α} {y : α} (hxs : ∀ x ∈ xs, P x)
    (hy : P y) : ∀ x ∈ xs ++ [y], P x := by
  intro x hx
  rcases List.mem_append.1 hx with hx | hx
  · exact hxs x hx
  · rw [List.mem_singleton.1 hx]
    exact hy

/-- Reading on keeps the message that is open, and those around it, canonical. -/
theorem canonical_of_messageBody {top m : Message} {outer : List Message} {ts rest : List Token}
    (hw : DotFree ts) (htop : top.Canonical) (houter : ∀ o ∈ outer, o.Canonical)
    (h : messageBody top outer ts = .ok (m, rest)) : m.Canonical := by
  fun_induction messageBody top outer ts with
  | case1 => cases h
  | case2 top t ts ht =>
    cases h
    exact htop
  | case3 top t ts ht next outer ih =>
    obtain ⟨hfields, henums, hnested⟩ := houter next List.mem_cons_self
    exact ih (hw.suffix (List.suffix_cons _ _))
      (.intro hfields henums (forall_mem_concat hnested htop))
      (fun o ho => houter o (List.mem_cons_of_mem _ ho)) h
  | case4 top outer t ts _ _ ih => exact ih (hw.suffix (List.suffix_cons _ _)) htop houter h
  | case5 => cases h
  | case6 top outer t ts _ _ _ name line after hhead _ ih =>
    refine ih ((hw.suffix (List.suffix_cons t ts)).suffix (blockHead_drops hhead))
      (.intro (by simp) (by simp) (by simp)) ?_ h
    intro o ho
    rcases List.mem_cons.1 ho with rfl | ho
    · exact htop
    · exact houter o ho
  | case7 => cases h
  | case8 top outer t ts _ _ _ _ e after he _ ih =>
    obtain ⟨hfields, henums, hnested⟩ := htop
    exact ih ((hw.suffix (List.suffix_cons t ts)).suffix (enum_drops he))
      (.intro hfields (forall_mem_concat henums (enum_canonical he)) hnested) houter h
  | case9 => cases h
  | case10 top outer t ts _ _ _ _ _ fields after hf _ ih =>
    have hts := hw.suffix (List.suffix_cons t ts)
    obtain ⟨hfields, henums, hnested⟩ := htop
    refine ih (hts.suffix (oneof_drops hf)) (.intro (fun f hmem => ?_) henums hnested) houter h
    rcases List.mem_append.1 hmem with hmem | hmem
    · exact hfields f hmem
    · exact oneof_canonical hts hf f hmem
  | case11 => cases h
  | case12 top outer t ts _ _ _ _ _ _ _ after hs _ ih =>
    exact ih (hw.suffix (skipStatement_drops 0 hs)) htop houter h
  | case13 => cases h
  | case14 top outer t ts _ _ _ _ _ _ f after hf _ ih =>
    obtain ⟨hfields, henums, hnested⟩ := htop
    exact ih (hw.suffix (field_drops hf))
      (.intro (forall_mem_concat hfields (field_canonical hw hf)) henums hnested) houter h

/-- A message that is read is canonical. -/
theorem message_canonical {ts rest : List Token} {m : Message} (hw : DotFree ts)
    (h : message ts = .ok (m, rest)) : m.Canonical := by
  unfold message at h
  split at h
  · cases h
  rename_i hhead
  exact canonical_of_messageBody (hw.suffix (blockHead_drops hhead))
    (.intro (by simp) (by simp) (by simp)) (by simp) h

/-! ## Files -/

/-- Reading on keeps a file canonical, and does not touch its path and name. -/
theorem canonical_of_fileBody {done parsed : Parsed} {ts : List Token} (hw : DotFree ts)
    (hdone : done.Canonical) (h : fileBody done ts = .ok parsed) :
    parsed.Canonical ∧ parsed.file.path = done.file.path ∧ parsed.file.name = done.file.name := by
  fun_induction fileBody done ts with
  | case1 done =>
    cases h
    exact ⟨hdone, rfl, rfl⟩
  | case2 done t ts _ ih => exact ih (hw.suffix (List.suffix_cons t ts)) hdone h
  | case3 => cases h
  | case4 done t ts _ _ _ after hs _ ih => exact ih (hw.suffix (skipStatement_drops 0 hs)) hdone h
  | case5 => cases h
  | case6 done t ts _ _ _ package after hpackage _ ih =>
    exact ih ((hw.suffix (List.suffix_cons t ts)).suffix (packageStatement_drops hpackage))
      ⟨hdone.imports, hdone.messages, hdone.enums, hdone.services⟩ h
  | case7 => cases h
  | case8 done t ts _ _ _ _ site isPublic after himport _ imports ih =>
    have himports : List.Forall₂
        (fun imp (site : ImportSite) => imp = ⟨textOf site.path, "", imp.isPublic⟩)
        (done.file.imports ++ [⟨textOf site.path, "", isPublic⟩]) (done.sites ++ [site]) :=
      List.rel_append hdone.imports (.cons rfl .nil)
    exact ih ((hw.suffix (List.suffix_cons t ts)).suffix (importStatement_drops himport))
      ⟨himports, hdone.messages, hdone.enums, hdone.services⟩ h
  | case9 => cases h
  | case10 done t ts _ _ _ _ _ m after hm _ ih =>
    have hts := hw.suffix (List.suffix_cons t ts)
    exact ih (hts.suffix (message_drops hm)) ⟨hdone.imports,
      forall_mem_concat hdone.messages (message_canonical hts hm), hdone.enums, hdone.services⟩ h
  | case11 => cases h
  | case12 done t ts _ _ _ _ _ _ e after he _ ih =>
    exact ih ((hw.suffix (List.suffix_cons t ts)).suffix (enum_drops he)) ⟨hdone.imports,
      hdone.messages, forall_mem_concat hdone.enums (enum_canonical he), hdone.services⟩ h
  | case13 => cases h
  | case14 done t ts _ _ _ _ _ _ _ svc after hsvc _ ih =>
    have hts := hw.suffix (List.suffix_cons t ts)
    exact ih (hts.suffix (service_drops hsvc)) ⟨hdone.imports, hdone.messages, hdone.enums,
      forall_mem_concat hdone.services (service_canonical hts hsvc)⟩ h
  | case15 => cases h

/-- Every file that the grammar reads, written in canonical form, is read back without its lines. A
file from a source has words without dots (`words_of_tokenize`). No number is lost: every decimal in
the range of a field number, and every one of 32 bits for an enum value, is read. -/
theorem parseFile_canonical {path : String} {ts : List Token} {parsed : Parsed} (hw : DotFree ts)
    (h : parseFile path ts = .ok parsed) :
    parseFile path parsed.tokens = .ok parsed.unlined ∧
      (∀ (v : Int) (rest : List Token), 0 ≤ v → v < 2 ^ 31 →
        fieldNumber (numeral v.toNat :: rest) = .ok (v, rest)) ∧
      ∀ (v : Int) (rest : List Token), -2 ^ 31 ≤ v → v < 2 ^ 31 →
        enumNumber (numberTokens v ++ rest) = .ok (v, rest) := by
  refine ⟨?_, fun v rest hge hlt => fieldNumber_numeral hge hlt rest,
    fun v rest hge hlt => enumNumber_tokens hge hlt rest⟩
  obtain ⟨hcanonical, hpath, hname⟩ :=
    canonical_of_fileBody hw ⟨.nil, by simp, by simp, by simp⟩ h
  have hread := parseFile_tokens hcanonical hname
  rwa [hpath] at hread

/-- A source in which types, fields and procedures are spelled like words of the grammar, with a
oneof, nested messages and the largest and smallest numbers. -/
def keywordSource : List Glyph :=
  ["syntax = 'proto3'; import public 'a.proto';\n",
    "package k.message;\n",
    "message M \x7b\n",
    "optional message m = 0x7fffffff [deprecated = true];\n",
    "map<int32, .map.group> map = 010;\n",
    "map.X enum = 2;\n",
    "oneof choice \x7b option (o) = 1;\n",
    "optional repeated.stream a = 3; .group b = 4; \x7d\n",
    "message N \x7b message O \x7b repeated N n = 1; \x7d;\n",
    "enum E \x7b LOW = -0x80000000; HIGH = 2147483647; \x7d \x7d\n",
    "reserved 5 to 9; \x7d\n",
    "service S \x7b\n",
    "rpc stream (stream) returns (stream stream.T) \x7b option (o) = 1; \x7d\n",
    "rpc rpc (stream stream) returns (.stream); \x7d"].flatMap glyphsOf

/-- What the grammar reads from `keywordSource`. -/
def keywordFile : Parsed where
  file :=
    { path := "/k.proto"
      package := "k.message"
      imports := [⟨"a.proto", "", true⟩]
      messages :=
        [{  name := "M"
            line := 3
            fields :=
              [⟨"m", 4, 0x7fffffff, false, false, "message"⟩,
                ⟨"map", 5, 8, false, true, ".map.group"⟩, ⟨"enum", 6, 2, false, false, "map.X"⟩,
                ⟨"a", 8, 3, false, false, "repeated.stream"⟩, ⟨"b", 8, 4, false, false, ".group"⟩]
            messages :=
              [{  name := "N"
                  line := 9
                  messages :=
                    [{ name := "O", line := 9, fields := [⟨"n", 9, 1, true, false, "N"⟩] }]
                  enums := [⟨"E", 10, [⟨"LOW", -0x80000000⟩, ⟨"HIGH", 0x7fffffff⟩]⟩] }] }]
      services :=
        [⟨"S", 12, [⟨"stream", 13, "stream", "stream.T", false, true⟩,
          ⟨"rpc", 14, "stream", ".stream", true, false⟩]⟩] }
  sites := [⟨bytesOf "a.proto", 1⟩]

/-- The canonical form of `keywordFile` is read back: the field `a` of type `repeated.stream` is not
read as repeated, the lone `stream` stays a type and the numbers at the bounds stay. -/
theorem keywordFile_canonical :
    ∃ ts, tokenize keywordSource = .ok ts ∧ parseFile "/k.proto" ts = .ok keywordFile ∧
      parseFile "/k.proto" keywordFile.tokens = .ok keywordFile.unlined := by
  have hread : (parseSource "/k.proto" keywordSource).toOption = some keywordFile := by
    decide +kernel
  rw [parseSource] at hread
  split at hread
  · cases hread
  rename_i ts htokens
  split at hread
  · cases hread
  rename_i hparse
  cases hread
  exact ⟨ts, htokens, hparse, (parseFile_canonical (words_of_tokenize htokens) hparse).1⟩

end ProtoStub.Schema

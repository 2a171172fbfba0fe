import ProtoStub.Proofs.Cutting
import ProtoStub.Schema.Grammar
import Mathlib.Data.List.Forall2

/-!
# Writing a file that was read

`Parsed.tokens` writes a file in one fixed way: every field has a label, a map has keys of type
`string`, numbers are decimal, a procedure ends with a semicolon, and all tokens stand on line zero.
The grammar looks ahead at a few words, so not every file survives this. `Parsed.Canonical` says
which ones do: no type starts with the word `group`, no enum value is called like a statement that
is passed over, no request or response starts with the word `stream` unless it says nothing else,
and numbers fit. For these the grammar reads back what was written (`parseFile_tokens`), where a
file without its lines is `Parsed.unlined`.

Each production has one lemma: before any further tokens it reads what was written for it and leaves
the rest. The lemmas on loops (`block_tokens`, `messageBody_message`) are by induction on what was
written.
-/

namespace ProtoStub.Schema

open Text

/-! ## Tokens -/

/-- A character on line zero. -/
def mark (c : Char) : Token := ⟨.symbol c, 0⟩

/-- A word on line zero. -/
def word (w : String) : Token := ⟨.ident w, 0⟩

/-- A decimal numeral on line zero. -/
def numeral (n : Nat) : Token := ⟨.int n.repr, 0⟩

/-- The tokens of a dotted name. -/
def dottedTokens (name : String) : List Token :=
  match split '.' name with
  | [] => []
  | first :: rest => word first :: rest.flatMap fun w => [mark '.', word w]

/-- The tokens of a dotted name that may start with a dot. -/
def nameTokens (name : String) : List Token :=
  match name.toList with
  | '.' :: rest => mark '.' :: dottedTokens (String.ofList rest)
  | _ => dottedTokens name

/-- The tokens of a number that may be negative. -/
def numberTokens (v : Int) : List Token :=
  if v < 0 then [mark '-', numeral v.natAbs] else [numeral v.natAbs]

/-- A field with its label; the type of the keys of a map is not kept. -/
def Field.tokens (f : Field) : List Token :=
  word (if f.repeated then "repeated" else "optional") ::
    ((if f.isMap then
        word "map" :: mark '<' :: word "string" :: mark ',' :: (nameTokens f.type ++ [mark '>'])
      else nameTokens f.type) ++
    [word f.name, mark '=', numeral f.number.toNat, mark ';'])

/-- A value of an enum. -/
def EnumValue.tokens (v : EnumValue) : List Token :=
  word v.name :: mark '=' :: (numberTokens v.number ++ [mark ';'])

/-- An enum. -/
def Enum.tokens (e : Enum) : List Token :=
  word "enum" :: word e.name :: mark '{' :: (e.values.flatMap EnumValue.tokens ++ [mark '}'])

mutual

/-- A message: its fields, then the messages and the enums nested in it. -/
def Message.tokens : Message → List Token
  | ⟨name, _, fields, messages, enums⟩ =>
    word "message" :: word name :: mark '{' ::
      (fields.flatMap Field.tokens ++ (Message.allTokens messages ++
        (enums.flatMap Enum.tokens ++ [mark '}'])))

/-- Messages in order. -/
def Message.allTokens : List Message → List Token
  | [] => []
  | m :: rest => m.tokens ++ Message.allTokens rest

end

/-- The request or response of a procedure. -/
def rpcTypeTokens (stream : Bool) (type : String) : List Token :=
  mark '(' :: ((if stream then [word "stream"] else []) ++ (nameTokens type ++ [mark ')']))

/-- A procedure. -/
def Method.tokens (m : Method) : List Token :=
  word "rpc" :: word m.name :: (rpcTypeTokens m.clientStreaming m.input ++
    word "returns" :: (rpcTypeTokens m.serverStreaming m.output ++ [mark ';']))

/-- A service. -/
def Service.tokens (s : Service) : List Token :=
  word "service" :: word s.name :: mark '{' :: (s.methods.flatMap Method.tokens ++ [mark '}'])

/-- The package statement; there is none for the empty package. -/
def packageTokens (package : String) : List Token :=
  if package = "" then [] else word "package" :: (nameTokens package ++ [mark ';'])

/-- An import statement, with the bytes of its path. -/
def importTokens (imp : Import × ImportSite) : List Token :=
  word "import" :: ((if imp.1.isPublic then [word "public"] else []) ++
    [⟨.string imp.2.path, 0⟩, mark ';'])

/-- A file in its canonical form. -/
def Parsed.tokens (x : Parsed) : List Token :=
  packageTokens x.file.package ++ ((x.file.imports.zip x.sites).flatMap importTokens ++
    (Message.allTokens x.file.messages ++ (x.file.enums.flatMap Enum.tokens ++
      x.file.services.flatMap Service.tokens)))

/-! ## Files without lines -/

/-- An enum without its line. -/
def Enum.unlined (e : Enum) : Enum := { e with line := 0 }

/-- A field without its line. -/
def Field.unlined (f : Field) : Field := { f with line := 0 }

mutual

/-- A message without lines. -/
def Message.unlined : Message → Message
  | ⟨name, _, fields, messages, enums⟩ =>
    ⟨name, 0, fields.map Field.unlined, Message.allUnlined messages, enums.map Enum.unlined⟩

/-- Messages without lines. -/
def Message.allUnlined : List Message → List Message
  | [] => []
  | m :: rest => m.unlined :: Message.allUnlined rest

end

/-- A procedure without its line. -/
def Method.unlined (m : Method) : Method := { m with line := 0 }

/-- A service without lines. -/
def Service.unlined (s : Service) : Service :=
  { s with line := 0, methods := s.methods.map Method.unlined }

/-- A file without lines. -/
def Parsed.unlined (x : Parsed) : Parsed where
  file := { x.file with
    messages := Message.allUnlined x.file.messages
    enums := x.file.enums.map Enum.unlined
    services := x.file.services.map Service.unlined }
  sites := x.sites.map fun site => { site with line := 0 }

/-! ## Files that survive -/

/-- The number of the field fits, and its type is not read as a group. -/
structure Field.Canonical (f : Field) : Prop where
  nonneg : 0 ≤ f.number
  lt : f.number < 0x80000000
  type : f.isMap = false → startsWithWord (nameTokens f.type) "group" = false

/-- The number of the value has 32 bits, and its name starts no statement that is passed over. -/
structure EnumValue.Canonical (v : EnumValue) : Prop where
  name : v.name ∉ ["option", "reserved"]
  ge : -0x80000000 ≤ v.number
  lt : v.number < 0x80000000

/-- The values of the enum are canonical. -/
def Enum.Canonical (e : Enum) : Prop := ∀ v ∈ e.values, v.Canonical

/-- The fields and enums of the message, and of all messages nested in it, are canonical. -/
inductive Message.Canonical : Message → Prop
  | intro {m : Message} (hfields : ∀ f ∈ m.fields, f.Canonical)
    (henums : ∀ e ∈ m.enums, e.Canonical) (hnested : ∀ n ∈ m.messages, n.Canonical) : Canonical m

/-- The type is not read as a stream of another type. -/
def NotStreamed (stream : Bool) (type : String) : Prop :=
  stream = false → startsWithWord (nameTokens type) "stream" = true → type = "stream"

/-- The request and the response are read for what they are. -/
structure Method.Canonical (m : Method) : Prop where
  input : NotStreamed m.clientStreaming m.input
  output : NotStreamed m.serverStreaming m.output

/-- All parts of the file are canonical, and its imports are those of the sites. -/
structure Parsed.Canonical (x : Parsed) : Prop where
  imports : List.Forall₂
    (fun imp (site : ImportSite) => imp = ⟨textOf site.path, "", imp.isPublic⟩)
    x.file.imports x.sites
  messages : ∀ m ∈ x.file.messages, m.Canonical
  enums : ∀ e ∈ x.file.enums, e.Canonical
  services : ∀ s ∈ x.file.services, ∀ m ∈ s.methods, m.Canonical

/-! ## Words and marks -/

section
variable {rest : List Token}

@[simp] theorem mark_isSymbol (c d : Char) : (mark c).isSymbol d = (c == d) := by
  by_cases h : c = d <;> simp [mark, Token.isSymbol, h]

@[simp] theorem mark_isWord (c : Char) (w : String) : (mark c).isWord w = false := by
  simp [mark, Token.isWord]

@[simp] theorem word_isSymbol (w : String) (c : Char) : (word w).isSymbol c = false := by
  simp [word, Token.isSymbol]

@[simp] theorem word_isWord (v w : String) : (word v).isWord w = (v == w) := by
  by_cases h : v = w <;> simp [word, Token.isWord, h]

@[simp] theorem numeral_isSymbol (n : Nat) (c : Char) : (numeral n).isSymbol c = false := by
  simp [numeral, Token.isSymbol]

@[simp] theorem startsWithSymbol_cons (t : Token) (c : Char) :
    startsWithSymbol (t :: rest) c = t.isSymbol c := rfl

@[simp] theorem startsWithWord_cons (t : Token) (w : String) :
    startsWithWord (t :: rest) w = t.isWord w := rfl

@[simp] theorem symbol_mark (c : Char) : symbol c (mark c :: rest) = .ok ((), rest) := by
  simp [symbol]

@[simp] theorem ident_word (w : String) : ident (word w :: rest) = .ok ((w, 0), rest) := rfl

@[simp] theorem endOfMember_mark : endOfMember (mark ';' :: rest) = .ok ((), rest) := by
  simp [endOfMember]

@[simp] theorem blockHead_tokens (name : String) :
    blockHead (word name :: mark '{' :: rest) = .ok ((name, 0), rest) := by
  simp [blockHead]

/-! ## Names -/

/-- A dotted name ends at a token that is no dot. -/
theorem dottedTail_stop (h : startsWithSymbol rest '.' = false) :
    dottedTail rest = .ok ("", rest) := by
  cases rest with
  | nil => rfl
  | cons t rest =>
    rw [startsWithSymbol_cons] at h
    rw [dottedTail.eq_def]
    simp [h]

/-- What follows the first word of a dotted name is read up to a token that is no dot. -/
theorem dottedTail_tokens (words : List String) (h : startsWithSymbol rest '.' = false) :
    dottedTail (words.flatMap (fun w => [mark '.', word w]) ++ rest) =
      .ok (String.join (words.map ("." ++ ·)), rest) := by
  induction words with
  | nil => exact dottedTail_stop h
  | cons w words ih =>
    rw [List.flatMap_cons, List.append_assoc, List.cons_append, dottedTail.eq_def]
    simp only [mark_isSymbol, beq_self_eq_true, if_true, word, List.cons_append, List.nil_append]
    simp only [word] at ih
    rw [ih]
    simp [String.join_cons]

/-- Words joined by dots. -/
theorem join_cons_eq (first : String) (words : List String) :
    join "." (first :: words) = first ++ String.join (words.map ("." ++ ·)) := by
  induction words generalizing first with
  | nil => simp [join]
  | cons w words ih =>
    have hw := ih w
    rw [join] at hw ⊢
    rw [String.intercalate_cons_cons, hw]
    simp [String.join_cons, String.append_assoc]

/-- A dotted name is read up to a token that is no dot. -/
theorem dotted_tokens (name : String) (h : startsWithSymbol rest '.' = false) :
    dotted (dottedTokens name ++ rest) = .ok (name, rest) := by
  have hjoin : join "." (split '.' name) = name := join_singleton_split '.' name
  rw [dottedTokens]
  cases hs : split '.' name with
  | nil => exact absurd hs (split_ne_nil '.' name)
  | cons first words =>
    rw [hs, join_cons_eq] at hjoin
    simp only [List.cons_append, dotted, ident_word, dottedTail_tokens words h, hjoin]

/-- The first token of a dotted name is a word. -/
theorem dottedTokens_cons (name : String) : ∃ w ts, dottedTokens name = word w :: ts := by
  rw [dottedTokens]
  cases hs : split '.' name with
  | nil => exact absurd hs (split_ne_nil '.' name)
  | cons first words => exact ⟨first, _, rfl⟩

/-- A name that may start with a dot is read up to a token that is no dot. -/
theorem fullIdent_tokens (name : String) (rest : List Token)
    (h : startsWithSymbol rest '.' = false) :
    fullIdent (nameTokens name ++ rest) = .ok (name, rest) := by
  rw [nameTokens]
  split
  · rename_i cs hcs
    have hname : "." ++ String.ofList cs = name := String.toList_inj.1 (by simp [hcs])
    simp only [List.cons_append, fullIdent, mark_isSymbol, beq_self_eq_true, if_true,
      dotted_tokens _ h, hname]
  · obtain ⟨w, ts, hts⟩ := dottedTokens_cons name
    have hd := dotted_tokens name h
    rw [hts, List.cons_append] at hd ⊢
    simpa only [fullIdent, word_isSymbol, Bool.false_eq_true, if_false] using hd

/-- A name has a token. -/
theorem nameTokens_cons (name : String) : ∃ t ts, nameTokens name = t :: ts := by
  rw [nameTokens]
  split
  · exact ⟨_, _, rfl⟩
  · obtain ⟨w, ts, hts⟩ := dottedTokens_cons name
    exact ⟨_, _, hts⟩

/-- The tokens of a name are words and dots. -/
theorem isSymbol_nameTokens (name : String) {c : Char} (hc : c ≠ '.') :
    ∀ t ∈ nameTokens name, t.isSymbol c = false := by
  have hdot : (mark '.').isSymbol c = false := by simpa using hc.symm
  have hdotted : ∀ s, ∀ t ∈ dottedTokens s, t.isSymbol c = false := by
    intro s t ht
    rw [dottedTokens] at ht
    split at ht
    · cases ht
    · simp only [List.mem_cons, List.mem_flatMap, List.not_mem_nil, or_false] at ht
      obtain rfl | ⟨w, -, rfl | rfl⟩ := ht
      · exact word_isSymbol _ _
      · exact hdot
      · exact word_isSymbol _ _
  intro t ht
  rw [nameTokens] at ht
  split at ht
  · rcases List.mem_cons.1 ht with rfl | ht
    · exact hdot
    · exact hdotted _ t ht
  · exact hdotted _ t ht

/-- The first word after further tokens are added. -/
theorem startsWithWord_nameTokens (name w : String) :
    startsWithWord (nameTokens name ++ rest) w = startsWithWord (nameTokens name) w := by
  obtain ⟨t, ts, hts⟩ := nameTokens_cons name
  rw [hts]
  rfl

/-! ## Numbers -/

/-- A positive number does not start with a zero. -/
theorem head?_toDigits {n : Nat} (h : 0 < n) : (Nat.toDigits 10 n).head? ≠ some '0' := by
  have hdigit : ∀ d < 10, 0 < d → [d.digitChar].head? ≠ some '0' := by decide
  induction n using Nat.strongRecOn with
  | _ n ih =>
    rw [Nat.toDigits_eq_if (by omega)]
    split
    · rename_i hlt
      exact hdigit n hlt h
    · rename_i hge
      have hne : Nat.toDigits 10 (n / 10) ≠ [] := Nat.toDigits_ne_nil
      rw [List.head?_append_of_ne_nil _ hne]
      exact ih (n / 10) (by omega) (by omega)

/-- A decimal numeral has its value. -/
theorem intValue_repr (n : Nat) : intValue n.repr = n := by
  rcases Nat.eq_zero_or_pos n with rfl | hpos
  · decide
  have hdigit : ∀ c ∈ Nat.toDigits 10 n, c.isDigit = true := fun c hc =>
    Nat.isDigit_of_mem_toDigits (by omega) (by omega) hc
  have hradix : (Numeral.takeRadix (glyphsOf n.repr)).1 = .decimal := by
    rw [glyphsOf, Nat.toList_repr]
    have hhead := head?_toDigits hpos
    cases hcs : Nat.toDigits 10 n with
    | nil => rfl
    | cons c cs =>
      rw [hcs] at hhead
      have hc : (c == '0') = false := by simpa using hhead
      simp [Numeral.takeRadix, hc]
  have hfilter : (Nat.toDigits 10 n).filter (· != '_') = Nat.toDigits 10 n := by
    refine List.filter_eq_self.2 fun c hc => ?_
    have := hdigit c hc
    rw [bne_iff_ne]
    rintro rfl
    exact absurd this (by decide)
  have hfold : ∀ (cs : List Char) (v : Nat), (∀ c ∈ cs, c.isDigit = true) →
      cs.foldl (fun n c => n * 10 + hexValue c) v = Nat.ofDigitChars 10 cs v := by
    intro cs
    induction cs with
    | nil => intro v _; rfl
    | cons c cs ih =>
      intro v hcs
      rw [List.foldl_cons, ih _ fun d hd => hcs d (List.mem_cons_of_mem _ hd)]
      simp [Nat.ofDigitChars, hexValue, hcs c List.mem_cons_self, Nat.mul_comm]
  rw [intValue]
  simp only [hradix, beq_self_eq_true, Bool.true_or, if_true, Nat.toList_repr, hfilter]
  exact (hfold _ 0 hdigit).trans (Nat.ofDigitChars_toDigits (by omega) (by omega))

theorem intLiteral_numeral (fault : Option Lexeme → Fault) (n : Nat) :
    intLiteral fault (numeral n :: rest) = .ok ((n.repr, 0), rest) := rfl

/-- Every number of a field is read back. -/
theorem fieldNumber_numeral {v : Int} (hv : 0 ≤ v) (hlt : v < 0x80000000) (rest : List Token) :
    fieldNumber (numeral v.toNat :: rest) = .ok (v, rest) := by
  rw [fieldNumber, intLiteral_numeral]
  have hval : (v.toNat : Int) = v := Int.toNat_of_nonneg hv
  simp only [intValue_repr, hval]
  rw [if_pos (by omega)]

/-- Every number of 32 bits is read back as the number of an enum value. -/
theorem enumNumber_tokens {v : Int} (hge : -0x80000000 ≤ v) (hlt : v < 0x80000000)
    (rest : List Token) :
    enumNumber (numberTokens v ++ rest) = .ok (v, rest) := by
  rw [numberTokens]
  split
  · rename_i hneg
    have hval : -(v.natAbs : Int) = v := by omega
    simp only [List.cons_append, List.nil_append, enumNumber, startsWithSymbol_cons, mark_isSymbol,
      beq_self_eq_true, if_true, List.drop_succ_cons, List.drop_zero, intLiteral_numeral,
      intValue_repr, hval]
    rw [if_neg (by omega), if_neg (by simp; omega)]
  · rename_i hneg
    have hval : (v.natAbs : Int) = v := by omega
    simp only [List.cons_append, List.nil_append, enumNumber, startsWithSymbol_cons,
      numeral_isSymbol, Bool.false_eq_true, if_false, intLiteral_numeral, intValue_repr, hval]
    rw [if_neg (by omega), if_neg (by simp; omega)]

/-! ## Fields and enums -/

/-- The type of a field is read back, before the name of the field. -/
theorem fieldType_tokens (f : Field) (w : String) (rest : List Token) :
    fieldType ((if f.isMap then
        word "map" :: mark '<' :: word "string" :: mark ',' :: (nameTokens f.type ++ [mark '>'])
      else nameTokens f.type) ++ word w :: rest) = .ok ((f.isMap, f.type), word w :: rest) := by
  cases hmap : f.isMap with
  | true =>
    have hkey : fullIdent (word "string" :: mark ',' :: (nameTokens f.type ++ mark '>' ::
        word w :: rest)) = .ok ("string", mark ',' :: (nameTokens f.type ++ mark '>' ::
          word w :: rest)) :=
      fullIdent_tokens "string" _ (by simp)
    have hvalue := fullIdent_tokens f.type (mark '>' :: word w :: rest) (by simp)
    simp [fieldType, mapType, hkey, hvalue]
  | false =>
    have hname := fullIdent_tokens f.type (word w :: rest) (by simp)
    -- A type `map` is followed by a dot or by the name of the field, not by an angle bracket.
    have hnext : startsWithSymbol ((nameTokens f.type ++ word w :: rest).drop 1) '<' = false := by
      have hno := isSymbol_nameTokens f.type (show '<' ≠ '.' by decide)
      obtain ⟨t, ts, hts⟩ := nameTokens_cons f.type
      rw [hts] at hno ⊢
      cases ts with
      | nil => simp
      | cons t' ts => simpa using hno t' (by simp)
    simp only [Bool.false_eq_true, if_false, fieldType, hnext, Bool.and_false, hname]

/-- A field is read back. -/
theorem field_tokens {f : Field} (h : f.Canonical) (rest : List Token) :
    field (f.tokens ++ rest) = .ok (f.unlined, rest) := by
  have hlabel : ∀ ts, fieldLabel
      (word (if f.repeated then "repeated" else "optional") :: ts) = (f.repeated, ts) := by
    intro ts
    cases f.repeated <;> simp [fieldLabel]
  have hgroup : startsWithWord ((if f.isMap then
        word "map" :: mark '<' :: word "string" :: mark ',' :: (nameTokens f.type ++ [mark '>'])
      else nameTokens f.type) ++
      word f.name :: mark '=' :: numeral f.number.toNat :: mark ';' :: rest) "group" = false := by
    cases hmap : f.isMap with
    | true => simp
    | false =>
      simp only [Bool.false_eq_true, if_false, startsWithWord_nameTokens]
      exact h.type hmap
  have htype := fieldType_tokens f f.name
    (mark '=' :: numeral f.number.toNat :: mark ';' :: rest)
  rw [field, Field.tokens]
  simp only [List.cons_append, List.append_assoc, List.nil_append, hlabel, hgroup, htype,
    Bool.false_eq_true, if_false, ident_word, symbol_mark, fieldNumber_numeral h.nonneg h.lt,
    endOfMember_mark]
  rfl

/-- A value of an enum is read back. -/
theorem enumValue_tokens {v : EnumValue} (h : v.Canonical) (rest : List Token) :
    enumValue (v.tokens ++ rest) = .ok (v, rest) := by
  have hnumber := enumNumber_tokens h.ge h.lt (mark ';' :: rest)
  simp only [EnumValue.tokens, List.cons_append, List.append_assoc, List.nil_append, enumValue,
    ident_word, symbol_mark, hnumber, endOfMember_mark]

/-- Items that are read back are read back as a block, when none of them starts like what ends a
block or is passed over in it. -/
theorem block_tokens {α β : Type} {unterminated : Fault} {passed : List String} {item : Parser α}
    {advances : item.Advances} (write : β → List Token) (read : β → α) {xs : List β}
    (hitem : ∀ x ∈ xs, ∀ ts, item (write x ++ ts) = .ok (read x, ts))
    (hfirst : ∀ x ∈ xs, ∃ w ts, write x = word w :: ts ∧ w ∉ passed) :
    block unterminated passed item @advances (xs.flatMap write ++ mark '}' :: rest) =
      .ok (xs.map read, rest) := by
  induction xs with
  | nil =>
    rw [List.flatMap_nil, List.nil_append, block.eq_def]
    simp
  | cons x xs ih =>
    have hrest := ih (fun y hy => hitem y (List.mem_cons_of_mem _ hy))
      fun y hy => hfirst y (List.mem_cons_of_mem _ hy)
    obtain ⟨w, ts, hts, hw⟩ := hfirst x List.mem_cons_self
    have hx := hitem x List.mem_cons_self (xs.flatMap write ++ mark '}' :: rest)
    rw [List.flatMap_cons, List.append_assoc]
    rw [hts, List.cons_append] at hx ⊢
    have hpassed : passed.any (word w).isWord = false := by
      rw [List.any_eq_false]
      intro v hv he
      rw [word_isWord, beq_iff_eq] at he
      exact hw (he ▸ hv)
    rw [block.eq_def]
    simp only [word_isSymbol, hpassed, Bool.false_eq_true, if_false]
    split
    · rename_i e he
      cases hx.symm.trans he
    · rename_i y after hy
      cases hx.symm.trans hy
      simp only [hrest, List.map_cons]

/-- An enum is read back after the word that introduces it. -/
theorem enum_tokens {e : Enum} (h : e.Canonical) (rest : List Token) :
    enum (e.tokens.tail ++ rest) = .ok (e.unlined, rest) := by
  have hvalues : block (.unterminated .enum e.name) ["option", "reserved"] enumValue
      enumValue_advances (e.values.flatMap EnumValue.tokens ++ mark '}' :: rest) =
        .ok (e.values.map id, rest) :=
    block_tokens EnumValue.tokens id (fun v hv => enumValue_tokens (h v hv))
      fun v hv => ⟨v.name, _, rfl, (h v hv).name⟩
  simp only [Enum.tokens, List.tail_cons, List.cons_append, List.append_assoc, List.nil_append,
    enum, blockHead_tokens, hvalues, List.map_id]
  rfl

/-! ## Services -/

/-- The request or response of a procedure is read back. -/
theorem rpcType_tokens {stream : Bool} {type : String} (h : NotStreamed stream type)
    (rest : List Token) :
    rpcType (rpcTypeTokens stream type ++ rest) = .ok ((stream, type), rest) := by
  have hname := fullIdent_tokens type (mark ')' :: rest) (by simp)
  rw [rpcTypeTokens]
  cases hstream : stream with
  | true =>
    -- A type follows the word `stream`, and no type starts with a parenthesis.
    have hnext : startsWithSymbol (nameTokens type ++ mark ')' :: rest) ')' = false := by
      have hno := isSymbol_nameTokens type (show ')' ≠ '.' by decide)
      obtain ⟨t, ts, hts⟩ := nameTokens_cons type
      rw [hts] at hno ⊢
      exact hno t (by simp)
    simp only [if_true, List.cons_append, List.nil_append, List.append_assoc, rpcType, symbol_mark,
      startsWithWord_cons, word_isWord, beq_self_eq_true, List.drop_succ_cons, List.drop_zero,
      hnext, Bool.not_false, Bool.and_self, hname]
  | false =>
    have hplain : (startsWithWord (nameTokens type ++ mark ')' :: rest) "stream" &&
        !startsWithSymbol ((nameTokens type ++ mark ')' :: rest).drop 1) ')') = false := by
      rw [startsWithWord_nameTokens]
      cases hword : startsWithWord (nameTokens type) "stream" with
      | false => rfl
      | true =>
        have htokens : nameTokens "stream" = [word "stream"] := by decide
        rw [h hstream hword, htokens]
        simp
    simp only [Bool.false_eq_true, if_false, List.cons_append, List.nil_append, List.append_assoc,
      rpcType, symbol_mark, hplain, hname]

/-- A procedure is read back. -/
theorem serviceItem_tokens {m : Method} (h : m.Canonical) (service : String)
    (rest : List Token) : serviceItem service (m.tokens ++ rest) = .ok (m.unlined, rest) := by
  have hinput := rpcType_tokens h.input
    (word "returns" :: (rpcTypeTokens m.serverStreaming m.output ++ mark ';' :: rest))
  have houtput := rpcType_tokens h.output (mark ';' :: rest)
  simp only [Method.tokens, List.cons_append, List.append_assoc, List.nil_append, serviceItem,
    word_isWord, beq_self_eq_true, if_true, rpc, ident_word, hinput, startsWithWord_cons,
    List.drop_succ_cons, List.drop_zero, houtput, rpcEnd, startsWithSymbol_cons, mark_isSymbol]
  rfl

/-- A service is read back after the word that introduces it. -/
theorem service_tokens {s : Service} (h : ∀ m ∈ s.methods, m.Canonical) (rest : List Token) :
    service (s.tokens.tail ++ rest) = .ok (s.unlined, rest) := by
  have hmethods : block (.unterminated .service s.name) ["option"] (serviceItem s.name)
      (serviceItem_advances s.name) (s.methods.flatMap Method.tokens ++ mark '}' :: rest) =
        .ok (s.methods.map Method.unlined, rest) :=
    block_tokens Method.tokens Method.unlined (fun m hm => serviceItem_tokens (h m hm) s.name)
      fun m hm => ⟨"rpc", _, rfl, by decide⟩
  simp only [Service.tokens, List.tail_cons, List.cons_append, List.append_assoc, List.nil_append,
    service, blockHead_tokens, hmethods]
  rfl

/-! ## Messages -/

section
variable {top : Message} {outer : List Message}

/-- Fields are read back into the message that is open. -/
theorem messageBody_fields {fs : List Field} (h : ∀ f ∈ fs, f.Canonical) :
    messageBody top outer (fs.flatMap Field.tokens ++ rest) =
      messageBody { top with fields := top.fields ++ fs.map Field.unlined } outer rest := by
  induction fs generalizing top with
  | nil => cases top; simp
  | cons f fs ih =>
    have hf := field_tokens (h f List.mem_cons_self) (fs.flatMap Field.tokens ++ rest)
    have hfirst : ∃ w ts, f.tokens = word w :: ts ∧
        w ∉ ["message", "enum", "oneof"] ++ passedInMessage := by
      refine ⟨_, _, rfl, ?_⟩
      cases f.repeated <;> decide
    obtain ⟨w, ts, hts, hw⟩ := hfirst
    rw [List.flatMap_cons, List.append_assoc]
    rw [hts, List.cons_append] at hf ⊢
    simp only [List.mem_append, List.mem_cons, List.not_mem_nil, or_false, not_or] at hw
    obtain ⟨⟨hmessage, henum, honeof⟩, hpassed⟩ := hw
    have hskip : passedInMessage.any (word w).isWord = false := by
      rw [List.any_eq_false]
      intro v hv he
      rw [word_isWord, beq_iff_eq] at he
      exact hpassed (he ▸ hv)
    rw [messageBody.eq_def]
    simp only [word_isSymbol, word_isWord, beq_false_of_ne hmessage, beq_false_of_ne henum,
      beq_false_of_ne honeof, hskip, Bool.false_eq_true, if_false]
    split
    · rename_i e he
      cases hf.symm.trans he
    · rename_i f' after hf'
      cases hf.symm.trans hf'
      rw [ih fun g hg => h g (List.mem_cons_of_mem _ hg)]
      simp

/-- Enums are read back into the message that is open. -/
theorem messageBody_enums {es : List Enum} (h : ∀ e ∈ es, e.Canonical) :
    messageBody top outer (es.flatMap Enum.tokens ++ rest) =
      messageBody { top with enums := top.enums ++ es.map Enum.unlined } outer rest := by
  induction es generalizing top with
  | nil => cases top; simp
  | cons e es ih =>
    have he := enum_tokens (h e List.mem_cons_self) (es.flatMap Enum.tokens ++ rest)
    rw [List.flatMap_cons, List.append_assoc]
    have htokens : e.tokens = word "enum" :: e.tokens.tail := rfl
    rw [htokens, List.cons_append, messageBody.eq_def]
    simp only [word_isSymbol, word_isWord, String.reduceBEq, beq_self_eq_true, Bool.false_eq_true,
      if_false, if_true]
    split
    · rename_i e' he'
      cases he.symm.trans he'
    · rename_i e' after he'
      cases he.symm.trans he'
      rw [ih fun g hg => h g (List.mem_cons_of_mem _ hg)]
      simp

end

mutual

/-- A nested message is read back into the message that is open. -/
theorem messageBody_message : ∀ {m : Message}, m.Canonical → ∀ {top : Message}
    {outer : List Message} {rest : List Token},
      messageBody top outer (m.tokens ++ rest) =
        messageBody { top with messages := top.messages ++ [m.unlined] } outer rest
  | ⟨name, line, fields, messages, enums⟩, h, top, outer, rest => by
    obtain ⟨hfields, henums, hnested⟩ := h
    rw [Message.tokens, List.cons_append, List.cons_append, List.cons_append, messageBody.eq_def]
    simp only [word_isSymbol, word_isWord, beq_self_eq_true, Bool.false_eq_true, if_false, if_true]
    split
    · rename_i e he
      rw [blockHead_tokens] at he
      cases he
    · rename_i name' line' after hhead
      rw [blockHead_tokens] at hhead
      cases hhead
      simp only [List.append_assoc, List.cons_append, List.nil_append]
      rw [messageBody_fields hfields, messageBody_messages hnested, messageBody_enums henums,
        messageBody.eq_def]
      simp [Message.unlined]

/-- Nested messages are read back into the message that is open. -/
theorem messageBody_messages : ∀ {ms : List Message}, (∀ m ∈ ms, m.Canonical) → ∀ {top : Message}
    {outer : List Message} {rest : List Token},
      messageBody top outer (Message.allTokens ms ++ rest) =
        messageBody { top with messages := top.messages ++ Message.allUnlined ms } outer rest
  | [], _, top, outer, rest => by
    cases top
    simp [Message.allTokens, Message.allUnlined]
  | m :: ms, h, top, outer, rest => by
    rw [Message.allTokens, List.append_assoc, messageBody_message (h m List.mem_cons_self),
      messageBody_messages fun n hn => h n (List.mem_cons_of_mem _ hn), Message.allUnlined]
    simp

end

/-- A message is read back after the word that introduces it. -/
theorem message_tokens {m : Message} (h : m.Canonical) (rest : List Token) :
    message (m.tokens.tail ++ rest) = .ok (m.unlined, rest) := by
  obtain ⟨hfields, henums, hnested⟩ := h
  obtain ⟨name, line, fields, messages, enums⟩ := m
  simp only [Message.tokens, List.tail_cons, List.cons_append, List.append_assoc, List.nil_append,
    message, blockHead_tokens]
  rw [messageBody_fields hfields, messageBody_messages hnested, messageBody_enums henums,
    messageBody.eq_def]
  simp [Message.unlined]

/-! ## Files -/

theorem Message.allTokens_eq (ms : List Message) :
    Message.allTokens ms = ms.flatMap Message.tokens := by
  induction ms with
  | nil => rw [Message.allTokens, List.flatMap_nil]
  | cons m ms ih => rw [Message.allTokens, List.flatMap_cons, ih]

theorem Message.allUnlined_eq (ms : List Message) :
    Message.allUnlined ms = ms.map Message.unlined := by
  induction ms with
  | nil => rw [Message.allUnlined, List.map_nil]
  | cons m ms ih => rw [Message.allUnlined, List.map_cons, ih]

/-- A file that has tokens left: it passes something over, or takes in what is read next. -/
theorem fileBody_cons (done : Parsed) (t : Token) (rest : List Token) :
    fileBody done (t :: rest) =
      if t.isSymbol ';' then fileBody done rest
      else if passedInFile.any t.isWord then
        match skipStatement 0 (t :: rest) with
        | .error e => .error e
        | .ok (_, after) => fileBody done after
      else if t.isWord "package" then
        match packageStatement rest with
        | .error e => .error e
        | .ok (package, after) => fileBody { done with file := { done.file with package } } after
      else if t.isWord "import" then
        match importStatement rest with
        | .error e => .error e
        | .ok ((site, isPublic), after) =>
          let imports := done.file.imports ++ [{ path := Text.textOf site.path, isPublic }]
          fileBody { file := { done.file with imports }, sites := done.sites ++ [site] } after
      else if t.isWord "message" then
        match message rest with
        | .error e => .error e
        | .ok (m, after) =>
          fileBody { done with file := { done.file with messages := done.file.messages ++ [m] } }
            after
      else if t.isWord "enum" then
        match enum rest with
        | .error e => .error e
        | .ok (e, after) =>
          fileBody { done with file := { done.file with enums := done.file.enums ++ [e] } } after
      else if t.isWord "service" then
        match service rest with
        | .error e => .error e
        | .ok (s, after) =>
          fileBody { done with file := { done.file with services := done.file.services ++ [s] } }
            after
      else refuse (t :: rest) fun _ => .unexpected t.lexeme := by
  rw [fileBody.eq_def]
  dsimp only
  split_ifs
  · rfl
  iterate 6
    · split <;> simp only [*]
  · rfl

section
variable {done : Parsed}

/-- The package statement is read back. -/
theorem fileBody_package (package : String) (h : done.file.package = "") :
    fileBody done (packageTokens package ++ rest) =
      fileBody { done with file := { done.file with package } } rest := by
  rw [packageTokens]
  split
  · rename_i hempty
    rw [hempty, ← h]
    rfl
  · have hname := fullIdent_tokens package (mark ';' :: rest) (by simp)
    have hpackage : packageStatement (nameTokens package ++ mark ';' :: rest) =
        .ok (package, rest) := by
      simp only [packageStatement, hname, symbol_mark]
    rw [List.cons_append, List.append_assoc, List.cons_append, List.nil_append, fileBody.eq_def]
    simp only [word_isSymbol, passedInFile, List.any_cons, List.any_nil, word_isWord,
      String.reduceBEq, Bool.or_false, beq_self_eq_true, Bool.false_eq_true, if_false, if_true]
    split
    · rename_i e he
      cases hpackage.symm.trans he
    · rename_i package' after hp
      cases hpackage.symm.trans hp
      rfl

/-- Declarations that start with the word `w` and are read back one by one are read back in a row.
`put` enters a row of declarations into a file. -/
theorem fileBody_declarations {α : Type} {write : α → List Token} {back : α → α} (w : String)
    (read : Parser α) (put : Parsed → List α → Parsed) (hnil : ∀ done, put done [] = done)
    (hcons : ∀ done x xs, put (put done [x]) xs = put done (x :: xs))
    (hword : ∀ {done ts x after}, read ts = .ok (x, after) →
      fileBody done (word w :: ts) = fileBody (put done [x]) after)
    {xs : List α} (hread : ∀ x ∈ xs, ∀ ts, ∃ own, write x = word w :: own ∧
      read (own ++ ts) = .ok (back x, ts)) :
    fileBody done (xs.flatMap write ++ rest) = fileBody (put done (xs.map back)) rest := by
  induction xs generalizing done with
  | nil => rw [List.flatMap_nil, List.nil_append, List.map_nil, hnil]
  | cons x xs ih =>
    obtain ⟨own, hwrite, hx⟩ := hread x List.mem_cons_self (xs.flatMap write ++ rest)
    rw [List.flatMap_cons, List.append_assoc, hwrite, List.cons_append, hword hx,
      ih fun y hy => hread y (List.mem_cons_of_mem _ hy), hcons, List.map_cons]

/-- Imports are read back, each with its site. -/
theorem fileBody_imports {imports : List Import} {sites : List ImportSite}
    (h : List.Forall₂ (fun imp (site : ImportSite) => imp = ⟨textOf site.path, "", imp.isPublic⟩)
      imports sites) :
    fileBody done ((imports.zip sites).flatMap importTokens ++ rest) =
      fileBody
        { file := { done.file with imports := done.file.imports ++ imports }
          sites := done.sites ++ sites.map fun site => { site with line := 0 } } rest := by
  induction h generalizing done with
  | nil => simp
  | @cons imp site imports sites himp _ ih =>
    have himport : ∀ ts, importStatement ((if imp.isPublic then [word "public"] else []) ++
        ⟨.string site.path, 0⟩ :: mark ';' :: ts) = .ok ((⟨site.path, 0⟩, imp.isPublic), ts) := by
      intro ts
      cases imp.isPublic <;> simp [importStatement, importModifier, importPath, Token.isWord, word]
    have hi := himport ((imports.zip sites).flatMap importTokens ++ rest)
    rw [List.zip_cons_cons, List.flatMap_cons, importTokens, List.append_assoc, List.cons_append,
      List.append_assoc, List.cons_append, List.cons_append, List.nil_append, fileBody.eq_def]
    simp only [word_isSymbol, passedInFile, List.any_cons, List.any_nil, word_isWord,
      String.reduceBEq, Bool.or_false, beq_self_eq_true, Bool.false_eq_true, if_false, if_true]
    split
    · rename_i e he
      cases hi.symm.trans he
    · rename_i site' isPublic after hi'
      cases hi.symm.trans hi'
      rw [ih]
      simp [← himp]

/-- Messages are read back. -/
theorem fileBody_messages {ms : List Message} (h : ∀ m ∈ ms, m.Canonical) :
    fileBody done (ms.flatMap Message.tokens ++ rest) =
      fileBody { done with
        file := { done.file with messages := done.file.messages ++ ms.map Message.unlined } }
        rest := by
  refine fileBody_declarations "message" message (fun done ms => { done with
    file := { done.file with messages := done.file.messages ++ ms } }) (by simp) (by simp)
    (fun hread => by simp [fileBody_cons, passedInFile, hread]) fun m hm ts => ?_
  refine ⟨m.tokens.tail, ?_, message_tokens (h m hm) ts⟩
  cases m
  rw [Message.tokens, List.tail_cons]

/-- Enums are read back. -/
theorem fileBody_enums {es : List Enum} (h : ∀ e ∈ es, e.Canonical) :
    fileBody done (es.flatMap Enum.tokens ++ rest) =
      fileBody { done with
        file := { done.file with enums := done.file.enums ++ es.map Enum.unlined } } rest :=
  fileBody_declarations "enum" enum (fun done es => { done with
    file := { done.file with enums := done.file.enums ++ es } }) (by simp) (by simp)
    (fun hread => by simp [fileBody_cons, passedInFile, hread]) fun e he ts =>
      ⟨e.tokens.tail, rfl, enum_tokens (h e he) ts⟩

/-- Services are read back. -/
theorem fileBody_services {svcs : List Service} (h : ∀ s ∈ svcs, ∀ m ∈ s.methods, m.Canonical) :
    fileBody done (svcs.flatMap Service.tokens ++ rest) =
      fileBody { done with
        file := { done.file with services := done.file.services ++ svcs.map Service.unlined } }
        rest :=
  fileBody_declarations "service" service (fun done svcs => { done with
    file := { done.file with services := done.file.services ++ svcs } }) (by simp) (by simp)
    (fun hread => by simp [fileBody_cons, passedInFile, hread]) fun s hs ts =>
      ⟨s.tokens.tail, rfl, service_tokens (h s hs) ts⟩

end

/-- The grammar reads a canonical file back, without its lines. -/
theorem parseFile_tokens {x : Parsed} (h : x.Canonical) (hname : x.file.name = "") :
    parseFile x.file.path x.tokens = .ok x.unlined := by
  have hend : ∀ done, fileBody done [] = .ok done := fun done => by rw [fileBody.eq_def]
  have hservices : x.file.services.flatMap Service.tokens =
      x.file.services.flatMap Service.tokens ++ [] := (List.append_nil _).symm
  rw [parseFile, Parsed.tokens, Message.allTokens_eq, hservices, fileBody_package _ rfl,
    fileBody_imports h.imports, fileBody_messages h.messages, fileBody_enums h.enums,
    fileBody_services h.services, hend]
  simp [Parsed.unlined, Message.allUnlined_eq, ← hname]

end

end ProtoStub.Schema

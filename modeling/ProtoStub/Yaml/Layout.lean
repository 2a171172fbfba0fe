import ProtoStub.Yaml.Scalar

/-!
# The layout of YAML text

`tokenize` cuts a text into tokens and makes the blocks that indentation shows explicit. A key in
front of a colon has no mark of its own: every token that could start one is remembered
(`PossibleKey`), and the tokens for the key and for the mapping it opens are put in front of it when
the colon comes.
-/

namespace ProtoStub.Yaml

/-- A token that could start a key. -/
structure PossibleKey where
  /-- The position of the token. -/
  position : Nat
  /-- Nothing else than a key can stand here. -/
  required : Bool
  index : Nat
  mark : Mark
  deriving Repr, DecidableEq, Inhabited

/-- The state of reading. -/
structure Layout where
  cursor : Cursor
  tokens : List Token := []
  /-- How many brackets are open. -/
  flow : Nat := 0
  /-- The indentation of the innermost block; below zero outside all blocks. -/
  indent : Int := -1
  /-- The indentations of the blocks around it. -/
  outer : List Int := []
  /-- A key could start here. -/
  keyAllowed : Bool := true
  /-- The possible key of every open bracket and of the text outside, innermost first. -/
  keys : List (Option PossibleKey) := [none]

namespace Layout

/-- A token at the end. -/
def push (l : Layout) (lexeme : Lexeme) (mark : Mark) : Layout :=
  { l with tokens := l.tokens ++ [⟨lexeme, mark⟩] }

/-- A token at a position. -/
def insert (l : Layout) (position : Nat) (lexeme : Lexeme) (mark : Mark) : Layout :=
  { l with tokens := l.tokens.insertIdx position ⟨lexeme, mark⟩ }

/-- A fault that is seen where the cursor stands. -/
def stop (l : Layout) (context : Mark) (text : String) : Except Fault α :=
  .error (.lexical context l.cursor.mark text)

/-- Inside brackets, indentation means nothing. -/
def inFlow (l : Layout) : Bool := l.flow > 0

/-! ## Possible keys -/

/-- The complaint about a key without colon. -/
def keyFault : String := "could not find expected ':'"

/-- Forgets the possible key of the innermost bracket, unless it is required. -/
def dropKey (l : Layout) : Except Fault Layout :=
  match l.keys with
  | some k :: rest =>
    if k.required then l.stop k.mark keyFault else .ok { l with keys := none :: rest }
  | _ => .ok l

/-- Remembers that the next token could start a key. -/
def saveKey (l : Layout) : Except Fault Layout := do
  if l.keyAllowed then
    let c := l.cursor
    let required := !l.inFlow && l.indent == c.mark.column
    let l ← l.dropKey
    return { l with keys := some ⟨l.tokens.length, required, c.index, c.mark⟩ :: l.keys.tail }
  return l

/-- How far a colon may stand behind the start of its key. -/
def maxKeyLength : Nat := 1024

/-- The possible key of the innermost bracket, if the colon can belong to it: it has to be on the
same line and near. -/
def currentKey (l : Layout) : Except Fault (Option PossibleKey) :=
  match l.keys with
  | some k :: _ =>
    if k.mark.line < l.cursor.mark.line || k.index + maxKeyLength < l.cursor.index then
      if k.required then l.stop k.mark keyFault else .ok none
    else .ok (some k)
  | _ => .ok none

/-! ## Blocks -/

/-- Opens a block at a column that is deeper than the one so far. The token goes to `position`. -/
def openBlock (l : Layout) (column : Nat) (position : Nat) (lexeme : Lexeme) (mark : Mark) :
    Layout :=
  if l.inFlow || (column : Int) ≤ l.indent then l
  else { l.insert position lexeme mark with indent := column, outer := l.indent :: l.outer }

/-- Closes blocks, innermost first, as long as they are deeper than `column`. -/
def closeBlocks (column : Int) (mark : Mark) (l : Layout) : List Int → Layout
  | [] => l
  | before :: rest =>
    if l.inFlow || l.indent ≤ column then l
    else closeBlocks column mark { l.push .blockEnd mark with indent := before, outer := rest } rest

/-- Closes the blocks that are deeper than `column`; `mark` is where the text before ended. -/
def unroll (l : Layout) (column : Int) (mark : Mark) : Layout := closeBlocks column mark l l.outer

/-! ## Gaps and marks -/

/-- Passes over blanks, comments and line breaks. Tabs only count as blanks where no key can
start. -/
def skipGap : (fuel : Nat) → Layout → Layout
  | 0, l => l
  | fuel + 1, l =>
    let c := l.cursor
    let c := if c.mark.column == 0 && (c.rest.head?.map (·.toNat)) == some 0xFEFF then c.skip else c
    let tabs := l.inFlow || !l.keyAllowed
    let c := c.skipWhile fun ch => ch == ' ' || (tabs && ch == '\t')
    let c := if c.sees '#' then c.skipWhile (!isBreak ·) else c
    if (c.rest.head?.map isBreak).getD false then
      skipGap fuel { l with cursor := c.takeBreak.2, keyAllowed := l.keyAllowed || !l.inFlow }
    else { l with cursor := c }

/-- A token of `n` characters. -/
def take (l : Layout) (lexeme : Lexeme) (n : Nat := 1) : Layout :=
  { l.push lexeme l.cursor.mark with cursor := l.cursor.skip n }

/-- An opening bracket. -/
def openFlow (l : Layout) (lexeme : Lexeme) : Except Fault Layout := do
  let l ← l.saveKey
  return { l.take lexeme with keys := none :: l.keys, flow := l.flow + 1, keyAllowed := true }

/-- A closing bracket. -/
def closeFlow (l : Layout) (lexeme : Lexeme) : Except Fault Layout := do
  let l ← l.dropKey
  let l := if l.flow > 0 then { l with flow := l.flow - 1, keys := l.keys.tail } else l
  return { l.take lexeme with keyAllowed := false }

/-- The mark of an entry of a block sequence. -/
def blockEntry (l : Layout) : Except Fault Layout := do
  let mark := l.cursor.mark
  if !l.inFlow && !l.keyAllowed then
    l.stop mark "block sequence entries are not allowed in this context"
  else
    let l ← (l.openBlock mark.column l.tokens.length .blockSequenceStart mark).dropKey
    return { l.take .blockEntry with keyAllowed := true }

/-- The mark of a key. -/
def explicitKey (l : Layout) : Except Fault Layout := do
  let mark := l.cursor.mark
  if !l.inFlow && !l.keyAllowed then
    l.stop mark "mapping keys are not allowed in this context"
  else
    let l ← (l.openBlock mark.column l.tokens.length .blockMappingStart mark).dropKey
    return { l.take .key with keyAllowed := !l.inFlow }

/-- The colon in front of a value. -/
def valueMark (l : Layout) : Except Fault Layout := do
  match ← l.currentKey with
  | some k =>
    let l := (l.insert k.position .key k.mark).openBlock k.mark.column k.position
      .blockMappingStart k.mark
    return { l.take .value with keys := none :: l.keys.tail, keyAllowed := false }
  | none =>
    let l := { l with keys := none :: l.keys.tail }
    let mark := l.cursor.mark
    if !l.inFlow && !l.keyAllowed then
      l.stop mark "mapping values are not allowed in this context"
    else
      let l := l.openBlock mark.column l.tokens.length .blockMappingStart mark
      return { l.take .value with keyAllowed := !l.inFlow }

/-! ## Names, tags and directives -/

/-- An anchor, or the alias that refers to one. -/
def reference (l : Layout) (lexeme : String → Lexeme) : Except Fault Layout := do
  let l ← l.saveKey
  let c := l.cursor.skip
  let name := c.rest.takeWhile isWordChar
  let c := c.skip name.length
  let ends := isGap c.rest.head? ||
    (c.rest.head?.map ['?', ':', ',', ']', '}', '%', '@', Char.ofNat 96].contains).getD false
  if name.isEmpty || !ends then
    .error (.lexical l.cursor.mark c.mark "did not find expected alphabetic or numeric character")
  else
    return { l.push (lexeme (String.ofList name)) l.cursor.mark with
             cursor := c, keyAllowed := false }

/-- A character of a tag. -/
def isTagChar (c : Char) : Bool :=
  isWordChar c || [';', '/', '?', ':', '@', '&', '=', '+', '$', '.', '!', '~', '*', '\'', '(', ')',
    '%', ',', '[', ']'].contains c

/-- A tag: a name in angle brackets, or a handle and a suffix. -/
def tagToken (l : Layout) : Except Fault Layout := do
  let l ← l.saveKey
  let start := l.cursor.mark
  let finish (handle suffix : List Char) (c : Cursor) : Except Fault Layout :=
    if !isGap c.rest.head? then
      .error (.lexical start c.mark "did not find expected whitespace or line break")
    else .ok { l.push (.tag (String.ofList handle) (String.ofList suffix)) start with
               cursor := c, keyAllowed := false }
  if l.cursor.peek 1 == some '<' then
    let c := l.cursor.skip 2
    let name := c.rest.takeWhile isTagChar
    let c := c.skip name.length
    if name.isEmpty then .error (.lexical start c.mark "did not find expected tag URI")
    else if !c.sees '>' then .error (.lexical start c.mark "did not find the expected '>'")
    else finish [] name c.skip
  else
    let c := l.cursor.skip
    let word := c.rest.takeWhile isWordChar
    let c := c.skip word.length
    if c.sees '!' then
      let c := c.skip
      let suffix := c.rest.takeWhile isTagChar
      let c := c.skip suffix.length
      if suffix.isEmpty then .error (.lexical start c.mark "did not find expected tag URI")
      else finish ('!' :: word ++ ['!']) suffix c
    else
      let more := c.rest.takeWhile isTagChar
      let suffix := word ++ more
      let c := c.skip more.length
      if suffix.isEmpty then finish [] ['!'] c else finish ['!'] suffix c

/-- The rest of a line that must hold nothing but a comment. -/
def endOfDirective (l : Layout) (start : Mark) (c : Cursor) : Except Fault Layout :=
  let c := c.skipWhile isBlank
  let c := if c.sees '#' then c.skipWhile (!isBreak ·) else c
  if !isLineEnd c.rest.head? then
    .error (.lexical start c.mark "did not find expected comment or line break")
  else .ok { l with cursor := if c.rest.isEmpty then c else c.takeBreak.2 }

/-- A directive: the version of the language, or a handle for tags. -/
def directive (l : Layout) : Except Fault Layout := do
  let start := l.cursor.mark
  let l ← (l.unroll (-1) start).dropKey
  let l := { l with keyAllowed := false }
  let c := l.cursor.skip
  let name := c.rest.takeWhile isWordChar
  let c := c.skip name.length
  let stop (c : Cursor) (text : String) : Except Fault Layout := .error (.lexical start c.mark text)
  if name.isEmpty then stop c "could not find expected directive name"
  else if !isGap c.rest.head? then stop c "found unexpected non-alphabetical character"
  else
    let c := c.skipWhile isBlank
    if name == "YAML".toList then
      let major := c.rest.takeWhile Char.isDigit
      let c := c.skip major.length
      if major.isEmpty then stop c "did not find expected version number"
      else if !c.sees '.' then stop c "did not find expected digit or '.' character"
      else
        let c := c.skip
        let minor := c.rest.takeWhile Char.isDigit
        if minor.isEmpty then stop c "did not find expected version number"
        else
          let number := major.foldl (fun n d => n * 10 + (d.toNat - '0'.toNat)) 0
          (l.push (.version number) start).endOfDirective start (c.skip minor.length)
    else if name == "TAG".toList then
      let handle := c.rest.takeWhile fun ch => isWordChar ch || ch == '!'
      let c := c.skip handle.length
      if handle.head? != some '!' then stop c "did not find expected '!'"
      else if !(c.rest.head?.map isBlank).getD false then stop c "did not find expected whitespace"
      else
        let c := c.skipWhile isBlank
        let start' := c.rest.takeWhile isTagChar
        let c := c.skip start'.length
        if start'.isEmpty then stop c "did not find expected tag URI"
        else if !isGap c.rest.head? then stop c "did not find expected whitespace or line break"
        else
          (l.push (.handle (String.ofList handle) (String.ofList start')) start).endOfDirective
            start c
    else stop c "found unknown directive name"

/-- The three characters that start or end a document. -/
def indicator (l : Layout) (lexeme : Lexeme) : Except Fault Layout := do
  let l ← (l.unroll (-1) l.cursor.mark).dropKey
  return { l.take lexeme 3 with keyAllowed := false }

/-! ## Scalars -/

/-- A scalar that is not a block; it could be a key. -/
def inlineScalar (l : Layout) : Except Fault Layout := do
  let l ← l.saveKey
  let c := l.cursor
  let fuel := c.rest.length + 1
  if c.sees '\'' || c.sees '"' then
    let (text, c') ← quotedFrom (c.sees '\'') c.mark fuel c.skip []
    return { l.push (.scalar (String.ofList text) false) c.mark with
             cursor := c', keyAllowed := false }
  else
    let (text, c', ownLine) ← plainFrom l.inFlow (l.indent + 1) c.mark fuel c [] {}
    return { l.push (.scalar (String.ofList text) true) c.mark with
             cursor := c', keyAllowed := ownLine }

/-- A block scalar, which is no key. -/
def blockToken (l : Layout) (literal : Bool) : Except Fault Layout := do
  let l ← l.dropKey
  let (text, c) ← blockScalar literal l.indent l.cursor
  return { l.push (.scalar (String.ofList text) false) l.cursor.mark with
           cursor := c, keyAllowed := true }

/-- A character that starts no plain scalar. -/
def isIndicator (c : Char) : Bool :=
  ['-', '?', ':', ',', '[', ']', '{', '}', '#', '&', '*', '!', '|', '>', '\'', '"', '%', '@',
    Char.ofNat 96].contains c

/-- A plain scalar starts with `c` in front of `next`. -/
def startsPlain (l : Layout) (c : Char) (next : Option Char) : Bool :=
  (!isGap (some c) && !isIndicator c) || (c == '-' && !(next.map isBlank).getD false) ||
    (!l.inFlow && (c == '?' || c == ':') && !isGap next)

/-! ## Tokens -/

/-- The end of the text closes all blocks. -/
def finish (l : Layout) : Except Fault Layout := do
  let c := l.cursor
  let mark := if c.mark.column == 0 then c.mark else ⟨c.mark.line + 1, 0⟩
  let l ← (({ l with cursor := { c with mark } }).unroll (-1) mark).dropKey
  return { l.push .finish mark with keyAllowed := false }

/-- Reads the token at the cursor, which stands on the character `c`. -/
def readToken (l : Layout) (c : Char) : Except Fault Layout :=
  let next := l.cursor.peek 1
  if l.cursor.mark.column == 0 && c == '%' then l.directive
  else if l.cursor.atIndicator then
    l.indicator (if c == '-' then .documentStart else .documentEnd)
  else if c == '[' then l.openFlow .flowSequenceStart
  else if c == '{' then l.openFlow .flowMappingStart
  else if c == ']' then l.closeFlow .flowSequenceEnd
  else if c == '}' then l.closeFlow .flowMappingEnd
  else if c == ',' then (l.dropKey).map fun l => { l.take .flowEntry with keyAllowed := true }
  else if c == '-' && isGap next then l.blockEntry
  else if c == '?' && (l.inFlow || isGap next) then l.explicitKey
  else if c == ':' && (l.inFlow || isGap next) then l.valueMark
  else if c == '*' then l.reference .alias_
  else if c == '&' then l.reference .anchor
  else if c == '!' then l.tagToken
  else if c == '|' && !l.inFlow then l.blockToken true
  else if c == '>' && !l.inFlow then l.blockToken false
  else if c == '\'' || c == '"' || l.startsPlain c next then l.inlineScalar
  else l.stop l.cursor.mark "found character that cannot start any token"

/-- Reads tokens until the text ends. A fault ends them too. -/
def run : (fuel : Nat) → Layout → List Token × Option Fault
  | 0, l => (l.tokens, none)
  | fuel + 1, l =>
    let before := l.cursor.mark
    let l := skipGap (l.cursor.rest.length + 1) l
    let l := l.unroll l.cursor.mark.column before
    let next := match l.cursor.rest.head? with
      | none => l.finish
      | some c => l.readToken c
    match next with
    | .error e => (l.tokens, some e)
    | .ok l =>
      if (l.tokens.getLast?.map (·.lexeme)) == some .finish then (l.tokens, none) else run fuel l

end Layout

/-- The tokens of a text, up to the first fault. -/
def tokenize (text : List Char) : List Token × Option Fault :=
  Layout.run (text.length + 1) { cursor := { rest := text } }

end ProtoStub.Yaml

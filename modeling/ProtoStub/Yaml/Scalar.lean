import ProtoStub.Yaml.Token

/-!
# Scalars of YAML text

Scalars are written plain, in quotes, or as a block. Plain and quoted ones may go on over line
breaks, which fold into blanks; blocks keep their lines or fold them.
-/

namespace ProtoStub.Yaml

/-- What stands between two words of a scalar. -/
structure Gap where
  blanks : List Char := []
  /-- The first line break. -/
  first : List Char := []
  /-- All others. -/
  more : List Char := []
  broken : Bool := false

/-- What a gap stands for: blanks for themselves, one line break for a blank, and more of them for
all but the first. -/
def Gap.text (g : Gap) : List Char :=
  if !g.broken then g.blanks
  else if g.first.head? == some '\n' then if g.more.isEmpty then [' '] else g.more
  else g.first ++ g.more

/-- Passes over blanks and line breaks. At the start of a line, a tab in front of the column `limit`
stops. -/
def takeGap (limit : Int) (onTab : Mark → Fault) : (fuel : Nat) → Cursor → Gap →
    Except Fault (Cursor × Gap)
  | 0, c, g => .ok (c, g)
  | fuel + 1, c, g =>
    match c.rest.head? with
    | none => .ok (c, g)
    | some ch =>
      if isBlank ch then
        if g.broken && ch == '\t' && (c.mark.column : Int) < limit then .error (onTab c.mark)
        else
          takeGap limit onTab fuel c.skip
            (if g.broken then g else { g with blanks := g.blanks ++ [ch] })
      else if isBreak ch then
        let (text, c) := c.takeBreak
        takeGap limit onTab fuel c
          (if g.broken then { g with more := g.more ++ text }
           else { blanks := [], first := text, more := [], broken := true })
      else .ok (c, g)

/-! ## Plain scalars -/

/-- The word at the start of a text. Inside brackets a word ends at more characters. -/
def wordOf (flow : Bool) : List Char → List Char
  | [] => []
  | c :: cs =>
    if isGap (some c) || (c == ':' && isGap cs.head?) then []
    else if flow && [',', '?', '[', ']', '{', '}'].contains c then []
    else c :: wordOf flow cs

/-- A plain scalar: words with gaps between them. It ends at a line that is indented less than
`indent`. Also tells whether the cursor stands on a line of its own behind it. -/
def plainFrom (flow : Bool) (indent : Int) (start : Mark) :
    (fuel : Nat) → Cursor → List Char → Gap → Except Fault (List Char × Cursor × Bool)
  | 0, c, text, g => .ok (text, c, g.broken)
  | fuel + 1, c, text, g =>
    let word := if c.atIndicator || c.sees '#' then [] else wordOf flow c.rest
    if word.isEmpty then .ok (text, c, g.broken)
    else
      let text := text ++ g.text ++ word
      let c := c.skip word.length
      match takeGap indent
          (fun place => .lexical start place "found a tab character that violates indentation")
          (c.rest.length + 1) c {} with
      | .error e => .error e
      | .ok (c, g) =>
        if !flow && (c.mark.column : Int) < indent then .ok (text, c, g.broken)
        else plainFrom flow indent start fuel c text g

/-! ## Quoted scalars -/

/-- The characters that stand for others behind a backslash. -/
def escapes : List (Char × Nat) :=
  [('0', 0), ('a', 7), ('b', 8), ('t', 9), ('\t', 9), ('n', 10), ('v', 11), ('f', 12), ('r', 13),
    ('e', 27), (' ', 32), ('"', 34), ('\'', 39), ('/', 47), ('\\', 92), ('N', 0x85), ('_', 0xA0),
    ('L', 0x2028), ('P', 0x2029)]

/-- The characters that announce a number of hexadecimal digits behind a backslash. -/
def codeLengths : List (Char × Nat) := [('x', 2), ('u', 4), ('U', 8)]

/-- The value of a hexadecimal digit. -/
def hexDigit? (c : Char) : Option Nat :=
  if c.isDigit then some (c.toNat - '0'.toNat)
  else if 'a' ≤ c && c ≤ 'f' then some (c.toNat - 'a'.toNat + 10)
  else if 'A' ≤ c && c ≤ 'F' then some (c.toNat - 'A'.toNat + 10)
  else none

/-- The number that hexadecimal digits spell. -/
def hexNumber? (cs : List Char) : Option Nat :=
  cs.foldlM (fun n c => (hexDigit? c).map (n * 16 + ·)) 0

/-- The character behind a backslash and how many characters spell it, the backslash included. -/
def escapeAt (start : Mark) (c : Cursor) : Except Fault (Char × Nat) :=
  let stop (text : String) : Except Fault (Char × Nat) := .error (.lexical start c.mark text)
  match c.peek 1 with
  | none => stop "found unknown escape character"
  | some mark =>
    match escapes.lookup mark, codeLengths.lookup mark with
    | some n, _ => .ok (Char.ofNat n, 2)
    | none, some length =>
      let digits := (c.rest.drop 2).take length
      if digits.length < length then stop "did not find expected hexdecimal number"
      else match hexNumber? digits with
        | none => stop "did not find expected hexdecimal number"
        | some n =>
          if n.isValidChar then .ok (Char.ofNat n, 2 + length)
          else stop "found invalid Unicode character escape code"
    | none, none => stop "found unknown escape character"

/-- The characters up to a gap or the closing quote. Also tells whether an escaped line break ended
them. -/
def quotedWord (single : Bool) (start : Mark) : (fuel : Nat) → Cursor → List Char →
    Except Fault (List Char × Cursor × Bool)
  | 0, c, text => .ok (text, c, false)
  | fuel + 1, c, text =>
    match c.rest with
    | [] => .ok (text, c, false)
    | ch :: rest =>
      if isGap (some ch) then .ok (text, c, false)
      else if single then
        if ch == '\'' then
          if rest.head? == some '\'' then quotedWord single start fuel (c.skip 2) (text ++ ['\''])
          else .ok (text, c, false)
        else quotedWord single start fuel c.skip (text ++ [ch])
      else if ch == '"' then .ok (text, c, false)
      else if ch == '\\' then
        if (rest.head?.map isBreak).getD false then .ok (text, c.skip.takeBreak.2, true)
        else match escapeAt start c with
          | .error e => .error e
          | .ok (escaped, n) => quotedWord single start fuel (c.skip n) (text ++ [escaped])
      else quotedWord single start fuel c.skip (text ++ [ch])

/-- A quoted scalar behind its opening quote. -/
def quotedFrom (single : Bool) (start : Mark) : (fuel : Nat) → Cursor → List Char →
    Except Fault (List Char × Cursor)
  | 0, c, _ => .error (.lexical start c.mark "found unexpected end of stream")
  | fuel + 1, c, text =>
    if c.atIndicator then .error (.lexical start c.mark "found unexpected document indicator")
    else if c.rest.isEmpty then .error (.lexical start c.mark "found unexpected end of stream")
    else match quotedWord single start (c.rest.length + 1) c text with
      | .error e => .error e
      | .ok (text, c, broken) =>
        if !broken && c.sees (if single then '\'' else '"') then .ok (text, c.skip)
        else match takeGap 0 (fun place => .lexical start place "") (c.rest.length + 1) c
            { broken } with
          | .error e => .error e
          | .ok (c, g) => quotedFrom single start fuel c (text ++ g.text)

/-! ## Block scalars -/

/-- What happens to the line breaks at the end of a block. -/
inductive Chomping where
  | strip
  | clip
  | keep
  deriving Repr, DecidableEq, Inhabited

/-- The chomping that a sign asks for. -/
def chompingOf? (c : Option Char) : Option Chomping :=
  if c == some '+' then some .keep else if c == some '-' then some .strip else none

/-- The signs behind the indicator of a block: chomping and indentation, in either order. -/
def blockHeader (start : Mark) (c : Cursor) : Except Fault (Chomping × Nat × Cursor) :=
  let digit (c : Cursor) : Except Fault (Nat × Cursor) :=
    match c.rest.head? with
    | some d =>
      if d == '0' then .error (.lexical start c.mark "found an indentation indicator equal to 0")
      else if d.isDigit then .ok (d.toNat - '0'.toNat, c.skip) else .ok (0, c)
    | none => .ok (0, c)
  match chompingOf? c.rest.head? with
  | some chomping => (digit c.skip).map fun (n, c) => (chomping, n, c)
  | none => (digit c).map fun (n, c) =>
    match chompingOf? c.rest.head? with
    | some chomping => if n == 0 then (.clip, n, c) else (chomping, n, c.skip)
    | none => (.clip, n, c)

/-- Passes over indentation and empty lines in front of the next line of a block. `indent` is zero
while it is not known; then it becomes the deepest indentation seen, and at least `least`. -/
def blockBreaks (start : Mark) (least : Nat) : (fuel : Nat) → (indent deepest : Nat) → Cursor →
    List Char → Except Fault (Nat × Cursor × List Char)
  | 0, indent, _, c, breaks => .ok (indent, c, breaks)
  | fuel + 1, indent, deepest, c, breaks =>
    let room := if indent == 0 then c.rest.length else indent - c.mark.column
    let c := c.skip ((c.rest.take room).takeWhile (· == ' ')).length
    let deepest := max deepest c.mark.column
    if c.sees '\t' && (indent == 0 || c.mark.column < indent) then
      .error (.lexical start c.mark "found a tab character where an indentation space is expected")
    else if (c.rest.head?.map isBreak).getD false then
      let (text, c) := c.takeBreak
      blockBreaks start least fuel indent deepest c (breaks ++ text)
    else .ok (if indent == 0 then max deepest least else indent, c, breaks)

/-- The lines of a block from the one the cursor stands on. `first` is the line break in front of it
and `more` the empty lines; `blank` tells that the line before started with a blank. -/
def blockLines (literal : Bool) (start : Mark) (indent : Nat) : (fuel : Nat) → Cursor →
    (text first more : List Char) → (blank : Bool) →
    Except Fault (List Char × List Char × List Char × Cursor)
  | 0, c, text, first, more, _ => .ok (text, first, more, c)
  | fuel + 1, c, text, first, more, blank =>
    if c.mark.column != indent || c.rest.isEmpty then .ok (text, first, more, c)
    else
      let startsBlank := (c.rest.head?.map isBlank).getD false
      let folds := !literal && !blank && !startsBlank && first.head? == some '\n'
      let joined := if folds then if more.isEmpty then [' '] else [] else first
      let line := c.rest.takeWhile (!isBreak ·)
      let (text', c') := (c.skip line.length).takeBreak
      match blockBreaks start indent (c'.rest.length + 1) indent 0 c' [] with
      | .error e => .error e
      | .ok (_, c', breaks) =>
        blockLines literal start indent fuel c' (text ++ joined ++ more ++ line) text' breaks
          startsBlank

/-- A block scalar at its indicator; `indent` is the indentation of what holds it. -/
def blockScalar (literal : Bool) (indent : Int) (c : Cursor) :
    Except Fault (List Char × Cursor) := do
  let start := c.mark
  let (chomping, increment, c) ← blockHeader start c.skip
  let c := c.skipWhile isBlank
  let c := if c.sees '#' then c.skipWhile (!isBreak ·) else c
  if !isLineEnd c.rest.head? then
    throw (.lexical start c.mark "did not find expected comment or line break")
  let c := c.takeBreak.2
  let fixed := if increment == 0 then 0 else indent.toNat + increment
  let least := max (indent + 1).toNat 1
  let (width, c, breaks) ← blockBreaks start least (c.rest.length + 1) fixed 0 c []
  let (text, first, more, c) ←
    blockLines literal start width (c.rest.length + 1) c [] [] breaks false
  let ending := match chomping with
    | .strip => []
    | .clip => first
    | .keep => first ++ more
  return (text ++ ending, c)

end ProtoStub.Yaml

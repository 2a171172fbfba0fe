/-!
# Path patterns

A pattern matches a slash path: `?` stands for one character and `*` for any number of them inside a
segment, `[...]` for one of a class, `{a,b}` for one of several patterns, a backslash takes the next
character as it is, and a segment `**` stands for any number of segments. `isValid` says whether a
pattern is well formed; `matches?` decides whether it matches, and can still find a fault in a part
that `isValid` reads differently.

The search remembers the last `*` and the last `**` it passed: when a character does not fit, the
`*` takes one more character of its segment, and when it cannot, the `**` takes one more segment.
-/

namespace ProtoStub.Glob

/-! ## Well-formed patterns -/

/-- Where a reader of a pattern stands. -/
inductive Reader where
  | text
  | escaped
  /-- Behind an opening bracket. -/
  | classStart
  /-- Behind the mark that negates a class. -/
  | classFirst
  | inClass
  | inClassEscaped
  deriving DecidableEq

/-- Inside a class, the state after the character `c`. -/
def Reader.inside (c : Char) : Reader :=
  if c == '\\' then .inClassEscaped else if c == ']' then .text else .inClass

/-- The rest of a pattern is well formed, read from the state `s` inside `depth` braces. -/
def validFrom (s : Reader) (depth : Nat) : List Char → Bool
  | [] => s == .text && depth == 0
  | c :: cs =>
    match s with
    | .text =>
      if c == '\\' then validFrom .escaped depth cs
      else if c == '[' then validFrom .classStart depth cs
      else if c == '{' then validFrom .text (depth + 1) cs
      else if c == '}' then depth != 0 && validFrom .text (depth - 1) cs
      else validFrom .text depth cs
    | .escaped => validFrom .text depth cs
    | .classStart =>
      if c == '^' || c == '!' then validFrom .classFirst depth cs
      else c != ']' && validFrom (.inside c) depth cs
    | .classFirst => c != ']' && validFrom (.inside c) depth cs
    | .inClass => validFrom (.inside c) depth cs
    | .inClassEscaped => validFrom .inClass depth cs

/-- The characters form a pattern. -/
def validChars (cs : List Char) : Bool := validFrom .text 0 cs

/-- The text is a pattern. -/
def isValid (pattern : String) : Bool := validChars pattern.toList

/-! ## Classes -/

/-- Reads the members of a class up to one that `n` belongs to, or to the closing bracket: whether
there is such a member, and the rest from there. `last` is the member before, when it can start a
range. -/
def scanClass (n : Char) (last : Option Char) (cs : List Char) : Bool × List Char :=
  match cs with
  | [] => (false, [])
  | ']' :: rest => (false, ']' :: rest)
  | '-' :: '\\' :: hi :: rest =>
    match last with
    | some lo =>
      if lo ≤ n && n ≤ hi then (true, rest) else scanClass n none rest
    | none =>
      if n == '-' then (true, '\\' :: hi :: rest) else scanClass n (some '-') ('\\' :: hi :: rest)
  | '-' :: hi :: rest =>
    match last with
    | some lo =>
      if hi == ']' then
        if n == '-' then (true, hi :: rest) else scanClass n (some '-') (hi :: rest)
      else if lo ≤ n && n ≤ hi then (true, rest) else scanClass n none rest
    | none => if n == '-' then (true, hi :: rest) else scanClass n (some '-') (hi :: rest)
  | '\\' :: c :: rest => if c == n then (true, rest) else scanClass n (some c) rest
  | c :: rest => if c == n then (true, rest) else scanClass n (some c) rest
termination_by cs.length

/-- The rest of `cs` behind its first `]` that is not escaped. -/
def afterBracket? : List Char → Option (List Char)
  | [] => none
  | '\\' :: _ :: rest => afterBracket? rest
  | c :: rest => if c == ']' then some rest else afterBracket? rest

/-- How a class, read from behind its opening bracket, takes to a character. -/
inductive ClassResult where
  /-- The character belongs to it; the rest of the pattern follows. -/
  | hit (rest : List Char)
  /-- It does not; the reader stands at `rest`. -/
  | miss (rest : List Char)
  | malformed

/-- The class at the start of `cs` against the character `n`. -/
def readClass (n : Char) (cs : List Char) : ClassResult :=
  let negated := cs.head? == some '!' || cs.head? == some '^'
  let members := if negated then cs.tail else cs
  if members.isEmpty || members.head? == some ']' then .malformed
  else
    let (found, rest) := scanClass n none members
    if found == negated then (if rest.isEmpty then .malformed else .miss rest)
    else match afterBracket? rest with
      | some rest => .hit rest
      | none => .malformed

/-! ## Braces -/

/-- Cuts `cs`, read from behind an opening brace, at the brace that closes it. `depth` counts the
braces open inside. -/
def closing? (depth : Nat) (before : List Char) : List Char → Option (List Char × List Char)
  | [] => none
  | '\\' :: c :: rest => closing? depth (c :: '\\' :: before) rest
  | c :: rest =>
    if c == '{' then closing? (depth + 1) (c :: before) rest
    else if c == '}' then
      if depth == 0 then some (before.reverse, rest) else closing? (depth - 1) (c :: before) rest
    else closing? depth (c :: before) rest

/-- Cuts the inside of a pair of braces at its commas; inner braces keep theirs. -/
def branches (depth : Int) (before : List Char) : List Char → List (List Char)
  | [] => [before.reverse]
  | '\\' :: c :: rest => branches depth (c :: '\\' :: before) rest
  | c :: rest =>
    if c == '{' then branches (depth + 1) (c :: before) rest
    else if c == '}' then branches (depth - 1) (c :: before) rest
    else if c == ',' && depth == 0 then before.reverse :: branches 0 [] rest
    else branches depth (c :: before) rest

/-! ## The search -/

/-- A pattern that turned out to be malformed. -/
inductive Malformed where
  | malformed
  deriving Repr, DecidableEq

/-- The first outcome that settles a choice: a match or a fault; otherwise no match. -/
def firstMatch (outcomes : List (Unit → Except Malformed Bool)) : Except Malformed Bool :=
  match outcomes with
  | [] => .ok false
  | o :: rest =>
    match o () with
    | .ok false => firstMatch rest
    | settled => settled

/-- The pattern can stand for nothing: a trailing star, or `**` with or without its separators. -/
def isBlank (cs : List Char) : Bool :=
  ["", "*", "**", "/**", "**/", "/**/"].contains (String.ofList cs)

/-- What is left of a pattern at the end of the path matches nothing more. -/
def matchesEmpty : Nat → List Char → Except Malformed Bool
  | 0, _ => .ok false
  | fuel + 1, cs =>
    if isBlank cs then .ok true
    else
      match cs with
      | '{' :: inner =>
        match closing? 0 [] inner with
        | none => .error .malformed
        | some (inside, after) =>
          firstMatch ((branches 0 [] inside).map fun branch _ =>
            matchesEmpty fuel (branch ++ after))
      | _ => if validChars cs then .ok false else .error .malformed

/-- A place to go on from: the number of pattern characters in front of it, and what is left of the
path. -/
structure Mark where
  at_ : Nat
  path : List Char

/-- A state of the search. -/
structure State where
  /-- Behind the last `**` that stands for segments. -/
  segments : Option Mark := none
  /-- Behind the last `*`. -/
  star : Option Mark := none
  /-- The number of pattern characters read. -/
  read : Nat := 0
  path : List Char
  /-- The reader is at the start of a segment. -/
  fresh : Bool := true

/-- The state to go on from when the search is stuck. -/
def State.retry? (s : State) : Option State :=
  let fromStar := s.star.bind fun m =>
    match m.path with
    | c :: rest =>
      if c == '/' then none
      else some { s with star := some ⟨m.at_, rest⟩, read := m.at_, path := rest, fresh := false }
    | [] => none
  fromStar <|> s.segments.bind fun m =>
    match m.path.dropWhile (· != '/') with
    | _ :: rest =>
      some { s with segments := some ⟨m.at_, rest⟩, read := m.at_, path := rest, fresh := true }
    | [] => none

/-- The search of `pattern` from the state `s`. -/
def search : Nat → List Char → State → Except Malformed Bool
  | 0, _, _ => .ok false
  | fuel + 1, pattern, s =>
    /- The search is stuck with `rest` of the pattern unread. -/
    let stuck (rest : List Char) : Except Malformed Bool :=
      match s.retry? with
      | some s => search fuel pattern s
      | none => if validChars rest then .ok false else .error .malformed
    let readTo (rest : List Char) : Nat := pattern.length - rest.length
    match s.path with
    | [] => matchesEmpty (pattern.length + 1) (pattern.drop s.read)
    | n :: path =>
      match pattern.drop s.read with
      | [] => stuck []
      | '*' :: '*' :: rest =>
        if s.fresh && rest.isEmpty then .ok true
        else
          match s.fresh, rest with
          | true, '/' :: rest =>
            search fuel pattern
              { s with segments := some ⟨readTo rest, s.path⟩, star := none, read := readTo rest }
          | _, rest =>
            search fuel pattern
              { s with star := some ⟨readTo rest, s.path⟩, read := readTo rest, fresh := false }
      | '*' :: rest =>
        search fuel pattern
          { s with star := some ⟨readTo rest, s.path⟩, read := readTo rest, fresh := false }
      | '?' :: rest =>
        if n == '/' then stuck ('?' :: rest)
        else search fuel pattern { s with read := readTo rest, path := path, fresh := false }
      | '[' :: rest =>
        match readClass n rest with
        | .malformed => .error .malformed
        | .miss rest => stuck rest
        | .hit rest =>
          search fuel pattern { s with read := readTo rest, path := path, fresh := false }
      | '{' :: rest =>
        match closing? 0 [] rest with
        | none => .error .malformed
        | some (inside, after) =>
          firstMatch ((branches 0 [] inside).map fun branch _ =>
            search fuel (pattern.take s.read ++ branch ++ after) { s with fresh := true })
      | '\\' :: [] => .error .malformed
      | '\\' :: c :: rest =>
        if c == n then
          search fuel pattern { s with read := readTo rest, path := path, fresh := c == '/' }
        else stuck ('\\' :: c :: rest)
      | c :: rest =>
        if c == n then
          search fuel pattern { s with read := readTo rest, path := path, fresh := c == '/' }
        else stuck (c :: rest)

/-- A bound on the steps of a search: each mark moves forward only. -/
def stepBound (pattern path : Nat) : Nat := Nat.pow (pattern + 2) 3 * Nat.pow (path + 2) 2

/-- The pattern matches the slash path. -/
def matches? (pattern path : String) : Except Malformed Bool :=
  search (stepBound pattern.length path.length) pattern.toList { path := path.toList }

end ProtoStub.Glob

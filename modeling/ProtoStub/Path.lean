import ProtoStub.Text.Split

/-!
# Slash paths

Paths are texts; their meaning is a list of segments, from the root or from somewhere else. `Path`
is that meaning in lowest terms: no empty segment, no `.`, and `..` only at the start of a path that
has no root. `clean`, `joinPath`, `dirOf`, `baseOf` and `relative?` are the usual operations on the
texts, defined through it.
-/

namespace ProtoStub

open Text

/-- A path in lowest terms. -/
structure Path where
  rooted : Bool
  segments : List String
  deriving Repr, DecidableEq, Inhabited

namespace Path

/-- One more segment at the end of a path; `reversed` holds the segments so far, last first. -/
def push (rooted : Bool) (reversed : List String) (segment : String) : List String :=
  if segment == "" || segment == "." then reversed
  else if segment == ".." then
    match reversed with
    | [] => if rooted then [] else [".."]
    | last :: before => if last == ".." then ".." :: reversed else before
  else segment :: reversed

/-- The path a text means. -/
def ofText (s : String) : Path :=
  let rooted := startsWith s "/"
  ⟨rooted, ((split '/' s).foldl (push rooted) []).reverse⟩

/-- The shortest text of a path. -/
def toText (p : Path) : String :=
  if p.rooted then "/" ++ join "/" p.segments
  else if p.segments.isEmpty then "." else join "/" p.segments

/-- `p` with the segments `more` walked from it. -/
def walk (p : Path) (more : List String) : Path :=
  ⟨p.rooted, (more.foldl (push p.rooted) p.segments.reverse).reverse⟩

/-- Two lists without their longest common start. -/
def dropCommon : List String → List String → List String × List String
  | a :: as, b :: bs => if a == b then dropCommon as bs else (a :: as, b :: bs)
  | as, bs => (as, bs)

/-- The segments that lead from `base` to `target`, if both start at the same place. -/
def relative? (base target : Path) : Option (List String) :=
  if base.rooted != target.rooted then none
  else
    let (up, down) := dropCommon base.segments target.segments
    if up.head? == some ".." then none else some (up.map (fun _ => "..") ++ down)

end Path

/-- The shortest text of the same path. -/
def clean (s : String) : String := (Path.ofText s).toText

/-- Texts joined into one path; empty ones do not count. -/
def joinPath (parts : List String) : String :=
  match parts.filter (· != "") with
  | [] => ""
  | some_ => clean (join "/" some_)

/-- The directory a path lies in. -/
def dirOf (s : String) : String :=
  match beforeLast? '/' s with
  | some before => clean (before ++ "/")
  | none => "."

/-- The last segment of a path. -/
def baseOf (s : String) : String :=
  if s == "" then "."
  else
    match (s.toList.reverse.dropWhile (· == '/')) with
    | [] => "/"
    | cs => String.ofList (cs.takeWhile (· != '/')).reverse

/-- The path starts at the root. -/
def isAbsolute (s : String) : Bool := startsWith s "/"

/-- `s` as seen from the directory `cwd`, from the root. -/
def absolute (cwd s : String) : String :=
  if isAbsolute s then clean s else joinPath ["/", cwd, s]

/-- The path from `base` to `target`, if there is one. -/
def relative? (base target : String) : Option String :=
  (Path.relative? (Path.ofText base) (Path.ofText target)).map fun segments =>
    if segments.isEmpty then "." else join "/" segments

/-- The path from `base` down to `target`; nothing when `target` is elsewhere or its name from there
starts with two dots. -/
def below? (base target : String) : Option String :=
  (relative? base target).filter (!startsWith · "..")

/-- A path that stays below wherever it starts. -/
def isLocal (s : String) : Bool :=
  s != "" && !isAbsolute s && (Path.ofText s).segments.head? != some ".."

/-- The import-style name of the file `path`: its path from the first root it lies below, seen from
`cwd`, or `fallback`. -/
def displayName (cwd : String) (roots : List String) (path fallback : String) : String :=
  (roots.findSome? fun root => below? (absolute cwd root) path).getD fallback

end ProtoStub

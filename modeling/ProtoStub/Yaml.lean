import ProtoStub.Yaml.Layout

/-!
# YAML documents

A document is a tree of nodes: scalars, sequences and mappings. `read` gives the first document of a
text. A node can have an anchor, and an alias stands for the node with its anchor.
-/

namespace ProtoStub.Yaml

/-- A node of a document, with the line it starts on. The tag is empty when it is not written. -/
inductive Node where
  | scalar (line : Nat) (tag text : String) (isPlain : Bool)
  | sequence (line : Nat) (tag : String) (items : List Node)
  | mapping (line : Nat) (tag : String) (entries : List (Node × Node))
  /-- The node that the anchor `name` names; nothing inside that node itself. -/
  | alias_ (line : Nat) (name : String) (target : Option Node)
  deriving Repr, Inhabited

/-- What is left to read: tokens, the fault behind them, the anchors met so far, and the handles of
tags. -/
structure Reader where
  tokens : List Token
  fault : Option Fault
  anchors : List (String × Option Node) := []
  handles : List (String × String) := [("!", "!"), ("!!", "tag:yaml.org,2002:")]

/-- A step of reading. -/
abbrev Read (α : Type) : Type := StateT Reader (Except Fault) α

/-- How many tokens are looked at before one of them counts: a fault among them comes first. -/
def lookahead : Nat := 3

/-- The next token. -/
def peek : Read Token := do
  let r ← get
  match r.fault with
  | some fault => if r.tokens.length < lookahead then throw fault
  | none => pure ()
  return r.tokens.headD ⟨.finish, {}⟩

/-- Passes over the next token. -/
def advance : Read Unit :=
  modify fun r => { r with tokens := if r.tokens.length ≤ 1 then r.tokens else r.tokens.tail }

/-- Passes over the next token, and gives the one behind it. -/
def next : Read Token := do
  advance
  peek

/-- A scalar that is not written. -/
def emptyNode (mark : Mark) : Node := .scalar (mark.line + 1) "" "" true

/-- The tag that a handle and a suffix spell. -/
def tagOf (handle suffix : String) (start place : Mark) : Read String := do
  if handle == "" then return suffix
  match (← get).handles.lookup handle with
  | some full => return full ++ suffix
  | none => throw (.structural start place "found undefined tag handle")

/-- The anchor and the tag in front of a node, in either order. -/
def properties : Read (Option String × String) := do
  let first ← peek
  match first.lexeme with
  | .anchor name =>
    let second ← next
    match second.lexeme with
    | .tag handle suffix =>
      advance
      return (some name, ← tagOf handle suffix first.mark second.mark)
    | _ => return (some name, "")
  | .tag handle suffix =>
    let second ← next
    let tag ← tagOf handle suffix first.mark first.mark
    match second.lexeme with
    | .anchor name =>
      advance
      return (some name, tag)
    | _ => return (none, tag)
  | _ => return (none, "")

/-- Names a node. -/
def register (anchor : Option String) (node : Option Node) : Read Unit :=
  match anchor with
  | none => pure ()
  | some name => modify fun r => { r with anchors := (name, node) :: r.anchors }

mutual

/-- A node. In a `block` it can be a block; a sequence may also stand at the indentation of the
mapping that holds it when `loose` is set. -/
def node (fuel : Nat) (block loose : Bool) : Read Node := do
  match fuel with
  | 0 => throw (.general "exceeded max depth of 10000")
  | fuel + 1 =>
    let start := (← peek).mark
    match (← peek).lexeme with
    | .alias_ name =>
      advance
      match (← get).anchors.lookup name with
      | none => throw (.general ("unknown anchor '" ++ name ++ "' referenced"))
      | some target => return .alias_ (start.line + 1) name target
    | _ =>
      let (anchor, tag) ← properties
      let token ← peek
      let line := start.line + 1
      match token.lexeme with
      | .scalar text isPlain =>
        let n := Node.scalar line tag text isPlain
        register anchor (some n)
        advance
        return n
      | .flowSequenceStart =>
        register anchor none
        advance
        let n := Node.sequence line tag (← flowItems fuel token.mark true)
        register anchor (some n)
        return n
      | .flowMappingStart =>
        register anchor none
        advance
        let n := Node.mapping line tag (← flowEntries fuel token.mark true)
        register anchor (some n)
        return n
      | lexeme =>
        if loose && lexeme == .blockEntry then
          register anchor none
          let n := Node.sequence line tag (← looseItems fuel)
          register anchor (some n)
          return n
        else if block && lexeme == .blockSequenceStart then
          register anchor none
          advance
          let n := Node.sequence line tag (← blockItems fuel token.mark)
          register anchor (some n)
          return n
        else if block && lexeme == .blockMappingStart then
          register anchor none
          advance
          let n := Node.mapping line tag (← blockEntries fuel token.mark)
          register anchor (some n)
          return n
        else if anchor.isSome || tag != "" then
          let n := Node.scalar line tag "" true
          register anchor (some n)
          return n
        else throw (.structural start token.mark "did not find expected node content")

/-- The items of a block sequence. -/
def blockItems (fuel : Nat) (context : Mark) : Read (List Node) := do
  match fuel with
  | 0 => throw (.general "exceeded max depth of 10000")
  | fuel + 1 =>
    let token ← peek
    match token.lexeme with
    | .blockEntry =>
      let following ← next
      let item ← if following.lexeme == .blockEntry || following.lexeme == .blockEnd then
          pure (emptyNode token.mark) else node fuel true false
      return item :: (← blockItems fuel context)
    | .blockEnd =>
      advance
      return []
    | _ => throw (.structural context token.mark "did not find expected '-' indicator")

/-- The items of a sequence at the indentation of the mapping that holds it. -/
def looseItems (fuel : Nat) : Read (List Node) := do
  match fuel with
  | 0 => throw (.general "exceeded max depth of 10000")
  | fuel + 1 =>
    let token ← peek
    match token.lexeme with
    | .blockEntry =>
      let following ← next
      let item ← if [.blockEntry, .key, .value, .blockEnd].contains following.lexeme then
          pure (emptyNode token.mark) else node fuel true false
      return item :: (← looseItems fuel)
    | _ => return []

/-- The entries of a block mapping. -/
def blockEntries (fuel : Nat) (context : Mark) : Read (List (Node × Node)) := do
  match fuel with
  | 0 => throw (.general "exceeded max depth of 10000")
  | fuel + 1 =>
    let token ← peek
    match token.lexeme with
    | .key =>
      let following ← next
      let key ← if [.key, .value, .blockEnd].contains following.lexeme then
          pure (emptyNode token.mark) else node fuel true true
      let value ← blockValue fuel
      return (key, value) :: (← blockEntries fuel context)
    | .blockEnd =>
      advance
      return []
    | _ => throw (.structural context token.mark "did not find expected key")

/-- The value of an entry of a block mapping. -/
def blockValue (fuel : Nat) : Read Node := do
  match fuel with
  | 0 => throw (.general "exceeded max depth of 10000")
  | fuel + 1 =>
    let token ← peek
    match token.lexeme with
    | .value =>
      let following ← next
      if [.key, .value, .blockEnd].contains following.lexeme then return emptyNode token.mark
      else node fuel true true
    | _ => return emptyNode token.mark

/-- The items of a sequence in brackets. An item can be a mapping of one entry without braces. -/
def flowItems (fuel : Nat) (context : Mark) (first : Bool) : Read (List Node) := do
  match fuel with
  | 0 => throw (.general "exceeded max depth of 10000")
  | fuel + 1 =>
    let token ← peek
    if token.lexeme == .flowSequenceEnd then
      advance
      return []
    if !first && token.lexeme != .flowEntry then
      throw (.structural context token.mark "did not find expected ',' or ']'")
    let token ← if first then pure token else next
    match token.lexeme with
    | .flowSequenceEnd =>
      advance
      return []
    | .key =>
      let following ← next
      let ends := [.flowEntry, .flowSequenceEnd].contains following.lexeme
      let key ← if ends || following.lexeme == .value then pure (emptyNode following.mark)
        else node fuel false false
      let value ← flowValue fuel .flowSequenceEnd
      let item := Node.mapping (token.mark.line + 1) "" [(key, value)]
      return item :: (← flowItems fuel context false)
    | _ =>
      let item ← node fuel false false
      return item :: (← flowItems fuel context false)

/-- The value of an entry in brackets, which `closing` ends. -/
def flowValue (fuel : Nat) (closing : Lexeme) : Read Node := do
  match fuel with
  | 0 => throw (.general "exceeded max depth of 10000")
  | fuel + 1 =>
    let token ← peek
    if token.lexeme == .value then
      let following ← next
      if following.lexeme == .flowEntry || following.lexeme == closing then
        return emptyNode following.mark
      else node fuel false false
    else return emptyNode token.mark

/-- The entries of a mapping in braces. -/
def flowEntries (fuel : Nat) (context : Mark) (first : Bool) : Read (List (Node × Node)) := do
  match fuel with
  | 0 => throw (.general "exceeded max depth of 10000")
  | fuel + 1 =>
    let token ← peek
    if token.lexeme == .flowMappingEnd then
      advance
      return []
    if !first && token.lexeme != .flowEntry then
      throw (.structural context token.mark "did not find expected ',' or '\x7d'")
    let token ← if first then pure token else next
    match token.lexeme with
    | .flowMappingEnd =>
      advance
      return []
    | .key =>
      let following ← next
      let key ← if [.value, .flowEntry, .flowMappingEnd].contains following.lexeme then
          pure (emptyNode following.mark) else node fuel false false
      let value ← flowValue fuel .flowMappingEnd
      return (key, value) :: (← flowEntries fuel context false)
    | _ =>
      let key ← node fuel false false
      return (key, emptyNode (← peek).mark) :: (← flowEntries fuel context false)

end

/-- The directives in front of a document. -/
def directives : (fuel : Nat) → (versioned : Bool) → (named : List String) → Read Unit
  | 0, _, _ => pure ()
  | fuel + 1, versioned, named => do
    let token ← peek
    match token.lexeme with
    | .version major =>
      if versioned then throw (.structural {} token.mark "found duplicate %YAML directive")
      if major != 1 then throw (.structural {} token.mark "found incompatible YAML document")
      advance
      directives fuel true named
    | .handle name start =>
      if named.contains name then throw (.structural {} token.mark "found duplicate %TAG directive")
      modify fun r => { r with handles := (name, start) :: r.handles }
      advance
      directives fuel versioned (name :: named)
    | _ => pure ()

/-- The first document; nothing when there is none. -/
def document : Read (Option Node) := do
  let fuel := 4 * (← get).tokens.length + 8
  match (← peek).lexeme with
  | .finish => return none
  | .version _ | .handle _ _ | .documentStart =>
    directives fuel false []
    let token ← peek
    if token.lexeme != .documentStart then
      throw (.structural {} token.mark "did not find expected <document start>")
    let following ← next
    match following.lexeme with
    | .version _ | .handle _ _ | .documentStart | .documentEnd | .finish =>
      return some (emptyNode following.mark)
    | _ =>
      let n ← node fuel true false
      discard peek
      return some n
  | _ =>
    let n ← node fuel true false
    discard peek
    return some n

/-- The first document of a text; nothing when there is none. -/
def read (bytes : List UInt8) : Except Fault (Option Node) := do
  let text ← characters bytes
  let text := if (text.head?.map (·.toNat)) == some 0xFEFF then text.tail else text
  let (tokens, fault) := tokenize text
  let (result, _) ← document.run { tokens, fault }
  return result

end ProtoStub.Yaml

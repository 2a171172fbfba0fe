import ProtoStub.Definition
import ProtoStub.Text.Split

/-!
# Symbols and scopes

Every declaration has a full name. A name written without a leading dot is looked up from the
innermost scope outwards: the scope where its first part is bound decides, and the rest has to be
found there. Messages and services only see their own file; the scope of a file also sees what the
file imports and what those files re-export.
-/

namespace ProtoStub.Definition

open Text

/-- What a symbol stands for. -/
inductive Declared where
  | message (m : Message)
  | enum (e : Enum)
  | field (f : Field)
  | extension (f : Field)
  | oneof
  | enumValue
  | service
  | method
  deriving Inhabited

/-- Things that have names inside them. -/
def Declared.isAggregate : Declared → Bool
  | .message _ | .enum _ | .service => true
  | _ => false

/-- Things that a field can have as its type. -/
def Declared.isType : Declared → Bool
  | .message _ | .enum _ => true
  | _ => false

/-- A declaration under its full name. -/
structure Symbol where
  name : String
  line : Nat
  what : Declared
  deriving Inhabited

/-- The symbols of an enum; its values stand beside it. -/
def Enum.symbols (scope : String) (e : Enum) : List Symbol :=
  ⟨qualified scope e.name.value, e.name.line, .enum e⟩ ::
    e.values.map fun v => ⟨qualified scope v.name.value, v.name.line, .enumValue⟩

/-- The symbol of an extension. -/
def extensionSymbol (scope : String) (f : Field) : Symbol :=
  ⟨qualified scope f.name.value, f.name.line, .extension f⟩

/-- The symbols of messages and of all declared in them. -/
def messageSymbols (scope : String) : List Message → List Symbol
  | [] => []
  | m :: rest =>
    let inner := qualified scope m.name.value
    ⟨inner, m.name.line, .message m⟩ ::
      (m.fields.map fun f => ⟨qualified inner f.name.value, f.name.line, .field f⟩) ++
      (m.oneofs.map fun o => ⟨qualified inner o.name.value, o.name.line, .oneof⟩) ++
      messageSymbols inner m.messages ++ m.enums.flatMap (·.symbols inner) ++
      m.extensions.map (extensionSymbol inner) ++ messageSymbols scope rest
termination_by ms => sizeOf ms
decreasing_by
  · exact m.sizeOf_messages_lt rest
  · decreasing_tactic

/-- The symbols of a service. -/
def Service.symbols (scope : String) (s : Service) : List Symbol :=
  let inner := qualified scope s.name.value
  ⟨inner, s.name.line, .service⟩ ::
    s.methods.map fun m => ⟨qualified inner m.name.value, m.name.line, .method⟩

/-- The symbols of a file. -/
def File.symbols (f : File) : List Symbol :=
  let scope := f.package.value
  messageSymbols scope f.messages ++ f.enums.flatMap (·.symbols scope) ++
    f.extensions.map (extensionSymbol scope) ++ f.services.flatMap (·.symbols scope)

/-- A file with its symbols, under the name it is imported by. -/
structure Linked where
  path : String
  file : File
  symbols : List Symbol
  deriving Inhabited

/-- The file under a name, with its symbols. -/
def Linked.ofFile (path : String) (file : File) : Linked := ⟨path, file, file.symbols⟩

/-- `name` is the package of a file or one that encloses it. -/
def isNamespace (name package : String) : Bool :=
  package != "" && (name == package || startsWith package (name ++ "."))

/-! ## Searching files -/

/-- A file to search, with the import of the first file through which it is seen. -/
structure Sight where
  via : Option String
  file : Linked
  deriving Inhabited

/-- The files at `paths` and all they re-export, each in front of its re-exports. They are seen
through the import `via` or, when that is none, through themselves. -/
def sightsOf (files : List Linked) (via : Option String) : Nat → List String → List Sight
  | 0, _ => []
  | _, [] => []
  | fuel + 1, path :: rest =>
    match files.find? (·.path == path) with
    | none => sightsOf files via fuel rest
    | some l =>
      let through := via.getD path
      let exported := (l.file.imports.filter (·.isPublic)).map (·.path)
      ⟨some through, l⟩ :: sightsOf files (some through) fuel exported ++
        sightsOf files via fuel rest

/-- The files a file sees, itself first. -/
def sights (files : List Linked) (self : Linked) : List Sight :=
  let bound := (self :: files).foldr (·.file.imports.length + 1 + ·) 1
  ⟨none, self⟩ :: sightsOf files none bound (self.file.imports.map (·.path))

/-- What a full name stands for. -/
inductive Found where
  | symbol (s : Symbol) (file : Linked)
  /-- A package, or a name that is not declared where it has to be. -/
  | namespaceOnly
  deriving Inhabited

/-- A search: collects the imports through which something was seen. -/
abbrev Search (α : Type) : Type := StateM (List String) α

/-- What `name` stands for in the first file of `seen` that knows it. -/
def query (seen : List Sight) (name : String) : Search (Option Found) :=
  let found := seen.findSome? fun s =>
    match s.file.symbols.find? (·.name == name) with
    | some symbol => some (Found.symbol symbol s.file, s.via)
    | none =>
      if isNamespace name s.file.file.package.value then some (.namespaceOnly, s.via) else none
  match found with
  | none => return none
  | some (found, via) => do
    via.forM fun path => modify (path :: ·)
    return some found

/-- Looks up `scope.first`, and `scope.full` if that can be inside it. Outside of all scopes only
the full name counts. -/
def queryRelative (seen : List Sight) (scope first full : String) : Search (Option Found) := do
  if scope == "" then query seen full
  else
    match ← query seen (qualified scope first) with
    | none => return none
    | some found =>
      if first == full then return some found
      let aggregate := match found with
        | .symbol s _ => s.what.isAggregate
        | .namespaceOnly => true
      if aggregate then return some ((← query seen (qualified scope full)).getD .namespaceOnly)
      return none

/-- A package and all that enclose it, innermost first, the empty one last. -/
def enclosing (package : String) : List String :=
  let rec go : List String → List String
    | [] => [""]
    | part :: outer => join "." (part :: outer).reverse :: go outer
  if package == "" then [""] else go (split '.' package).reverse

/-- The scopes of a declaration: the messages or services around it, innermost first, in a file. -/
structure Scope where
  seen : List Sight
  self : Linked
  nested : List String := []

/-- The first scope in which a name means something. -/
def firstFound (seen : List Sight) (first name : String) : List String → Search (Option Found)
  | [] => return none
  | scope :: rest => do
    match ← queryRelative seen scope first name with
    | some found => return some found
    | none => firstFound seen first name rest

/-- Looks from the innermost scope outwards for a meaning that `fits`; the first meaning of all is
kept for the case that there is none. -/
def firstFitting (fits : Found → Bool) (first? : Option Found) :
    List (Search (Option Found)) → Search (Option Found)
  | [] => return first?
  | search :: rest => do
    match ← search with
    | none => firstFitting fits first? rest
    | some found =>
      if fits found then return some found else firstFitting fits (first? <|> some found) rest

/-- What a name means in a scope. When only types count, a single name that is bound to something
else is looked for further out. -/
def Scope.resolve (s : Scope) (onlyTypes : Bool) (name : String) : Search (Option Found) :=
  if startsWith name "." then query s.seen (String.ofList (name.toList.drop 1))
  else
    let first := (cut '.' name).1
    let own : List Sight := s.seen.take 1
    let fits : Found → Bool
      | .symbol symbol _ => !onlyTypes || symbol.what.isType || first != name
      | .namespaceOnly => !onlyTypes || first != name
    firstFitting fits none
      (s.nested.map (fun scope => queryRelative own scope first name) ++
        [firstFound s.seen first name (enclosing s.self.file.package.value)])

end ProtoStub.Definition

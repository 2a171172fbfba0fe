import ProtoStub.Type

/-!
# Programs

A program owns every message and enum of a run in two flat lists. Nesting is expressed by the index
of the enclosing message, so that types can refer to each other without cycles of ownership.
-/

namespace ProtoStub

namespace Program

/-- A resolved field with its wire name. -/
structure Field where
  name : String
  jsonName : String := ""
  number : Int := 0
  repeated : Bool := false
  type : TypeRef
  deriving Repr, DecidableEq, Inhabited

/-- A named number of an enum. -/
structure EnumValue where
  name : String
  number : Int := 0
  deriving Repr, DecidableEq, Inhabited

/-- An enum, at the top of a file or nested in a message. -/
structure Enum where
  name : String
  fullName : String := ""
  file : Nat := 0
  parent : Option Nat := none
  values : List EnumValue := []
  deriving Repr, DecidableEq, Inhabited

/-- A message, at the top of a file or nested in a message, with the messages and enums nested
directly in it. -/
structure Message where
  name : String
  fullName : String := ""
  file : Nat := 0
  parent : Option Nat := none
  fields : List Field := []
  messages : List Nat := []
  enums : List Nat := []
  deriving Repr, DecidableEq, Inhabited

/-- A remote procedure. -/
structure Method where
  name : String
  input : TypeRef
  output : TypeRef
  clientStreaming : Bool := false
  serverStreaming : Bool := false
  deriving Repr, DecidableEq, Inhabited

/-- Neither side of the procedure is a stream. -/
def Method.isUnary (m : Method) : Bool := !m.clientStreaming && !m.serverStreaming

/-- A service with its procedures in order. -/
structure Service where
  name : String
  methods : List Method := []
  deriving Repr, DecidableEq, Inhabited

/-- The procedures that clients can call. -/
def Service.unaryMethods (s : Service) : List Method := s.methods.filter (·.isUnary)

/-- A file of the program with what stands at its top. `relDir` is its directory below the root of
the run, and `isInput` tells requested files from those only reached by imports. -/
structure File where
  path : String
  name : String := ""
  baseName : String := ""
  relDir : String := ""
  package : String := ""
  namespaceName : String := ""
  isInput : Bool := false
  imports : List Nat := []
  messages : List Nat := []
  enums : List Nat := []
  services : List Service := []
  deriving Repr, DecidableEq, Inhabited

/-- The file declares nothing. -/
def File.isEmpty (f : File) : Bool := f.messages.isEmpty && f.enums.isEmpty && f.services.isEmpty

end Program

/-- All files, messages and enums of a run. -/
structure Program where
  files : List Program.File := []
  messages : List Program.Message := []
  enums : List Program.Enum := []
  deriving Repr, DecidableEq, Inhabited

namespace Program

/-- The file at an index. -/
def file (p : Program) (i : Nat) : File := p.files.getD i { path := "" }

/-- The message at an index. -/
def message (p : Program) (i : Nat) : Message := p.messages.getD i { name := "" }

/-- The enum at an index. -/
def enum (p : Program) (i : Nat) : Enum := p.enums.getD i { name := "" }

/-- The message `i` and the messages around it, innermost first, at most `steps` of them. -/
def chainWithin (p : Program) : (steps : Nat) → Option Nat → List Nat
  | steps + 1, some i => i :: p.chainWithin steps (p.message i).parent
  | _, _ => []

/-- A message and the messages around it, innermost first. No chain is longer than the list of
messages. -/
def chain (p : Program) (i : Option Nat) : List Nat := p.chainWithin p.messages.length i

/-- The names of messages joined by dots, where the innermost comes first. -/
def pathOf (p : Program) (chain : List Nat) : String :=
  ".".intercalate (chain.reverse.map fun i => (p.message i).name)

/-- The dotted name of a message below its file's namespace. -/
def messagePath (p : Program) (i : Nat) : String := p.pathOf (p.chain (some i))

/-- The dotted name of an enum below its file's namespace. -/
def enumPath (p : Program) (i : Nat) : String :=
  let e := p.enum i
  match e.parent with
  | none => e.name
  | some parent => p.messagePath parent ++ "." ++ e.name

end Program

end ProtoStub

import ProtoStub.Program.SymbolTable
import ProtoStub.Program.Visibility
import ProtoStub.Error

/-!
# Declarations

The first pass over a set of files numbers every message and enum and enters its full name into the
symbol table. Messages are numbered from the outside in, in declaration order; the enums of a
message are numbered after those of the messages nested in it. A full name can be declared once.
When a message or enum has been declared with everything in it, it is listed where it stands: in its
file, or in the message around it.
-/

namespace ProtoStub.Program

open Schema (FileSet)

/-- `name` inside `scope`. -/
def joinScope (scope name : String) : String := if scope == "" then name else scope ++ "." ++ name

/-- A numbered message with the declaration it comes from. -/
structure DeclaredMessage where
  fullName : String
  file : Nat
  parent : Option Nat
  raw : Schema.Message
  deriving Repr, Inhabited

/-- A numbered enum with the declaration it comes from. -/
structure DeclaredEnum where
  fullName : String
  file : Nat
  parent : Option Nat
  raw : Schema.Enum
  deriving Repr, Inhabited

/-- Where a declaration stands: at the top of a file or in a message. -/
inductive Place where
  | top (file : Nat)
  | inside (message : Nat)
  deriving Repr, DecidableEq, Inhabited

/-- The place of what stands in a file, in the message `parent` if there is one. -/
def Place.of (file : Nat) (parent : Option Nat) : Place :=
  match parent with
  | none => .top file
  | some message => .inside message

/-- The numbers of the messages and enums listed in one place. -/
structure Members where
  messages : List Nat := []
  enums : List Nat := []
  deriving Repr, DecidableEq, Inhabited

/-- Lists one more message. -/
def Members.addMessage (i : Nat) (ms : Members) : Members :=
  { ms with messages := ms.messages ++ [i] }

/-- Lists one more enum. -/
def Members.addEnum (i : Nat) (ms : Members) : Members := { ms with enums := ms.enums ++ [i] }

/-- What has been declared so far; the number of a message or enum is its position. -/
structure Declarations where
  messages : List DeclaredMessage := []
  enums : List DeclaredEnum := []
  symbols : SymbolTable := []
  /-- What is listed in each message. -/
  nested : List Members := []
  /-- What is listed at the top of each file. -/
  tops : List Members := []
  deriving Repr, Inhabited

/-- Before anything is declared. -/
def Declarations.start (s : FileSet) : Declarations := { tops := s.files.map fun _ => {} }

/-- What is listed in a place. -/
def Declarations.membersAt (d : Declarations) : Place → Members
  | .top file => d.tops.getD file {}
  | .inside message => d.nested.getD message {}

/-- Changes what is listed in a place. -/
def Declarations.modifyAt (d : Declarations) (place : Place) (change : Members → Members) :
    Declarations :=
  match place with
  | .top file => { d with tops := d.tops.modify file change }
  | .inside message => { d with nested := d.nested.modify message change }

/-- One more message, with nothing listed in it and not listed itself. -/
def Declarations.appendMessage (d : Declarations) (m : DeclaredMessage) (symbols : SymbolTable) :
    Declarations :=
  { d with messages := d.messages ++ [m], symbols, nested := d.nested ++ [{}] }

/-- One more enum, not listed. -/
def Declarations.appendEnum (d : Declarations) (e : DeclaredEnum) (symbols : SymbolTable) :
    Declarations :=
  { d with enums := d.enums ++ [e], symbols }

/-- The path of the file with number `i`. -/
def filePath (s : FileSet) (i : Nat) : String := (s.files[i]?.map (·.path)).getD ""

/-- Enters a name that is not taken yet. -/
def Declarations.enter (s : FileSet) (d : Declarations) (e : Entry) (line : Int) :
    Except Error SymbolTable :=
  match d.symbols.find e.fullName with
  | some earlier =>
    .error (.parse ⟨filePath s e.file, line, .alreadyDefined e.fullName (filePath s earlier.file)⟩)
  | none => .ok (d.symbols.insert e)

/-- Declares an enum and gives its number. -/
def declareEnum (s : FileSet) (file : Nat) (parent : Option Nat) (scope : String)
    (d : Declarations) (e : Schema.Enum) : Except Error (Nat × Declarations) :=
  let fullName := joinScope scope e.name
  let index := d.enums.length
  match d.enter s ⟨fullName, .enum index, file⟩ e.line with
  | .error err => .error err
  | .ok symbols => .ok (index, d.appendEnum ⟨fullName, file, parent, e⟩ symbols)

/-- Declares enums in order and lists each in its place. -/
def declareEnums (s : FileSet) (file : Nat) (parent : Option Nat) (scope : String)
    (d : Declarations) : List Schema.Enum → Except Error Declarations
  | [] => .ok d
  | e :: rest =>
    match declareEnum s file parent scope d e with
    | .error err => .error err
    | .ok (index, d) =>
      declareEnums s file parent scope (d.modifyAt (.of file parent) (.addEnum index)) rest

mutual

/-- Declares a message and everything nested in it, and gives the number of the message. -/
def declareMessage (s : FileSet) (file : Nat) (parent : Option Nat) (scope : String)
    (d : Declarations) : Schema.Message → Except Error (Nat × Declarations)
  | ⟨name, line, fields, messages, enums⟩ =>
    let fullName := joinScope scope name
    let index := d.messages.length
    match d.enter s ⟨fullName, .message index, file⟩ line with
    | .error err => .error err
    | .ok symbols =>
      let own : DeclaredMessage := ⟨fullName, file, parent, ⟨name, line, fields, messages, enums⟩⟩
      match declareMessages s file (some index) fullName (d.appendMessage own symbols) messages with
      | .error err => .error err
      | .ok d =>
        match declareEnums s file (some index) fullName d enums with
        | .error err => .error err
        | .ok d => .ok (index, d)

/-- Declares messages in order and lists each in its place. -/
def declareMessages (s : FileSet) (file : Nat) (parent : Option Nat) (scope : String)
    (d : Declarations) : List Schema.Message → Except Error Declarations
  | [] => .ok d
  | m :: rest =>
    match declareMessage s file parent scope d m with
    | .error err => .error err
    | .ok (index, d) =>
      declareMessages s file parent scope (d.modifyAt (.of file parent) (.addMessage index)) rest

end

/-- Declares everything in a file. -/
def declareFile (s : FileSet) (d : Declarations) (file : Nat × Schema.File) :
    Except Error Declarations :=
  match declareMessages s file.1 none file.2.package d file.2.messages with
  | .error err => .error err
  | .ok d => declareEnums s file.1 none file.2.package d file.2.enums

/-- The files of a set with their numbers. -/
def numberedFiles (s : FileSet) : List (Nat × Schema.File) :=
  (List.range s.files.length).zip s.files

/-- Declares everything in a set of files. -/
def declareAll (s : FileSet) : Except Error Declarations :=
  (numberedFiles s).foldlM (declareFile s) (.start s)

end ProtoStub.Program

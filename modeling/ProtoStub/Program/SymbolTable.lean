/-!
# Symbol tables

The messages and enums of a run by full name, in ascending order of the names. `seek` finds the
first name that is not below a given one, which decides whether any name starts with a given text.
-/

namespace ProtoStub.Program

/-- What a full name stands for. -/
inductive Symbol where
  | message (index : Nat)
  | enum (index : Nat)
  deriving Repr, DecidableEq, Inhabited

/-- The position of the message or enum among the messages or enums. -/
def Symbol.number : Symbol → Nat
  | .message i => i
  | .enum i => i

/-- A declared name: what it stands for and the file that declares it. -/
structure Entry where
  fullName : String
  symbol : Symbol
  file : Nat
  deriving Repr, DecidableEq, Inhabited

/-- Entries in ascending order of their names. -/
abbrev SymbolTable := List Entry

namespace SymbolTable

/-- The entry of a name. -/
def find (t : SymbolTable) (fullName : String) : Option Entry :=
  List.find? (·.fullName == fullName) t

/-- The table with one more entry, whose name is new. -/
def insert (e : Entry) : SymbolTable → SymbolTable
  | [] => [e]
  | f :: rest => if e.fullName < f.fullName then e :: f :: rest else f :: insert e rest

/-- The first entry whose name is not below `name`. -/
def seek (t : SymbolTable) (name : String) : Option Entry :=
  List.find? (fun e => !(e.fullName < name)) t

end SymbolTable

end ProtoStub.Program

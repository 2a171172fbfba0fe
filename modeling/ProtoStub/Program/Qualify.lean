import ProtoStub.Program
import ProtoStub.Text.Split

/-!
# Names of types in the output

`qualify` gives the name of a message or enum as code of another file, or of the class of another
message, has to write it. Inside one namespace the dotted path is enough, unless its first segment
would be captured by a type that is closer to the place of the reference; then, and from another
namespace, the full name behind the global root is needed.
-/

namespace ProtoStub

open Text

/-- A type name, and whether it has to be looked up from the global root. -/
structure QualifiedName where
  name : String
  isGlobal : Bool
  deriving Repr, DecidableEq, Inhabited

namespace Program

/-- What a reference is about: the dotted path, the file and, for a type with a message at its top,
that message. -/
structure Target where
  path : String
  file : Nat
  /-- The outermost message of the path; nothing for an enum at the top of a file. -/
  top : Option Nat
  deriving Repr, DecidableEq, Inhabited

/-- The target of a reference to a message or an enum. -/
def target? (p : Program) : TypeRef → Option Target
  | .message i => some ⟨p.messagePath i, (p.message i).file, (p.chain (some i)).getLast?⟩
  | .enum i =>
    let e := p.enum i
    some ⟨p.enumPath i, e.file, (p.chain e.parent).getLast?⟩
  | _ => none

/-- Some message or enum nested directly in `m` has the name. -/
def Message.declares (p : Program) (m : Message) (name : String) : Bool :=
  (m.messages.any fun n => (p.message n).name == name) ||
    (m.enums.any fun n => (p.enum n).name == name)

/-- The name, looked up from inside the message `from_`, is captured by something other than the
top-level type `top`. -/
def shadowed (p : Program) (name : String) (top : Option Nat) (from_ : Nat) : Bool :=
  (p.chain (some from_)).any fun c =>
    let m := p.message c
    (m.name == name && top != some c) || Message.declares p m name

/-- The name of a reference as written in the file `fromFile`, inside the class of `fromMessage` if
given. References to other kinds of types have no name. -/
def qualify (p : Program) (ref : TypeRef) (fromFile : Nat) (fromMessage : Option Nat) :
    QualifiedName :=
  match p.target? ref with
  | none => ⟨"", false⟩
  | some t =>
    let space := (p.file t.file).namespaceName
    let full : QualifiedName := ⟨space ++ "." ++ t.path, true⟩
    if space != (p.file fromFile).namespaceName then full
    else if fromMessage.any (p.shadowed (cut '.' t.path).1 t.top) then full
    else ⟨t.path, false⟩

end Program

end ProtoStub

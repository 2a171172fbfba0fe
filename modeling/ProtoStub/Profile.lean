import ProtoStub.Text.Quoted

/-!
# Client profiles

A profile selects the shape of generated clients: asynchronous calls on an injected client, or
blocking calls. Settings carry a profile by name, and a name may be wrong.
-/

namespace ProtoStub

open Text

/-- The shape of generated clients. -/
inductive Profile where
  | async
  | sync
  deriving Repr, DecidableEq, Inhabited

namespace Profile

/-- The name of a profile. -/
def name : Profile → String
  | .async => "async"
  | .sync => "sync"

/-- The profile with the given name. -/
def ofName? (s : String) : Option Profile :=
  if s == "async" then some .async else if s == "sync" then some .sync else none

/-- The complaint about a name that is no profile's. -/
def unknown (s : String) : String :=
  "unknown profile " ++ quoteText s ++ " (want async or sync)"

/-- A profile name taken over from outside; a wrong one is refused. -/
def readName (s : String) : Except String String :=
  match ofName? s with
  | some p => .ok p.name
  | none => .error (unknown s)

end Profile

end ProtoStub

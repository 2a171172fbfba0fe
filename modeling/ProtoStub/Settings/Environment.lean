import ProtoStub.Settings.Flag

/-!
# Settings from the environment

Every setting has a variable. One that is not set or empty changes nothing; all that cannot be read
are reported together.
-/

namespace ProtoStub

open Text

/-- The variables of a process with their values. -/
abbrev Environment : Type := List (String × String)

namespace Environment

/-- What the names of all variables start with. -/
def family : String := "PROTOHTTP_"

/-- The variable of a setting. -/
def variableOf (k : Key) : String := family ++ String.ofList (k.name.toList.map Char.toUpper)

/-- The value of a variable; empty when it is not set. -/
def value (e : Environment) (name : String) : String := (e.lookup name).getD ""

/-- A value that cannot be read: the field of the setting, its type and the cause. -/
structure Fault where
  field : String
  type : String
  cause : String
  deriving Repr, DecidableEq, Inhabited

/-- The wording of a fault. -/
def Fault.message (f : Fault) : String :=
  "parse error on field " ++ quoteText f.field ++ " of type " ++ quoteText f.type ++ ": " ++ f.cause

/-- The wording of an integer that cannot be read. -/
def intCause (text : String) : IntFault → String
  | .malformed => "strconv.ParseInt: parsing " ++ quoteText text ++ ": invalid syntax"
  | .outOfRange => "strconv.ParseInt: parsing " ++ quoteText text ++ ": value out of range"

/-- The settings with the value of one variable. Lists are written with commas. -/
def assign (s : Settings) (k : Key) (text : String) : Except Fault Settings :=
  match k with
  | .proto => .ok { s with proto := text }
  | .out => .ok { s with out := text }
  | .namespaceName => .ok { s with namespaceName := text }
  | .profile =>
    match Profile.readName text with
    | .ok profile => .ok { s with profile }
    | .error cause => .error ⟨"Profile", "generate.Profile", cause⟩
  | .roots => .ok { s with roots := split ',' text }
  | .parser => .ok { s with parser := text }
  | .compiler => .ok { s with compiler := text }
  | .timeout =>
    match Duration.parse text with
    | .ok timeout => .ok { s with timeout }
    | .error fault =>
      .error ⟨"Timeout", "time.Duration", "unable to parse duration: " ++ fault.message⟩
  | .jobs =>
    match readInt text 32 with
    | .ok jobs => .ok { s with jobs }
    | .error fault => .error ⟨"Jobs", "int", intCause text fault⟩
  | .jsonSchema =>
    match truth? text with
    | some jsonSchema => .ok { s with jsonSchema }
    | none =>
      .error ⟨"JSONSchema", "bool", "strconv.ParseBool: parsing " ++ quoteText text ++
        ": invalid syntax"⟩
  | .excludes => .ok { s with excludes := split ',' text }
  | .logLevel => .ok { s with logLevel := text }
  | .logFormat => .ok { s with logFormat := text }

/-- Goes through settings and collects the faults. -/
def collect (e : Environment) (s : Settings) (faults : List Fault) :
    List Key → Settings × List Fault
  | [] => (s, faults)
  | k :: rest =>
    let text := e.value (variableOf k)
    if text == "" then collect e s faults rest
    else match assign s k text with
      | .ok s => collect e s faults rest
      | .error fault => collect e s (faults ++ [fault]) rest

/-- The settings with all that the environment sets. -/
def applyTo (e : Environment) (s : Settings) : Except String Settings :=
  match collect e s [] Key.all with
  | (s, []) => .ok s
  | (_, faults) =>
    .error ("read environment: env: " ++ join "; " (faults.map Fault.message))

end Environment

end ProtoStub

import ProtoStub.VisualBasic.Word
import ProtoStub.VisualBasic.Type
import ProtoStub.Error
import ProtoStub.Name

/-!
# Classes

Messages become classes and enums become enums, nested as they are declared, one line list each. A
field is a property with its wire name in an attribute. Property names are in Pascal case; one that
would clash with its class or a type nested in it gets a suffix, and two fields that come to the
same property, ignoring case, are refused.
-/

namespace ProtoStub.VisualBasic

open Text

/-- One step of indentation. -/
def indent : String := "    "

/-- Lines, and whether their types need the JSON object model. -/
structure Code where
  lines : List String
  linq : Bool := false
  deriving Repr, DecidableEq, Inhabited

/-- The type of a reference as written in the file `file`, inside the class of `fromMessage` if
given. -/
def typeName (p : Program) (file : Nat) (fromMessage : Option Nat) (ref : TypeRef) :
    Except Error TypeText :=
  let fileName := (p.file file).name
  match ref with
  | .scalar s => .ok { text := scalarType s }
  | .wellKnown name =>
    match wellKnownType? name with
    | some t => .ok t
    | none => .error (.emit fileName (noMapping name))
  | ref =>
    let q := p.qualify ref file fromMessage
    if isScalarCode ref.code then .ok { text := "" }
    else if q.name == "" then
      .error (.emit fileName ("unresolved type reference of kind " ++ toString ref.code))
    else .ok { text := rooted q }

/-- The lines of an enum, with `margin` in front. -/
def enumLines (e : Program.Enum) (margin : String) : List String :=
  (margin ++ "Public Enum " ++ escape e.name) ::
    (e.values.map fun v => margin ++ indent ++ escape v.name ++ " = " ++ toString v.number) ++
    [margin ++ "End Enum"]

/-- The names, folded, that no property of the class of `m` may have. -/
def takenNames (p : Program) (m : Program.Message) : List String :=
  foldCase m.name :: (m.messages.map fun n => foldCase (p.message n).name) ++
    m.enums.map fun n => foldCase (p.enum n).name

/-- The property name of a field, where `taken` may not be used. -/
def propertyName (taken : List String) (field : String) : String :=
  let name := pascalCase field
  if taken.contains (foldCase name) then name ++ "Value" else name

/-- The properties of the class of message `index`; `seen` holds the folded property names so far
with their fields. A blank line stands between neighbours. -/
def propertyLines (p : Program) (file index : Nat) (margin : String)
    (seen : List (String × String)) : List Program.Field → Except Error Code
  | [] => .ok { lines := [] }
  | f :: rest =>
    let m := p.message index
    let name := propertyName (takenNames p m) f.name
    match seen.lookup (foldCase name) with
    | some earlier =>
      .error (.unsupported (p.file file).name 0 (.propertyClash earlier f.name m.fullName name))
    | none =>
      match typeName p file (some index) f.type with
      | .error e => .error e
      | .ok type =>
        match propertyLines p file index margin ((foldCase name, f.name) :: seen) rest with
        | .error e => .error e
        | .ok more =>
          let text := if f.repeated then "List(Of " ++ type.text ++ ")" else type.text
          .ok { lines :=
                  (if seen.isEmpty then [] else [""]) ++
                  [margin ++ "<JsonProperty(\"" ++ f.jsonName ++ "\")>",
                    margin ++ "Public Property " ++ escape name ++ " As " ++ text] ++ more.lines
                linq := type.linq || more.linq }

/-- Blocks of lines after what is already there, with a blank line before each but the first in an
empty class. -/
def separated (started : Bool) : List (List String) → List String
  | [] => []
  | block :: rest => (if started then [""] else []) ++ block ++ separated true rest

mutual

/-- The class of a message, with `margin` in front, down to `depth` levels of nesting. -/
def classWithin (p : Program) (file : Nat) (depth : Nat) (margin : String) (index : Nat) :
    Except Error Code :=
  match depth with
  | 0 => .error (.emit (p.file file).name "messages nested without end")
  | depth + 1 =>
    let m := p.message index
    let inner := margin ++ indent
    match propertyLines p file index inner [] m.fields with
    | .error e => .error e
    | .ok properties =>
      match classesWithin p file depth inner m.messages with
      | .error e => .error e
      | .ok nested =>
        let enums := m.enums.map fun n => enumLines (p.enum n) inner
        .ok { lines :=
                (margin ++ "Public Class " ++ escape m.name) :: properties.lines ++
                separated (!m.fields.isEmpty) (enums ++ nested.map (·.lines)) ++
                [margin ++ "End Class"]
              linq := properties.linq || nested.any (·.linq) }
termination_by (depth, 0)

/-- The classes of messages, in order. -/
def classesWithin (p : Program) (file : Nat) (depth : Nat) (margin : String) (indices : List Nat) :
    Except Error (List Code) :=
  match indices with
  | [] => .ok []
  | i :: rest =>
    match classWithin p file depth margin i with
    | .error e => .error e
    | .ok c =>
      match classesWithin p file depth margin rest with
      | .error e => .error e
      | .ok cs => .ok (c :: cs)
termination_by (depth, indices.length + 1)

end

/-- The class of a message of the file `file`. No nesting is deeper than the list of messages is
long. -/
def classOf (p : Program) (file : Nat) (margin : String) (index : Nat) : Except Error Code :=
  classWithin p file p.messages.length margin index

end ProtoStub.VisualBasic

import ProtoStub.Definition.Options

/-!
# Declared extensions

An extension range can declare the extensions it is kept for: by number, full name, type, and
whether they are repeated; or it can keep a number free. `checkDeclarations` checks the declarations
of a message, and `checkDeclared` that an extension is as its range declares it.
-/

namespace ProtoStub.Definition

open Text

/-- A part of a declaration with the line of its name. -/
structure Declaration where
  /-- The line of the declaration itself. -/
  line : Nat
  number : Option (At Int) := none
  fullName : Option (At String) := none
  type : Option (At String) := none
  isReserved : Bool := false
  isRepeated : Bool := false
  deriving Repr, Inhabited

namespace Declaration

/-- The field `name` of a literal, with the line of its name. -/
def part? (fields : List (Assignment Value)) (name : String) : Option (At Value) :=
  (fields.find? (·.name == .field name)).map fun a => ⟨a.value.value, a.line⟩

/-- The field `name` of a literal as text. -/
def text? (fields : List (Assignment Value)) (name : String) : Option (At String) :=
  (part? fields name).bind fun v =>
    match v.value with
    | .text bytes => some ⟨textOf bytes, v.line⟩
    | _ => none

/-- The field `name` of a literal is true. -/
def flag (fields : List (Assignment Value)) (name : String) : Bool :=
  match part? fields name with
  | some ⟨.word w, _⟩ => (truthWords true true).contains w
  | _ => false

/-- The declaration that an option of an extension range makes. -/
def ofSetting? (s : Setting) : Option Declaration :=
  match s.isNamed "declaration", s.value with
  | true, .literal fields =>
    some { line := s.start
           number := (part? fields "number").bind fun v => v.value.integer?.map (⟨·, v.line⟩)
           fullName := text? fields "full_name", type := text? fields "type"
           isReserved := flag fields "reserved", isRepeated := flag fields "repeated" }
  | _, _ => none

end Declaration

/-- The declarations of an extension range. -/
def Range.declarations (r : Range) : List Declaration := r.settings.filterMap Declaration.ofSetting?

/-- How an extension range is verified, as a word with the line of the option. -/
def Range.verification? (r : Range) : Option (At String) :=
  (r.settings.find? (·.isNamed "verification")).bind fun s =>
    match s.value with
    | .word w => some ⟨w, s.line⟩
    | _ => none

/-- The text is a full name. -/
def isFullName (s : String) : Bool := (split '.' s).all isName

/-- A text without the dot in front of it; nothing when there is none. -/
def afterDot? (s : String) : Option String :=
  match s.toList with
  | '.' :: cs => some (String.ofList cs)
  | _ => none

/-- The full names declared so far, with what they extend and their numbers. -/
abbrev Promises : Type := List (String × String × Int)

/-- The full name of a declaration: it starts with a dot and is declared once. -/
def checkFullName (promises : Promises) (owner : String) (number : Int) (name : At String) :
    Except Nat Promises :=
  match afterDot? name.value with
  | none => throw name.line
  | some full =>
    if !isFullName full then throw name.line
    else match promises.lookup full with
      | none => return (full, owner, number) :: promises
      | some old => if old == (owner, number) then return promises else throw name.line

/-- The type of a declaration is a scalar, or a full name that starts with a dot. -/
def checkTypeName (type : At String) : Check :=
  match afterDot? type.value with
  | some full => refuse (!isFullName full) type.line
  | none => refuse (Scalar.ofWord? type.value).isNone type.line

/-- The rules of one declaration in a range of the message `owner`; `used` holds the numbers that
are declared already. -/
def checkDeclaration (owner : String) (r : Range) (used : List Int) (promises : Promises)
    (d : Declaration) : Except Nat Promises := do
  match d.number with
  | none => throw d.line
  | some n =>
    refuse (!inRanges [r] n.value || used.contains n.value) n.line
    if d.isReserved then
      if let some name := d.fullName then throw name.line
      if let some type := d.type then throw type.line
      return promises
    match d.fullName with
    | none => throw d.line
    | some name =>
      let promises ← checkFullName promises owner n.value name
      match d.type with
      | none => throw d.line
      | some type =>
        checkTypeName type
        return promises

/-- The rules of the declarations of a range, one after another. -/
def checkInOrder (owner : String) (r : Range) :
    List Int → Promises → List Declaration → Except Nat Promises
  | _, promises, [] => return promises
  | used, promises, d :: rest => do
    let promises ← checkDeclaration owner r used promises d
    checkInOrder owner r ((d.number.map (·.value)).toList ++ used) promises rest

/-- The rules of all declarations of the message `owner`. Declarations are there to be verified. -/
def checkDeclarations (owner : String) (promises : Promises) (ranges : List Range) :
    Except Nat Promises :=
  ranges.foldlM (fun promises r => do
    if r.declarations.isEmpty then return promises
    match r.verification? with
    | some ⟨"UNVERIFIED", line⟩ => throw line
    | _ => checkInOrder owner r [] promises r.declarations) promises

/-- The extension `full` is as the range of its number declares it. -/
def checkDeclared (ranges : List Range) (full : String) (f : Field) : Check :=
  match ranges.find? fun r => inRanges [r] f.number.value with
  | none => return
  | some r =>
    if r.declarations.isEmpty && r.verification?.map (·.value) != some "DECLARATION" then return
    else match r.declarations.find? fun d => d.number.map (·.value) == some f.number.value with
      | none => throw f.number.line
      | some d => do
        refuse d.isReserved f.number.line
        refuse (d.fullName.map (·.value) != some ("." ++ full)) f.name.line
        refuse (d.type.map (·.value) != some f.type.value) f.type.line
        refuse (d.isRepeated != f.isRepeated) ((f.label.map (·.line)).getD f.line)

end ProtoStub.Definition

import ProtoStub.Settings.Flag
import ProtoStub.Yaml.Meaning
import ProtoStub.Workspace

/-!
# Settings files

A settings file is a YAML mapping from the names of settings to their values. Values that do not fit
and names that are unknown are collected, and reported together; a wrong profile and a text that is
no document stop at once.
-/

namespace ProtoStub.SettingsFile

open Text Yaml

/-- The type of a setting, as complaints call it. -/
def typeName : Key → String
  | .profile => "generate.Profile"
  | .roots | .excludes => "[]string"
  | .timeout => "time.Duration"
  | .jobs => "int"
  | .jsonSchema => "bool"
  | _ => "string"

/-- The type of all settings together. -/
def wholeName : String := "config.Config"

/-- The settings so far, and the complaints. -/
structure State where
  settings : Settings
  complaints : List String := []

/-- A step of reading settings; it stops with a complaint of its own. -/
abbrev Decode (α : Type) : Type := StateT State (Except String) α

/-- Adds a complaint about a line. -/
def complain (line : Nat) (text : String) : Decode Unit :=
  modify fun s =>
    { s with complaints := s.complaints ++ ["line " ++ toString line ++ ": " ++ text] }

/-- A value as complaints show it: at most ten bytes. -/
def excerpt (s : String) : String :=
  let bytes := bytesOf s
  if bytes.length > 10 then textOf (bytes.take 7) ++ "..." else s

/-- The complaint about a value that does not fit the type `type`. -/
def mismatch (n : Node) (type : String) : Decode Unit :=
  match n with
  | .scalar line tag text isPlain =>
    complain line ("cannot unmarshal " ++ scalarTag tag text isPlain ++ " \x60" ++ excerpt text ++
      "\x60 into " ++ type)
  | .sequence line tag _ => collection line (if tag == "" then "!!seq" else shortTag tag)
  | .mapping line tag _ => collection line (if tag == "" then "!!map" else shortTag tag)
  | .alias_ _ _ _ => pure ()
where
  /-- The complaint about a collection; one with a tag of its own is shown like an empty scalar. -/
  collection (line : Nat) (tag : String) : Decode Unit :=
    let shown := if tag == "!!seq" || tag == "!!map" || tag == "!" then "" else " \x60\x60"
    complain line ("cannot unmarshal " ++ tag ++ shown ++ " into " ++ type)

/-- The node that an alias stands for. -/
def target (n : Node) : Decode Node :=
  match n with
  | .alias_ _ name none => throw ("yaml: anchor '" ++ name ++ "' value contains itself")
  | .alias_ _ _ (some t) => return t
  | n => return n

/-- What a scalar means. -/
def meaningOf (tag text : String) (isPlain : Bool) : Decode Meaning :=
  match meaning tag text isPlain with
  | .ok m => return m
  | .error fault => throw fault.message

/-- The text that a scalar gives to a setting: the one it means, or else the one it is written
with. -/
def textGiven (written : String) : Meaning → String
  | .text t => t
  | _ => written

/-- A whole number that 64 bits hold, cut from a floating-point number. -/
def cutFloat? (x : Float) : Option Int :=
  let limit : Float := 9223372036854775808.0
  if x <= limit then
    if x >= limit || x <= -limit then some (-0x8000000000000000) else some x.toInt64.toInt
  else none

/-- The setting `k` with the value of a scalar; nothing when it does not fit. -/
def assignScalar (s : Settings) (k : Key) (text : String) (m : Meaning) :
    Except String (Option Settings) :=
  match k, m with
  | .profile, _ => (Profile.readName text).map fun profile => some { s with profile }
  | .roots, _ | .excludes, _ => .ok none
  | .timeout, .text t =>
    .ok ((Duration.parse t).toOption.map fun timeout => { s with timeout })
  | .timeout, _ => .ok none
  | .jobs, .int n =>
    .ok (if -0x8000000000000000 ≤ n && n < 0x8000000000000000 then some { s with jobs := n }
      else none)
  | .jobs, .float x => .ok ((cutFloat? x).map fun jobs => { s with jobs })
  | .jobs, _ => .ok none
  | .jsonSchema, .truth jsonSchema => .ok (some { s with jsonSchema })
  | .jsonSchema, .text t =>
    .ok (if ["y", "Y", "yes", "on"].contains t then some { s with jsonSchema := true }
      else if ["n", "N", "no", "off"].contains t then some { s with jsonSchema := false } else none)
  | .jsonSchema, _ => .ok none
  | k, _ => (Flags.assignSetting s k text).map some

/-- The setting `k` with a list of texts. -/
def assignList (s : Settings) (k : Key) (items : List String) : Settings :=
  match k with
  | .roots => { s with roots := items }
  | .excludes => { s with excludes := items }
  | _ => s

/-- The setting is a list. -/
def isList (k : Key) : Bool := k == .roots || k == .excludes

/-- The text of a scalar; nothing for a null, and a complaint for anything else. -/
def textOfNode (n : Node) : Decode (Option String) := do
  match ← target n with
  | .scalar _ tag text isPlain =>
    match ← meaningOf tag text isPlain with
    | .null => return none
    | m => return some (textGiven text m)
  | n =>
    mismatch n "string"
    return none

/-- The key of a node, by which two nodes are the same key. -/
def keyOf : Node → Nat × String
  | .scalar _ _ text _ => (0, text)
  | .sequence _ _ _ => (1, "")
  | .mapping _ _ _ => (2, "")
  | .alias_ _ name _ => (3, name)

/-- The line of a node. -/
def lineOf : Node → Nat
  | .scalar line _ _ _ | .sequence line _ _ | .mapping line _ _ | .alias_ line _ _ => line

/-- Complains about every key that stands for a second time. Tells whether there was none. -/
def checkKeys : List (Node × Node) → Decode Bool
  | [] => return true
  | (k, _) :: rest => do
    let again := rest.filter fun (other, _) => keyOf other == keyOf k
    for (other, _) in again do
      complain (lineOf other) ("mapping key " ++ quoteText (keyOf other).2 ++
        " already defined at line " ++ toString (lineOf k))
    return (← checkKeys rest) && again.isEmpty

/-- The value of one setting. -/
def decodeValue (k : Key) (n : Node) : Decode Unit := do
  let n ← target n
  match n with
  | .scalar _ tag text isPlain =>
    match ← meaningOf tag text isPlain with
    | .null =>
      if isList k then modify fun s => { s with settings := assignList s.settings k [] }
    | m =>
      match assignScalar (← get).settings k (textGiven text m) m with
      | .error stop => throw stop
      | .ok (some settings) => modify fun s => { s with settings }
      | .ok none => mismatch n (typeName k)
  | .sequence _ _ items =>
    if isList k then
      let texts ← items.mapM textOfNode
      modify fun s => { s with settings := assignList s.settings k (texts.filterMap id) }
    else mismatch n (typeName k)
  | .mapping _ _ entries => if ← checkKeys entries then mismatch n (typeName k)
  | .alias_ _ _ _ => pure ()

/-- The key asks for the settings of other mappings. -/
def isMerge : Node → Bool
  | .scalar _ tag text isPlain =>
    text == "<<" && (tag == "!" || (tag == "" && isPlain) || shortTag tag == "!!merge")
  | _ => false

/-- The complaint about something that cannot be merged. -/
def mergeFault : String := "yaml: map merge requires map or sequence of maps as the value"

/-- The entries of a mapping. `taken` holds the names that a mapping around has set, which are
passed over; the names that were set are given back. -/
def decodeEntries (isMerged : Bool) : (taken done : List String) → List (Node × Node) →
    Decode (List String)
  | taken, _, [] => return taken
  | taken, done, (key, value) :: rest => do
    if isMerge key then decodeEntries isMerged taken done rest
    else
      match ← textOfNode key with
      | none => decodeEntries isMerged taken done rest
      | some name =>
        if isMerged && taken.contains name then decodeEntries isMerged taken done rest
        else
          let taken := name :: taken
          match Key.ofName? name with
          | none =>
            complain (lineOf key) ("field " ++ name ++ " not found in type " ++ wholeName)
            decodeEntries isMerged taken done rest
          | some k =>
            if done.contains name then
              complain (lineOf key) ("field " ++ name ++ " already set in type " ++ wholeName)
            else decodeValue k value
            decodeEntries isMerged taken (name :: done) rest

/-- A mapping of settings, and the mappings that are merged into it. -/
def decodeMapping (isMerged : Bool) :
    (fuel : Nat) → (taken : List String) → Node → Decode (List String)
  | 0, taken, _ => return taken
  | fuel + 1, taken, n => do
    match ← target n with
    | .mapping _ _ entries =>
      if !(← checkKeys entries) then return taken
      let taken ← decodeEntries isMerged taken [] entries
      match (entries.filter (isMerge ·.1)).getLast? with
      | none => return taken
      | some (_, merged) => mergeFrom fuel taken merged
    | _ => throw mergeFault
where
  /-- The settings of a mapping, or of a sequence of mappings, that are not set yet. -/
  mergeFrom (fuel : Nat) (taken : List String) (merged : Node) : Decode (List String) :=
    match merged with
    | .sequence _ _ items => items.foldlM (fun taken n => decodeMapping true fuel taken n) taken
    | n => decodeMapping true fuel taken n

/-- A document of settings. -/
def decode (n : Node) : Decode Unit := do
  match n with
  | .mapping _ _ _ => discard (decodeMapping false 100 [] n)
  | .scalar _ tag text isPlain =>
    match ← meaningOf tag text isPlain with
    | .null => pure ()
    | _ => mismatch n wholeName
  | n => mismatch n wholeName

/-- The settings with all that a document sets. -/
def applyTo (content : List UInt8) (s : Settings) : Except String Settings :=
  match Yaml.read content with
  | .error fault => .error fault.message
  | .ok none => .ok s
  | .ok (some n) =>
    match (decode n).run ⟨s, []⟩ with
    | .error stop => .error stop
    | .ok (_, done) =>
      if done.complaints.isEmpty then .ok done.settings
      else .error ("yaml: unmarshal errors:\n  " ++ join "\n  " done.complaints)

end ProtoStub.SettingsFile

import ProtoStub.VisualBasic.Client
import ProtoStub.Output

/-!
# Source files

A schema file becomes a source file with its enums, its classes and its clients, in that order,
inside its namespace. `emit` makes the unit; `render` writes it once it is known whether its
directory has a shared utility, and `renderUtility` writes the utility.
-/

namespace ProtoStub.VisualBasic

open Text

/-- What a source file holds before its clients are written. -/
structure Body where
  namespaceName : String
  imports : List String
  blocks : List String
  clients : List Client
  deriving Repr, DecidableEq, Inhabited

/-- One unit of output. A unit made by something else has no body. -/
structure Unit where
  summary : UnitSummary Nat
  source : String := ""
  body : Option Body := none
  deriving Repr, DecidableEq, Inhabited

/-- The name of the backend. -/
def backendName : String := "vb"

/-- How sources are written. -/
structure Backend where
  profile : Profile
  out : String := ""
  deriving Repr, DecidableEq, Inhabited

/-- The backend for a profile name. -/
def Backend.new (profile out : String) : Except Error Backend :=
  match Profile.ofName? profile with
  | some profile => .ok { profile, out }
  | none => .error (.other ("unknown profile " ++ quoteText profile))

/-- The library namespaces a source file imports. -/
def importNames (profile : Profile) (linq : Bool) : List String :=
  (match profile with
    | .sync => ["System", "System.Collections.Generic", "System.IO", "System.Net", "System.Text",
        "Newtonsoft.Json"]
    | .async => ["System", "System.Collections.Generic", "System.Net.Http", "System.Text",
        "System.Threading", "System.Threading.Tasks", "Newtonsoft.Json"]) ++
    if linq then ["Newtonsoft.Json.Linq"] else []

/-- Lines as text. -/
def textOfLines (lines : List String) : String := join "\n" lines

/-- The unit of a file; nothing for a file without declarations. -/
def emit (b : Backend) (p : Program) (file : Nat) : Except Error (Option Unit) :=
  let f := p.file file
  if f.isEmpty then .ok none
  else do
    let enums := f.enums.map fun i => enumLines (p.enum i) indent
    let classes ← f.messages.mapM (classOf p file indent)
    let clients ← f.services.mapM (clientOf p file b.profile)
    let linq := classes.any (·.linq) || clients.any (·.2)
    let summary : UnitSummary Nat :=
      { path := joinPath [f.relDir, f.baseName ++ ".vb"], dir := f.relDir
        namespaceName := f.namespaceName, clients := f.services.length
        helper := helperText b.profile "Private" }
    let body : Body :=
      { namespaceName := escapePath f.namespaceName, imports := importNames b.profile linq
        blocks := (enums ++ classes.map (·.lines)).map textOfLines, clients := clients.map (·.1) }
    return some { summary, source := f.name, body := some body }

/-- The lines that start every source file. -/
def headLines (origin : String) (imports : List String) (space : String) : List String :=
  ["' Code generated by protohttp. DO NOT EDIT.", "' " ++ origin, "", "Option Strict On",
    "Option Explicit On", ""] ++ imports.map ("Imports " ++ ·) ++ ["", "Namespace " ++ space]

/-- The source file of a unit, whose directory has the utility `shared` if any. -/
def render (b : Backend) (u : Unit) (shared : Option SharedUtility) : Except Error OutputFile :=
  match u.body with
  | none => .error (.emit u.summary.path "unit was not emitted by the vb backend")
  | some body =>
    let place := match shared with
      | some s => .utility (rooted (s.qualifiedName u.summary.namespaceName))
      | none => .inline u.summary.helper
    let clients := body.clients.map fun c => textOfLines (clientLines b.profile place c)
    let lines := headLines ("source: " ++ u.source) body.imports body.namespaceName ++
      (body.blocks ++ clients).flatMap (fun block => ["", block]) ++ ["", "End Namespace", ""]
    .ok { path := joinPath [b.out, u.summary.path], content := textOfLines lines }

/-- The source file of a shared utility. -/
def renderUtility (b : Backend) (s : SharedUtility) : OutputFile :=
  let profile := if s.profile == Profile.sync.name then Profile.sync else .async
  let lines :=
    headLines ("shared by: " ++ join ", " s.users) (importNames profile false)
      (escapePath s.namespaceName) ++
    ["", "    Public Class " ++ s.name] ++ stateLines profile ++
    ["", helperText b.profile "Public", "    End Class", "", "End Namespace", ""]
  { path := joinPath [b.out, s.path], content := textOfLines lines }

/-- The output of the requested files of a program: their units in order, then the shared utilities.
`rootName` is the name of the output directory. -/
def generate (b : Backend) (p : Program) (rootName : String) : Except Error (List OutputFile) := do
  let inputs := (List.range p.files.length).filter fun i => (p.file i).isInput
  let units := (← inputs.mapM (emit b p)).filterMap id
  let sharing ← extract { rootName, profile := b.profile.name, extension := ".vb" }
    (units.map (·.summary))
  let sources ← (units.zip sharing.uses).mapM fun (u, shared) => render b u shared
  return sources ++ sharing.utilities.map (renderUtility b)

end ProtoStub.VisualBasic

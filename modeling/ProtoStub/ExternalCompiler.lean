import ProtoStub.Duration
import ProtoStub.Schema.ImportSet
import ProtoStub.Definition.Compile
import ProtoStub.Definition.Stored.OfLinked
import ProtoStub.Text.Integer

/-!
# An external compiler

Schema files can be given to a compiler outside the program, which stores their definitions in a
file. What it does is an `Outcome`; a compiler that can be started is a function from invocations to
outcomes. The first line of its diagnostics is turned into an error of the file it is about.
-/

namespace ProtoStub

open Text

/-- What an external compiler is asked to do: to compile the files `names`, with imports searched
below `root` and then below `roots`. -/
structure Invocation where
  workspace : Workspace
  root : String
  roots : List String
  names : List String

/-- What comes of running a compiler. -/
inductive Outcome where
  /-- It stored the definitions, in the wire format. -/
  | stored (content : List UInt8)
  /-- It stored these definitions. -/
  | compiled (files : List Definition.Stored.File)
  /-- It ended well and stored nothing. -/
  | silent
  /-- It ended with a status other than zero. -/
  | failed (diagnostics : String) (status : Int)
  /-- It did not end in time. -/
  | overtime
  /-- No program has its name. -/
  | missing
  /-- It could not be started. -/
  | refused (errno : Errno)

/-- A compiler: a program that is known by name only, or one that can be started. -/
inductive ExternalCompiler where
  | program (name : String)
  | started (name : String) (respond : Invocation → Outcome)

namespace ExternalCompiler

/-- The name of the program. -/
def name : ExternalCompiler → String
  | .program n | .started n _ => n

/-- A name without directory is looked for among the installed programs, of which there are none. -/
def isBare (name : String) : Bool := !name.toList.contains '/'

/-- The complaint about a program that is not found or cannot be run. -/
def complaint (name cause : String) : String := "exec: " ++ quoteText name ++ ": " ++ cause

/-- The complaint about a program that is not installed. -/
def notInstalled (name : String) : String := complaint name "executable file not found in $PATH"

/-- Why a program cannot be used, seen before it is started. Files of a workspace are not
executable. -/
def unavailable? (w : Workspace) : ExternalCompiler → Option String
  | .started _ _ => none
  | .program name =>
    if isBare name then some (notInstalled name)
    else match w.stat name with
      | .error fault => some (complaint name fault.message)
      | .ok .directory => some (complaint name Errno.isDirectory.message)
      | .ok (.file _) => some (complaint name Errno.accessDenied.message)

/-- What comes of running the compiler. -/
def run (i : Invocation) : ExternalCompiler → Outcome
  | .started _ respond => respond i
  | .program name =>
    if isBare name then .missing
    else match i.workspace.find name with
      | .error e => .refused e
      | .ok _ => .refused .accessDenied

end ExternalCompiler

/-- A compiler that compiles in the usual way. Every import is searched below the root and then
below the roots. -/
def compileInvocation (i : Invocation) : Outcome :=
  let imported := Schema.importNames Definition.importsOf i.workspace
  let sources := (i.names ++ imported).eraseDups.filterMap fun name =>
    match ({ workspace := i.workspace, roots := i.roots : Schema.Search }).find? i.root name with
    | none => none
    | some path =>
      match i.workspace.read path with
      | .ok content => some (name, Definition.Source.content (glyphs content))
      | .error _ => some (name, .unreadable)
  match Definition.compile ⟨sources, i.names⟩ with
  | .ok (files, _) => .compiled (files.map (Definition.Stored.ofLinked files))
  | .error (.at_ name line) => .failed (name ++ ":" ++ toString line ++ ":1: cannot be compiled") 1
  | .error (.missing name) | .error (.unreadable name) => .failed (name ++ ": File not found.") 1

/-! ## Diagnostics -/

/-- The file that a compiler calls `name`: names below `root` are import names. -/
def diagnosedFile (imports : Schema.ImportSet) (root dir name : String) : String :=
  let known (name : String) : String := (imports.path? name).getD (joinPath [dir, name])
  if isAbsolute name then
    match below? root name with
    | some inner => known inner
    | none => name
  else known name

/-- The error that the first line of a compiler's diagnostics tells: `file:line:column: message`, or
a line of another form about the whole directory. Without diagnostics the way it ended has to do. -/
def diagnose (imports : Schema.ImportSet) (root dir diagnostics ending : String) : ParseError :=
  let first := (cut '\n' (trimSpace diagnostics)).1
  if first == "" then ⟨dir, 0, .diagnostic ("protoc: " ++ ending)⟩
  else
    match split ':' first with
    | file :: line :: _ :: message =>
      match message, readInt line with
      | _ :: _, .ok n =>
        ⟨diagnosedFile imports root dir file, n, .diagnostic (trimSpace (join ":" message))⟩
      | _, _ => ⟨dir, 0, .diagnostic first⟩
    | _ => ⟨dir, 0, .diagnostic first⟩

end ProtoStub

import ProtoStub.Generation
import ProtoStub.Settings.Environment
import ProtoStub.Settings.File

/-!
# The command line

`Settings.load` puts the layers of settings below the flags together. `execute` is the whole
program: it reads the arguments, does one run, and says what is printed and how the program ends.
The code is zero when all went well, one when the run failed, and two for arguments and settings
that are refused.
-/

namespace ProtoStub

open Text

/-- The settings of the file at `path`, over the defaults, and of the environment over these.
Without a path the environment may name one. -/
def Settings.load (processors : Int) (w : Workspace) (e : Environment) (path : String) :
    Except String Settings := do
  let path := if path == "" then e.value (Environment.family ++ "CONFIG") else path
  let s ← if path == "" then pure (.default processors) else
    match w.read path with
    | .error fault => throw ("read config: " ++ fault.message)
    | .ok content =>
      match SettingsFile.applyTo content (.default processors) with
      | .error cause => throw ("parse config " ++ path ++ ": " ++ cause)
      | .ok s => pure s
  e.applyTo s

/-- What the settings ask for. -/
def Settings.order (s : Settings) : Order :=
  { proto := s.proto, out := s.out, namespaceName := s.namespaceName, profile := s.profile
    roots := s.roots, strategy := s.parser, timeout := s.timeout
    compiler := .program (if s.compiler == "" then "protoc" else s.compiler)
    jsonSchema := s.jsonSchema, excludes := s.excludes }

/-- The version of the program. -/
def version : String := "dev"

/-- How the program ended, what it printed, and the files it left. -/
structure Execution where
  code : Nat := 0
  output : String := ""
  diagnostics : String := ""
  workspace : Workspace

/-- Runs the program on a machine with so many processors. -/
def execute (processors : Int) (w : Workspace) (e : Environment) (arguments : List String) :
    Execution :=
  let refused (text : String) : Execution :=
    { code := 2, diagnostics := text ++ "\n", workspace := w }
  match Flags.parse processors Flag.all arguments with
  | .error .help => { diagnostics := usageText processors, workspace := w }
  | .error fault => refused (fault.message ++ "\n" ++ dropEnding "\n" (usageText processors))
  | .ok flags =>
    if flags.version then { output := "protohttp " ++ version ++ "\n", workspace := w }
    else if !flags.rest.isEmpty then
      refused ("unexpected arguments: [" ++ join " " flags.rest ++ "]")
    else
      match Settings.load processors w e flags.config with
      | .error cause => refused cause
      | .ok loaded =>
        let s := flags.applyTo loaded
        match s.invalid?, s.logger with
        | some complaints, _ => refused complaints
        | none, .error cause => refused cause
        | none, .ok logger =>
          let (result, done) := s.order.run { workspace := w }
          let printed := logger.render done.log
          match result with
          | .ok _ => { diagnostics := printed, workspace := done.workspace }
          | .error fault =>
            { code := 1, diagnostics := printed ++ fault.message ++ "\n",
              workspace := done.workspace }

end ProtoStub

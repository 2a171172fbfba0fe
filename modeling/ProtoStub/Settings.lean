import ProtoStub.Duration
import ProtoStub.Log
import ProtoStub.Profile

/-!
# Settings

The settings of a run, with their defaults. They come in layers, each over the one before: the
defaults, a settings file, the environment, and the flags of the command line. `Key` names the
settings one by one, and `Settings.copy` carries the one with a given name over, so that a layer can
override exactly what it sets.
-/

namespace ProtoStub

open Text

/-- The settings of a run. Profile, strategy and log settings are kept by name, right or wrong. -/
structure Settings where
  proto : String := ""
  out : String := ""
  namespaceName : String := ""
  profile : String := "async"
  roots : List String := []
  parser : String := "descriptor"
  compiler : String := "protoc"
  timeout : Duration := ⟨30 * Duration.second⟩
  /-- How many files are worked on at once. -/
  jobs : Int
  jsonSchema : Bool := true
  excludes : List String := []
  logLevel : String := "info"
  logFormat : String := "text"
  deriving Repr, DecidableEq, Inhabited

/-- The names of the settings. -/
inductive Key where
  | proto
  | out
  | namespaceName
  | profile
  | roots
  | parser
  | compiler
  | timeout
  | jobs
  | jsonSchema
  | excludes
  | logLevel
  | logFormat
  deriving Repr, DecidableEq, Inhabited

namespace Key

/-- All settings, in their order. -/
def all : List Key :=
  [proto, out, namespaceName, profile, roots, parser, compiler, timeout, jobs, jsonSchema, excludes,
    logLevel, logFormat]

/-- The name of a setting in files and on the command line. -/
def name : Key → String
  | proto => "proto"
  | out => "out"
  | namespaceName => "namespace"
  | profile => "profile"
  | roots => "proto_path"
  | parser => "parser"
  | compiler => "protoc"
  | timeout => "timeout"
  | jobs => "jobs"
  | jsonSchema => "json_schema"
  | excludes => "exclude"
  | logLevel => "log_level"
  | logFormat => "log_format"

/-- The setting with the given name. -/
def ofName? (s : String) : Option Key := all.find? (·.name == s)

end Key

namespace Settings

/-- The settings when nothing sets any, on a machine with so many processors. -/
def default (processors : Int) : Settings := { jobs := processors }

/-- `into` with that setting of `source` that has the given name, if one has. -/
def copy (source : Settings) (name : String) (into : Settings) : Settings :=
  match name with
  | "proto" => { into with proto := source.proto }
  | "out" => { into with out := source.out }
  | "namespace" => { into with namespaceName := source.namespaceName }
  | "profile" => { into with profile := source.profile }
  | "proto_path" => { into with roots := source.roots }
  | "parser" => { into with parser := source.parser }
  | "protoc" => { into with compiler := source.compiler }
  | "timeout" => { into with timeout := source.timeout }
  | "jobs" => { into with jobs := source.jobs }
  | "json_schema" => { into with jsonSchema := source.jsonSchema }
  | "exclude" => { into with excludes := source.excludes }
  | "log_level" => { into with logLevel := source.logLevel }
  | "log_format" => { into with logFormat := source.logFormat }
  | _ => into

/-! ## Validity -/

/-- The complaint about a log level. -/
def unknownLevel (s : String) : String := "unknown log level " ++ quoteText s

/-- What is wrong with the settings, in the order of the settings. -/
def complaints (s : Settings) : List String :=
  let when (bad : Bool) (text : String) : List String := if bad then [text] else []
  when (s.proto == "") "proto is required" ++
    when (s.out == "") "out is required" ++
    when (Profile.ofName? s.profile).isNone (Profile.unknown s.profile) ++
    when (!(["descriptor", "protoc", "text"].contains s.parser))
      ("unknown parser " ++ quoteText s.parser ++ " (want descriptor, protoc or text)") ++
    when (s.jobs < 1) ("jobs must be at least 1, got " ++ toString s.jobs) ++
    when (s.timeout.nanoseconds ≤ 0) ("timeout must be positive, got " ++ s.timeout.toText) ++
    when (Level.threshold? s.logLevel).isNone (unknownLevel s.logLevel) ++
    when (!(["text", "json"].contains s.logFormat))
      ("unknown log format " ++ quoteText s.logFormat ++ " (want text or json)")

/-- All complaints, a line each; nothing when the settings are valid. -/
def invalid? (s : Settings) : Option String :=
  if s.complaints.isEmpty then none else some (join "\n" s.complaints)

/-- The logger that the settings ask for. -/
def logger (s : Settings) : Except String Logger :=
  match Level.threshold? s.logLevel with
  | none => .error (unknownLevel s.logLevel)
  | some threshold => .ok ⟨threshold, if s.logFormat == "json" then .json else .text⟩

end Settings

end ProtoStub

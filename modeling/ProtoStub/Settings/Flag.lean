import ProtoStub.Settings
import ProtoStub.Table

/-!
# Flags

Arguments that start with a hyphen set flags, until the first that does not or the two hyphens that
end them. A flag takes its value behind an equals sign or from the next argument; a truth value may
also be left out. `Flags.parse` collects the settings, and by name which flags were set.
-/

namespace ProtoStub

open Text

/-- A flag of the command line: a setting, the path of the settings file, or the question for the
version. -/
inductive Flag where
  | setting (key : Key)
  | config
  | version
  deriving Repr, DecidableEq, Inhabited

namespace Flag

/-- The name of a flag, without hyphens. -/
def name : Flag → String
  | .setting k => k.name
  | .config => "config"
  | .version => "version"

/-- The flags that set settings. -/
def settings : List Flag := Key.all.map .setting

/-- All flags of the program. -/
def all : List Flag := settings ++ [.config, .version]

/-- The flag is a truth value, which can be left out. -/
def isSwitch : Flag → Bool
  | .setting .jsonSchema | .version => true
  | _ => false

/-- What a flag is for. -/
def usage : Flag → String
  | .config => "YAML config file (or PROTOHTTP_CONFIG)"
  | .version => "print version and exit"
  | .setting k => match k with
    | .proto => "proto file or directory (required)"
    | .out => "output directory (required)"
    | .namespaceName => "namespace for files without a package"
    | .profile => "client profile: async or sync"
    | .roots => "extra import root (repeatable)"
    | .parser => "parser strategy: descriptor, protoc or text"
    | .compiler => "protoc binary for the protoc parser"
    | .timeout => "timeout for parsing with a toolchain"
    | .jobs => "number of files processed in parallel"
    | .jsonSchema => "also write JSON Schema documents"
    | .excludes => "glob of proto files to skip, relative to -proto (repeatable)"
    | .logLevel => "log level: debug, info, warn or error"
    | .logFormat => "log format: text or json"

/-- The kind of value a flag takes, as usage texts call it; a switch has none. -/
def valueName : Flag → String
  | .config => "string"
  | .version => ""
  | .setting k => match k with
    | .profile | .roots | .excludes => "value"
    | .timeout => "duration"
    | .jobs => "int"
    | .jsonSchema => ""
    | _ => "string"

/-- The default of a flag, as usage texts show it. -/
def default? (s : Settings) : Flag → Option String
  | .config | .version => none
  | .setting k =>
    let quoted (text : String) : Option String := if text == "" then none else some (quoteText text)
    match k with
    | .proto => quoted s.proto
    | .out => quoted s.out
    | .namespaceName => quoted s.namespaceName
    | .profile => some s.profile
    | .roots | .excludes => none
    | .parser => quoted s.parser
    | .compiler => quoted s.compiler
    | .timeout => some s.timeout.toText
    | .jobs => some (toString s.jobs)
    | .jsonSchema => if s.jsonSchema then some "true" else none
    | .logLevel => quoted s.logLevel
    | .logFormat => quoted s.logFormat

/-- The lines of a flag in the usage text. -/
def usageLines (s : Settings) (f : Flag) : String :=
  "  -" ++ f.name ++ (if f.valueName == "" then "" else " " ++ f.valueName) ++ "\n    \t" ++
    f.usage ++ ((f.default? s).map fun d => " (default " ++ d ++ ")").getD "" ++ "\n"

end Flag

/-- The usage text: the flags by name. -/
def usageText (processors : Int) : String :=
  let byName := Flag.all.mergeSort (decide <| ·.name ≤ ·.name)
  "Usage of protohttp:\n" ++ join "" (byName.map (Flag.usageLines (.default processors)))

/-- Why arguments are refused. -/
inductive FlagFault where
  | badForm (argument : String)
  | undefined (name : String)
  | help
  | needsValue (name : String)
  | badValue (value name cause : String)
  | badSwitch (value name cause : String)
  deriving Repr, DecidableEq, Inhabited

/-- The wording of a refusal. -/
def FlagFault.message : FlagFault → String
  | .badForm argument => "bad flag syntax: " ++ argument
  | .undefined name => "flag provided but not defined: -" ++ name
  | .help => "flag: help requested"
  | .needsValue name => "flag needs an argument: -" ++ name
  | .badValue value name cause =>
    "invalid value " ++ quoteText value ++ " for flag -" ++ name ++ ": " ++ cause
  | .badSwitch value name cause =>
    "invalid boolean value " ++ quoteText value ++ " for -" ++ name ++ ": " ++ cause

/-- The truth value that a word names. -/
def truth? (s : String) : Option Bool :=
  if ["1", "t", "T", "TRUE", "true", "True"].contains s then some true
  else if ["0", "f", "F", "FALSE", "false", "False"].contains s then some false
  else none

/-- What the arguments say. -/
structure Flags where
  /-- The defaults with everything that was set. -/
  settings : Settings
  /-- The flags that were set, by name. -/
  given : List (String × Flag) := []
  config : String := ""
  version : Bool := false
  /-- The arguments behind the flags. -/
  rest : List String := []
  deriving Repr, DecidableEq, Inhabited

namespace Flags

/-- The complaint about a value that cannot be read. -/
def parseFault : String := "parse error"

/-- The settings with the value of one flag. -/
def assignSetting (s : Settings) (k : Key) (value : String) : Except String Settings :=
  match k with
  | .proto => .ok { s with proto := value }
  | .out => .ok { s with out := value }
  | .namespaceName => .ok { s with namespaceName := value }
  | .profile => (Profile.readName value).map fun profile => { s with profile }
  | .roots => .ok { s with roots := s.roots ++ [value] }
  | .parser => .ok { s with parser := value }
  | .compiler => .ok { s with compiler := value }
  | .timeout =>
    match Duration.parse value with
    | .ok timeout => .ok { s with timeout }
    | .error _ => .error parseFault
  | .jobs =>
    match readAnyInt value with
    | .ok jobs => .ok { s with jobs }
    | .error .malformed => .error parseFault
    | .error .outOfRange => .error "value out of range"
  | .jsonSchema =>
    match truth? value with
    | some jsonSchema => .ok { s with jsonSchema }
    | none => .error parseFault
  | .excludes => .ok { s with excludes := s.excludes ++ [value] }
  | .logLevel => .ok { s with logLevel := value }
  | .logFormat => .ok { s with logFormat := value }

/-- The flags with the value of one more. -/
def assign (f : Flags) (flag : Flag) (value : String) : Except String Flags :=
  let given := enter flag.name flag f.given
  match flag with
  | .setting k => (assignSetting f.settings k value).map fun settings => { f with settings, given }
  | .config => .ok { f with config := value, given }
  | .version =>
    match truth? value with
    | some version => .ok { f with version, given }
    | none => .error parseFault

/-- What an argument is. -/
inductive Argument where
  /-- No flag: the flags end in front of it. -/
  | plain
  /-- The two hyphens that end the flags. -/
  | finish
  | malformed
  | flag (name : String) (value : Option String)

/-- What an argument is. -/
def classify (argument : String) : Argument :=
  let named (cs : List Char) : Argument :=
    match cs with
    | [] => .malformed
    | c :: _ =>
      if c == '-' || c == '=' then .malformed
      else
        let (name, value) := cut '=' (String.ofList cs)
        .flag name value
  match argument.toList with
  | ['-', '-'] => .finish
  | '-' :: '-' :: cs => named cs
  | '-' :: c :: cs => named (c :: cs)
  | _ => .plain

/-- Reads arguments, of which the flags are `known`. -/
def parseFrom (known : List Flag) (f : Flags) : List String → Except FlagFault Flags
  | [] => .ok f
  | argument :: rest =>
    match classify argument with
    | .plain => .ok { f with rest := argument :: rest }
    | .finish => .ok { f with rest }
    | .malformed => .error (.badForm argument)
    | .flag name value =>
      match known.find? (·.name == name) with
      | none => .error (if name == "help" || name == "h" then .help else .undefined name)
      | some flag =>
        if flag.isSwitch then
          let value := value.getD "true"
          match f.assign flag value with
          | .error cause => .error (.badSwitch value name cause)
          | .ok f => parseFrom known f rest
        else
          match value, rest with
          | none, [] => .error (.needsValue name)
          | none, value :: rest =>
            match f.assign flag value with
            | .error cause => .error (.badValue value name cause)
            | .ok f => parseFrom known f rest
          | some value, rest =>
            match f.assign flag value with
            | .error cause => .error (.badValue value name cause)
            | .ok f => parseFrom known f rest

/-- What the arguments say, when `known` are the flags, on a machine with so many processors. -/
def parse (processors : Int) (known : List Flag) (arguments : List String) :
    Except FlagFault Flags :=
  parseFrom known { settings := .default processors } arguments

/-- Settings with those of the flags in place of their own, flag by flag. -/
def applyTo (f : Flags) (s : Settings) : Settings :=
  f.given.foldl (fun s x => f.settings.copy x.1 s) s

end Flags

end ProtoStub

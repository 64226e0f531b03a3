import ImpedanceBench.Number.Scalar

/-!
The frequencies of a sweep: the start plus multiples of the step, as far as they stay below the
end. A step that rounding swallows, or that gives too many points, has no grid.
-/

namespace ImpedanceBench.Grid

variable {α : Type} [Scalar α]

/-- Every number is below the next one. -/
def ascending : List α → Bool
  | x :: y :: rest => !decide (y ≤ x) && ascending (y :: rest)
  | _ => true

def points? (start stop step : α) (maxPoints : UInt64) : Option (List α) :=
  let count := Scalar.ceil ((stop - start) / step)
  if start + step ≤ start ∨ ¬ ((1.0 : α) ≤ count ∧ count ≤ Scalar.ofNat maxPoints.toNat) then none
  else
    let points := ((List.range (Scalar.toUInt64 count).toNat).map fun k =>
      start + Scalar.ofNat k * step).takeWhile (· < stop)
    if points.isEmpty || !ascending points then none else some points

end ImpedanceBench.Grid

import ImpedanceBench.Number.Scalar

/-!
The exponential chirp: its frequency moves from one end to the other by equal factors in equal
times. Its phase is `w₀ · T / k · (exp (t · k / T) - 1)` with `k = log (w₁ / w₀)`.
-/

namespace ImpedanceBench

structure Chirp (α : Type) where
  /-- The angular frequency at the start. -/
  start : α
  rate : α
  duration : α

namespace Chirp

variable {α : Type} [Scalar α]

/-- Without two positive frequencies there is no chirp, and the start frequency stays. -/
def make (startHz stopHz duration : α) : Chirp α :=
  let start := 2.0 * Scalar.pi * startHz
  let stop := 2.0 * Scalar.pi * stopHz
  { start
    rate := if (0.0 : α) < startHz ∧ (0.0 : α) < stopHz then Scalar.log (stop / start) else 0.0
    duration }

/-- At rate 0 the formula has this limit. -/
def phase (c : Chirp α) (t : α) : α :=
  if c.rate ≤ 0.0 ∧ (0.0 : α) ≤ c.rate then c.start * t
  else c.start * c.duration / c.rate * (Scalar.exp (t * c.rate / c.duration) - 1.0)

/-- The derivative of the phase. -/
def angularFrequency (c : Chirp α) (t : α) : α := c.start * Scalar.exp (t * c.rate / c.duration)

end Chirp

end ImpedanceBench

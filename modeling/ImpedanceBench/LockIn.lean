import ImpedanceBench.Sweep.Config

/-!
The lock-in: a trace is multiplied by a sine and a cosine at the excitation frequency, and the
products are integrated over the window.
-/

namespace ImpedanceBench

/-- The integrals of a trace against the sine (`x`) and the cosine (`y`). -/
structure Components (α : Type) where
  x : α
  y : α

namespace Components

variable {α : Type} [Scalar α]

def amplitude (c : Components α) : α := Scalar.hypot c.x c.y

/-- In radians. -/
def phase (c : Components α) : α := Scalar.atan2 c.y c.x

end Components

namespace LockIn

variable {α : Type}

/-- Each number with the one after it. -/
def steps (xs : List α) : List (α × α) := xs.zip xs.tail

@[simp] theorem length_steps (xs : List α) : (steps xs).length = xs.length - 1 := by
  simp [steps]

variable [Scalar α]

/-- The sum of the areas of the segments; the shorter list decides how many there are. -/
def integral (area : α × α → α × α → α) (values times : List α) : α :=
  Scalar.sum (List.zipWith area (steps values) (steps times))

/-- The sum of `|(t₁ - t₀) · (f₀ - f₁) / 2|`. -/
def movement : (values times : List α) → α :=
  integral fun f t => Scalar.abs ((t.2 - t.1) * (f.1 - f.2) / 2.0)

/-- The sum of `(t₁ - t₀) · (f₀ + f₁) / 2`. -/
def trapezoid : (values times : List α) → α :=
  integral fun f t => (t.2 - t.1) * (f.1 + f.2) / 2.0

def integrate : IntegrationRule → (values times : List α) → α
  | .absoluteSegments => movement
  | .signed => trapezoid

end LockIn

/-- The time axis of a window and the two references on it. -/
structure LockIn (α : Type) where
  rule : IntegrationRule
  times : List α
  sines : List α
  cosines : List α

namespace LockIn

variable {α : Type} [Scalar α]

def make (length : Nat) (angularFrequency samplePeriod : α) (rule : IntegrationRule) : LockIn α :=
  let times := (List.range length).map fun i => Scalar.ofNat i * samplePeriod
  { rule
    times
    sines := times.map fun t => Scalar.sin (t * angularFrequency)
    cosines := times.map fun t => Scalar.cos (t * angularFrequency) }

/-- Samples beyond the window are ignored, and so is the window beyond the samples. -/
def components (l : LockIn α) (trace : List α) : Components α where
  x := integrate l.rule (List.zipWith (· * ·) trace l.sines) l.times
  y := integrate l.rule (List.zipWith (· * ·) trace l.cosines) l.times

/-- Voltage and current against one window as long as the longer of them. -/
def demodulate (voltage current : List α) (angularFrequency samplePeriod : α)
    (rule : IntegrationRule) : Components α × Components α :=
  let l := make (max voltage.length current.length) angularFrequency samplePeriod rule
  (l.components voltage, l.components current)

end LockIn

end ImpedanceBench

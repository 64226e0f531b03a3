import ImpedanceBench.Hardware.Profile

/-!
The square wave of the generator: full levels, joined by a falling and a rising ramp.
-/

namespace ImpedanceBench

structure SquareEdges (α : Type) where
  width : α
  fallStart : α
  riseStart : α

namespace SquareEdges

variable {α : Type} [Scalar α]

/-- The edge width in whole samples; up to the threshold it is the floor. -/
def wholeWidth (t : SquareTransition α) (frequency : α) : Int64 :=
  let width := Scalar.toInt64 (frequency / t.referenceFrequency * t.samplesAtReference)
  if width ≤ t.floorThreshold then t.floorSamples else width

def make (t : SquareTransition α) (frequency length : α) : SquareEdges α where
  width := Scalar.ofInt (wholeWidth t frequency).toInt
  fallStart := length * t.fallPosition
  riseStart := length * t.risePosition

/-- The position lies on the falling edge. -/
def Falling (e : SquareEdges α) (x : α) : Prop := e.fallStart < x ∧ x ≤ e.fallStart + e.width

/-- The position lies on the rising edge. -/
def Rising (e : SquareEdges α) (x : α) : Prop := e.riseStart < x ∧ x ≤ e.riseStart + e.width

instance (e : SquareEdges α) (x : α) : Decidable (e.Falling x) :=
  inferInstanceAs (Decidable (_ ∧ _))

instance (e : SquareEdges α) (x : α) : Decidable (e.Rising x) :=
  inferInstanceAs (Decidable (_ ∧ _))

/-- The ramp from `y₁` at `x₁` to `y₂` one width later. -/
def ramp (e : SquareEdges α) (x₁ y₁ y₂ x : α) : Int32 :=
  let slope := (y₂ - y₁) / e.width
  Scalar.toInt32 (Scalar.round (slope * (x - x₁) + y₁))

/-- The sample at a position, off the edges by the sign of the rounded cosine there. -/
def sample (e : SquareEdges α) (x amplitude cosine : α) : Int32 :=
  if e.Falling x then e.ramp e.fallStart amplitude (-amplitude) x
  else if e.Rising x then e.ramp e.riseStart (-amplitude) amplitude x
  else if (0.0 : α) < cosine then Scalar.toInt32 amplitude
  else -Scalar.toInt32 amplitude

end SquareEdges

end ImpedanceBench

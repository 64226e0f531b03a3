import ImpedanceBench.Number.Scalar

/-!
Complex amplitudes and impedances.
-/

namespace ImpedanceBench

structure Phasor (α : Type) where
  re : α
  im : α

namespace Phasor

variable {α : Type} [Scalar α]

instance : Add (Phasor α) := ⟨fun a b => ⟨a.re + b.re, a.im + b.im⟩⟩

instance : Div (Phasor α) := ⟨fun a b =>
  let n := b.re * b.re + b.im * b.im
  ⟨(a.re * b.re + a.im * b.im) / n, (a.im * b.re - a.re * b.im) / n⟩⟩

/-- Adds a resistance; the imaginary part is not touched. -/
def addReal (a : Phasor α) (r : α) : Phasor α := ⟨a.re + r, a.im⟩

def norm (a : Phasor α) : α := Scalar.hypot a.re a.im

def arg (a : Phasor α) : α := Scalar.atan2 a.im a.re

def ofPolar (r t : α) : Phasor α := ⟨r * Scalar.cos t, r * Scalar.sin t⟩

end Phasor

end ImpedanceBench

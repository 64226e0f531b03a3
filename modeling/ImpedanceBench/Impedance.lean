import ImpedanceBench.Failure
import ImpedanceBench.LockIn
import ImpedanceBench.Phasor

/-!
The impedance of the load from the lock-in components of its voltage and current:
`|V| / |I| · exp (j · (φV - φI))`.
-/

namespace ImpedanceBench

structure ImpedancePoint (α : Type) where
  frequency : α
  realOhms : α
  imagOhms : α
  magnitudeOhms : α
  /-- In degrees, in `(-180, 180]`. -/
  phase : α

namespace ImpedancePoint

variable {α : Type} [Scalar α]

/-- An angle in degrees, wrapped into `(-180, 180]`. -/
def wrapPhase (degrees : α) : α :=
  let wrapped := Scalar.remEuclid degrees 360.0
  if 180.0 < wrapped then wrapped - 360.0 else wrapped

/-- Both components come with the same scale of integration, which cancels. -/
def estimate (frequency : α) (voltage current : Components α) :
    Except (Failure α) (ImpedancePoint α) :=
  if Scalar.positive current.amplitude then
    let magnitude := voltage.amplitude / current.amplitude
    let phase := wrapPhase (Scalar.toDegrees (voltage.phase - current.phase))
    let z := Phasor.ofPolar magnitude (Scalar.toRadians phase)
    .ok ⟨frequency, z.re, z.im, magnitude, phase⟩
  else .error (.noCurrent frequency)

end ImpedancePoint

end ImpedanceBench

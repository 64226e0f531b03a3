import ImpedanceBench.Hardware.Profile
import ImpedanceBench.Failure

/-!
How one frequency is sampled: the decimation band it falls into, and a window as long as a number
of its periods.
-/

namespace ImpedanceBench

structure AcquisitionPlan (α : Type) where
  /-- The place of the band in its table, fastest first. -/
  bucket : Nat
  factor : UInt32
  sampleCount : UInt64
  /-- The seconds between two samples. -/
  samplePeriod : α

/-- What the oscilloscope is told before an acquisition. -/
structure AcquisitionSettings where
  bucket : UInt64
  factor : UInt32
  equalization : Bool
  shaping : Bool
  deriving DecidableEq

namespace AcquisitionPlan

variable {α : Type} [Scalar α]

/-- The time that the samples cover. -/
def window (plan : AcquisitionPlan α) : α :=
  Scalar.ofNat plan.sampleCount.toNat * plan.samplePeriod

/-- The first band whose threshold the frequency reaches, with its place. -/
def band? (bands : List (DecimationBand α)) (frequency : α) : Option (DecimationBand α × Nat) :=
  bands.zipIdx.find? fun b => b.1.threshold ≤ frequency

def make (bands : List (DecimationBand α)) (rate frequency : α) (minPeriods : UInt32) :
    Except (Failure α) (AcquisitionPlan α) :=
  match band? bands frequency with
  | none => .error (.frequencyBelowRange frequency (DecimationBand.lowest bands))
  | some (band, bucket) =>
    let factor := Scalar.ofNat band.factor.toNat
    .ok {
      bucket
      factor := band.factor
      sampleCount := Scalar.toUInt64
        (Scalar.round (Scalar.ofNat minPeriods.toNat * rate / (frequency * factor)))
      samplePeriod := factor / rate }

/-- The plan for the oscilloscope of a profile. -/
def ofProfile (p : HardwareProfile α) (frequency : α) (minPeriods : UInt32) :
    Except (Failure α) (AcquisitionPlan α) :=
  make p.bands p.adcRate frequency minPeriods

def settings (plan : AcquisitionPlan α) (equalization shaping : Bool) : AcquisitionSettings :=
  ⟨UInt64.ofNat plan.bucket, plan.factor, equalization, shaping⟩

end AcquisitionPlan

end ImpedanceBench

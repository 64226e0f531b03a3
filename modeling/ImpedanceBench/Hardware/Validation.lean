import ImpedanceBench.Hardware.Profile
import ImpedanceBench.Failure

/-!
The checks on a hardware profile, in the order in which their failures are reported.
-/

namespace ImpedanceBench.HardwareProfile

variable {α : Type} [Scalar α]

/-- What every setting has to satisfy. The length bound keeps the replay position, a 16.16 number,
inside 32 bits. -/
def checks (p : HardwareProfile α) : List (ProfileField × Bool) :=
  [(.dacRate, Scalar.positive p.dacRate),
   (.adcRate, Scalar.positive p.adcRate),
   (.dacCountsPerVolt, Scalar.positive p.dacCountsPerVolt),
   (.adcFullScale, Scalar.positive p.adcFullScale),
   (.maxAmplitude, Scalar.positive p.maxAmplitude),
   (.squareReference, Scalar.positive p.squareTransition.referenceFrequency),
   (.bufferLength, 2 ≤ p.bufferLength && p.bufferLength ≤ 65536),
   (.dacMaxCount, p.dacMaxCount != 0 && (p.dacMaxCount.toNat : Int) < p.dacRebias.toInt),
   (.adcBits, 1 ≤ p.adcBits && p.adcBits ≤ 24),
   (.adcMaxSamples, p.adcMaxSamples != 0),
   (.maxFrequency, Scalar.positive p.maxFrequency && !decide (p.dacRate / 2.0 < p.maxFrequency)),
   (.maxMinPeriods, p.maxMinPeriods != 0),
   (.maxMeasurementSweeps, p.maxMeasurementSweeps != 0),
   (.maxAveragingCount, p.maxAveragingCount != 0),
   (.maxSweepPoints, p.maxSweepPoints != 0),
   (.bands, !p.bands.isEmpty && p.bands.all fun b => b.factor != 0 && Scalar.positive b.threshold)]

/-- The first setting that fails its check. -/
def defect? (p : HardwareProfile α) : Option ProfileField :=
  (p.checks.find? fun c => !c.2).map (·.1)

def validate (p : HardwareProfile α) : Except (Failure α) Unit :=
  match p.defect? with
  | some field => .error (.invalidProfile field)
  | none => .ok ()

end ImpedanceBench.HardwareProfile

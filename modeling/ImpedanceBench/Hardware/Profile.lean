import ImpedanceBench.Number.Scalar

/-!
The constants of a generator and oscilloscope pair. Frequencies are in hertz, generator levels in
converter counts, amplitudes in volts peak to peak.
-/

namespace ImpedanceBench

/-- Frequencies from `threshold` on are sampled at the full rate divided by `factor`. -/
structure DecimationBand (α : Type) where
  threshold : α
  factor : UInt32

/-- The soft edges of a square wave, in generator samples. -/
structure SquareTransition (α : Type) where
  /-- The edge width at the reference frequency; it grows in proportion to the frequency. -/
  samplesAtReference : α
  referenceFrequency : α
  /-- Widths up to this one are replaced by `floorSamples`. -/
  floorThreshold : Int64
  floorSamples : Int64
  /-- The parts of the buffer after which the falling and the rising edge start. -/
  fallPosition : α
  risePosition : α

structure HardwareProfile (α : Type) where
  dacRate : α
  bufferLength : UInt64
  dacCountsPerVolt : α
  dacMaxCount : UInt32
  /-- Added to negative samples, which the generator's memory cannot hold. -/
  dacRebias : Int32
  dacOffset : Int32
  dacGain : Int32
  squareTransition : SquareTransition α
  adcRate : α
  adcBits : UInt32
  adcFullScale : α
  adcMaxSamples : UInt64
  maxFrequency : α
  maxAmplitude : α
  maxMinPeriods : UInt32
  maxMeasurementSweeps : UInt32
  maxAveragingCount : UInt32
  /-- The most frequencies one sweep may visit. -/
  maxSweepPoints : UInt64
  /-- Part of the instrument and not of its settings: no file changes it. -/
  bands : List (DecimationBand α)

section

variable {α : Type} [Scalar α]

def DecimationBand.standard : List (DecimationBand α) :=
  [⟨160000.0, 1⟩, ⟨20000.0, 8⟩, ⟨2500.0, 64⟩, ⟨160.0, 1024⟩, ⟨20.0, 8192⟩, ⟨2.5, 65536⟩]

/-- The least threshold of a table, and the last of equal ones, which may be zeros of two signs. One
that is undefined does not count. -/
def DecimationBand.lowest (bands : List (DecimationBand α)) : Option α :=
  bands.foldl (fun low band =>
    match low with
    | none => if Scalar.undefined band.threshold then none else some band.threshold
    | some x => if band.threshold ≤ x then some band.threshold else some x) none

def SquareTransition.standard : SquareTransition α where
  samplesAtReference := 300.0
  referenceFrequency := 1000000.0
  floorThreshold := 10
  floorSamples := 30
  fallPosition := 0.249
  risePosition := 0.75

/-- 125 million samples a second on both sides, 14 bit converters, buffers of 16384 samples. -/
def HardwareProfile.standard : HardwareProfile α where
  dacRate := 125000000.0
  bufferLength := 16384
  dacCountsPerVolt := 4000.0
  dacMaxCount := 8191
  dacRebias := 16384
  dacOffset := -155
  dacGain := 8191
  squareTransition := .standard
  adcRate := 125000000.0
  adcBits := 14
  adcFullScale := 2.0
  adcMaxSamples := 16384
  maxFrequency := 62500000.0
  maxAmplitude := 2.0
  maxMinPeriods := 20
  maxMeasurementSweeps := 10
  maxAveragingCount := 10000
  maxSweepPoints := 100000
  bands := DecimationBand.standard

/-- Volts per count of the oscilloscope when the fixture adds a DC bias. -/
def HardwareProfile.voltsPerCount (p : HardwareProfile α) (bias : α) : α :=
  (p.adcFullScale - bias) / Scalar.twoPow p.adcBits.toNat

end

end ImpedanceBench

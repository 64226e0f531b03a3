import ImpedanceBench.Hardware.Validation
import ImpedanceBench.Sweep.Config
import ImpedanceBench.Sweep.Grid

/-!
From settings to a sweep that can be run. The checks come in a fixed order and the first failure
is reported; an end frequency or a repetition count that is too high is lowered with a warning.
-/

namespace ImpedanceBench

/-- A computation that may fail and gives warnings on the way, which a failure does not undo. -/
abbrev Checked (α β : Type) := ExceptT (Failure α) (StateM (List (Warning α))) β

def warn {α : Type} (w : Warning α) : Checked α Unit := modify (· ++ [w])

inductive SweepMode where
  /-- From the start up to, not including, the end. -/
  | frequency
  /-- The start frequency again and again. -/
  | repeated
  deriving DecidableEq

structure ValidatedSweep (α : Type) where
  config : SweepConfig α
  mode : SweepMode
  /-- The profile that the sweep was checked against. -/
  profile : HardwareProfile α
  /-- The frequencies to visit, in ascending order. -/
  frequencies : List α
  /-- The acquisitions averaged into each frequency. -/
  passesPerPoint : UInt32

namespace SweepConfig

variable {α : Type} [Scalar α]

/-- At least the lowest threshold and at most the highest frequency of the profile. -/
def startInRange (c : SweepConfig α) (p : HardwareProfile α) : Bool :=
  match DecimationBand.lowest p.bands with
  | some low => decide (low ≤ c.start) && decide (c.start ≤ p.maxFrequency)
  | none => false

/-- The end frequency lowered to the highest frequency of the profile. -/
def clampStop (c : SweepConfig α) (p : HardwareProfile α) : Checked α (SweepConfig α) := do
  if p.maxFrequency < c.stop then
    warn (.endClamped c.stop p.maxFrequency)
    return { c with stop := p.maxFrequency }
  return c

/-- The first setting after the frequency range that is out of bounds. -/
def defect? (c : SweepConfig α) (p : HardwareProfile α) : Option (Failure α) :=
  if c.stop < c.start then some (.descendingSweep c.start c.stop)
  else if !Scalar.positive c.step then some (.invalidStep c.step)
  else if ¬ ((0.0 : α) ≤ c.amplitude ∧ c.amplitude ≤ p.maxAmplitude) then
    some (.amplitudeOutOfRange c.amplitude p.maxAmplitude)
  else if c.acquisitionSize = 0 ∨ p.adcMaxSamples < c.acquisitionSize then
    some (.acquisitionSizeOutOfRange c.acquisitionSize p.adcMaxSamples)
  else if let some hint := c.decimationHint.filter fun h => !p.bands.any (·.factor == h) then
    some (.unknownDecimation hint)
  else if c.averagingCount = 0 ∨ p.maxAveragingCount < c.averagingCount then
    some (.invalidAveraging c.averagingCount p.maxAveragingCount)
  else if c.minPeriods = 0 ∨ p.maxMinPeriods < c.minPeriods then
    some (.minPeriodsOutOfRange c.minPeriods p.maxMinPeriods)
  else if !Scalar.positive c.shuntOhms then some (.invalidShunt c.shuntOhms)
  else if ¬ ((0.0 : α) ≤ c.dcBias ∧ c.dcBias < p.adcFullScale) then
    some (.dcBiasOutOfRange c.dcBias p.adcFullScale)
  else none

/-- The repetitions lowered to the profile's maximum, and at least one. -/
def clampSweeps (c : SweepConfig α) (p : HardwareProfile α) : Checked α (SweepConfig α) := do
  let c ← if p.maxMeasurementSweeps < c.measurementSweeps then do
      warn (.measurementSweepsClamped c.measurementSweeps p.maxMeasurementSweeps)
      pure { c with measurementSweeps := p.maxMeasurementSweeps }
    else pure c
  return { c with measurementSweeps := max c.measurementSweeps 1 }

/-- The sweep of settings that are in range: an end above the start asks for a frequency sweep,
which measures each point once. -/
def resolve (c : SweepConfig α) (p : HardwareProfile α) : Except (Failure α) (ValidatedSweep α) := do
  let mode := if c.start < c.stop then SweepMode.frequency else .repeated
  let c := match mode with
    | .frequency => { c with measurementSweeps := 1 }
    | .repeated => c
  let frequencies ← match mode with
    | .repeated => pure [c.start]
    | .frequency => match Grid.points? c.start c.stop c.step p.maxSweepPoints with
      | some points => pure points
      | none => throw (.invalidStep c.step)
  let passes := c.averagingCount.toNat * c.measurementSweeps.toNat
  if UInt32.size ≤ passes then throw (.invalidAveraging c.averagingCount p.maxAveragingCount)
  return ⟨c, mode, p, frequencies, UInt32.ofNat passes⟩

def validate (c : SweepConfig α) (p : HardwareProfile α) : Checked α (ValidatedSweep α) := do
  liftExcept p.validate
  let outOfRange := fun f => throw (.frequencyOutOfRange f (DecimationBand.lowest p.bands) p.maxFrequency)
  if !c.startInRange p then outOfRange c.start
  if Scalar.undefined c.stop then outOfRange c.stop
  let c ← c.clampStop p
  if let some failure := c.defect? p then throw failure
  let c ← c.clampSweeps p
  liftExcept (c.resolve p)
where
  liftExcept {β : Type} : Except (Failure α) β → Checked α β
    | .ok b => pure b
    | .error e => throw e

end SweepConfig

end ImpedanceBench

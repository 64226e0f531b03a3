import ImpedanceBench.Number.Scalar
import ImpedanceBench.Signal

/-!
The settings of a sweep, as a caller gives them.
-/

namespace ImpedanceBench

/-- How long one acquisition is waited for. Times are in milliseconds. -/
structure RetryPolicy where
  maxAttempts : UInt32
  delay : UInt64
  deadline : Option UInt64

def RetryPolicy.standard : RetryPolicy := ⟨150000, 1, none⟩

/-- What becomes of a pass whose acquisition was not triggered in time. -/
inductive TimeoutPolicy where
  | abortSweep
  | skipPass
  deriving DecidableEq

def TimeoutPolicy.all : List TimeoutPolicy := [abortSweep, skipPass]

def TimeoutPolicy.name : TimeoutPolicy → String
  | abortSweep => "abort_sweep"
  | skipPass => "skip_pass"

/-- How the lock-in integrates a product. -/
inductive IntegrationRule where
  /-- The movement of the product, segment by segment; it keeps ratios of amplitudes, no phase. -/
  | absoluteSegments
  /-- The trapezoid rule. -/
  | signed
  deriving DecidableEq

def IntegrationRule.all : List IntegrationRule := [absoluteSegments, signed]

def IntegrationRule.name : IntegrationRule → String
  | absoluteSegments => "absolute_segments"
  | signed => "signed"

structure SweepConfig (α : Type) where
  start : α
  stop : α
  step : α
  amplitude : α
  acquisitionSize : UInt64
  decimationHint : Option UInt32
  averagingCount : UInt32
  /-- Repetitions at a single frequency. -/
  measurementSweeps : UInt32
  minPeriods : UInt32
  shuntOhms : α
  dcBias : α
  channel : Channel
  equalization : Bool
  shaping : Bool
  /-- A calibration with a short on the fixture comes first. -/
  calibration : Bool
  retry : RetryPolicy
  timeoutPolicy : TimeoutPolicy
  integration : IntegrationRule

def SweepConfig.standard {α : Type} [Scalar α] : SweepConfig α where
  start := 1000.0
  stop := 10000.0
  step := 1000.0
  amplitude := 2.0
  acquisitionSize := 16384
  decimationHint := none
  averagingCount := 5
  measurementSweeps := 1
  minPeriods := 15
  shuntOhms := 8200.0
  dcBias := 0.0
  channel := .a
  equalization := false
  shaping := false
  calibration := false
  retry := .standard
  timeoutPolicy := .abortSweep
  integration := .absoluteSegments

end ImpedanceBench

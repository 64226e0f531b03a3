import ImpedanceBench.Number.Decimal

/-!
Why a sweep is refused or ends early, and what is worth a warning. Each has one wording.
-/

namespace ImpedanceBench

/-- A setting of the hardware profile that is checked, with what it has to satisfy. -/
inductive ProfileField where
  | dacRate
  | adcRate
  | dacCountsPerVolt
  | adcFullScale
  | maxAmplitude
  | squareReference
  | bufferLength
  | dacMaxCount
  | adcBits
  | adcMaxSamples
  | maxFrequency
  | maxMinPeriods
  | maxMeasurementSweeps
  | maxAveragingCount
  | maxSweepPoints
  | bands
  deriving DecidableEq

namespace ProfileField

def name : ProfileField → String
  | dacRate => "dac_sample_rate_hz"
  | adcRate => "adc_sample_rate_hz"
  | dacCountsPerVolt => "dac_counts_per_vpp"
  | adcFullScale => "adc_full_scale_volts"
  | maxAmplitude => "max_amplitude_vpp"
  | squareReference => "square_transition.reference_hz"
  | bufferLength => "buffer_length"
  | dacMaxCount => "dac_max_count"
  | adcBits => "adc_bits"
  | adcMaxSamples => "adc_max_samples"
  | maxFrequency => "max_frequency_hz"
  | maxMinPeriods => "max_min_periods"
  | maxMeasurementSweeps => "max_measurement_sweeps"
  | maxAveragingCount => "max_averaging_count"
  | maxSweepPoints => "max_sweep_points"
  | bands => "decimation_bands"

def requirement : ProfileField → String
  | dacRate | adcRate | dacCountsPerVolt | adcFullScale | maxAmplitude | squareReference =>
    "must be positive and finite"
  | bufferLength => "must lie in [2, 65536] samples"
  | dacMaxCount => "must be positive and below dac_rebias"
  | adcBits => "must lie in [1, 24]"
  | maxFrequency => "must be positive and at most half the generator rate"
  | adcMaxSamples | maxMinPeriods | maxMeasurementSweeps | maxAveragingCount | maxSweepPoints =>
    "must be positive"
  | bands => "need positive thresholds and factors"

end ProfileField

inductive Failure (α : Type) where
  | frequencyOutOfRange (value : α) (lowest : Option α) (highest : α)
  | amplitudeOutOfRange (value highest : α)
  | descendingSweep (start stop : α)
  | invalidStep (step : α)
  | invalidShunt (ohms : α)
  | acquisitionSizeOutOfRange (value highest : UInt64)
  | invalidAveraging (value highest : UInt32)
  | minPeriodsOutOfRange (value highest : UInt32)
  | dcBiasOutOfRange (value fullScale : α)
  | unknownDecimation (factor : UInt32)
  | invalidProfile (field : ProfileField)
  | frequencyBelowRange (frequency : α) (lowest : Option α)
  | acquisitionTimeout (frequency : α) (attempts : Nat)
  | cancelled
  | deviceInit (device reason : String)
  | device (reason : String)
  | channelMismatch (expected actual : Nat)
  | raggedTrace
  | noCurrent (frequency : α)
  | calibrationDeclined
  | missingCalibrationPoint (frequency : α)

namespace Failure

/-- Failures of a sweep's settings, which no device has a part in. -/
def isConfiguration {α : Type} : Failure α → Bool
  | frequencyOutOfRange .. | amplitudeOutOfRange .. | descendingSweep .. | invalidStep _
  | invalidShunt _ | acquisitionSizeOutOfRange .. | invalidAveraging .. | minPeriodsOutOfRange ..
  | dcBiasOutOfRange .. | unknownDecimation _ | invalidProfile _ | frequencyBelowRange .. => true
  | acquisitionTimeout .. | cancelled | deviceInit .. | device _ | channelMismatch .. | raggedTrace
  | noCurrent _ | calibrationDeclined | missingCalibrationPoint _ => false

def number (x : Float) : String := Decimal.Style.message.text x

/-- A table without thresholds starts above every frequency. -/
def lowestText (lowest : Option Float) : String := number (lowest.getD Double.infinity)

def message : Failure Float → String
  | frequencyOutOfRange value lowest highest =>
    "frequency " ++ number value ++ " Hz outside valid range [" ++ lowestText lowest ++ ", "
      ++ number highest ++ "] Hz"
  | amplitudeOutOfRange value highest =>
    "amplitude " ++ number value ++ " Vpp outside valid range [0, " ++ number highest ++ "] Vpp"
  | descendingSweep start stop =>
    "end frequency " ++ number stop ++ " Hz is below start frequency " ++ number start ++ " Hz"
  | invalidStep step => "frequency step must be positive, got " ++ number step ++ " Hz"
  | invalidShunt ohms =>
    "shunt resistance must be positive and finite, got " ++ number ohms ++ " ohm"
  | acquisitionSizeOutOfRange value highest =>
    "acquisition size " ++ toString value ++ " outside valid range [1, " ++ toString highest ++ "]"
  | invalidAveraging value highest =>
    "averaging count " ++ toString value ++ " outside valid range [1, " ++ toString highest ++ "]"
  | minPeriodsOutOfRange value highest =>
    "minimum periods " ++ toString value ++ " outside valid range [1, " ++ toString highest ++ "]"
  | dcBiasOutOfRange value fullScale =>
    "DC bias " ++ number value ++ " V must lie in [0, " ++ number fullScale ++ ") V"
  | unknownDecimation factor =>
    "decimation " ++ toString factor ++ " is not one of the hardware decimation factors"
  | invalidProfile field => "hardware profile field " ++ field.name ++ " " ++ field.requirement
  | frequencyBelowRange frequency lowest =>
    "frequency " ++ number frequency ++ " Hz is below the lowest decimation band ("
      ++ lowestText lowest ++ " Hz)"
  | acquisitionTimeout frequency attempts =>
    "acquisition at " ++ number frequency ++ " Hz was not triggered after " ++ toString attempts
      ++ " attempts"
  | cancelled => "sweep cancelled"
  | deviceInit name reason => name ++ " initialization failed: " ++ reason
  | device reason => "device fault: " ++ reason
  | channelMismatch expected actual =>
    "channel count mismatch: expected at least " ++ toString expected ++ ", got " ++ toString actual
  | raggedTrace => "acquired channels have unequal lengths"
  | noCurrent frequency =>
    "no current through the load at " ++ number frequency ++ " Hz; impedance undefined"
  | calibrationDeclined => "operator declined the short-circuit calibration"
  | missingCalibrationPoint frequency =>
    "calibration baseline has no entry at " ++ number frequency ++ " Hz"

end Failure

inductive Warning (α : Type) where
  | endClamped (requested highest : α)
  | measurementSweepsClamped (requested highest : UInt32)
  | amplitudeClamped (requested : α) (counts : UInt32)
  | notTriggered (frequency : α)
  | passLeftOut (pass : Nat) (frequency : α) (cause : Failure α)
  | pointSkipped (frequency : α)

def Warning.message : Warning Float → String
  | endClamped requested highest =>
    "end frequency " ++ Failure.number requested ++ " Hz too high, clamped to "
      ++ Failure.number highest ++ " Hz"
  | measurementSweepsClamped requested highest =>
    "measurement sweeps " ++ toString requested ++ " too high, clamped to " ++ toString highest
  | amplitudeClamped requested counts =>
    "amplitude " ++ Failure.number requested ++ " Vpp exceeds DAC range, clamped to "
      ++ toString counts ++ " counts"
  | notTriggered frequency =>
    "acquisition at " ++ Failure.number frequency ++ " Hz was not triggered"
  | passLeftOut pass frequency cause =>
    "pass " ++ toString pass ++ " at " ++ Failure.number frequency ++ " Hz left out: "
      ++ cause.message
  | pointSkipped frequency =>
    "no pass at " ++ Failure.number frequency ++ " Hz was acquired; point skipped"

end ImpedanceBench

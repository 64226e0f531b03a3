import ImpedanceBench.Bench.Load
import ImpedanceBench.Json.Record
import ImpedanceBench.ResultTable
import ImpedanceBench.Sweep.Validation

/-!
The JSON forms of the library's records. Settings may leave fields out and then keep their
standard values; signals and results must give all of theirs.
-/

namespace ImpedanceBench

open Json (Codec Record)

def Shape.codec : Codec Shape := .choice all name
def Channel.codec : Codec Channel := .choice all name
def TimeoutPolicy.codec : Codec TimeoutPolicy := .choice all name
def IntegrationRule.codec : Codec IntegrationRule := .choice all name

def SquareTransition.record : Record (SquareTransition Float) where
  base := .standard
  complete := false
  fields := [
    Codec.real.field "samples_at_reference" (·.samplesAtReference)
      fun v r => { r with samplesAtReference := v },
    Codec.real.field "reference_hz" (·.referenceFrequency)
      fun v r => { r with referenceFrequency := v },
    Codec.int64.field "floor_threshold" (·.floorThreshold)
      fun v r => { r with floorThreshold := v },
    Codec.int64.field "floor_samples" (·.floorSamples) fun v r => { r with floorSamples := v },
    Codec.real.field "fall_position" (·.fallPosition) fun v r => { r with fallPosition := v },
    Codec.real.field "rise_position" (·.risePosition) fun v r => { r with risePosition := v }]

/-- The decimation bands have no field. -/
def HardwareProfile.record : Record (HardwareProfile Float) where
  base := .standard
  complete := false
  fields := [
    Codec.real.field "dac_sample_rate_hz" (·.dacRate) fun v r => { r with dacRate := v },
    Codec.uint64.field "buffer_length" (·.bufferLength) fun v r => { r with bufferLength := v },
    Codec.real.field "dac_counts_per_vpp" (·.dacCountsPerVolt)
      fun v r => { r with dacCountsPerVolt := v },
    Codec.uint32.field "dac_max_count" (·.dacMaxCount) fun v r => { r with dacMaxCount := v },
    Codec.int32.field "dac_rebias" (·.dacRebias) fun v r => { r with dacRebias := v },
    Codec.int32.field "dac_offset_counts" (·.dacOffset) fun v r => { r with dacOffset := v },
    Codec.int32.field "dac_gain_word" (·.dacGain) fun v r => { r with dacGain := v },
    SquareTransition.record.codec.field "square_transition" (·.squareTransition)
      fun v r => { r with squareTransition := v },
    Codec.real.field "adc_sample_rate_hz" (·.adcRate) fun v r => { r with adcRate := v },
    Codec.uint32.field "adc_bits" (·.adcBits) fun v r => { r with adcBits := v },
    Codec.real.field "adc_full_scale_volts" (·.adcFullScale)
      fun v r => { r with adcFullScale := v },
    Codec.uint64.field "adc_max_samples" (·.adcMaxSamples) fun v r => { r with adcMaxSamples := v },
    Codec.real.field "max_frequency_hz" (·.maxFrequency) fun v r => { r with maxFrequency := v },
    Codec.real.field "max_amplitude_vpp" (·.maxAmplitude) fun v r => { r with maxAmplitude := v },
    Codec.uint32.field "max_min_periods" (·.maxMinPeriods) fun v r => { r with maxMinPeriods := v },
    Codec.uint32.field "max_measurement_sweeps" (·.maxMeasurementSweeps)
      fun v r => { r with maxMeasurementSweeps := v },
    Codec.uint32.field "max_averaging_count" (·.maxAveragingCount)
      fun v r => { r with maxAveragingCount := v },
    Codec.uint64.field "max_sweep_points" (·.maxSweepPoints)
      fun v r => { r with maxSweepPoints := v }]

def RetryPolicy.record : Record RetryPolicy where
  base := .standard
  complete := false
  fields := [
    Codec.uint32.field "max_attempts" (·.maxAttempts) fun v r => { r with maxAttempts := v },
    Codec.uint64.field "delay_ms" (·.delay) fun v r => { r with delay := v },
    Codec.uint64.optional.field "deadline_ms" (·.deadline) fun v r => { r with deadline := v }]

def SweepConfig.record : Record (SweepConfig Float) where
  base := .standard
  complete := false
  fields := [
    Codec.real.field "start_frequency_hz" (·.start) fun v r => { r with start := v },
    Codec.real.field "end_frequency_hz" (·.stop) fun v r => { r with stop := v },
    Codec.real.field "step_frequency_hz" (·.step) fun v r => { r with step := v },
    Codec.real.field "amplitude_vpp" (·.amplitude) fun v r => { r with amplitude := v },
    Codec.uint64.field "acquisition_size" (·.acquisitionSize)
      fun v r => { r with acquisitionSize := v },
    Codec.uint32.optional.field "decimation_hint" (·.decimationHint)
      fun v r => { r with decimationHint := v },
    Codec.uint32.field "averaging_count" (·.averagingCount)
      fun v r => { r with averagingCount := v },
    Codec.uint32.field "measurement_sweeps" (·.measurementSweeps)
      fun v r => { r with measurementSweeps := v },
    Codec.uint32.field "min_periods" (·.minPeriods) fun v r => { r with minPeriods := v },
    Codec.real.field "shunt_resistance_ohms" (·.shuntOhms) fun v r => { r with shuntOhms := v },
    Codec.real.field "dc_bias_volts" (·.dcBias) fun v r => { r with dcBias := v },
    Channel.codec.field "channel" (·.channel) fun v r => { r with channel := v },
    Codec.bool.field "equalization" (·.equalization) fun v r => { r with equalization := v },
    Codec.bool.field "shaping" (·.shaping) fun v r => { r with shaping := v },
    Codec.bool.field "calibration" (·.calibration) fun v r => { r with calibration := v },
    RetryPolicy.record.codec.field "retry" (·.retry) fun v r => { r with retry := v },
    TimeoutPolicy.codec.field "timeout_policy" (·.timeoutPolicy)
      fun v r => { r with timeoutPolicy := v },
    IntegrationRule.codec.field "integration" (·.integration)
      fun v r => { r with integration := v }]

def LoadModel.record : Record (LoadModel Float) where
  base := .short
  complete := false
  fields := [
    Codec.real.field "resistance_ohms" (·.resistance) fun v r => { r with resistance := v },
    Codec.real.optional.field "inductance_henries" (·.inductance)
      fun v r => { r with inductance := v },
    Codec.real.optional.field "capacitance_farads" (·.capacitance)
      fun v r => { r with capacitance := v }]

def SignalSpec.record : Record (SignalSpec Float) where
  base := .sine 0.0 0.0
  complete := true
  fields := [
    Shape.codec.field "shape" (·.shape) fun v r => { r with shape := v },
    Codec.real.field "amplitude_vpp" (·.amplitude) fun v r => { r with amplitude := v },
    Codec.real.field "start_frequency_hz" (·.start) fun v r => { r with start := v },
    Codec.real.field "end_frequency_hz" (·.stop) fun v r => { r with stop := v }]

def ImpedancePoint.record : Record (ImpedancePoint Float) where
  base := ⟨0.0, 0.0, 0.0, 0.0, 0.0⟩
  complete := true
  fields := [
    Codec.real.field "frequency_hz" (·.frequency) fun v r => { r with frequency := v },
    Codec.real.field "real_ohms" (·.realOhms) fun v r => { r with realOhms := v },
    Codec.real.field "imag_ohms" (·.imagOhms) fun v r => { r with imagOhms := v },
    Codec.real.field "magnitude_ohms" (·.magnitudeOhms) fun v r => { r with magnitudeOhms := v },
    Codec.real.field "phase_deg" (·.phase) fun v r => { r with phase := v }]

def FrequencyResult.record : Record (FrequencyResult Float) where
  base := ⟨0.0, 0.0, 0.0, 0⟩
  complete := true
  fields := [
    Codec.real.field "frequency_hz" (·.frequency) fun v r => { r with frequency := v },
    Codec.real.field "mean_real_ohms" (·.meanReal) fun v r => { r with meanReal := v },
    Codec.real.field "mean_imag_ohms" (·.meanImag) fun v r => { r with meanImag := v },
    Codec.uint64.field "passes" (·.passes) fun v r => { r with passes := v }]

def ResultTable.record : Record (ResultTable Float) where
  base := .empty
  complete := true
  fields := [
    FrequencyResult.record.codec.list.field "entries" (·.entries)
      fun v r => { r with entries := v },
    Codec.real.list.field "skipped" (·.skipped) fun v r => { r with skipped := v }]

end ImpedanceBench

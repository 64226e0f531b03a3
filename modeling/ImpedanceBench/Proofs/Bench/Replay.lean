import ImpedanceBench.Bench.Simulated
import ImpedanceBench.Proofs.Double.Rounding
import ImpedanceBench.Proofs.Waveform.Samples

/-!
When the generator moves through its memory at all. Its step is a 16.16 number, rounded from a
frequency, a rate and a length of the buffer that are checked one by one and not together. A step
that is rounded to zero replays the first sample for ever.
-/

namespace ImpedanceBench

open Float.Model UnpackedFloat

namespace Double

lemma rem_nan (y : Float) : rem nan y = nan := by
  have hnan : parts nan = .undefined := rfl
  unfold rem
  rw [hnan]

end Double

namespace SimulatedBench

/-- A position that does not move, even one that is undefined, is the first of the memory. -/
lemma wrappedIndex_mul_zero (size : ℕ) (x : Float) : wrappedIndex size (x * 0.0) = 0 := by
  have hnan : Scalar.remEuclid Double.nan (Scalar.ofNat size) = Double.nan := by
    have hrem : Scalar.rem Double.nan (Scalar.ofNat size) = Double.nan := Double.rem_nan _
    rw [Scalar.remEuclid, hrem]
    exact if_neg (by decide +kernel)
  have hfirst : ∀ start : Float, start.toUInt64 = 0 → (Scalar.toUInt64 start).toNat % size = 0 := by
    intro start hstart
    change start.toUInt64.toNat % size = 0
    rw [hstart]
    exact Nat.zero_mod size
  unfold wrappedIndex
  rcases Double.mul_zero_cases x with h | h | h <;> rw [h]
  · rw [if_pos (by decide +kernel)]
    exact hfirst _ rfl
  · rw [if_pos (by decide +kernel)]
    exact hfirst _ rfl
  · rw [if_neg (by decide +kernel), hnan]
    exact hfirst _ rfl

lemma voltsAt_mul_zero (p : HardwareProfile Float) (memory : Array Int32)
    (voltsPerCount x y : Float) :
    voltsAt p memory voltsPerCount (x * 0.0) = voltsAt p memory voltsPerCount (y * 0.0) := by
  simp only [voltsAt, storedAt, wrappedIndex_mul_zero]

end SimulatedBench

namespace HardwareProfile

variable {p : HardwareProfile Float}

lemma unpack_dacRate (valid : p.validate = .ok ()) :
    ∃ m e h, p.dacRate.toModel.unpack = .finite .positive m e h := by
  have hrate : Scalar.positive p.dacRate = true :=
    eq_true_of_mem_checks valid .dacRate (by simp [checks])
  obtain ⟨hpos, hfin⟩ := Scalar.positive_iff.1 hrate
  exact Double.unpack_of_pos_of_le hpos (Double.le_self_of_lt hpos).2 hfin

lemma unpack_bufferLength (valid : p.validate = .ok ()) : ∃ m e h,
    (Double.ofNat p.bufferLength.toNat).toModel.unpack = .finite .positive m e h := by
  obtain ⟨hlow, hhigh⟩ := bufferLength_bounds valid
  obtain ⟨h, hunpack, -⟩ := Double.unpack_ofNat (n := p.bufferLength.toNat) (by omega) (by omega)
  exact ⟨_, _, h, hunpack⟩

end HardwareProfile

namespace ValidatedSweep

/-- The sine that a sweep plays at a frequency. -/
def sine (sweep : ValidatedSweep Float) (f : Float) : Waveform :=
  Waveform.synthesize sweep.profile (.sine sweep.config.amplitude f)

/-- The generator does not move through the memory of the sine: it replays at 0 Hz, and without
noise the probe on its output shows the same count in every sample. -/
structure Stalls (sweep : ValidatedSweep Float) (f : Float) : Prop where
  replay : replayFrequency sweep.profile (sweep.sine f).words (sweep.sine f).memory.size =
    (0.0 : Float)
  constant : ∀ (b : SimulatedBench) (settings : AcquisitionSettings), b.profile = sweep.profile →
    b.playing = some ((sweep.sine f).words, (sweep.sine f).memory) → b.noise.active = false →
    ∃ count, (b.render settings).channel 0 =
      List.replicate sweep.profile.adcMaxSamples.toNat count

lemma size_sine (sweep : ValidatedSweep Float) (f : Float) :
    (sweep.sine f).memory.size = sweep.profile.bufferLength.toNat :=
  Waveform.size_memory _ _

variable {sweep : ValidatedSweep Float} {f : Float}

lemma Stalls.of_stepIncrement (valid : sweep.profile.validate = .ok ())
    (h : (sweep.sine f).words.stepIncrement = 0) : sweep.Stalls f := by
  obtain ⟨_, _, _, hrate⟩ := HardwareProfile.unpack_dacRate valid
  obtain ⟨_, _, _, hlength⟩ := HardwareProfile.unpack_bufferLength valid
  refine ⟨?_, fun b settings hprofile hplaying hsilent => ?_⟩
  · rw [replayFrequency, h, size_sine]
    change (0.0 : Float) / 65536.0 * sweep.profile.dacRate /
      Double.ofNat sweep.profile.bufferLength.toNat = 0.0
    have hstep : (0.0 : Float) / 65536.0 = 0.0 := by decide +kernel
    rw [hstep, Double.zero_mul_of_positive hrate, Double.zero_div_of_positive hlength]
  · have hadvance : b.profile.dacRate *
        Scalar.ofNat (sweep.sine f).words.stepIncrement.toNat / 65536.0 = (0.0 : Float) := by
      rw [hprofile, h]
      change sweep.profile.dacRate * (0.0 : Float) / 65536.0 = 0.0
      rw [Double.mul_zero_of_positive hrate]
      decide +kernel
    have hnoise (k : ℕ) : b.noise.deviation k = 0.0 := by simp [Noise.deviation, hsilent]
    let scope := SimulatedBench.ScopeScale.ofProfile b.profile b.dcBias
    let volts := SimulatedBench.voltsAt b.profile (sweep.sine f).memory
      (1.0 / (2.0 * b.profile.dacCountsPerVolt)) (0.0 * 0.0)
    refine ⟨scope.count volts 0.0, ?_⟩
    rw [SimulatedBench.render, hplaying]
    change (List.range b.profile.adcMaxSamples.toNat).map (fun k => scope.count _ _) = _
    rw [← hprofile]
    have hsamples : List.replicate b.profile.adcMaxSamples.toNat (scope.count volts 0.0) =
        (List.range b.profile.adcMaxSamples.toNat).map fun _ => scope.count volts 0.0 := by simp
    rw [hsamples]
    refine List.map_congr_left fun k _ => ?_
    rw [hnoise, hadvance, SimulatedBench.voltsAt_mul_zero]

/-- **When the generator moves.** The step of a sine is at least one exactly if it is at least one
half before it is rounded, and otherwise the generator stalls. No check of an accepted sweep bounds
it from below. -/
theorem Accepted.stepIncrement (h : sweep.Accepted) (f : Float) :
    (1 ≤ (sweep.sine f).words.stepIncrement.toNat ↔ (0.5 : Float) ≤
      65536.0 * f / sweep.profile.dacRate * Scalar.ofNat sweep.profile.bufferLength.toNat) ∧
    ((sweep.sine f).words.stepIncrement.toNat < 1 → sweep.Stalls f) := by
  refine ⟨Double.one_le_toUInt32_round _, fun hzero => .of_stepIncrement h.profile_valid ?_⟩
  exact UInt32.toNat_inj.1 (Nat.lt_one_iff.1 hzero)

/-- A single point at the lowest frequency, on a generator with a buffer of two samples. -/
def coarse : ValidatedSweep Float where
  config := { SweepConfig.standard with start := 2.5, stop := 2.5 }
  mode := .repeated
  profile := { HardwareProfile.standard with bufferLength := 2 }
  frequencies := [2.5]
  passesPerPoint := 5

lemma coarse_accepted : coarse.Accepted := ⟨coarse.config, coarse.profile, [], rfl⟩

theorem stepIncrement_coarse : coarse.Accepted ∧ 2.5 ∈ coarse.frequencies ∧ coarse.Stalls 2.5 := by
  have hmem : 2.5 ∈ coarse.frequencies := List.mem_singleton.2 rfl
  exact ⟨coarse_accepted, hmem, (coarse_accepted.stepIncrement 2.5).2 (by decide +kernel)⟩

/-- Not every accepted sweep makes the generator move. -/
theorem not_forall_stepIncrement : ¬ ∀ sweep : ValidatedSweep Float, sweep.Accepted →
    ∀ f ∈ sweep.frequencies, 1 ≤ (sweep.sine f).words.stepIncrement.toNat := by
  intro h
  exact absurd (h coarse coarse_accepted 2.5 (List.mem_singleton.2 rfl)) (by decide +kernel)

end ValidatedSweep

end ImpedanceBench

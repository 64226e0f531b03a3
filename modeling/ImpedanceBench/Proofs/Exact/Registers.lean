import Mathlib.Algebra.Order.Archimedean.Real.Basic
import ImpedanceBench.Bench.Simulated
import ImpedanceBench.Proofs.Exact.Rounding
import ImpedanceBench.Proofs.Waveform.Samples

/-!
The generator's registers in exact arithmetic. The checks on the buffer length and on the highest
frequency together keep both inside 32 bits, so the replay frequency is off by the rounding of the
step alone.
-/

namespace ImpedanceBench

open Exact

namespace HardwareProfile

variable {p : HardwareProfile ℝ}

lemma dacRate_pos (accepted : p.validate = .ok ()) : 0 < p.dacRate :=
  (Scalar.positive_real _).1 (eq_true_of_mem_checks accepted .dacRate (by simp [checks]))

lemma maxFrequency_le (accepted : p.validate = .ok ()) : p.maxFrequency ≤ p.dacRate / 2 := by
  have htwo : (2.0 : ℝ) = 2 := by norm_num
  have hcheck : (Scalar.positive p.maxFrequency && !decide (p.dacRate / 2.0 < p.maxFrequency)) =
      true := eq_true_of_mem_checks accepted .maxFrequency (by simp [checks])
  simpa [htwo] using (Bool.and_eq_true_iff.1 hcheck).2

end HardwareProfile

namespace Waveform

variable {p : HardwareProfile ℝ} {f : ℝ}

/-- The places of the memory that are passed at each clock, in 16.16 units. -/
noncomputable def exactStep (p : HardwareProfile ℝ) (f : ℝ) : ℝ :=
  65536 * f * p.bufferLength.toNat / p.dacRate

/-- What the registers of a waveform of the frequency `f` are. -/
structure Registered (p : HardwareProfile ℝ) (f : ℝ) (w : Waveform) : Prop where
  step : (w.words.stepIncrement.toNat : ℤ) = nearest (exactStep p f)
  step_closest : ∀ k : ℤ, |(w.words.stepIncrement.toNat : ℝ) - exactStep p f| ≤
    |k - exactStep p f|
  step_le : w.words.stepIncrement.toNat ≤ 32768 * p.bufferLength.toNat
  half_le : 32768 * p.bufferLength.toNat ≤ 2 ^ 31
  wrap : w.words.wrapIndex.toNat = 65536 * (p.bufferLength.toNat - 1)
  wrap_le : w.words.wrapIndex.toNat ≤ 2 ^ 32 - 65536
  /-- The words hold the rounded numbers as they are. -/
  lossless :
    (w.words.stepIncrement.toNat : ℝ) =
      Scalar.round (65536.0 * f / p.dacRate * Scalar.ofNat p.bufferLength.toNat) ∧
    (w.words.wrapIndex.toNat : ℝ) =
      Scalar.round (65536.0 * (Scalar.ofNat p.bufferLength.toNat - 1.0))
  replayed : |replayFrequency p w.words w.memory.size - f| ≤
    p.dacRate / (131072 * p.bufferLength.toNat)

/-- The wrap index is a whole number that a word holds. -/
lemma wrap_registers (accepted : p.validate = .ok ()) (f : ℝ) :
    (Scalar.round (65536.0 * (Scalar.ofNat p.bufferLength.toNat - 1.0)) : ℝ) =
      (registers p f).wrapIndex.toNat ∧
    (registers p f).wrapIndex.toNat = 65536 * (p.bufferLength.toNat - 1) := by
  obtain ⟨hlow, hhigh⟩ := HardwareProfile.bufferLength_bounds accepted
  have hunit : (65536.0 : ℝ) = 65536 := by norm_num
  have hone : (1.0 : ℝ) = 1 := by norm_num
  have hwhole : (65536.0 : ℝ) * (Scalar.ofNat p.bufferLength.toNat - 1.0) =
      (65536 * (p.bufferLength.toNat - 1) : ℕ) := by
    rw [Scalar.ofNat_real, hunit, hone, Nat.cast_mul, Nat.cast_sub (by omega)]
    norm_num
  have hround : (Scalar.round (65536.0 * (Scalar.ofNat p.bufferLength.toNat - 1.0)) : ℝ) =
      (65536 * (p.bufferLength.toNat - 1) : ℕ) := by
    rw [hwhole, round_real, nearest_natCast, Int.cast_natCast]
  have hword : (registers p f).wrapIndex.toNat = 65536 * (p.bufferLength.toNat - 1) :=
    (congrArg (fun x : ℝ => (Scalar.toUInt32 x).toNat) hround).trans
      (toNat_toUInt32_natCast (by omega))
  exact ⟨by rw [hword, hround], hword⟩

/-- Up to the highest frequency at most half of the memory is passed at each clock. -/
lemma exactStep_bounds (accepted : p.validate = .ok ()) (hlow : 0 ≤ f)
    (hhigh : f ≤ p.maxFrequency) :
    0 ≤ exactStep p f ∧ exactStep p f ≤ (32768 * p.bufferLength.toNat : ℕ) := by
  have hrate := HardwareProfile.dacRate_pos accepted
  have hmax := HardwareProfile.maxFrequency_le accepted
  refine ⟨by unfold exactStep; positivity, ?_⟩
  rw [exactStep, div_le_iff₀ hrate]
  calc 65536 * f * p.bufferLength.toNat ≤ 65536 * (p.dacRate / 2) * p.bufferLength.toNat := by
        gcongr
        exact hhigh.trans hmax
    _ = (32768 * p.bufferLength.toNat : ℕ) * p.dacRate := by
        push_cast
        ring

/-- The replay frequency differs from the requested one as the step from the exact step. -/
lemma replayFrequency_sub (accepted : p.validate = .ok ()) (words : GeneratorWords) :
    replayFrequency p words p.bufferLength.toNat - f =
      (words.stepIncrement.toNat - exactStep p f) *
        (p.dacRate / (65536 * p.bufferLength.toNat)) := by
  have hunit : (65536.0 : ℝ) = 65536 := by norm_num
  have hrate := HardwareProfile.dacRate_pos accepted
  have hlength : (0 : ℝ) < p.bufferLength.toNat := by
    have := (HardwareProfile.bufferLength_bounds accepted).1
    exact_mod_cast (show 0 < p.bufferLength.toNat by omega)
  rw [replayFrequency, exactStep, Scalar.ofNat_real, Scalar.ofNat_real, hunit]
  field_simp

/-- The step is the nearest whole number, which a word holds. -/
lemma step_registers (accepted : p.validate = .ok ()) (hlow : 0 ≤ f) (hhigh : f ≤ p.maxFrequency) :
    (Scalar.round (65536.0 * f / p.dacRate * Scalar.ofNat p.bufferLength.toNat) : ℝ) =
      (registers p f).stepIncrement.toNat ∧
    ((registers p f).stepIncrement.toNat : ℤ) = nearest (exactStep p f) ∧
    (registers p f).stepIncrement.toNat ≤ 32768 * p.bufferLength.toNat := by
  have hlength := (HardwareProfile.bufferLength_bounds accepted).2
  obtain ⟨hnonneg, hle⟩ := exactStep_bounds accepted hlow hhigh
  have hunit : (65536.0 : ℝ) = 65536 := by norm_num
  obtain ⟨m, hm⟩ := Int.eq_ofNat_of_zero_le (nearest_nonneg hnonneg)
  have hmax : m ≤ 32768 * p.bufferLength.toNat := by
    have hnearest : |nearest (exactStep p f)| ≤ (32768 * p.bufferLength.toNat : ℕ) :=
      abs_nearest_le (by rw [abs_of_nonneg hnonneg]; linarith)
    rw [hm, Nat.abs_cast] at hnearest
    exact_mod_cast hnearest
  have hround : (Scalar.round (65536.0 * f / p.dacRate * Scalar.ofNat p.bufferLength.toNat) : ℝ) =
      m := by
    rw [round_real, Scalar.ofNat_real, hunit, div_mul_eq_mul_div, ← exactStep, hm, Int.cast_natCast]
  have hword : (registers p f).stepIncrement.toNat = m :=
    (congrArg (fun x : ℝ => (Scalar.toUInt32 x).toNat) hround).trans
      (toNat_toUInt32_natCast (by omega))
  exact ⟨by rw [hword, hround], by rw [hword, hm], by rw [hword]; exact hmax⟩

/-- **The registers hold what is computed.** Under an accepted profile a waveform of any frequency
up to the highest has the nearest step and the exact wrap index, both inside 32 bits, and the
generator replays it at this frequency up to half a unit of the step. -/
theorem registered_synthesize (accepted : p.validate = .ok ()) {spec : SignalSpec ℝ}
    (low : 0 ≤ spec.start) (high : spec.start ≤ p.maxFrequency) :
    Registered p spec.start (synthesize p spec) := by
  obtain ⟨hlength, hlength'⟩ := HardwareProfile.bufferLength_bounds accepted
  obtain ⟨hround, hstep, hmax⟩ := step_registers accepted low high
  obtain ⟨hroundWrap, hwrap⟩ := wrap_registers accepted spec.start
  have hcast : ((registers p spec.start).stepIncrement.toNat : ℝ) =
      nearest (exactStep p spec.start) := by rw [← hstep, Int.cast_natCast]
  have hunit : 0 ≤ p.dacRate / (65536 * p.bufferLength.toNat) := by
    have := HardwareProfile.dacRate_pos accepted
    positivity
  refine {
    step := hstep
    step_closest := fun k => ?closest
    step_le := hmax
    half_le := by omega
    wrap := hwrap
    wrap_le := by
      change (registers p spec.start).wrapIndex.toNat ≤ _
      omega
    lossless := ⟨hround.symm, hroundWrap.symm⟩
    replayed := ?replayed }
  case closest =>
    change |((registers p spec.start).stepIncrement.toNat : ℝ) - _| ≤ _
    rw [hcast]
    exact abs_nearest_sub_le_abs_sub _ k
  case replayed =>
    change |replayFrequency p (registers p spec.start) _ - _| ≤ _
    rw [size_memory, replayFrequency_sub accepted, hcast, abs_mul, abs_of_nonneg hunit]
    calc |nearest (exactStep p spec.start) - exactStep p spec.start| *
          (p.dacRate / (65536 * p.bufferLength.toNat)) ≤
          1 / 2 * (p.dacRate / (65536 * p.bufferLength.toNat)) :=
          mul_le_mul_of_nonneg_right (abs_nearest_sub_le _) hunit
      _ = p.dacRate / (131072 * p.bufferLength.toNat) := by
          rw [div_mul_div_comm, one_mul, ← mul_assoc]
          norm_num

/-- A sine of 1 kHz under the standard profile is replayed within 0.06 Hz. -/
theorem registered_synthesize_standard :
    (HardwareProfile.standard : HardwareProfile ℝ).validate = .ok () ∧
      (synthesize .standard (.sine (2 : ℝ) 1000)).words.stepIncrement.toNat = 8590 ∧
      (synthesize .standard (.sine (2 : ℝ) 1000)).words.wrapIndex.toNat = 1073676288 ∧
      |replayFrequency .standard (synthesize .standard (.sine (2 : ℝ) 1000)).words 16384 -
        (1000 : ℝ)| ≤ 0.06 := by
  have haccepted := HardwareProfile.standard_accepted_real
  have hlow : (0 : ℝ) ≤ (SignalSpec.sine (2 : ℝ) 1000).start := by
    change (0 : ℝ) ≤ 1000
    norm_num
  have hhigh : (SignalSpec.sine (2 : ℝ) 1000).start ≤ HardwareProfile.standard.maxFrequency := by
    change (1000 : ℝ) ≤ 62500000.0
    norm_num
  have hregistered := registered_synthesize haccepted hlow hhigh
  have hexact : exactStep .standard (1000 : ℝ) = 8589.934592 := by
    change (65536 * 1000 * (16384 : ℕ) / 125000000.0 : ℝ) = _
    norm_num
  have hnearest : nearest 8589.934592 = 8590 := by
    rw [nearest, if_pos (by norm_num), Int.floor_eq_iff]
    norm_num
  have hstep := hregistered.step.trans ((congrArg nearest hexact).trans hnearest)
  have hreplayed := hregistered.replayed
  rw [size_memory] at hreplayed
  refine ⟨haccepted, by exact_mod_cast hstep, hregistered.wrap, hreplayed.trans ?_⟩
  change (125000000.0 / (131072 * (16384 : ℕ)) : ℝ) ≤ _
  norm_num

end Waveform

end ImpedanceBench

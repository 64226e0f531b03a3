import ImpedanceBench.Proofs.Exact.Rounding
import ImpedanceBench.Proofs.Exact.Turn
import ImpedanceBench.Proofs.Waveform.Samples

/-!
The symmetry of the excitation in exact arithmetic. A sine and a triangle are both an odd function
of the cosine, and rounding keeps the sign apart, so a buffer is its own mirror image and its second
half is the negative of the first: nothing remains when the samples are summed.
-/

namespace ImpedanceBench

open Exact Real

namespace Waveform

/-- A list of `n` samples is one period of an even wave whose second half is the negative of the
first, and it is highest at its start. -/
structure Symmetric (n : ℕ) (peak : ℤ) (samples : List ℤ) : Prop where
  length_eq : samples.length = n
  mirrored : ∀ i, 0 < i → i < n → samples[n - i]? = samples[i]?
  opposite : ∀ i < n / 2, samples[i + n / 2]? = samples[i]?.map (- ·)
  start : samples[0]? = some peak
  le_peak : ∀ v ∈ samples, v ≤ peak
  sum_eq_zero : samples.sum = 0

/-- A function of the place with these symmetries makes a list with them. -/
lemma symmetric_map {f : ℕ → ℤ} {m : ℕ} (hm : 0 < m)
    (hmirror : ∀ i, 0 < i → i < 2 * m → f (2 * m - i) = f i)
    (hopposite : ∀ i < m, f (i + m) = -f i) (hle : ∀ i, f i ≤ f 0) :
    Symmetric (2 * m) (f 0) ((List.range (2 * m)).map f) := by
  have hhalf : 2 * m / 2 = m := by omega
  have hget {i : ℕ} (hi : i < 2 * m) : ((List.range (2 * m)).map f)[i]? = some (f i) := by
    rw [List.getElem?_map, List.getElem?_range hi]
    rfl
  refine ⟨by simp, fun i hi hlt => ?_, fun i hlt => ?_, hget (by omega), ?_, ?_⟩
  · rw [hget (by omega), hget hlt, hmirror i hi hlt]
  · rw [hhalf] at hlt ⊢
    rw [hget (by omega), hget (by omega), hopposite i hlt]
    rfl
  · simp only [List.mem_map, List.mem_range]
    rintro v ⟨i, -, rfl⟩
    exact hle i
  · have hsecond : ∑ i ∈ Finset.range m, f (m + i) = -∑ i ∈ Finset.range m, f i := by
      rw [← Finset.sum_neg_distrib]
      refine Finset.sum_congr rfl fun i hi => ?_
      rw [add_comm m i, hopposite i (Finset.mem_range.1 hi)]
    calc ((List.range (2 * m)).map f).sum = ∑ i ∈ Finset.range (m + m), f i := by
          rw [← two_mul]
          rfl
      _ = 0 := by rw [Finset.sum_range_add, hsecond, add_neg_cancel]

/-- A wave as a function of the cosine, before it is rounded. -/
noncomputable def outline (shape : Shape) (amplitude c : ℝ) : ℝ :=
  match shape with
  | .triangle => -amplitude * (arccos c / π * 2 - 1)
  | .sine | .square | .sweep => amplitude * c

variable {shape : Shape} {amplitude c : ℝ}

lemma outline_neg : outline shape amplitude (-c) = -outline shape amplitude c := by
  cases shape
  case triangle =>
    rw [outline, outline, arccos_neg]
    field_simp
    ring
  all_goals exact mul_neg _ _

lemma outline_one : outline shape amplitude 1 = amplitude := by
  cases shape
  case triangle =>
    rw [outline, arccos_one]
    ring
  all_goals exact mul_one _

lemma abs_outline_le (hamplitude : 0 ≤ amplitude) (hc : |c| ≤ 1) :
    |outline shape amplitude c| ≤ amplitude := by
  cases shape
  case triangle =>
    have hlow : 0 ≤ arccos c / π := div_nonneg (arccos_nonneg c) pi_pos.le
    have hhigh : arccos c / π ≤ 1 := (div_le_one pi_pos).2 (arccos_le_pi c)
    have hone : |arccos c / π * 2 - 1| ≤ 1 := abs_le.2 ⟨by linarith, by linarith⟩
    rw [outline, abs_mul, abs_neg, abs_of_nonneg hamplitude]
    exact mul_le_of_le_one_right hamplitude hone
  all_goals
    rw [outline, abs_mul, abs_of_nonneg hamplitude]
    exact mul_le_of_le_one_right hamplitude hc

lemma abs_nearest_outline_le (shape : Shape) (n : ℕ) (hc : |c| ≤ 1) :
    |nearest (outline shape n c)| ≤ n :=
  abs_nearest_le (lt_of_le_of_lt (abs_outline_le (Nat.cast_nonneg n) hc) (by linarith))

lemma cosineAt_real (length x : ℝ) : cosineAt length x = cos (2 * π * x / length) := by
  have htwo : (2.0 : ℝ) = 2 := by norm_num
  rw [cosineAt, htwo]
  rfl

variable {p : HardwareProfile ℝ} {spec : SignalSpec ℝ}

/-- The samples of a sine and of a triangle are the rounded outline at the cosine. -/
lemma toInt_sampleAt (accepted : p.validate = .ok ())
    (hshape : spec.shape = .sine ∨ spec.shape = .triangle) (i : ℕ) :
    (sampleAt p spec i).toInt = nearest
      (outline spec.shape (counts p spec.amplitude).toNat (turn p.bufferLength.toNat i)) := by
  have hcosine : cosineAt (Scalar.ofNat p.bufferLength.toNat) (Scalar.ofNat i : ℝ) =
      turn p.bufferLength.toNat i := by
    rw [cosineAt_real, Scalar.ofNat_real, Scalar.ofNat_real, turn]
  have hround := toInt_toInt32_round
    (abs_nearest_outline_le spec.shape (counts p spec.amplitude).toNat
      (abs_turn_le p.bufferLength.toNat i))
    (Nat.lt_of_lt_of_le (counts_lt accepted spec.amplitude) (by norm_num))
  rw [← hround]
  obtain ⟨shape, volts, start, stop⟩ := spec
  dsimp only at hshape ⊢
  unfold sampleAt signedSample
  rcases hshape with rfl | rfl
  · dsimp only
    rw [hcosine, Scalar.ofNat_real]
    rfl
  · have htwo : (2.0 : ℝ) = 2 := by norm_num
    have hone : (1.0 : ℝ) = 1 := by norm_num
    dsimp only
    rw [hcosine, Scalar.ofNat_real, htwo, hone]
    rfl

/-- **The excitation carries no direct current.** Under an accepted profile with an even number of
samples, every sine and every triangle is symmetric: sample `n - i` is sample `i`, sample
`i + n / 2` is its negative, the first sample is the peak and the sum is zero. -/
theorem symmetric_signedSamples (accepted : p.validate = .ok ())
    (even : Even p.bufferLength.toNat) (hshape : spec.shape = .sine ∨ spec.shape = .triangle) :
    Symmetric p.bufferLength.toNat (counts p spec.amplitude).toNat
      ((signedSamples p spec).map Int32.toInt) := by
  have htwo := (HardwareProfile.bufferLength_bounds accepted).1
  obtain ⟨m, hm⟩ := even.exists_two_nsmul
  rw [smul_eq_mul] at hm
  have hpos : 0 < m := by omega
  have hlevel (i : ℕ) : (sampleAt p spec i).toInt =
      nearest (outline spec.shape (counts p spec.amplitude).toNat (turn (2 * m) i)) := by
    rw [toInt_sampleAt accepted hshape, hm]
  have hstart : (sampleAt p spec 0).toInt = (counts p spec.amplitude).toNat := by
    rw [hlevel, turn_zero, outline_one, nearest_natCast]
  have hmap : (signedSamples p spec).map Int32.toInt =
      (List.range (2 * m)).map fun i => (sampleAt p spec i).toInt := by
    rw [signedSamples_eq, hm, List.map_map]
    rfl
  rw [hmap, ← hstart, hm]
  refine symmetric_map (f := fun i => (sampleAt p spec i).toInt) hpos (fun i hi hlt => ?_)
    (fun i hi => ?_) fun i => ?_
  · rw [hlevel, hlevel, turn_sub (by omega) hlt.le]
  · rw [hlevel, hlevel, turn_add_half hpos, outline_neg, nearest_neg]
  · rw [hstart, hlevel]
    exact (le_abs_self _).trans (abs_nearest_outline_le _ _ (abs_turn_le _ _))

lemma counts_standard_real : counts HardwareProfile.standard (1.5 : ℝ) = 6000 := by
  have hvolts : (1.5 : ℝ) * 4000.0 = (6000 : ℕ) := by norm_num
  have hpos : (0.0 : ℝ) < (6000 : ℕ) := by norm_num
  have hrequested : (requestedCounts HardwareProfile.standard (1.5 : ℝ)).toNat = 6000 := by
    change (Scalar.toUInt64 (Scalar.atLeast 0.0 ((1.5 : ℝ) * 4000.0))).toNat = 6000
    rw [hvolts, Scalar.atLeast, if_pos hpos, toNat_toUInt64_natCast (by norm_num)]
  rw [← UInt32.toNat_inj, toNat_counts, hrequested]
  rfl

/-- A triangle of the standard profile. -/
theorem symmetric_signedSamples_standard :
    (HardwareProfile.standard : HardwareProfile ℝ).validate = .ok () ∧
      Symmetric 16384 6000
        ((signedSamples .standard ⟨.triangle, (1.5 : ℝ), 1000, 1000⟩).map Int32.toInt) := by
  have hshape : (⟨.triangle, 1.5, 1000, 1000⟩ : SignalSpec ℝ).shape = .triangle := rfl
  have haccepted := HardwareProfile.standard_accepted_real
  have hsymmetric := symmetric_signedSamples haccepted (by decide) (.inr hshape)
  rw [counts_standard_real] at hsymmetric
  exact ⟨haccepted, hsymmetric⟩

end Waveform

end ImpedanceBench

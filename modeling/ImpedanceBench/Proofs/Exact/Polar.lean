import Mathlib.Analysis.SpecialFunctions.Trigonometric.Angle
import ImpedanceBench.Impedance
import ImpedanceBench.Proofs.Exact.Reals

/-!
Impedances in exact arithmetic. The components of a trace are a complex number, and what is computed
from those of voltage and current by amplitudes, phases and wrapped degrees is their quotient.
-/

namespace ImpedanceBench

open Real

namespace Components

/-- The components as the number `x + y j`. -/
def complex (c : Components ℝ) : ℂ := ⟨c.x, c.y⟩

lemma amplitude_real (c : Components ℝ) : c.amplitude = ‖c.complex‖ :=
  (Complex.norm_eq_sqrt_sq_add_sq c.complex).symm

lemma phase_real (c : Components ℝ) : c.phase = c.complex.arg := rfl

lemma complex_polar (a θ : ℝ) :
    complex ⟨a * cos θ, a * sin θ⟩ = a * Complex.exp (θ * Complex.I) := by
  apply Complex.ext
  · rw [Complex.re_ofReal_mul, Complex.exp_ofReal_mul_I_re, complex]
  · rw [Complex.im_ofReal_mul, Complex.exp_ofReal_mul_I_im, complex]

/-- Both components times the same number. -/
def scale (k : ℝ) (c : Components ℝ) : Components ℝ := ⟨k * c.x, k * c.y⟩

lemma complex_scale (k : ℝ) (c : Components ℝ) : (c.scale k).complex = k * c.complex := by
  apply Complex.ext <;> simp [complex, scale]

variable {k : ℝ} (hk : 0 < k) (c : Components ℝ)

include hk

lemma amplitude_scale : (c.scale k).amplitude = k * c.amplitude := by
  rw [amplitude_real, amplitude_real, complex_scale, norm_mul, Complex.norm_of_nonneg hk.le]

lemma phase_scale : (c.scale k).phase = c.phase := by
  rw [phase_real, phase_real, complex_scale, Complex.arg_real_mul _ hk]

end Components

namespace ImpedancePoint

/-- An angle is wrapped by whole turns. -/
lemma wrapPhase_real (degrees : ℝ) :
    wrapPhase degrees = toIocMod (show (0 : ℝ) < 360 by norm_num) (-180) degrees := by
  have hturn : (360.0 : ℝ) = 360 := by norm_num
  have hhalf : (180.0 : ℝ) = 180 := by norm_num
  have hpos : (0 : ℝ) < 360 := by norm_num
  have hrem := Scalar.remEuclid_real hpos degrees
  rw [wrapPhase, hturn, hhalf, hrem]
  obtain ⟨⟨hlow, hhigh⟩, z, hz⟩ := (toIcoMod_eq_iff hpos).1 (rfl : toIcoMod hpos 0 degrees = _)
  symm
  rw [toIocMod_eq_iff]
  split
  · refine ⟨⟨by linarith, by linarith⟩, z + 1, ?_⟩
    rw [add_zsmul, one_zsmul]
    linarith
  · exact ⟨⟨by linarith, by linarith⟩, z, hz⟩

/-- To wrap degrees is to wrap radians. -/
lemma wrapPhase_toDegrees (θ : ℝ) :
    wrapPhase (Scalar.toDegrees θ) = Scalar.toDegrees (toIocMod two_pi_pos (-π) θ) := by
  obtain ⟨⟨hlow, hhigh⟩, z, hz⟩ :=
    (toIocMod_eq_iff two_pi_pos).1 (rfl : toIocMod two_pi_pos (-π) θ = _)
  have hscale : π * (180 / π) = 180 := mul_div_cancel₀ 180 pi_ne_zero
  have hpos : 0 < 180 / π := by positivity
  rw [wrapPhase_real, toIocMod_eq_iff, Scalar.toDegrees_real, Scalar.toDegrees_real]
  refine ⟨⟨?_, ?_⟩, z, ?_⟩
  · nlinarith
  · nlinarith
  · nth_rewrite 1 [hz]
    rw [zsmul_eq_mul, zsmul_eq_mul]
    linear_combination 2 * z * hscale

/-- The point that shows an impedance. -/
noncomputable def ofComplex (frequency : ℝ) (z : ℂ) : ImpedancePoint ℝ :=
  ⟨frequency, z.re, z.im, ‖z‖, Scalar.toDegrees z.arg⟩

/-- The phase of a quotient is the difference of the phases, wrapped. -/
lemma wrapPhase_arg_sub_arg {v i : ℂ} (hv : v ≠ 0) (hi : i ≠ 0) :
    wrapPhase (Scalar.toDegrees (v.arg - i.arg)) = Scalar.toDegrees (v / i).arg := by
  have hangle : ((v.arg - i.arg : ℝ) : Angle) = ((v / i).arg : Angle) := by
    rw [Complex.arg_div_coe_angle hv hi, Angle.coe_sub]
  obtain ⟨z, hz⟩ := Angle.angle_eq_iff_two_pi_dvd_sub.1 hangle
  have hwrap : toIocMod two_pi_pos (-π) (v.arg - i.arg) = (v / i).arg := by
    rw [toIocMod_eq_iff]
    refine ⟨?_, z, ?_⟩
    · have harg := Complex.arg_mem_Ioc (v / i)
      rwa [show -π + 2 * π = π by ring]
    · rw [zsmul_eq_mul]
      linear_combination hz
  rw [wrapPhase_toDegrees, hwrap]

/-- Back from degrees. -/
lemma toRadians_toDegrees (θ : ℝ) : Scalar.toRadians (Scalar.toDegrees θ) = θ := by
  rw [Scalar.toRadians_real, Scalar.toDegrees_real]
  field_simp

lemma estimate_of_not_positive {α : Type} [Scalar α] {voltage current : Components α}
    (h : Scalar.positive current.amplitude = false) (frequency : α) :
    estimate frequency voltage current = .error (.noCurrent frequency) := by
  rw [estimate, h]
  rfl

variable {frequency : ℝ} {voltage current : Components ℝ}

lemma estimate_of_amplitude_eq_zero (h : current.amplitude = 0) :
    estimate frequency voltage current = .error (.noCurrent frequency) := by
  refine estimate_of_not_positive ?_ frequency
  rw [Scalar.positive_eq_decide, h, decide_eq_false_iff_not]
  exact lt_irrefl 0

lemma estimate_of_amplitude_pos (h : 0 < current.amplitude) :
    estimate frequency voltage current = .ok (
      let magnitude := voltage.amplitude / current.amplitude
      let phase := wrapPhase (Scalar.toDegrees (voltage.phase - current.phase))
      ⟨frequency, magnitude * cos (Scalar.toRadians phase),
        magnitude * sin (Scalar.toRadians phase), magnitude, phase⟩) := by
  rw [estimate, if_pos ((Scalar.positive_real _).2 h)]
  rfl

/-- **The impedance is the quotient** of voltage and current, as long as neither of them is zero. -/
theorem estimate_eq_ofComplex (hv : voltage.complex ≠ 0) (hi : current.complex ≠ 0) :
    estimate frequency voltage current =
      .ok (ofComplex frequency (voltage.complex / current.complex)) := by
  have hpos : 0 < current.amplitude := by
    rw [Components.amplitude_real]
    exact norm_pos_iff.2 hi
  rw [estimate_of_amplitude_pos hpos]
  simp only [Components.amplitude_real, Components.phase_real, wrapPhase_arg_sub_arg hv hi,
    toRadians_toDegrees, ← norm_div, Complex.norm_mul_cos_arg, Complex.norm_mul_sin_arg, ofComplex]

lemma ofComplex_polar (frequency : ℝ) {a : ℝ} (ha : 0 < a) (θ : ℝ) :
    ofComplex frequency (a * Complex.exp (θ * Complex.I)) =
      ⟨frequency, a * cos θ, a * sin θ, a, wrapPhase (Scalar.toDegrees θ)⟩ := by
  rw [ofComplex, wrapPhase_toDegrees, Complex.arg_real_mul _ ha, Complex.arg_exp_mul_I, norm_mul,
    Complex.norm_of_nonneg ha.le, Complex.norm_exp_ofReal_mul_I, mul_one, Complex.re_ofReal_mul,
    Complex.im_ofReal_mul, Complex.exp_ofReal_mul_I_re, Complex.exp_ofReal_mul_I_im]

/-- Amplitudes are divided and phases subtracted. -/
lemma estimate_polar (frequency : ℝ) {a b : ℝ} (ha : 0 < a) (hb : 0 < b) (p r : ℝ) :
    estimate frequency ⟨a * cos p, a * sin p⟩ ⟨b * cos r, b * sin r⟩ =
      .ok ⟨frequency, a / b * cos (p - r), a / b * sin (p - r), a / b,
        wrapPhase (Scalar.toDegrees (p - r))⟩ := by
  have hne {c : ℝ} (hc : 0 < c) (θ : ℝ) : (c : ℂ) * Complex.exp (θ * Complex.I) ≠ 0 :=
    mul_ne_zero (Complex.ofReal_ne_zero.2 hc.ne') (Complex.exp_ne_zero _)
  have hquotient : (a : ℂ) * Complex.exp (p * Complex.I) / (b * Complex.exp (r * Complex.I)) =
      (a / b : ℝ) * Complex.exp ((p - r : ℝ) * Complex.I) := by
    rw [mul_div_mul_comm, ← Complex.exp_sub, ← sub_mul, ← Complex.ofReal_sub, ← Complex.ofReal_div]
  have hv := Components.complex_polar a p
  have hi := Components.complex_polar b r
  rw [estimate_eq_ofComplex (hv ▸ hne ha p) (hi ▸ hne hb r), hv, hi, hquotient,
    ofComplex_polar _ (div_pos ha hb)]

end ImpedancePoint

end ImpedanceBench

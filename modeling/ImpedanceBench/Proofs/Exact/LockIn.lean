import ImpedanceBench.Proofs.Exact.Polar

/-!
The lock-in in exact arithmetic. Both rules of integration only pass a positive factor of a trace on
to the components: areas whose signs are dropped are not additive. That is enough for a resistance
to be read exactly, whatever the traces and the references are.
-/

namespace ImpedanceBench

namespace LockIn

lemma steps_map {α β : Type} (f : α → β) (xs : List α) :
    steps (xs.map f) = (steps xs).map (Prod.map f f) := by
  rw [steps, steps, ← List.map_tail, List.zip_map]

/-- A factor of the values that is one of every area is one of the integral. -/
lemma integral_scale {area : ℝ × ℝ → ℝ × ℝ → ℝ} {k c : ℝ}
    (h : ∀ f t, area (Prod.map (k * ·) (k * ·) f) t = c * area f t) (values times : List ℝ) :
    integral area (values.map (k * ·)) times = c * integral area values times := by
  have hareas : List.zipWith area (steps (values.map (k * ·))) (steps times) =
      (List.zipWith area (steps values) (steps times)).map (c * ·) := by
    rw [steps_map, List.zipWith_map_left, List.map_zipWith]
    simp only [h]
  rw [integral, integral, hareas, Scalar.sum_real, Scalar.sum_real, List.sum_map_mul_left,
    List.map_id']

/-- The movement drops the sign of a factor. -/
lemma movement_scale (k : ℝ) (values times : List ℝ) :
    movement (values.map (k * ·)) times = |k| * movement values times := by
  refine integral_scale (fun f t => ?_) values times
  have harea (w c : ℝ) : w * (k * f.1 - k * f.2) / c = k * (w * (f.1 - f.2) / c) := by ring
  change |_ * (k * f.1 - k * f.2) / _| = |k| * |_|
  rw [harea, abs_mul]

lemma trapezoid_scale (k : ℝ) (values times : List ℝ) :
    trapezoid (values.map (k * ·)) times = k * trapezoid values times := by
  refine integral_scale (fun f t => ?_) values times
  have harea (w c : ℝ) : w * (k * f.1 + k * f.2) / c = k * (w * (f.1 + f.2) / c) := by ring
  exact harea _ _

/-- A factor of a trace is one of what is mixed from it. -/
lemma mix_scale (k : ℝ) (trace reference : List ℝ) :
    List.zipWith (· * ·) (trace.map (k * ·)) reference =
      (List.zipWith (· * ·) trace reference).map (k * ·) := by
  rw [List.zipWith_map_left, List.map_zipWith]
  simp only [mul_assoc]

variable {k : ℝ} (hk : 0 < k)

include hk

lemma integrate_scale (rule : IntegrationRule) (values times : List ℝ) :
    integrate rule (values.map (k * ·)) times = k * integrate rule values times := by
  cases rule with
  | absoluteSegments => exact (movement_scale k values times).trans (by rw [abs_of_pos hk]; rfl)
  | signed => exact trapezoid_scale k values times

/-- A positive factor of a trace is one of its components. -/
lemma components_scale (l : LockIn ℝ) (trace : List ℝ) :
    l.components (trace.map (k * ·)) = (l.components trace).scale k := by
  rw [components, components, mix_scale, mix_scale, integrate_scale hk, integrate_scale hk,
    Components.scale]

end LockIn

/-- A pair of components shows a resistance: the voltage's are the resistance times the current's,
and the impedance is this resistance unless there is no current to divide by. -/
structure Resists (R : ℝ) (voltage current : Components ℝ) : Prop where
  inPhase : voltage.x = R * current.x
  quadrature : voltage.y = R * current.y
  estimate : current.amplitude ≠ 0 → ∀ frequency : ℝ,
    ImpedancePoint.estimate frequency voltage current = .ok ⟨frequency, R, 0, R, 0⟩

lemma Resists.of_scale {R : ℝ} (hR : 0 < R) (current : Components ℝ) :
    Resists R (current.scale R) current where
  inPhase := rfl
  quadrature := rfl
  estimate hcurrent frequency := by
    have hi : current.complex ≠ 0 := by
      rwa [Components.amplitude_real, norm_ne_zero_iff] at hcurrent
    have hquotient : (current.scale R).complex / current.complex = R := by
      rw [Components.complex_scale, mul_div_cancel_right₀ _ hi]
    have hv : (current.scale R).complex ≠ 0 := by
      rw [Components.complex_scale]
      exact mul_ne_zero (Complex.ofReal_ne_zero.2 hR.ne') hi
    rw [ImpedancePoint.estimate_eq_ofComplex hv hi, hquotient, ImpedancePoint.ofComplex,
      Complex.arg_ofReal_of_nonneg hR.le, Complex.norm_of_nonneg hR.le, Scalar.toDegrees_real,
      zero_mul, Complex.ofReal_re, Complex.ofReal_im]

/-- **A resistance is read exactly.** Where every sample of the voltage is the resistance times the
current's, every window shows it: any references on any time axis, by either rule of integration,
and so those of a demodulation. -/
theorem LockIn.resists_of_ohm {R : ℝ} (hR : 0 < R) {voltage current : List ℝ}
    (hohm : List.Forall₂ (fun v i => v = R * i) voltage current) :
    (∀ l : LockIn ℝ, Resists R (l.components voltage) (l.components current)) ∧
      ∀ (angularFrequency samplePeriod : ℝ) (rule : IntegrationRule),
        Resists R (demodulate voltage current angularFrequency samplePeriod rule).1
          (demodulate voltage current angularFrequency samplePeriod rule).2 := by
  have hvoltage : voltage = current.map (R * ·) := by
    rwa [← List.forall₂_eq_eq_eq, List.forall₂_map_right_iff]
  have hwindow (l : LockIn ℝ) : Resists R (l.components voltage) (l.components current) := by
    rw [hvoltage, components_scale hR]
    exact .of_scale hR _
  exact ⟨hwindow, fun _ _ _ => hwindow _⟩

/-- A window of three samples with constants for references, integrated without signs. -/
def LockIn.level : LockIn ℝ := ⟨.absoluteSegments, [-1, 0, 1], [1, 1, 1], [0, 0, 0]⟩

lemma LockIn.amplitude_level_pulse : (level.components [0, 1, 0]).amplitude ≠ 0 := by
  have htwo : (2.0 : ℝ) = 2 := by norm_num
  have hx : (level.components [0, 1, 0]).x = 1 := by
    change Scalar.sum
      [|(0 - -1) * (0 * 1 - 1 * 1) / 2.0|, |(1 - 0) * (1 * 1 - 0 * 1) / 2.0|] = (1 : ℝ)
    rw [htwo, Scalar.sum_real]
    norm_num
  rw [Components.amplitude_real, norm_ne_zero_iff]
  intro hzero
  exact one_ne_zero (hx.symm.trans (congrArg Complex.re hzero))

/-- A pulse through two ohms. -/
theorem LockIn.resists_of_ohm_pulse :
    ImpedancePoint.estimate 50 (level.components [0, 2, 0]) (level.components [0, 1, 0]) =
      .ok ⟨50, 2, 0, 2, 0⟩ := by
  have hohm : List.Forall₂ (fun v i : ℝ => v = 2 * i) [0, 2, 0] [0, 1, 0] := by norm_num
  exact ((LockIn.resists_of_ohm two_pos hohm).1 level).estimate amplitude_level_pulse 50

end ImpedanceBench

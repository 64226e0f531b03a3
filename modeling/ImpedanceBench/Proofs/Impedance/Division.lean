import ImpedanceBench.Proofs.Exact.Proportion
import ImpedanceBench.Proofs.Impedance.Phase

/-!
Impedances as quotients. Amplitudes are divided and phases subtracted, wrapped and turned back into
two components; in exact arithmetic that is the division of two complex numbers, in every quadrant
and also where the difference of the phases is more than half a turn. A voltage of zero has a phase
as well and gives an impedance of zero. Without a current there is no impedance.
-/

namespace ImpedanceBench

namespace Double

lemma isInf_or_isNaN_abs {x : Float} (h : x.isFinite = false) :
    x.abs.isInf = true ∨ x.abs.isNaN = true := by
  have hfinite : x.toModel.unpack.isFinite = false := h
  have habs : x.abs = Float.ofModel (Float.Model.pack x.toModel.unpack.abs) := rfl
  rw [habs]
  rcases hx : x.toModel.unpack with (_ | _) | _ | _ | _ <;> rw [hx] at hfinite
  · exact .inl rfl
  · exact .inl rfl
  · exact .inr rfl
  · cases hfinite
  · cases hfinite

lemma zero_cases {x : Float} (h : value? x = some 0) : x = 0.0 ∨ x = -0.0 := by
  obtain ⟨_ | _, hx⟩ := unpack_of_value_zero h
  · exact .inr (eq_of_unpack_eq hx)
  · exact .inl (eq_of_unpack_eq hx)

/-- A side that is infinite or undefined has no finite hypotenuse. -/
lemma isFinite_hypot {x y : Float} (h : x.isFinite = false ∨ y.isFinite = false) :
    (hypot x y).isFinite = false := by
  have hsides : (x.abs.isInf || y.abs.isInf) = true ∨ (x.abs.isNaN || y.abs.isNaN) = true := by
    simp only [Bool.or_eq_true]
    rcases h with h | h <;> rcases isInf_or_isNaN_abs h with h | h <;>
      simp only [h, true_or, or_true]
  unfold hypot
  dsimp only
  by_cases hinf : (x.abs.isInf || y.abs.isInf) = true
  · rw [if_pos hinf]
    rfl
  · rw [if_neg hinf, if_pos (hsides.resolve_left hinf)]
    rfl

end Double

namespace ImpedancePoint

lemma estimate_of_not_finite {α : Type} [Scalar α] {voltage current : Components α}
    (h : Scalar.finite current.amplitude = false) (frequency : α) :
    estimate frequency voltage current = .error (.noCurrent frequency) := by
  refine estimate_of_not_positive ?_ frequency
  rw [Scalar.positive, h, Bool.and_false]

/-- Doubles that are no current: both are zero, or one of them is infinite or undefined. -/
inductive NoCurrent (current : Components Float) : Prop
  | zero (x : Double.value? current.x = some 0) (y : Double.value? current.y = some 0)
  | notFinite (h : current.x.isFinite = false ∨ current.y.isFinite = false)

lemma NoCurrent.estimate {current : Components Float} (h : NoCurrent current) (frequency : Float)
    (voltage : Components Float) :
    estimate frequency voltage current = .error (.noCurrent frequency) := by
  cases h with
  | zero hx hy =>
    refine estimate_of_not_positive ?_ frequency
    change Scalar.positive (Double.hypot current.x current.y) = false
    rcases Double.zero_cases hx with hx | hx <;> rcases Double.zero_cases hy with hy | hy <;>
      rw [hx, hy] <;> decide +kernel
  | notFinite h => exact estimate_of_not_finite (Double.isFinite_hypot h) frequency

/-- The point of a voltage and a current at a frequency: their quotient, in both forms. -/
structure Divides (frequency : ℝ) (voltage current : Components ℝ) (p : ImpedancePoint ℝ) :
    Prop where
  own : p.frequency = frequency
  real : p.realOhms =
    (voltage.x * current.x + voltage.y * current.y) / (current.x ^ 2 + current.y ^ 2)
  imag : p.imagOhms =
    (voltage.y * current.x - voltage.x * current.y) / (current.x ^ 2 + current.y ^ 2)
  nonneg : 0 ≤ p.magnitudeOhms
  magnitude : p.magnitudeOhms ^ 2 = p.realOhms ^ 2 + p.imagOhms ^ 2
  low : -180 < p.phase
  high : p.phase ≤ 180
  phase : ¬(p.realOhms = 0 ∧ p.imagOhms = 0) →
    p.phase = Scalar.toDegrees (Scalar.atan2 p.imagOhms p.realOhms)

variable {frequency : ℝ} {voltage current : Components ℝ}

lemma complex_ne_zero (h : ¬(current.x = 0 ∧ current.y = 0)) : current.complex ≠ 0 := by
  intro hzero
  exact h ⟨congrArg Complex.re hzero, congrArg Complex.im hzero⟩

/-- A quotient that is not zero has the phase of its components. -/
lemma divides_ofComplex (hv : voltage.complex ≠ 0) (hi : current.complex ≠ 0) :
    Divides frequency voltage current
      (ofComplex frequency (voltage.complex / current.complex)) := by
  have hphase := wraps_wrapPhase (Scalar.toDegrees (voltage.complex.arg - current.complex.arg))
  rw [wrapPhase_arg_sub_arg hv hi] at hphase
  constructor
  · rfl
  · change (voltage.complex / current.complex).re = _
    rw [Complex.div_re, Complex.normSq_apply, ← add_div, pow_two, pow_two]
    rfl
  · change (voltage.complex / current.complex).im = _
    rw [Complex.div_im, Complex.normSq_apply, ← sub_div, pow_two, pow_two]
    rfl
  · exact norm_nonneg _
  · change ‖_‖ ^ 2 = _ ^ 2 + _ ^ 2
    rw [Complex.sq_norm, Complex.normSq_apply, pow_two, pow_two]
    rfl
  · exact hphase.low
  · exact hphase.high
  · intro _
    rfl

/-- A voltage of zero is divided too. -/
lemma divides_of_zero (hv : voltage.complex = 0) (phase : ℝ) :
    Divides frequency voltage current ⟨frequency, 0, 0, 0, wrapPhase phase⟩ := by
  have hx : voltage.x = 0 := congrArg Complex.re hv
  have hy : voltage.y = 0 := congrArg Complex.im hv
  obtain ⟨hlow, hhigh, -⟩ := wraps_wrapPhase phase
  constructor
  · rfl
  · simp [hx, hy]
  · simp [hx, hy]
  · exact le_rfl
  · norm_num
  · exact hlow
  · exact hhigh
  · intro hne
    exact absurd ⟨rfl, rfl⟩ hne

lemma exists_divides (h : ¬(current.x = 0 ∧ current.y = 0)) :
    ∃ p, estimate frequency voltage current = .ok p ∧ Divides frequency voltage current p := by
  have hi := complex_ne_zero h
  by_cases hv : voltage.complex = 0
  · have hpos : 0 < current.amplitude := by
      rw [Components.amplitude_real]
      exact norm_pos_iff.2 hi
    have hnone : voltage.amplitude = 0 := by
      rw [Components.amplitude_real, hv, norm_zero]
    refine ⟨_, estimate_of_amplitude_pos hpos, ?_⟩
    simp only [hnone, zero_div, zero_mul]
    exact divides_of_zero hv _
  · exact ⟨_, estimate_eq_ofComplex hv hi, divides_ofComplex hv hi⟩

/-- A common factor of voltage and current cancels. -/
lemma estimate_scale {k : ℝ} (hk : 0 < k) (frequency : ℝ) (voltage current : Components ℝ) :
    estimate frequency (voltage.scale k) (current.scale k) = estimate frequency voltage current := by
  have hscaled := proportional_estimate hk hk frequency voltage current
  rw [div_self hk.ne'] at hscaled
  generalize estimate frequency voltage current = first,
    estimate frequency (voltage.scale k) (current.scale k) = second at hscaled ⊢
  cases hscaled with
  | noCurrent => rfl
  | point p => simp [scale]

/-- **Estimation is division.** In exact arithmetic every current that is not zero gives the quotient
of voltage and current, by its components as well as by its amplitude and phase, and a common factor
cancels. There is no impedance of a current that is zero, or whose amplitude is not finite. -/
theorem estimate_divides :
    (∀ (frequency : ℝ) (voltage current : Components ℝ), ¬(current.x = 0 ∧ current.y = 0) →
      ∃ p, estimate frequency voltage current = .ok p ∧
        Divides frequency voltage current p) ∧
    (∀ k : ℝ, 0 < k → ∀ (frequency : ℝ) (voltage current : Components ℝ),
      estimate frequency (voltage.scale k) (current.scale k) =
        estimate frequency voltage current) ∧
    (∀ (frequency : ℝ) (voltage : Components ℝ),
      estimate frequency voltage ⟨0, 0⟩ = .error (.noCurrent frequency)) ∧
    (∀ {α : Type} [Scalar α] (frequency : α) (voltage current : Components α),
      Scalar.finite current.amplitude = false →
        estimate frequency voltage current = .error (.noCurrent frequency)) ∧
    ∀ (frequency : Float) (voltage current : Components Float), NoCurrent current →
      estimate frequency voltage current = .error (.noCurrent frequency) := by
  refine ⟨fun _ _ _ => exists_divides, fun _ => estimate_scale, fun frequency voltage => ?_,
    fun frequency _ _ h => estimate_of_not_finite h frequency,
    fun frequency voltage _ h => h.estimate frequency voltage⟩
  refine estimate_of_amplitude_eq_zero ?_
  rw [Components.amplitude_real]
  exact norm_eq_zero.2 rfl

/-- A voltage three quarters of a turn ahead of the current is a quarter of a turn behind it. -/
theorem estimate_divides_wrapped : ¬((-1 : ℝ) = 0 ∧ (-1 : ℝ) = 0) ∧
    ∃ p, estimate (50 : ℝ) ⟨-1, 1⟩ ⟨-1, -1⟩ = .ok p ∧ p.realOhms = 0 ∧ p.imagOhms = -1 ∧
      p.magnitudeOhms = 1 ∧ p.phase = -90 := by
  have hcurrent : ¬((-1 : ℝ) = 0 ∧ (-1 : ℝ) = 0) := by norm_num
  obtain ⟨p, hp, hdivides⟩ := estimate_divides.1 50 ⟨-1, 1⟩ ⟨-1, -1⟩ hcurrent
  have hreal : p.realOhms = 0 := hdivides.real.trans (by norm_num)
  have himag : p.imagOhms = -1 := hdivides.imag.trans (by norm_num)
  refine ⟨hcurrent, p, hp, hreal, himag, ?_, ?_⟩
  · have hsquare := hdivides.magnitude
    rw [hreal, himag] at hsquare
    exact (pow_left_inj₀ hdivides.nonneg zero_le_one two_ne_zero).1 (by linarith)
  · have harg : Complex.arg ⟨0, -1⟩ = -(Real.pi / 2) := by
      have hdown : (⟨0, -1⟩ : ℂ) = -Complex.I := by
        apply Complex.ext <;> simp
      rw [hdown, Complex.arg_neg_I]
    have hphase := hdivides.phase (by simp [himag])
    rw [hreal, himag] at hphase
    change _ = Scalar.toDegrees (Complex.arg ⟨0, -1⟩) at hphase
    rw [hphase, harg, Scalar.toDegrees_real]
    field_simp
    norm_num

end ImpedancePoint

end ImpedanceBench

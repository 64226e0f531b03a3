import ImpedanceBench.Proofs.Exact.LockIn

/-!
The rule of absolute segments in exact arithmetic. An area without a sign is not negative and is
that of the negated trace, so the components of every trace lie in the first quadrant. Two phases in
it are at most a quarter of a turn apart: no reading has a negative resistance, and a trace in
antiphase reads as one in phase.
-/

namespace ImpedanceBench

open Real

/-- Both components are positive or zero. -/
structure Components.FirstQuadrant (c : Components ℝ) : Prop where
  inPhase : 0 ≤ c.x
  quadrature : 0 ≤ c.y

lemma Components.FirstQuadrant.phase_mem {c : Components ℝ} (h : c.FirstQuadrant) :
    0 ≤ c.phase ∧ c.phase ≤ π / 2 := by
  rw [phase_real]
  exact ⟨Complex.arg_nonneg_iff.2 h.quadrature,
    (abs_le.1 (Complex.abs_arg_le_pi_div_two_iff.2 h.inPhase)).2⟩

namespace LockIn

lemma movement_nonneg (values times : List ℝ) : 0 ≤ movement values times := by
  rw [movement, integral, Scalar.sum_real, ← List.map_uncurry_zip_eq_zipWith]
  refine List.sum_nonneg fun a ha => ?_
  obtain ⟨⟨f, t⟩, -, rfl⟩ := List.mem_map.1 ha
  exact abs_nonneg _

variable {l : LockIn ℝ} (absolute : l.rule = .absoluteSegments)

include absolute

lemma firstQuadrant_components (trace : List ℝ) : (l.components trace).FirstQuadrant := by
  constructor <;> simp only [components, absolute, integrate, movement_nonneg]

/-- The sign of a factor is lost. -/
lemma components_scale_abs (k : ℝ) (trace : List ℝ) :
    l.components (trace.map (k * ·)) = (l.components trace).scale |k| := by
  simp only [components, absolute, integrate, mix_scale, movement_scale, Components.scale]

lemma components_neg (trace : List ℝ) :
    l.components (trace.map (- ·)) = l.components trace := by
  have hscale := components_scale_abs absolute (-1) trace
  simpa only [neg_one_mul, abs_neg, abs_one, one_mul, Components.scale] using hscale

end LockIn

namespace ImpedancePoint

/-- A reading at a frequency that shows no current, or a point in the right half plane. -/
inductive InRightHalf (frequency : ℝ) : Except (Failure ℝ) (ImpedancePoint ℝ) → Prop
  | noCurrent : InRightHalf frequency (.error (.noCurrent frequency))
  | point (p : ImpedancePoint ℝ) (own : p.frequency = frequency) (low : -90 ≤ p.phase)
      (high : p.phase ≤ 90) (real : 0 ≤ p.realOhms) : InRightHalf frequency (.ok p)

/-- An angle within half a turn needs no wrapping. -/
lemma wrapPhase_of_mem {θ : ℝ} (hlow : -π < θ) (hhigh : θ ≤ π) :
    wrapPhase (Scalar.toDegrees θ) = Scalar.toDegrees θ := by
  have hself : toIocMod two_pi_pos (-π) θ = θ :=
    (toIocMod_eq_self _).2 ⟨hlow, hhigh.trans_eq (by ring)⟩
  rw [wrapPhase_toDegrees, hself]

/-- Components in the first quadrant show a point in the right half plane. -/
lemma inRightHalf_estimate {voltage current : Components ℝ} (hv : voltage.FirstQuadrant)
    (hi : current.FirstQuadrant) (frequency : ℝ) :
    InRightHalf frequency (estimate frequency voltage current) := by
  have hnonneg (c : Components ℝ) : 0 ≤ c.amplitude := by
    rw [Components.amplitude_real]
    exact norm_nonneg _
  obtain hzero | hpos := (hnonneg current).eq_or_lt'
  · rw [estimate_of_amplitude_eq_zero hzero]
    exact .noCurrent
  obtain ⟨hvlow, hvhigh⟩ := hv.phase_mem
  obtain ⟨hilow, hihigh⟩ := hi.phase_mem
  have hpi := pi_pos
  have hlow : -(π / 2) ≤ voltage.phase - current.phase := by linarith
  have hhigh : voltage.phase - current.phase ≤ π / 2 := by linarith
  have hquarter : π / 2 * (180 / π) = 90 := by
    field_simp
    norm_num
  have hdegree : 0 ≤ 180 / π := by positivity
  rw [estimate_of_amplitude_pos hpos, wrapPhase_of_mem (by linarith) (by linarith)]
  dsimp only
  rw [toRadians_toDegrees]
  refine .point _ rfl ?_ ?_ ?_
  · have hscaled := mul_le_mul_of_nonneg_right hlow hdegree
    rwa [neg_mul, hquarter, ← Scalar.toDegrees_real] at hscaled
  · have hscaled := mul_le_mul_of_nonneg_right hhigh hdegree
    rwa [hquarter, ← Scalar.toDegrees_real] at hscaled
  · exact mul_nonneg (div_nonneg (hnonneg _) (hnonneg _))
      (cos_nonneg_of_neg_pi_div_two_le_of_le hlow hhigh)

end ImpedancePoint

/-- A demodulation of voltage and current that folds what it reads into the right half plane. -/
structure LockIn.Folds (demodulation : List ℝ → List ℝ → Components ℝ × Components ℝ) : Prop where
  voltage : ∀ u i, (demodulation u i).1.FirstQuadrant
  current : ∀ u i, (demodulation u i).2.FirstQuadrant
  neg_voltage : ∀ u i, demodulation (u.map (- ·)) i = demodulation u i
  neg_current : ∀ u i, demodulation u (i.map (- ·)) = demodulation u i
  estimate : ∀ (frequency : ℝ) (u i : List ℝ), ImpedancePoint.InRightHalf frequency
    (ImpedancePoint.estimate frequency (demodulation u i).1 (demodulation u i).2)

namespace LockIn

/-- Negating a trace may not change its window. -/
lemma folds_of_window (window : List ℝ → List ℝ → LockIn ℝ)
    (absolute : ∀ u i, (window u i).rule = .absoluteSegments)
    (hv : ∀ u i, window (u.map (- ·)) i = window u i)
    (hi : ∀ u i, window u (i.map (- ·)) = window u i) :
    Folds fun u i => ((window u i).components u, (window u i).components i) where
  voltage u i := firstQuadrant_components (absolute u i) u
  current u i := firstQuadrant_components (absolute u i) i
  neg_voltage u i := by rw [hv, components_neg (absolute u i)]
  neg_current u i := by rw [hi, components_neg (absolute u i)]
  estimate frequency u i := ImpedancePoint.inRightHalf_estimate
    (firstQuadrant_components (absolute u i) u) (firstQuadrant_components (absolute u i) i) frequency

/-- **Absolute segments fold every reading into the right half plane.** Whatever the references and
the traces are, all components are positive or zero and are those of the negated trace, and the
impedance has a phase of at most 90 degrees either way and a resistance that is not negative. -/
theorem folds_of_absolute :
    (∀ l : LockIn ℝ, l.rule = .absoluteSegments →
      Folds fun u i => (l.components u, l.components i)) ∧
    ∀ angularFrequency samplePeriod : ℝ,
      Folds fun u i => demodulate u i angularFrequency samplePeriod .absoluteSegments := by
  refine ⟨fun l absolute => folds_of_window (fun _ _ => l) (fun _ _ => absolute)
    (fun _ _ => rfl) fun _ _ => rfl, fun angularFrequency samplePeriod => ?_⟩
  refine folds_of_window (fun u i => make (max u.length i.length) angularFrequency samplePeriod
    .absoluteSegments) (fun _ _ => rfl) (fun u i => ?_) fun u i => ?_
  · rw [List.length_map]
  · rw [List.length_map]

/-- A current through two ohms whose voltage has the wrong sign reads as two ohms all the same. -/
theorem folds_of_absolute_antiphase :
    ImpedancePoint.estimate 50 (level.components [0, -2, 0]) (level.components [0, 1, 0]) =
      .ok ⟨50, 2, 0, 2, 0⟩ := by
  have hnegated : ([0, -2, 0] : List ℝ) = ([0, 2, 0] : List ℝ).map (- ·) := by norm_num
  have hvoltage : ([0, 2, 0] : List ℝ) = ([0, 1, 0] : List ℝ).map (2 * ·) := by norm_num
  have hfolded := (folds_of_absolute.1 level rfl).neg_voltage [0, 2, 0] [0, 1, 0]
  rw [hnegated, (Prod.mk.inj hfolded).1, hvoltage, components_scale two_pos]
  exact (Resists.of_scale two_pos _).estimate amplitude_level_pulse 50

end LockIn

end ImpedanceBench

import ImpedanceBench.Proofs.Exact.LockIn
import ImpedanceBench.Rig.Controller

/-!
What the scales of the fixture do to a reading in exact arithmetic. Volts per count are a factor of
voltage and current alike and cancel; the ohms of the shunt divide the current only, and so they are
a factor of the impedance.
-/

namespace ImpedanceBench

/-- What a window reads of an acquired trace. -/
def Trace.impedance {α : Type} [Scalar α] (t : Trace α) (scale : FixtureScale α) (requested : ℕ)
    (l : LockIn α) (frequency : α) : Except (Failure α) (ImpedancePoint α) := do
  let traces ← LoadTraces.ofTrace t scale requested
  ImpedancePoint.estimate frequency (l.components traces.voltage) (l.components traces.current)

/-- The rig reads its points so. -/
lemma Rig.Reading.point_eq (r : Rig.Reading) (t : Trace Float) :
    r.point t = t.impedance r.scale r.requested r.lockIn r.frequency := rfl

namespace ImpedancePoint

/-- Every resistance times the same number. -/
def scale (k : ℝ) (p : ImpedancePoint ℝ) : ImpedancePoint ℝ :=
  { p with
    realOhms := k * p.realOhms
    imagOhms := k * p.imagOhms
    magnitudeOhms := k * p.magnitudeOhms }

/-- The readings of two runs at a frequency: both find no current, or both are points, the second
one with `k` times the ohms and at the same phase. -/
inductive Proportional (k frequency : ℝ) :
    (first second : Except (Failure ℝ) (ImpedancePoint ℝ)) → Prop
  | noCurrent :
    Proportional k frequency (.error (.noCurrent frequency)) (.error (.noCurrent frequency))
  | point (p : ImpedancePoint ℝ) : Proportional k frequency (.ok p) (.ok (p.scale k))

lemma Proportional.unique {k frequency : ℝ}
    {first second other : Except (Failure ℝ) (ImpedancePoint ℝ)}
    (h : Proportional k frequency first second) (hother : Proportional k frequency first other) :
    second = other := by
  cases h with
  | noCurrent =>
    cases hother
    rfl
  | point p =>
    cases hother
    rfl

/-- Factors of voltage and current become their quotient. The voltage may be zero, and has a phase
then too. -/
lemma proportional_estimate {a b : ℝ} (ha : 0 < a) (hb : 0 < b) (frequency : ℝ)
    (voltage current : Components ℝ) :
    Proportional (a / b) frequency (estimate frequency voltage current)
      (estimate frequency (voltage.scale a) (current.scale b)) := by
  have hscaled := Components.amplitude_scale hb current
  have hnonneg : 0 ≤ current.amplitude := by
    rw [Components.amplitude_real]
    exact norm_nonneg _
  obtain hzero | hpos := hnonneg.eq_or_lt'
  · rw [estimate_of_amplitude_eq_zero hzero, estimate_of_amplitude_eq_zero]
    · exact .noCurrent
    · rw [hscaled, hzero, mul_zero]
  · have hbpos : 0 < (current.scale b).amplitude := by
      rw [hscaled]
      exact mul_pos hb hpos
    have hmagnitude : a * voltage.amplitude / (b * current.amplitude) =
        a / b * (voltage.amplitude / current.amplitude) := mul_div_mul_comm _ _ _ _
    rw [estimate_of_amplitude_pos hpos, estimate_of_amplitude_pos hbpos, hscaled,
      Components.amplitude_scale ha, Components.phase_scale ha, Components.phase_scale hb,
      hmagnitude]
    simp only [mul_assoc]
    exact .point _

end ImpedancePoint

/-- The load traces of a trace that validates: the scales are factors of those without any. -/
lemma LoadTraces.ofTrace_scale {t : Trace ℝ} {excitation shunt : ℕ}
    (hvalid : t.validate (max excitation shunt + 1) = .ok ()) (requested : ℕ) :
    ∃ unit : LoadTraces ℝ, ofTrace t ⟨excitation, shunt, 1, 1⟩ requested = .ok unit ∧
      ∀ volts ohms : ℝ, ofTrace t ⟨excitation, shunt, volts, ohms⟩ requested =
        .ok ⟨unit.voltage.map (volts * ·), unit.current.map (volts / ohms * ·)⟩ := by
  let before := (t.channel excitation).take requested
  let behind := (t.channel shunt).take requested
  have hscale (volts ohms : ℝ) : ofTrace t ⟨excitation, shunt, volts, ohms⟩ requested =
      .ok ⟨(List.zipWith (· - ·) before behind).map (volts * ·),
        behind.map (volts / ohms * ·)⟩ := by
    have hvoltage : List.zipWith (· - ·) (before.map (· * volts)) (behind.map (· * volts)) =
        (List.zipWith (· - ·) before behind).map (volts * ·) := by
      rw [List.zipWith_map, List.map_zipWith]
      simp only [mul_sub, mul_comm]
    have hcurrent : (behind.map (· * volts)).map (· / ohms) = behind.map (volts / ohms * ·) := by
      rw [List.map_map]
      refine List.map_congr_left fun x _ => ?_
      rw [Function.comp_apply]
      ring
    rw [ofTrace, hvalid, ← hvoltage, ← hcurrent]
    rfl
  refine ⟨⟨List.zipWith (· - ·) before behind, behind⟩, ?_, hscale⟩
  simpa only [div_one, one_mul, List.map_id'] using hscale 1 1

/-- Gain cancels and the shunt scales. -/
lemma Trace.proportional_impedance {t : Trace ℝ} {excitation shunt : ℕ}
    (hvalid : t.validate (max excitation shunt + 1) = .ok ()) (requested : ℕ) (l : LockIn ℝ)
    (frequency : ℝ) {volts ohms : ℝ} (hvolts : 0 < volts) (hohms : 0 < ohms) :
    ImpedancePoint.Proportional ohms frequency
      (t.impedance ⟨excitation, shunt, 1, 1⟩ requested l frequency)
      (t.impedance ⟨excitation, shunt, volts, ohms⟩ requested l frequency) := by
  obtain ⟨unit, hunit, hscale⟩ := LoadTraces.ofTrace_scale hvalid requested
  have hgain : 0 < volts / ohms := div_pos hvolts hohms
  have hratio : volts / (volts / ohms) = ohms := div_div_cancel₀ hvolts.ne'
  have h := ImpedancePoint.proportional_estimate hvolts hgain frequency (l.components unit.voltage)
    (l.components unit.current)
  rw [hratio, ← LockIn.components_scale hvolts, ← LockIn.components_scale hgain] at h
  rw [impedance, impedance, hunit, hscale]
  exact h

/-- The bias that validation admits leaves a positive scale. -/
lemma HardwareProfile.voltsPerCount_pos {p : HardwareProfile ℝ} {bias : ℝ}
    (h : bias < p.adcFullScale) : 0 < p.voltsPerCount bias :=
  div_pos (sub_pos.2 h) (zpow_pos two_pos _)

/-- **Only the shunt scales a reading.** A trace that validates reads the same at every positive
number of volts per count, and so at every DC bias below the full scale; the ohms it reads are in
proportion to those of the shunt. -/
theorem Trace.impedance_scales {t : Trace ℝ} {excitation shunt : ℕ}
    (hvalid : t.validate (max excitation shunt + 1) = .ok ()) (requested : ℕ) (l : LockIn ℝ)
    (frequency : ℝ) :
    (∀ volts ohms : ℝ, 0 < volts → 0 < ohms →
      ImpedancePoint.Proportional ohms frequency
        (t.impedance ⟨excitation, shunt, 1, 1⟩ requested l frequency)
        (t.impedance ⟨excitation, shunt, volts, ohms⟩ requested l frequency)) ∧
      ∀ (p q : HardwareProfile ℝ) (bias bias' ohms : ℝ), bias < p.adcFullScale →
        bias' < q.adcFullScale → 0 < ohms →
        t.impedance ⟨excitation, shunt, p.voltsPerCount bias, ohms⟩ requested l frequency =
          t.impedance ⟨excitation, shunt, q.voltsPerCount bias', ohms⟩ requested l frequency := by
  have hunit {volts ohms : ℝ} (hvolts : 0 < volts) (hohms : 0 < ohms) :=
    proportional_impedance hvalid requested l frequency hvolts hohms
  refine ⟨fun _ _ => hunit, fun p q bias bias' ohms hbias hbias' hohms => ?_⟩
  exact (hunit (HardwareProfile.voltsPerCount_pos hbias) hohms).unique
    (hunit (HardwareProfile.voltsPerCount_pos hbias') hohms)

/-- A pulse through two ohms, at half a volt per count and with a shunt of a hundred ohms. -/
theorem Trace.impedance_scales_pulse :
    (⟨[[0, 3, 0], [0, 1, 0]]⟩ : Trace ℝ).impedance ⟨0, 1, 1 / 2, 100⟩ 3 .level 50 =
      .ok ⟨50, 100 * 2, 100 * 0, 100 * 2, 0⟩ := by
  let t : Trace ℝ := ⟨[[0, 3, 0], [0, 1, 0]]⟩
  have hvoltage : List.zipWith (· - ·) [0 * 1, 3 * 1, 0 * 1] [0 * 1, 1 * 1, 0 * 1] =
      ([0, 1, 0].map (2 * ·) : List ℝ) := by norm_num
  have hcurrent : [0 * 1 / 1, 1 * 1 / 1, 0 * 1 / 1] = ([0, 1, 0] : List ℝ) := by norm_num
  have hunit : t.impedance ⟨0, 1, 1, 1⟩ 3 .level 50 = .ok ⟨50, 2, 0, 2, 0⟩ := by
    change ImpedancePoint.estimate 50
      (LockIn.level.components (List.zipWith (· - ·) [0 * 1, 3 * 1, 0 * 1] [0 * 1, 1 * 1, 0 * 1]))
      (LockIn.level.components [0 * 1 / 1, 1 * 1 / 1, 0 * 1 / 1]) = _
    rw [hvoltage, hcurrent, LockIn.components_scale two_pos]
    exact (Resists.of_scale two_pos _).estimate LockIn.amplitude_level_pulse 50
  have hvalid : t.validate (max 0 1 + 1) = .ok () := rfl
  have hscaled := (Trace.impedance_scales hvalid 3 .level 50).1 (1 / 2) 100 one_half_pos
    (by norm_num)
  rw [hunit] at hscaled
  exact hscaled.unique (.point _)

end ImpedanceBench

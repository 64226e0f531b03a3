import Mathlib.Analysis.Calculus.Deriv.MeanValue
import Mathlib.Analysis.SpecialFunctions.ExpDeriv
import Mathlib.Topology.Algebra.Module.ModuleTopology
import ImpedanceBench.Proofs.Exact.Reals
import ImpedanceBench.Waveform.Chirp

/-!
The chirp in exact arithmetic. Its frequency is an exponential of the time, so it moves one way
only, and where it starts and where it ends decides which. The phase is its antiderivative, also for
a chirp that stays where it is and whose phase has a formula of its own.
-/

namespace ImpedanceBench.Chirp

lemma angularFrequency_real (c : Chirp ℝ) (t : ℝ) :
    c.angularFrequency t = c.start * Real.exp (t * c.rate / c.duration) := rfl

lemma angularFrequency_zero (c : Chirp ℝ) : c.angularFrequency 0 = c.start := by
  rw [angularFrequency_real, zero_mul, zero_div, Real.exp_zero, mul_one]

lemma angularFrequency_duration {c : Chirp ℝ} (hduration : c.duration ≠ 0) :
    c.angularFrequency c.duration = c.start * Real.exp c.rate := by
  rw [angularFrequency_real, mul_div_cancel_left₀ _ hduration]

lemma phase_of_rate_zero {c : Chirp ℝ} (h : c.rate = 0) (t : ℝ) : c.phase t = c.start * t := by
  have hzero : (0.0 : ℝ) = 0 := by norm_num
  unfold phase
  rw [hzero, if_pos ⟨h.le, h.ge⟩]

lemma phase_of_rate_ne_zero {c : Chirp ℝ} (h : c.rate ≠ 0) (t : ℝ) : c.phase t =
    c.start * c.duration / c.rate * (Real.exp (t * c.rate / c.duration) - 1) := by
  have hzero : (0.0 : ℝ) = 0 := by norm_num
  have hone : (1.0 : ℝ) = 1 := by norm_num
  unfold phase
  rw [hzero, hone, if_neg fun hrate => h (le_antisymm hrate.1 hrate.2)]
  rfl

lemma phase_zero (c : Chirp ℝ) : c.phase 0 = 0 := by
  by_cases h : c.rate = 0
  · rw [phase_of_rate_zero h, mul_zero]
  · rw [phase_of_rate_ne_zero h, zero_mul, zero_div, Real.exp_zero, sub_self, mul_zero]

/-- Both formulas of the phase have the frequency for their derivative. -/
lemma hasDerivAt_phase {c : Chirp ℝ} (hduration : c.duration ≠ 0) (t : ℝ) :
    HasDerivAt c.phase (c.angularFrequency t) t := by
  by_cases h : c.rate = 0
  · have hphase : c.phase = fun t => c.start * t := funext (phase_of_rate_zero h)
    rw [hphase, angularFrequency_real, h, mul_zero, zero_div, Real.exp_zero]
    exact (hasDerivAt_id t).const_mul c.start
  · have hphase : c.phase = fun t =>
        c.start * c.duration / c.rate * (Real.exp (t * c.rate / c.duration) - 1) :=
      funext (phase_of_rate_ne_zero h)
    have hexponent := ((hasDerivAt_id t).mul_const c.rate).div_const c.duration
    rw [hphase]
    refine ((hexponent.exp.sub_const 1).const_mul _).congr_deriv ?_
    rw [angularFrequency_real, id_eq]
    field_simp

section Direction

variable {c : Chirp ℝ} (hstart : 0 < c.start) (hduration : 0 < c.duration)

include hstart hduration

lemma strictMono_angularFrequency (hrate : 0 < c.rate) : StrictMono c.angularFrequency := by
  intro s t hst
  exact mul_lt_mul_of_pos_left (Real.exp_lt_exp.2 (by gcongr)) hstart

lemma strictAnti_angularFrequency (hrate : c.rate < 0) : StrictAnti c.angularFrequency := by
  intro s t hst
  refine mul_lt_mul_of_pos_left (Real.exp_lt_exp.2 ?_) hstart
  exact div_lt_div_of_pos_right (mul_lt_mul_of_neg_right hst hrate) hduration

omit hstart hduration in
lemma angularFrequency_of_rate_zero (hrate : c.rate = 0) (t : ℝ) :
    c.angularFrequency t = c.start := by
  rw [angularFrequency_real, hrate, mul_zero, zero_div, Real.exp_zero, mul_one]

lemma monotone_or_antitone : Monotone c.angularFrequency ∨ Antitone c.angularFrequency := by
  rcases lt_trichotomy c.rate 0 with hrate | hrate | hrate
  · exact .inr (strictAnti_angularFrequency hstart hduration hrate).antitone
  · refine .inl fun s t _ => ?_
    rw [angularFrequency_of_rate_zero hrate, angularFrequency_of_rate_zero hrate]
  · exact .inl (strictMono_angularFrequency hstart hduration hrate).monotone

/-- At a time between two others the frequency is between theirs. -/
lemma angularFrequency_mem {a b t : ℝ} (ht : t ∈ Set.uIcc a b) :
    c.angularFrequency t ∈ Set.uIcc (c.angularFrequency a) (c.angularFrequency b) := by
  rcases monotone_or_antitone hstart hduration with h | h
  · exact h.mapsTo_uIcc ht
  · exact h.mapsTo_uIcc ht

omit hstart in
/-- Over any time the phase advances as at the frequency of some moment of it. -/
lemma exists_advance (a b : ℝ) :
    ∃ s ∈ Set.uIcc a b, c.phase b - c.phase a = (b - a) * c.angularFrequency s := by
  wlog hab : a ≤ b generalizing a b
  · obtain ⟨s, hs, hadvance⟩ := this b a (le_of_not_ge hab)
    exact ⟨s, Set.uIcc_comm a b ▸ hs, by linarith⟩
  rcases hab.eq_or_lt with rfl | hlt
  · exact ⟨a, Set.left_mem_uIcc, by rw [sub_self, sub_self, zero_mul]⟩
  have hderiv (t : ℝ) : HasDerivAt c.phase (c.angularFrequency t) t :=
    hasDerivAt_phase hduration.ne' t
  obtain ⟨s, hs, hslope⟩ := exists_hasDerivAt_eq_slope c.phase c.angularFrequency hlt
    (fun t _ => (hderiv t).continuousAt.continuousWithinAt) fun t _ => hderiv t
  refine ⟨s, Set.Icc_subset_uIcc (Set.Ioo_subset_Icc_self hs), ?_⟩
  rw [hslope, mul_div_cancel₀ _ (sub_pos.2 hlt).ne']

lemma phase_sub_mem (a b : ℝ) : c.phase b - c.phase a ∈
    Set.uIcc ((b - a) * c.angularFrequency a) ((b - a) * c.angularFrequency b) := by
  obtain ⟨s, hs, hadvance⟩ := exists_advance hduration a b
  rw [hadvance, ← Set.image_const_mul_uIcc]
  exact Set.mem_image_of_mem _ (angularFrequency_mem hstart hduration hs)

end Direction

/-- A chirp from one frequency to another. It moves from the first to the second and one way only,
and its phase is the antiderivative that is zero at the beginning: it advances by no less and no
more than it would at the frequencies of both ends of a time. -/
structure Glides (c : Chirp ℝ) (startHz stopHz duration : ℝ) : Prop where
  phase_zero : c.phase 0 = 0
  first : c.angularFrequency 0 = 2 * Real.pi * startHz
  last : c.angularFrequency duration = 2 * Real.pi * stopHz
  rises : startHz < stopHz → StrictMono c.angularFrequency
  falls : stopHz < startHz → StrictAnti c.angularFrequency
  stays : startHz = stopHz → ∀ t, c.angularFrequency t = 2 * Real.pi * startHz ∧
    c.phase t = 2 * Real.pi * startHz * t
  between : ∀ t ∈ Set.Icc 0 duration,
    c.angularFrequency t ∈ Set.uIcc (2 * Real.pi * startHz) (2 * Real.pi * stopHz)
  derivative : ∀ t, HasDerivAt c.phase (c.angularFrequency t) t
  advance : ∀ a b, c.phase b - c.phase a ∈
    Set.uIcc ((b - a) * c.angularFrequency a) ((b - a) * c.angularFrequency b)

lemma start_make (startHz stopHz duration : ℝ) :
    (make startHz stopHz duration).start = 2 * Real.pi * startHz := by
  have htwo : (2.0 : ℝ) = 2 := by norm_num
  change 2.0 * Real.pi * startHz = _
  rw [htwo]

lemma rate_make {startHz stopHz : ℝ} (hstart : 0 < startHz) (hstop : 0 < stopHz) (duration : ℝ) :
    (make startHz stopHz duration).rate = Real.log (stopHz / startHz) := by
  have hzero : (0.0 : ℝ) = 0 := by norm_num
  have htwo : (2.0 : ℝ) = 2 := by norm_num
  have hturn : (2 : ℝ) * Real.pi ≠ 0 := Real.two_pi_pos.ne'
  unfold make
  dsimp only
  rw [hzero, htwo, if_pos ⟨hstart, hstop⟩]
  change Real.log (2 * Real.pi * stopHz / (2 * Real.pi * startHz)) = _
  rw [mul_div_mul_left _ _ hturn]

lemma start_mul_exp_rate_make {startHz stopHz : ℝ} (hstart : 0 < startHz) (hstop : 0 < stopHz)
    (duration : ℝ) :
    (make startHz stopHz duration).start * Real.exp (make startHz stopHz duration).rate =
      2 * Real.pi * stopHz := by
  rw [start_make, rate_make hstart hstop, Real.exp_log (div_pos hstop hstart), mul_assoc,
    mul_div_cancel₀ _ hstart.ne']

/-- **A chirp glides from its first to its last frequency**, up or down, or it stays at the one
frequency that it has. -/
theorem glides_make {startHz stopHz duration : ℝ} (hstart : 0 < startHz) (hstop : 0 < stopHz)
    (hduration : 0 < duration) :
    Glides (make startHz stopHz duration) startHz stopHz duration := by
  have hrate := rate_make hstart hstop duration
  have hfirst := start_make startHz stopHz duration
  have hlast := start_mul_exp_rate_make hstart hstop duration
  obtain ⟨c, hc⟩ : ∃ c, make startHz stopHz duration = c := ⟨_, rfl⟩
  obtain rfl : c.duration = duration := by rw [← hc]; rfl
  rw [hc] at hrate hfirst hlast ⊢
  rw [← angularFrequency_duration hduration.ne'] at hlast
  have hpos : 0 < c.start := by
    rw [hfirst]
    positivity
  constructor
  case phase_zero => exact c.phase_zero
  case first => exact c.angularFrequency_zero.trans hfirst
  case last => exact hlast
  case rises =>
    intro hlt
    refine strictMono_angularFrequency hpos hduration ?_
    rw [hrate]
    exact Real.log_pos ((one_lt_div hstart).2 hlt)
  case falls =>
    intro hlt
    refine strictAnti_angularFrequency hpos hduration ?_
    rw [hrate]
    exact Real.log_neg (div_pos hstop hstart) ((div_lt_one hstart).2 hlt)
  case stays =>
    rintro rfl t
    have hzero : c.rate = 0 := by rw [hrate, div_self hstart.ne', Real.log_one]
    rw [angularFrequency_of_rate_zero hzero, phase_of_rate_zero hzero, hfirst]
    exact ⟨rfl, rfl⟩
  case between =>
    intro t ht
    rw [← hfirst, ← hlast, ← angularFrequency_zero]
    exact angularFrequency_mem hpos hduration (Set.Icc_subset_uIcc ht)
  case derivative => exact hasDerivAt_phase hduration.ne'
  case advance => exact phase_sub_mem hpos hduration

/-- Down from 3 Hz to 2 Hz in half a second, and 3 Hz all the time. -/
theorem glides_make_down :
    (make 3 2 (1 / 2 : ℝ)).angularFrequency (1 / 2) = 2 * Real.pi * 2 ∧
      StrictAnti (make 3 2 (1 / 2 : ℝ)).angularFrequency ∧
      (make 3 3 (1 / 2 : ℝ)).phase 1 = 2 * Real.pi * 3 * 1 := by
  have hdown : Glides (make 3 2 (1 / 2)) 3 2 (1 / 2) :=
    glides_make three_pos two_pos one_half_pos
  exact ⟨hdown.last, hdown.falls (by norm_num),
    ((glides_make three_pos three_pos one_half_pos).stays rfl 1).2⟩

end ImpedanceBench.Chirp

import ImpedanceBench.Proofs.Sweep.Limits

/-!
Validation settles the settings. Those of an accepted sweep are within both limits that validation
lowers settings to, and settings within them come out as they are and without a warning, so a second
validation gives the same sweep.
-/

namespace ImpedanceBench

namespace SweepConfig

variable {c : SweepConfig Float} {p : HardwareProfile Float}

/-- Settings of which validation has nothing to change. -/
structure Settled (c : SweepConfig Float) (p : HardwareProfile Float) : Prop where
  stop : ¬ p.maxFrequency < c.stop
  sweeps : 1 ≤ c.measurementSweeps.toNat
  sweeps_le : c.measurementSweeps.toNat ≤ p.maxMeasurementSweeps.toNat
  once : c.start < c.stop → c.measurementSweeps = 1

lemma InRange.run_validate (h : c.InRange p) (ws : List (Warning Float)) :
    (c.validate p).run.run ws = (((c.lowerStop p).lowerSweeps p).resolve p,
      ws ++ c.stopWarnings p ++ c.sweepsWarnings p) := by
  have hdefect := h.settings
  unfold lowerStop at hdefect
  rw [run_validate_eq, h.profile, h.start, h.stop]
  simp only [hdefect, Bool.not_true, Bool.false_eq_true, if_false]
  rfl

namespace Settled

lemma not_lt (h : c.Settled p) : ¬ p.maxMeasurementSweeps < c.measurementSweeps := by
  rw [UInt32.lt_iff_toNat_lt]
  exact h.sweeps_le.not_gt

lemma lowerStop_eq (h : c.Settled p) : c.lowerStop p = c := by
  rw [lowerStop, if_neg h.stop]

lemma lowerSweeps_eq (h : c.Settled p) : c.lowerSweeps p = c := by
  have hmax : max c.measurementSweeps 1 = c.measurementSweeps := by
    rw [← UInt32.toNat_inj, toNat_max]
    exact max_eq_left h.sweeps
  rw [lowerSweeps, if_neg h.not_lt]
  exact congrArg (fun n => { c with measurementSweeps := n }) hmax

/-- Settled settings are resolved as they are. -/
lemma run_validate (h : c.Settled p) (hc : c.InRange p) (ws : List (Warning Float)) :
    (c.validate p).run.run ws = (c.resolve p, ws) := by
  rw [hc.run_validate, h.lowerStop_eq, h.lowerSweeps_eq, stopWarnings, sweepsWarnings,
    if_neg h.stop, if_neg h.not_lt, List.append_nil, List.append_nil]

end Settled

/-- The settings of a sweep resolve to it again. -/
lemma resolve_config {sweep : ValidatedSweep Float} (h : c.resolve p = .ok sweep) :
    sweep.config.resolve p = .ok sweep := by
  obtain ⟨n, mode, points, -, rfl, ⟨rfl, hup, rfl, hpoints⟩ | ⟨rfl, -, rfl, rfl⟩⟩ :=
    eq_of_resolve h
  · refine (resolve_of_lt (c := { c with measurementSweeps := 1 }) p hup).trans ?_
    simp only [hpoints]
    rfl
  · exact h

/-- What comes out of the settings is settled. -/
lemma settled_of_resolve (hc : c.InRange p) {sweep : ValidatedSweep Float}
    (h : ((c.lowerStop p).lowerSweeps p).resolve p = .ok sweep) :
    sweep.config.Settled p ∧ sweep.config.InRange p := by
  have hstop : ¬ p.maxFrequency < (c.lowerStop p).stop := fun hlt =>
    Double.not_le_of_lt hlt hc.stop_le
  obtain ⟨n, mode, points, -, rfl, hmode⟩ := eq_of_resolve h
  have hsettled : Settled { (c.lowerStop p).lowerSweeps p with measurementSweeps := n } p := by
    rcases hmode with ⟨-, -, rfl, -⟩ | ⟨-, hup, rfl, -⟩
    · exact ⟨hstop, le_rfl, hc.one_le_maxMeasurementSweeps, fun _ => rfl⟩
    · exact ⟨hstop, one_le_lowerSweeps, hc.lowerSweeps_le, fun hlt => absurd hlt hup⟩
  have hdefined : Scalar.undefined (c.lowerStop p).stop = false := by
    simpa [Scalar.undefined] using hc.stop_defined
  refine ⟨hsettled, hc.profile, hc.start, hdefined, ?_⟩
  rw [hsettled.lowerStop_eq]
  exact hc.settings

/-- A change is told by one warning, and nothing else by none. -/
def Tells (changed : Prop) (w : Warning Float) (log : List (Warning Float)) : Prop :=
  changed ∧ log = [w] ∨ ¬ changed ∧ log = []

lemma tells_stopWarnings (c : SweepConfig Float) (p : HardwareProfile Float) :
    Tells ((c.lowerStop p).stop ≠ c.stop) (.endClamped c.stop p.maxFrequency)
      (c.stopWarnings p) := by
  by_cases h : p.maxFrequency < c.stop
  · refine .inl ⟨?_, by rw [stopWarnings, if_pos h]⟩
    rw [lowerStop, if_pos h]
    exact Double.ne_of_lt h
  · refine .inr ⟨?_, by rw [stopWarnings, if_neg h]⟩
    rw [lowerStop, if_neg h]
    exact not_not_intro rfl

lemma tells_sweepsWarnings (c : SweepConfig Float) (p : HardwareProfile Float) :
    Tells (min c.measurementSweeps.toNat p.maxMeasurementSweeps.toNat ≠ c.measurementSweeps.toNat)
      (.measurementSweepsClamped c.measurementSweeps p.maxMeasurementSweeps)
      (c.sweepsWarnings p) := by
  by_cases h : p.maxMeasurementSweeps < c.measurementSweeps
  · refine .inl ⟨?_, by rw [sweepsWarnings, if_pos h]⟩
    rw [UInt32.lt_iff_toNat_lt] at h
    omega
  · refine .inr ⟨?_, by rw [sweepsWarnings, if_neg h]⟩
    rw [UInt32.lt_iff_toNat_lt] at h
    omega

/-- **Validation settles.** The settings of an accepted sweep give the same sweep again, without a
warning. Before that there is one warning for the end and one for the repetitions, each exactly if
its limit has changed the setting. -/
theorem settles_of_validate {ws : List (Warning Float)} {sweep : ValidatedSweep Float}
    (valid : ((c.validate p).run.run ws).1 = .ok sweep) :
    (∀ ws', (sweep.config.validate sweep.profile).run.run ws' = (.ok sweep, ws')) ∧
    ∃ stopLog sweepsLog, ((c.validate p).run.run ws).2 = ws ++ stopLog ++ sweepsLog ∧
      Tells (sweep.config.stop ≠ c.stop) (.endClamped c.stop p.maxFrequency) stopLog ∧
      Tells (min c.measurementSweeps.toNat p.maxMeasurementSweeps.toNat ≠
          c.measurementSweeps.toNat)
        (.measurementSweepsClamped c.measurementSweeps p.maxMeasurementSweeps) sweepsLog := by
  rw [SweepConfig.run_validate, outcome_eq_ok_iff] at valid
  obtain ⟨hc, hresolve⟩ := valid
  obtain ⟨hsettled, hrange⟩ := settled_of_resolve hc hresolve
  have hparts : sweep.profile = p ∧ sweep.config.stop = (c.lowerStop p).stop := by
    obtain ⟨n, mode, points, -, rfl, -⟩ := eq_of_resolve hresolve
    exact ⟨rfl, rfl⟩
  obtain ⟨hprofile, hstop⟩ := hparts
  refine ⟨fun ws' => ?_, c.stopWarnings p, c.sweepsWarnings p, ?_, ?_, tells_sweepsWarnings c p⟩
  · rw [hprofile, hsettled.run_validate hrange, resolve_config hresolve]
  · rw [hc.run_validate]
  · rw [hstop]
    exact tells_stopWarnings c p

/-- A sweep from the highest frequency to one beyond it, with too many repetitions. -/
def beyond : SweepConfig Float :=
  { SweepConfig.standard with
    start := 62500000.0, stop := 1000000000.0, measurementSweeps := 99 }

/-- Its end is lowered onto the start, which is then measured again and again. Both warnings are
given the first time, and none the second time. -/
theorem settles_of_validate_beyond :
    ∃ sweep, (beyond.validate .standard).run.run [] = (.ok sweep,
        [.endClamped 1000000000.0 62500000.0, .measurementSweepsClamped 99 10]) ∧
      sweep.mode = .repeated ∧ sweep.passesPerPoint = 50 ∧
      (sweep.config.validate sweep.profile).run.run [] = (.ok sweep, []) := by
  have hrun : (beyond.validate .standard).run.run [] = (.ok
      { config := { beyond with stop := 62500000.0, measurementSweeps := 10 }
        mode := .repeated
        profile := .standard
        frequencies := [62500000.0]
        passesPerPoint := 50 },
      [.endClamped 1000000000.0 62500000.0, .measurementSweepsClamped 99 10]) := rfl
  exact ⟨_, hrun, rfl, rfl, (settles_of_validate (congrArg Prod.fst hrun)).1 []⟩

end SweepConfig

end ImpedanceBench

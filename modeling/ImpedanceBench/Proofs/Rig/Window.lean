import Mathlib.Analysis.Complex.Trigonometric
import Mathlib.Tactic.NormNum.RealSqrt
import ImpedanceBench.Proofs.Double.Rounding
import ImpedanceBench.Proofs.Exact.Proportion
import ImpedanceBench.Proofs.Rig.Measured

/-!
How many samples are demodulated at a frequency, and what becomes of too few. The integrals run over
the segments between two samples; a window without a segment shows no current, whatever the devices
return. In exact arithmetic one segment is enough for a pulse to be seen.
-/

namespace ImpedanceBench

namespace LockIn

/-- A window without a segment shows nothing of any trace. -/
lemma components_of_length_lt {α : Type} [Scalar α] {l : LockIn α} (h : l.times.length < 2)
    (trace : List α) : l.components trace = ⟨-0.0, -0.0⟩ := by
  have hsteps : steps l.times = [] := by
    rw [← List.length_eq_zero_iff, length_steps]
    omega
  have hintegral (area : α × α → α × α → α) (values : List α) :
      integral area values l.times = -0.0 := by
    rw [integral, hsteps, List.zipWith_nil_right]
    rfl
  unfold components
  cases l.rule <;> simp only [integrate, movement, trapezoid, hintegral]

@[simp] lemma length_times {α : Type} [Scalar α] (n : ℕ) (angularFrequency samplePeriod : α)
    (rule : IntegrationRule) : (make n angularFrequency samplePeriod rule).times.length = n := by
  simp [make]

/-- A pulse in the first sample is half an area against the cosine, by either rule. -/
lemma components_pulse (n : ℕ) (angularFrequency : ℝ) {samplePeriod a : ℝ} (hT : 0 < samplePeriod)
    (ha : 0 < a) (rule : IntegrationRule) :
    ((make (n + 2) angularFrequency samplePeriod rule).components [a, 0]).y =
      samplePeriod * a / 2 := by
  have htwo : (2.0 : ℝ) = 2 := by norm_num
  have hmixed : List.zipWith (· * ·) [a, 0]
      (make (n + 2) angularFrequency samplePeriod rule).cosines = [a, 0] := by
    simp only [make, List.range_succ_eq_map, List.map_cons, List.zipWith_cons_cons, zero_mul,
      Scalar.ofNat_real, Nat.cast_zero]
    change [a * Real.cos 0, 0] = _
    rw [Real.cos_zero, mul_one]
  obtain ⟨rest, htimes⟩ : ∃ rest, steps (make (n + 2) angularFrequency samplePeriod rule).times =
      (0, samplePeriod) :: rest := by
    simp [steps, make, List.range_succ_eq_map]
  have harea : 0 < samplePeriod * a / 2 := by positivity
  change integrate rule (List.zipWith _ _ _) _ = _
  rw [hmixed]
  cases rule with
  | absoluteSegments =>
    rw [integrate, movement, integral, htimes]
    change Scalar.sum [|(samplePeriod - 0) * (a - 0) / 2.0|] = _
    rw [htwo, Scalar.sum_real, List.sum_singleton, sub_zero, sub_zero, abs_of_pos harea]
  | signed =>
    rw [integrate, trapezoid, integral, htimes]
    change Scalar.sum [(samplePeriod - 0) * (a + 0) / 2.0] = _
    rw [htwo, Scalar.sum_real, List.sum_singleton, sub_zero, add_zero]

end LockIn

namespace Trace

section TooShort

variable {α : Type} [Scalar α] {l : LockIn α} (hshort : l.times.length < 2)
  (hzero : Scalar.positive (Scalar.hypot (-0.0) (-0.0) : α) = false)

include hshort hzero

/-- Such a window reads no current from any trace that is in order. -/
lemma impedance_of_length_lt (t : Trace α) (scale : FixtureScale α) (requested : ℕ)
    (frequency : α) : t.impedance scale requested l frequency = (do
      t.validate (max scale.excitation scale.shunt + 1)
      throw (.noCurrent frequency)) := by
  have hnone : Scalar.positive (⟨-0.0, -0.0⟩ : Components α).amplitude = false := hzero
  unfold impedance LoadTraces.ofTrace
  cases t.validate (max scale.excitation scale.shunt + 1) with
  | error e => rfl
  | ok =>
    change ImpedancePoint.estimate frequency (l.components _) (l.components _) = _
    rw [LockIn.components_of_length_lt hshort, LockIn.components_of_length_lt hshort,
      ImpedancePoint.estimate, hnone]
    rfl

lemma impedance_ne_ok_of_length_lt {t : Trace α} {scale : FixtureScale α} {requested : ℕ}
    {frequency : α} {p : ImpedancePoint α} :
    t.impedance scale requested l frequency ≠ .ok p := by
  rw [impedance_of_length_lt hshort hzero]
  cases t.validate _ <;> exact fun h => by cases h

end TooShort

/-- A count of one in the first of two samples of the shunt. -/
def pulse : Trace ℝ := ⟨[[0, 0], [1, 0]]⟩

variable (n : ℕ) (frequency angularFrequency : ℝ) {samplePeriod voltsPerCount shuntOhms : ℝ}
  (hT : 0 < samplePeriod) (hvolts : 0 < voltsPerCount) (hohms : 0 < shuntOhms)
  (rule : IntegrationRule)

include hT hvolts hohms

/-- Two samples are enough for the pulse to be a current. -/
lemma exists_impedance_pulse : ∃ p, pulse.impedance (.standard voltsPerCount shuntOhms) (n + 2)
    (.make (n + 2) angularFrequency samplePeriod rule) frequency = .ok p := by
  have ha : 0 < voltsPerCount / shuntOhms := by positivity
  have hrun : LoadTraces.ofTrace pulse (.standard voltsPerCount shuntOhms) (n + 2) =
      .ok ⟨[-voltsPerCount, 0], [voltsPerCount / shuntOhms, 0]⟩ := by
    simp [pulse, LoadTraces.ofTrace, validate, samplesPerChannel, channel, FixtureScale.standard]
  have hpos : 0 < ((LockIn.make (n + 2) angularFrequency samplePeriod rule).components
      [voltsPerCount / shuntOhms, 0]).amplitude := by
    rw [Components.amplitude_real, norm_pos_iff]
    intro hnone
    have hy : samplePeriod * (voltsPerCount / shuntOhms) / 2 = 0 :=
      (LockIn.components_pulse n _ hT ha rule).symm.trans (congrArg Complex.im hnone)
    have harea : 0 < samplePeriod * (voltsPerCount / shuntOhms) / 2 := by positivity
    exact harea.ne' hy
  unfold impedance
  rw [hrun]
  exact ⟨_, ImpedancePoint.estimate_of_amplitude_pos hpos⟩

/-- In exact arithmetic a window shows an impedance for some trace exactly if it has two samples. -/
lemma exists_impedance_iff : (∃ (t : Trace ℝ) (p : ImpedancePoint ℝ),
    t.impedance (.standard voltsPerCount shuntOhms) n
      (.make n angularFrequency samplePeriod rule) frequency = .ok p) ↔ 2 ≤ n := by
  constructor
  · rintro ⟨t, p, hp⟩
    by_contra hn
    have hzero : Scalar.positive (Scalar.hypot (-0.0) (-0.0) : ℝ) = false := by
      have hnorm : Scalar.hypot (-0.0) (-0.0) = (0 : ℝ) := by
        change √((-0.0 : ℝ) ^ 2 + (-0.0) ^ 2) = 0
        norm_num
      rw [Bool.eq_false_iff, Ne, Scalar.positive_real, hnorm]
      exact lt_irrefl 0
    exact impedance_ne_ok_of_length_lt (by simpa using hn) hzero hp
  · intro hn
    obtain ⟨m, rfl⟩ := Nat.exists_eq_add_of_le' hn
    exact ⟨pulse, exists_impedance_pulse m frequency angularFrequency hT hvolts hohms rule⟩

end Trace

namespace ValidatedSweep

variable {sweep : ValidatedSweep Float} {f : Float}

/-- The samples of a trace that the controller demodulates at a frequency. -/
def demodulated (sweep : ValidatedSweep Float) (f : Float) : ℕ :=
  (sweep.plan f).toOption.elim 0 fun plan => (Rig.Reading.make sweep plan f).requested

section

variable {plan : AcquisitionPlan Float} (h : sweep.plan f = .ok plan)

include h

lemma demodulated_eq_requested :
    sweep.demodulated f = (Rig.Reading.make sweep plan f).requested := by
  rw [demodulated, h]
  rfl

lemma demodulated_eq_min :
    sweep.demodulated f = min plan.sampleCount.toNat sweep.config.acquisitionSize.toNat := by
  have hmin (m n : UInt64) : (min m n).toNat = min m.toNat n.toNat := by
    change (if m ≤ n then m else n).toNat = _
    simp only [UInt64.le_iff_toNat_le]
    split <;> omega
  rw [demodulated_eq_requested h]
  exact hmin _ _

end

/-- Nothing can be measured at a frequency: every trace that is in order shows no current, and a
sweep gets past it only by leaving out all of its passes. -/
structure Unmeasurable (sweep : ValidatedSweep Float) (f : Float) : Prop where
  read : ∀ t, sweep.read f t = (do t.validate 2; throw (.noCurrent f))
  run : ∀ {σ : Type} (rig : Rig σ) (s : Session σ) (table : ResultTable Float) (s' : Session σ),
    (rig.runSweep sweep).run.run s = (.ok table, s') →
      sweep.config.timeoutPolicy = .skipPass ∧ f ∈ table.skipped ∧
        ∀ e ∈ table.entries, e.frequency ≠ f

/-- Where no trace can be read, none has been acquired. -/
lemma Measured.eq_nil {ts : List (Trace Float)} {v : Option (FrequencyResult Float)}
    (h : sweep.Measured f ts v) (hread : ∀ t p, sweep.read f t ≠ .ok p) : ts = [] := by
  obtain ⟨ps, hps, -⟩ := h.reads
  cases hps with
  | nil => rfl
  | cons hp => exact absurd hp (hread _ _)

lemma Sound.unmeasurable (h : sweep.Sound) (hf : f ∈ sweep.frequencies)
    (hread : ∀ t, sweep.read f t = (do t.validate 2; throw (.noCurrent f))) :
    sweep.Unmeasurable f := by
  have hnone (t : Trace Float) (p : ImpedancePoint Float) : sweep.read f t ≠ .ok p := by
    rw [hread]
    cases t.validate 2 <;> exact fun h => by cases h
  refine ⟨hread, fun rig s table s' hrun => ?_⟩
  obtain ⟨es, -, hsweeps⟩ := rig.runSweep_sweeps sweep s
  rw [hrun] at hsweeps
  obtain ⟨visits, rfl, hfst, hmeasured, -⟩ := hsweeps.measured
  have hresult : ∀ v, (f, v) ∈ visits → v = none := fun v hv => by
    obtain ⟨ts, hts⟩ := hmeasured.of_mem hv
    exact hts.eq_none_iff.2 (hts.eq_nil hnone)
  obtain ⟨⟨_, v⟩, hv, rfl⟩ := List.mem_map.1 (hfst ▸ hf)
  refine ⟨?_, ?_, fun e he heq => ?_⟩
  · obtain ⟨ts, hts⟩ := hmeasured.of_mem hv
    by_contra hpolicy
    have habort : sweep.config.timeoutPolicy = .abortSweep := by
      cases hp : sweep.config.timeoutPolicy with
      | abortSweep => rfl
      | skipPass => exact absurd hp hpolicy
    have hlength := hts.length_eq habort
    rw [hts.eq_nil hnone] at hlength
    exact absurd h.passes (by simp [← hlength])
  · rw [ResultTable.ofVisits, List.mem_map]
    exact ⟨_, List.mem_filter.2 ⟨hv, by simp [hresult v hv]⟩, rfl⟩
  · obtain ⟨⟨f', v'⟩, hv', hsome⟩ := List.mem_filterMap.1 he
    obtain ⟨ts, hts⟩ := hmeasured.of_mem hv'
    obtain rfl : e.frequency = f' := hts.own e hsome
    subst heq
    cases (hresult v' hv').symm.trans hsome

/-- Where the length of the window at a frequency comes from, and what it decides. -/
structure Window (sweep : ValidatedSweep Float) (f : Float) (band : DecimationBand Float)
    (plan : AcquisitionPlan Float) : Prop where
  reached : ∃ bucket, AcquisitionPlan.band? sweep.profile.bands f = some (band, bucket)
  planned : sweep.plan f = .ok plan
  length : sweep.demodulated f = min plan.sampleCount.toNat sweep.config.acquisitionSize.toNat
  segments : (LockIn.steps (Rig.Reading.make sweep plan f).lockIn.times).length =
    sweep.demodulated f - 1
  /-- Two samples are demodulated exactly if the settings allow two and one and a half are planned
  before rounding. -/
  two_le_iff : 2 ≤ sweep.demodulated f ↔ 2 ≤ sweep.config.acquisitionSize.toNat ∧
    (1.5 : Float) ≤ Scalar.ofNat sweep.config.minPeriods.toNat * sweep.profile.adcRate /
      (f * Scalar.ofNat band.factor.toNat)
  /-- Fewer are not enough on any devices. -/
  unmeasurable : sweep.demodulated f < 2 → sweep.Unmeasurable f
  /-- In exact arithmetic so many samples are enough for some trace exactly if they are two. -/
  measurable_iff : ∀ {frequency samplePeriod voltsPerCount shuntOhms : ℝ}, 0 < samplePeriod →
    0 < voltsPerCount → 0 < shuntOhms → ((∃ (t : Trace ℝ) (p : ImpedancePoint ℝ),
      t.impedance (.standard voltsPerCount shuntOhms) (sweep.demodulated f)
        (.make (sweep.demodulated f) (2.0 * Scalar.pi * frequency) samplePeriod
          sweep.config.integration) frequency = .ok p) ↔ 2 ≤ sweep.demodulated f)

/-- **How much is demodulated.** At each frequency of an accepted sweep the length of the window
decides whether anything can be measured. No check asks for two samples. -/
theorem Accepted.exists_window (h : sweep.Accepted) (hf : f ∈ sweep.frequencies) :
    ∃ band plan, sweep.Window f band plan := by
  obtain ⟨plan, hplan⟩ := h.sound.plans f hf
  obtain ⟨band, bucket, hband, hcount⟩ : ∃ (band : DecimationBand Float) (bucket : ℕ),
      AcquisitionPlan.band? sweep.profile.bands f = some (band, bucket) ∧
      plan.sampleCount = Scalar.toUInt64 (Scalar.round (Scalar.ofNat sweep.config.minPeriods.toNat *
        sweep.profile.adcRate / (f * Scalar.ofNat band.factor.toNat))) := by
    unfold AcquisitionPlan.ofProfile AcquisitionPlan.make at hplan
    split at hplan <;> cases hplan
    exact ⟨_, _, by assumption, rfl⟩
  refine ⟨band, plan, ⟨bucket, hband⟩, hplan, demodulated_eq_min hplan, ?_, ?_, fun hshort => ?_,
    ?_⟩
  · rw [LockIn.length_steps, demodulated_eq_requested hplan]
    exact congrArg (· - 1) (LockIn.length_times _ _ _ _)
  · rw [demodulated_eq_min hplan, Nat.le_min, hcount, Double.two_le_toUInt64_round]
    exact and_comm
  · refine h.sound.unmeasurable hf fun t => ?_
    rw [demodulated_eq_requested hplan] at hshort
    rw [read_eq hplan, Rig.Reading.point_eq]
    refine Trace.impedance_of_length_lt ?_ (by decide +kernel) t _ _ f
    exact (LockIn.length_times _ _ _ _).trans_lt hshort
  · exact fun hT hvolts hohms => Trace.exists_impedance_iff _ _ _ hT hvolts hohms _

/-- A single point that is measured with one sample. -/
def oneSample : ValidatedSweep Float where
  config := { SweepConfig.standard with stop := 1000.0, acquisitionSize := 1 }
  mode := .repeated
  profile := .standard
  frequencies := [1000.0]
  passesPerPoint := 5

lemma oneSample_accepted : oneSample.Accepted := ⟨oneSample.config, oneSample.profile, [], rfl⟩

theorem exists_window_oneSample : oneSample.Accepted ∧ 1000.0 ∈ oneSample.frequencies ∧
    oneSample.Unmeasurable 1000.0 := by
  have hmem : 1000.0 ∈ oneSample.frequencies := List.mem_singleton.2 rfl
  obtain ⟨_, _, hwindow⟩ := oneSample_accepted.exists_window hmem
  exact ⟨oneSample_accepted, hmem, hwindow.unmeasurable (by decide +kernel)⟩

/-- Not every accepted sweep demodulates two samples. -/
theorem not_forall_two_le_demodulated : ¬ ∀ sweep : ValidatedSweep Float, sweep.Accepted →
    ∀ f ∈ sweep.frequencies, 2 ≤ sweep.demodulated f := by
  intro h
  exact absurd (h oneSample oneSample_accepted 1000.0 (List.mem_singleton.2 rfl))
    (by decide +kernel)

end ValidatedSweep

end ImpedanceBench

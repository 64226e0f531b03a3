import Mathlib.Tactic.IntervalCases
import ImpedanceBench.Proofs.Acquisition.Bands
import ImpedanceBench.Proofs.Double.Arithmetic
import ImpedanceBench.Proofs.Rig.Window

/-!
How long a planned window lasts. The number of samples is the nearest one to the time of the
periods, so in exact arithmetic the window is off by half a sample at most. In the standard table
the product of frequency and factor stays between 160 kHz and 62.5 MHz, whatever the band: this
bounds the number of samples from both sides, for real numbers and for doubles, which fall into the
same bands.
-/

namespace ImpedanceBench

open Exact DecimationBand

namespace AcquisitionPlan

section Exact

variable {bands : List (DecimationBand ℝ)} {rate f : ℝ} {n : UInt32} {plan : AcquisitionPlan ℝ}
  (positive : ∀ b ∈ bands, 0 < b.threshold ∧ b.factor ≠ 0) (hrate : 0 < rate)
  (planned : make bands rate f n = .ok plan)

include planned

lemma samplePeriod_eq : plan.samplePeriod = plan.factor.toNat / rate := by
  obtain ⟨b, i, -, rfl⟩ := make_eq_ok_iff.1 planned
  rw [Scalar.ofNat_real]

include positive

/-- The frequency reaches a positive threshold, and the factor is one of the table. -/
lemma pos_of_make : 0 < f ∧ (0 : ℝ) < plan.factor.toNat := by
  obtain ⟨b, i, hband, rfl⟩ := make_eq_ok_iff.1 planned
  obtain ⟨hi, rfl, hreached, -⟩ := band?_eq_some_iff.1 hband
  obtain ⟨hthreshold, hfactor⟩ := positive _ (List.getElem_mem hi)
  refine ⟨hthreshold.trans_le hreached, Nat.cast_pos.2 (Nat.pos_of_ne_zero fun hzero => ?_)⟩
  exact hfactor (UInt32.toNat_inj.1 hzero)

include hrate

/-- Before it is rounded the number of samples takes exactly the time of the periods. -/
lemma demand_mul_samplePeriod :
    0 ≤ demand rate f n plan.factor ∧
      demand rate f n plan.factor * plan.samplePeriod = n.toNat / f := by
  obtain ⟨hf, hfactor⟩ := pos_of_make positive planned
  rw [samplePeriod_eq planned, demand, Scalar.ofNat_real, Scalar.ofNat_real]
  constructor
  · positivity
  · field_simp

/-- Rounding the number of samples to a word costs half a sample at most, exactly up to where the
word stays behind. -/
lemma abs_window_sub_le_iff : |plan.window - n.toNat / f| ≤ plan.samplePeriod / 2 ↔
    demand rate f n plan.factor ≤ 2 ^ 64 - 1 / 2 := by
  obtain ⟨hdemand, hperiods⟩ := demand_mul_samplePeriod positive hrate planned
  obtain ⟨-, hfactor⟩ := pos_of_make positive planned
  have hwindow : plan.window =
      (Scalar.toUInt64 (Scalar.round (demand rate f n plan.factor))).toNat * plan.samplePeriod := by
    obtain ⟨b, i, -, rfl⟩ := make_eq_ok_iff.1 planned
    rw [window, Scalar.ofNat_real]
  have hperiod : 0 < plan.samplePeriod := by
    rw [samplePeriod_eq planned]
    positivity
  rw [← abs_toUInt64_round_sub_le_iff hdemand, hwindow, ← hperiods, ← sub_mul, abs_mul,
    abs_of_pos hperiod, div_eq_inv_mul, ← one_div]
  exact mul_le_mul_iff_left₀ hperiod

end Exact

/-! The standard table. -/

lemma positive_standard :
    ∀ b ∈ (standard : List (DecimationBand ℝ)), 0 < b.threshold ∧ b.factor ≠ 0 := by
  simp [standard]
  norm_num

/-- A band begins where the product with its factor is 160 kHz, and it ends where this product is at
most 62.5 MHz: at the threshold of the band before, or at the highest frequency. -/
lemma standard_factors :
    (∀ b ∈ (standard : List (DecimationBand ℝ)), 160000 ≤ b.threshold * b.factor.toNat) ∧
      ((⟨62500000, 0⟩ : DecimationBand ℝ) :: standard).IsChain
        fun (a b : DecimationBand ℝ) => a.threshold * b.factor.toNat ≤ 62500000 := by
  constructor
  · simp [standard]
    norm_num
  · simp [standard]
    norm_num

/-- Whatever the band, the product of frequency and factor stays within these two limits. -/
lemma mul_factor_bounds {f : ℝ} {b : DecimationBand ℝ} {i : ℕ}
    (hband : band? standard f = some (b, i)) (hf : f ≤ 62500000) :
    160000 ≤ f * b.factor.toNat ∧ f * b.factor.toNat ≤ 62500000 := by
  obtain ⟨hi, rfl, hreached, hfirst⟩ := band?_eq_some_iff.1 hband
  obtain ⟨hlow, hhigh⟩ := standard_factors
  have hnext : i + 1 < ((⟨62500000, 0⟩ : DecimationBand ℝ) :: standard).length :=
    Nat.succ_lt_succ hi
  have hstep := List.isChain_iff_getElem.1 hhigh i hnext
  have hbelow : f ≤ (((⟨62500000, 0⟩ : DecimationBand ℝ) :: standard).get
      ⟨i, Nat.lt_of_succ_lt hnext⟩).threshold := by
    cases i with
    | zero => exact hf
    | succ i => exact (not_le.1 (hfirst i i.lt_succ_self)).le
  exact ⟨(hlow _ (List.getElem_mem hi)).trans
      (mul_le_mul_of_nonneg_right hreached (Nat.cast_nonneg _)),
    (mul_le_mul_of_nonneg_right hbelow (Nat.cast_nonneg _)).trans hstep⟩

lemma demand_bounds {n : ℕ} (hn : n ≤ 20) {x : ℝ} (hlow : 160000 ≤ x) (hhigh : x ≤ 62500000) :
    ((2 * n : ℕ) : ℝ) ≤ n * 125000000 / x ∧ n * 125000000 / x ≤ (15625 : ℕ) := by
  have hx : 0 < x := by linarith
  have hn' : (n : ℝ) ≤ 20 := by exact_mod_cast hn
  have hn0 : (0 : ℝ) ≤ n := Nat.cast_nonneg n
  rw [le_div_iff₀ hx, div_le_iff₀ hx]
  push_cast
  constructor
  · nlinarith
  · nlinarith

/-- The windows of the standard profile have two samples for each period and more, and no more than
15625, which the oscilloscope holds. -/
structure FitsScope (α : Type) [Scalar α] : Prop where
  capacity : 15625 ≤ (HardwareProfile.standard : HardwareProfile α).adcMaxSamples.toNat
  bounds : ∀ (f : α) (n : UInt32), (2.5 : α) ≤ f → f ≤ 62500000.0 → 1 ≤ n.toNat →
    n.toNat ≤ (HardwareProfile.standard : HardwareProfile α).maxMinPeriods.toNat →
    ∃ plan, ofProfile .standard f n = .ok plan ∧
      2 * n.toNat ≤ plan.sampleCount.toNat ∧ plan.sampleCount.toNat ≤ 15625

/-- A count that is rounded from a number between two whole ones lies between them. -/
lemma count_bounds {lo hi count : ℕ} {x : ℝ} (hcount : nearest x < 2 ^ 64 → (count : ℤ) = nearest x)
    (hlow : (lo : ℝ) ≤ x) (hhigh : x ≤ hi) (hword : hi < 2 ^ 64) : lo ≤ count ∧ count ≤ hi := by
  obtain ⟨hlow', hhigh'⟩ := nearest_mem (m := lo) (n := hi) (by exact_mod_cast hlow)
    (by exact_mod_cast hhigh)
  have := hcount (by omega)
  omega

/-- From the lowest threshold on there is a plan, so that only its count is in question. -/
lemma fitsScope_of_count {α : Type} [Scalar α]
    (hcount : ∀ (f : α) (n : UInt32) (b : DecimationBand α) (i : ℕ), 2.5 ≤ f → f ≤ 62500000.0 →
      n.toNat ≤ 20 → band? standard f = some (b, i) →
      let count := (Scalar.toUInt64 (Scalar.round (demand 125000000.0 f n b.factor))).toNat
      2 * n.toNat ≤ count ∧ count ≤ 15625) : FitsScope α where
  capacity := show 15625 ≤ (16384 : UInt64).toNat by decide
  bounds f n hlow hhigh _ hn := by
    have hlast : (⟨2.5, 65536⟩ : DecimationBand α) ∈ standard := by simp [standard]
    obtain ⟨plan, hplan⟩ := exists_make hlast hlow 125000000.0 n
    obtain ⟨b, i, hband, rfl⟩ := make_eq_ok_iff.1 hplan
    exact ⟨_, hplan, hcount f n b i hlow hhigh hn hband⟩

lemma fitsScope_real : FitsScope ℝ := fitsScope_of_count fun f n b i _ hhigh hn hband => by
  have hmost : (62500000.0 : ℝ) = 62500000 := by norm_num
  have hrate : (125000000.0 : ℝ) = 125000000 := by norm_num
  obtain ⟨hproduct, hproduct'⟩ := mul_factor_bounds hband (hhigh.trans_eq hmost)
  obtain ⟨hdemand, hdemand'⟩ := demand_bounds hn hproduct hproduct'
  have hcount : demand 125000000.0 f n b.factor =
      n.toNat * 125000000 / (f * b.factor.toNat) := by
    rw [demand, Scalar.ofNat_real, Scalar.ofNat_real, hrate]
  refine count_bounds (fun hword => ?_) hdemand hdemand' (by norm_num)
  rw [hcount]
  exact toNat_toUInt64_round ((Nat.cast_nonneg _).trans hdemand) hword

/-! The same table of doubles. -/

open Double in
/-- A double falls into the band that it falls into as a real number. -/
lemma band?_of_value {bands : List (DecimationBand Float)} {exact : List (DecimationBand ℝ)}
    (hbands : List.Forall₂ (fun b e => value? b.threshold = some e.threshold ∧ e.factor = b.factor)
      bands exact) {f : Float} {a : ℝ} (hf : value? f = some a) {b : DecimationBand Float} {i : ℕ}
    (hband : band? bands f = some (b, i)) :
    ∃ e, band? exact a = some (e, i) ∧ e.factor = b.factor := by
  obtain ⟨hi, rfl, hreached, hfirst⟩ := band?_eq_some_iff.1 hband
  obtain ⟨hlength, hget⟩ := List.forall₂_iff_get.1 hbands
  have hi' : i < exact.length := by omega
  refine ⟨exact[i], band?_eq_some_iff.2 ⟨hi', rfl, ?_, fun j hj hle => hfirst j hj ?_⟩,
    (hget i hi hi').2⟩
  · exact (le_iff_value (hget i hi hi').1 hf).1 hreached
  · exact (le_iff_value (hget j (by omega) (by omega)).1 hf).2 hle

open Double in
lemma value_lowest : value? 2.5 = some (2.5 : ℝ) := by
  have h : (2.5 : Float).toModel.unpack = .finite .positive (5 * 2 ^ 50) (-51) (by decide) := rfl
  rw [value_of_unpack h]
  norm_num

open Double in
lemma value_standard : List.Forall₂ (fun (b : DecimationBand Float) (e : DecimationBand ℝ) =>
    value? b.threshold = some e.threshold ∧ e.factor = b.factor) standard standard := by
  have hwhole {n : ℕ} (hn : n < 2 ^ 53) {x : ℝ} (hx : (n : ℝ) = x) :
      value? (ofNat n) = some x := hx ▸ value_ofNat hn
  refine .cons ⟨hwhole (n := 160000) (by norm_num) ?_, rfl⟩
    (.cons ⟨hwhole (n := 20000) (by norm_num) ?_, rfl⟩
    (.cons ⟨hwhole (n := 2500) (by norm_num) ?_, rfl⟩
    (.cons ⟨hwhole (n := 160) (by norm_num) ?_, rfl⟩
    (.cons ⟨hwhole (n := 20) (by norm_num) ?_, rfl⟩
    (.cons ⟨value_lowest, rfl⟩ .nil))))) <;> norm_num

open Double in
/-- The product and the quotient are rounded, but not beyond their bounds, which are doubles. -/
lemma exists_value_demand {f : Float} {a : ℝ} (hf : value? f = some a) {n factor : UInt32}
    (hn : n.toNat ≤ 20) (hlow : 160000 ≤ a * factor.toNat) (hhigh : a * factor.toNat ≤ 62500000) :
    ∃ v, value? (demand 125000000.0 f n factor) = some v ∧
      ((2 * n.toNat : ℕ) : ℝ) ≤ v ∧ v ≤ (15625 : ℕ) := by
  have hbottom : value? (ofNat 160000) = some ((160000 : ℕ) : ℝ) := value_ofNat (by norm_num)
  have htop : value? (ofNat 62500000) = some ((62500000 : ℕ) : ℝ) := value_ofNat (by norm_num)
  have hrate : value? 125000000.0 = some ((125000000 : ℕ) : ℝ) :=
    value_ofNat (n := 125000000) (by norm_num)
  have hperiods : value? (ofNat n.toNat) = some (n.toNat : ℝ) := value_ofNat (by omega)
  have hfactor : value? (ofNat factor.toNat) = some (factor.toNat : ℝ) :=
    value_ofNat (factor.toNat_lt.trans (by norm_num))
  have hwhole : value? (ofNat (n.toNat * 125000000)) = some (n.toNat * (125000000 : ℕ) : ℝ) := by
    rw [value_ofNat (by omega), Nat.cast_mul]
  have hsamples := (rounds_mul hperiods hrate).value_eq hwhole
  obtain ⟨x, hx, hx0, hx1⟩ := (rounds_mul hf hfactor).exists_between hbottom htop
    (by exact_mod_cast hlow) (by exact_mod_cast hhigh)
  push_cast at hx0 hx1 hsamples
  obtain ⟨hdemand, hdemand'⟩ := demand_bounds hn hx0 hx1
  exact (rounds_div hsamples hx (by linarith)).exists_between (value_ofNat (by omega))
    (value_ofNat (by norm_num)) hdemand hdemand'

open Double in
lemma fitsScope_double : FitsScope Float := fitsScope_of_count fun f n b i hlow hhigh hn hband => by
  have hmost : value? 62500000.0 = some ((62500000 : ℕ) : ℝ) :=
    value_ofNat (n := 62500000) (by norm_num)
  obtain ⟨a, ha, -, ha1⟩ := exists_value_of_le value_lowest hmost hlow hhigh
  obtain ⟨e, he, hfactor⟩ := band?_of_value value_standard ha hband
  obtain ⟨hproduct, hproduct'⟩ := mul_factor_bounds he (by exact_mod_cast ha1)
  rw [hfactor] at hproduct hproduct'
  obtain ⟨v, hv, hv0, hv1⟩ := exists_value_demand ha hn hproduct hproduct'
  exact count_bounds (Double.toNat_toUInt64_round hv ((Nat.cast_nonneg _).trans hv0)) hv0 hv1
    (by norm_num)

end AcquisitionPlan

namespace ValidatedSweep

variable {sweep : ValidatedSweep Float}

/-- Validation keeps the frequencies and the periods within the limits of the profile. -/
lemma Accepted.plan_bounds (h : sweep.Accepted) {f : Float} (hf : f ∈ sweep.frequencies) :
    (∃ low, DecimationBand.lowest sweep.profile.bands = some low ∧ low ≤ f ∧
      f ≤ sweep.profile.maxFrequency) ∧
    1 ≤ sweep.config.minPeriods.toNat ∧
      sweep.config.minPeriods.toNat ≤ sweep.profile.maxMinPeriods.toNat := by
  obtain ⟨c, p, ws, h⟩ := h
  rw [SweepConfig.run_validate, SweepConfig.outcome_eq_ok_iff] at h
  obtain ⟨low, hlow, hbounds⟩ := bounds_of_inRange h.1 h.2
  have hperiods := h.1.minPeriods_bounds
  obtain ⟨n, mode, points, -, rfl, -⟩ := SweepConfig.eq_of_resolve h.2
  exact ⟨⟨low, hlow, hbounds f hf⟩, hperiods⟩

/-- The standard acquisition size leaves every window of the standard profile as it was planned. -/
lemma Accepted.demodulated_eq (h : sweep.Accepted) (hprofile : sweep.profile = .standard)
    (hsize : sweep.config.acquisitionSize =
      (SweepConfig.standard : SweepConfig Float).acquisitionSize)
    {f : Float} (hf : f ∈ sweep.frequencies) :
    ∃ plan, sweep.plan f = .ok plan ∧ sweep.demodulated f = plan.sampleCount.toNat := by
  obtain ⟨⟨low, hlow, hlowest, hhighest⟩, hone, hmost⟩ := h.plan_bounds hf
  rw [hprofile] at hlow hhighest hmost
  obtain rfl : (2.5 : Float) = low := Option.some.inj hlow
  obtain ⟨plan, hplan, -, hle⟩ :=
    AcquisitionPlan.fitsScope_double.bounds f _ hlowest hhighest hone hmost
  rw [← hprofile] at hplan
  refine ⟨plan, hplan, ?_⟩
  have hcapacity : (SweepConfig.standard : SweepConfig Float).acquisitionSize.toNat = 16384 := rfl
  rw [demodulated_eq_min hplan, hsize, hcapacity]
  omega

end ValidatedSweep

namespace AcquisitionPlan

/-- **Length of a window.** In exact arithmetic a window lasts the time of the periods up to half a
sample, exactly as long as the number of samples is not above the largest word by more than a half.
With the standard profile the windows fit the oscilloscope, and the standard acquisition size never
shortens one. -/
theorem window_spans :
    (∀ (bands : List (DecimationBand ℝ)) (rate f : ℝ) (n : UInt32) (plan : AcquisitionPlan ℝ),
      (∀ b ∈ bands, 0 < b.threshold ∧ b.factor ≠ 0) → 0 < rate → make bands rate f n = .ok plan →
      (|plan.window - n.toNat / f| ≤ plan.samplePeriod / 2 ↔
        demand rate f n plan.factor ≤ 2 ^ 64 - 1 / 2)) ∧
    FitsScope ℝ ∧ FitsScope Float ∧
    ∀ sweep : ValidatedSweep Float, sweep.Accepted → sweep.profile = .standard →
      sweep.config.acquisitionSize =
        (SweepConfig.standard : SweepConfig Float).acquisitionSize →
      ∀ f ∈ sweep.frequencies, ∃ plan, sweep.plan f = .ok plan ∧
        sweep.demodulated f = plan.sampleCount.toNat :=
  ⟨fun _ _ _ _ _ positive hrate planned => abs_window_sub_le_iff positive hrate planned,
    fitsScope_real, fitsScope_double, fun _ h hprofile hsize _ hf =>
      h.demodulated_eq hprofile hsize hf⟩

/-- Fifteen periods of 1 kHz in the fourth band; the longest of all windows, which is the one of
twenty periods at the threshold of the first band; and a sweep at 1 kHz. -/
theorem window_spans_standard :
    (∃ plan, make standard (125000000 : ℝ) 1000 15 = .ok plan ∧
      |plan.window - 15 / 1000| ≤ plan.samplePeriod / 2) ∧
    (∃ plan, ofProfile .standard (160000.0 : Float) 20 = .ok plan ∧
      40 ≤ plan.sampleCount.toNat ∧ plan.sampleCount.toNat ≤ 15625) ∧
    ∃ plan, ValidatedSweep.twoPoints.plan 1000.0 = .ok plan ∧
      ValidatedSweep.twoPoints.demodulated 1000.0 = plan.sampleCount.toNat := by
  obtain ⟨hspans, -, hscope, hwhole⟩ := window_spans
  have hband : band? (standard : List (DecimationBand ℝ)) 1000 = some (⟨160.0, 1024⟩, 3) := by
    refine band?_eq_some_iff.2 ⟨by decide, rfl, by norm_num, fun j hj => ?_⟩
    interval_cases j <;> simp [standard] <;> norm_num
  have hdemand : demand (125000000 : ℝ) 1000 15 1024 = 15 * 125000000 / (1000 * 1024) := by
    rw [demand, Scalar.ofNat_real, Scalar.ofNat_real]
    congr 2
  have hheld : demand (125000000 : ℝ) 1000 15 1024 ≤ 2 ^ 64 - 1 / 2 := by
    rw [hdemand]
    norm_num
  obtain ⟨plan, hplan, hfactor⟩ : ∃ plan, make standard (125000000 : ℝ) 1000 15 = .ok plan ∧
      plan.factor = 1024 := ⟨_, make_eq_ok_iff.2 ⟨_, _, hband, rfl⟩, rfl⟩
  have hclose := (hspans standard 125000000 1000 15 plan positive_standard (by norm_num) hplan).2
    (by rwa [hfactor])
  exact ⟨⟨plan, hplan, mod_cast hclose⟩,
    hscope.bounds 160000.0 20 (by decide +kernel) (by decide +kernel) (by decide) (by decide),
    hwhole _ ValidatedSweep.twoPoints_accepted rfl rfl 1000.0 List.mem_cons_self⟩

/-- The number of samples may be below `2 ^ 64` and yet be rounded to it, which no word holds: then
the window is short of the periods by three quarters of a sample. All numbers here are doubles. -/
theorem not_forall_window_spans :
    ¬ ∀ (bands : List (DecimationBand ℝ)) (rate f : ℝ) (n : UInt32) (plan : AcquisitionPlan ℝ),
      (∀ b ∈ bands, 0 < b.threshold ∧ b.factor ≠ 0) → 0 < rate → make bands rate f n = .ok plan →
      demand rate f n plan.factor < 2 ^ 64 →
        |plan.window - n.toNat / f| ≤ plan.samplePeriod / 2 := by
  intro h
  have positive : ∀ b ∈ [(⟨1, 1⟩ : DecimationBand ℝ)], 0 < b.threshold ∧ b.factor ≠ 0 := by simp
  have hrate : (0 : ℝ) < 1294932639593.25 := by norm_num
  have hband : band? [(⟨1, 1⟩ : DecimationBand ℝ)] 1 = some (⟨1, 1⟩, 0) :=
    band?_eq_some_iff.2 ⟨by decide, rfl, le_rfl, fun j hj => absurd hj j.not_lt_zero⟩
  obtain ⟨plan, hplan, hfactor⟩ : ∃ plan,
      make [(⟨1, 1⟩ : DecimationBand ℝ)] 1294932639593.25 1 14245331 = .ok plan ∧
        plan.factor = 1 := ⟨_, make_eq_ok_iff.2 ⟨_, _, hband, rfl⟩, rfl⟩
  have hdemand : demand (1294932639593.25 : ℝ) 1 14245331 plan.factor = 2 ^ 64 - 1 / 4 := by
    have hn : (14245331 : UInt32).toNat = 14245331 := rfl
    have hone : (1 : UInt32).toNat = 1 := rfl
    rw [hfactor, demand, Scalar.ofNat_real, Scalar.ofNat_real, hn, hone]
    norm_num
  have hclose := h _ _ _ _ plan positive hrate hplan (by rw [hdemand]; norm_num)
  rw [abs_window_sub_le_iff positive hrate hplan, hdemand] at hclose
  norm_num at hclose

end AcquisitionPlan

end ImpedanceBench

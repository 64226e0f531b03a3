import Mathlib.Data.List.Chain
import Mathlib.Data.List.TakeWhile
import ImpedanceBench.Proofs.Double.Order
import ImpedanceBench.Proofs.Double.Packing
import ImpedanceBench.Proofs.Sweep.Outcome
import ImpedanceBench.Acquisition.Plan

/-!
What is known of a sweep that has been accepted: its frequencies ascend and there is at least one,
each point has at least one pass, and the oscilloscope has a band for every frequency.
-/

namespace ImpedanceBench

/-- The sweep is what validation makes of some settings for some profile. -/
def ValidatedSweep.Accepted (sweep : ValidatedSweep Float) : Prop :=
  ∃ (c : SweepConfig Float) (p : HardwareProfile Float) (ws : List (Warning Float)),
    ((c.validate p).run.run ws).1 = .ok sweep

/-- Settings that pass every check, their end once it has been lowered. -/
structure SweepConfig.InRange (c : SweepConfig Float) (p : HardwareProfile Float) : Prop where
  profile : p.validate = .ok ()
  start : c.startInRange p = true
  stop : Scalar.undefined c.stop = false
  settings : (c.lowerStop p).defect? p = none

namespace SweepConfig

variable {c : SweepConfig Float} {p : HardwareProfile Float}

/-- Acceptance means settings in range, and these become the sweep. -/
lemma outcome_eq_ok_iff {sweep : ValidatedSweep Float} : c.outcome p = .ok sweep ↔
    c.InRange p ∧ ((c.lowerStop p).lowerSweeps p).resolve p = .ok sweep := by
  constructor
  · intro h
    unfold outcome at h
    dsimp only at h
    split at h
    · cases h
    rename_i hprofile
    split at h
    · cases h
    rename_i hstart
    split at h
    · cases h
    rename_i hstop
    split at h
    · cases h
    rename_i hdefect
    exact ⟨⟨hprofile, by simpa using hstart, by simpa using hstop, hdefect⟩, h⟩
  · rintro ⟨⟨hprofile, hstart, hstop, hdefect⟩, h⟩
    simpa [outcome, hprofile, hstart, hstop, hdefect] using h

lemma toNat_max (m n : UInt32) : (max m n).toNat = max m.toNat n.toNat := by
  change (if m ≤ n then n else m).toNat = _
  simp only [UInt32.le_iff_toNat_le]
  split <;> omega

lemma one_le_lowerSweeps : 1 ≤ (c.lowerSweeps p).measurementSweeps.toNat := by
  change 1 ≤ (max _ 1 : UInt32).toNat
  rw [toNat_max]
  exact le_max_right _ _

/-- Settings in range become a sweep in one of two ways. -/
lemma eq_of_resolve {sweep : ValidatedSweep Float} (h : c.resolve p = .ok sweep) :
    ∃ (n : UInt32) (mode : SweepMode) (points : List Float),
      c.averagingCount.toNat * n.toNat < UInt32.size ∧
      sweep = ⟨{ c with measurementSweeps := n }, mode, p, points,
        UInt32.ofNat (c.averagingCount.toNat * n.toNat)⟩ ∧
      (mode = .frequency ∧ c.start < c.stop ∧ n = 1 ∧
          Grid.points? c.start c.stop c.step p.maxSweepPoints = some points ∨
        mode = .repeated ∧ ¬ c.start < c.stop ∧ n = c.measurementSweeps ∧ points = [c.start]) := by
  by_cases hmode : c.start < c.stop
  · rw [resolve_of_lt p hmode] at h
    split at h <;> cases h
    rename_i points hpoints
    have hpasses : c.averagingCount.toNat * UInt32.toNat 1 < UInt32.size := by
      simpa using c.averagingCount.toNat_lt
    exact ⟨1, .frequency, points, hpasses, rfl, .inl ⟨rfl, hmode, rfl, hpoints⟩⟩
  · rw [resolve_of_not_lt p hmode] at h
    split at h <;> cases h
    rename_i hpasses
    exact ⟨_, .repeated, _, not_le.1 hpasses, rfl, .inr ⟨rfl, hmode, rfl, rfl⟩⟩

end SweepConfig

/-- A search that keeps what it has or takes what it finds ends with something that it found. -/
lemma mem_of_foldl {β γ : Type} {f : Option γ → β → Option γ} {g : β → γ}
    (hf : ∀ acc b, f acc b = acc ∨ f acc b = some (g b)) {bs : List β} {acc : Option γ} {x : γ}
    (h : bs.foldl f acc = some x) : acc = some x ∨ ∃ b ∈ bs, g b = x := by
  induction bs generalizing acc with
  | nil => exact .inl h
  | cons b bs ih =>
    rcases ih h with hacc | ⟨b', hb', rfl⟩
    · rcases hf acc b with hb | hb <;> rw [hb] at hacc
      · exact .inl hacc
      · exact .inr ⟨b, by simp, Option.some.inj hacc⟩
    · exact .inr ⟨b', by simp [hb'], rfl⟩

/-- A band of the table has the lowest threshold. -/
lemma DecimationBand.mem_of_lowest {bands : List (DecimationBand Float)} {low : Float}
    (h : DecimationBand.lowest bands = some low) : ∃ b ∈ bands, b.threshold = low := by
  refine (mem_of_foldl (g := DecimationBand.threshold) (fun acc b => ?_) h).resolve_left (by simp)
  cases acc <;> dsimp only <;> split <;> simp

namespace Grid

variable {start stop step : Float} {maxPoints : UInt64} {points : List Float}

lemma eq_of_points (h : points? start stop step maxPoints = some points) :
    (∃ count : Float, count ≤ Scalar.ofNat maxPoints.toNat ∧
      points = ((List.range count.toUInt64.toNat).map fun k =>
        start + Scalar.ofNat k * step).takeWhile (· < stop)) ∧
    points ≠ [] ∧ ascending points = true := by
  unfold points? at h
  dsimp only at h
  split at h
  · cases h
  rename_i hcount
  rw [not_or, not_not] at hcount
  split at h
  · cases h
  · rename_i hgood
    cases h
    rw [Bool.or_eq_true, not_or] at hgood
    exact ⟨⟨_, hcount.2.2, rfl⟩, by simpa using hgood.1, by simpa using hgood.2⟩

lemma head_of_points (h : points? start stop step maxPoints = some points) :
    points.head? = some (start + Scalar.ofNat 0 * step) := by
  obtain ⟨⟨count, -, rfl⟩, hne, -⟩ := eq_of_points h
  cases hn : count.toUInt64.toNat with
  | zero => simp [hn] at hne
  | succ n =>
    rw [hn, List.range_succ_eq_map, List.map_cons] at hne
    rw [List.range_succ_eq_map, List.map_cons]
    rw [List.takeWhile_cons] at hne ⊢
    split at hne
    · simp [*]
    · simp at hne

lemma lt_of_mem_points (h : points? start stop step maxPoints = some points) :
    ∀ f ∈ points, f < stop := by
  obtain ⟨⟨count, -, rfl⟩, -⟩ := eq_of_points h
  intro f hf
  simpa using List.mem_takeWhile_imp hf

lemma ascending_iff {α : Type} [Scalar α] {xs : List α} :
    ascending xs = true ↔ xs.IsChain fun x y => ¬ y ≤ x := by
  fun_induction ascending xs with
  | case1 x y rest ih => simp [ih]
  | case2 xs hshort =>
    match xs, hshort with
    | [], _ => simp
    | [x], _ => simp
    | x :: y :: rest, hshort => exact absurd rfl (hshort x y rest)

lemma pairwise_of_points (h : points? start stop step maxPoints = some points) :
    points.Pairwise (· < ·) := by
  have hbelow := lt_of_mem_points h
  refine List.isChain_iff_pairwise.1 ((ascending_iff.1 (eq_of_points h).2.2).imp_of_mem_imp ?_)
  exact fun x y hx hy => Double.lt_of_not_le (hbelow x hx) (hbelow y hy)

end Grid

/-- Every check of an accepted profile has passed. -/
lemma HardwareProfile.eq_true_of_mem_checks {α : Type} [Scalar α] {p : HardwareProfile α}
    (h : p.validate = .ok ()) (field : ProfileField) {passed : Bool}
    (hc : (field, passed) ∈ p.checks) : passed = true := by
  unfold validate defect? at h
  split at h
  · cases h
  · rename_i hnone
    rw [Option.map_eq_none_iff, List.find?_eq_none] at hnone
    simpa using hnone _ hc

lemma HardwareProfile.bufferLength_bounds {α : Type} [Scalar α] {p : HardwareProfile α}
    (h : p.validate = .ok ()) : 2 ≤ p.bufferLength.toNat ∧ p.bufferLength.toNat ≤ 65536 := by
  have hlength : (2 ≤ p.bufferLength && p.bufferLength ≤ 65536 : Bool) = true :=
    eq_true_of_mem_checks h .bufferLength (by simp [checks])
  simp only [Bool.and_eq_true, decide_eq_true_eq, UInt64.le_iff_toNat_le] at hlength
  exact hlength

lemma Scalar.positive_iff {x : Float} :
    Scalar.positive x = true ↔ (0.0 : Float) < x ∧ x.isFinite = true := by
  simp only [Scalar.positive, Bool.and_eq_true, decide_eq_true_eq]
  rfl

namespace SweepConfig.InRange

variable {c : SweepConfig Float} {p : HardwareProfile Float}

lemma exists_lowest (h : c.InRange p) : ∃ low, DecimationBand.lowest p.bands = some low ∧
    low ≤ c.start ∧ c.start ≤ p.maxFrequency := by
  have hstart := h.start
  unfold startInRange at hstart
  split at hstart
  · rename_i low hlow
    exact ⟨low, hlow, by simpa using hstart⟩
  · cases hstart

lemma maxFrequency_pos (h : c.InRange p) :
    (0.0 : Float) < p.maxFrequency ∧ p.maxFrequency.isFinite = true := by
  have hmax : (Scalar.positive p.maxFrequency &&
      !decide (p.dacRate / 2.0 < p.maxFrequency)) = true :=
    HardwareProfile.eq_true_of_mem_checks h.profile .maxFrequency (by simp [HardwareProfile.checks])
  exact Scalar.positive_iff.1 (Bool.and_eq_true_iff.1 hmax).1

lemma lowest_pos (h : c.InRange p) {low : Float} (hlow : DecimationBand.lowest p.bands = some low) :
    (0.0 : Float) < low := by
  obtain ⟨b, hb, rfl⟩ := DecimationBand.mem_of_lowest hlow
  have hbands : (!p.bands.isEmpty && p.bands.all fun b => b.factor != 0 &&
      Scalar.positive b.threshold) = true :=
    HardwareProfile.eq_true_of_mem_checks h.profile .bands (by simp [HardwareProfile.checks])
  simp only [Bool.and_eq_true, List.all_eq_true, Scalar.positive_iff] at hbands
  exact (hbands.2 b hb).2.1

/-- A frequency that the profile allows is a positive number. -/
lemma unpack_of_bounds (h : c.InRange p) {low f : Float}
    (hlow : DecimationBand.lowest p.bands = some low) (hlowest : low ≤ f)
    (hhighest : f ≤ p.maxFrequency) : ∃ m e hm, f.toModel.unpack = .finite .positive m e hm :=
  Double.unpack_of_pos_of_le (Double.lt_of_lt_of_le (h.lowest_pos hlow) hlowest) hhighest
    h.maxFrequency_pos.2

lemma unpack_start (h : c.InRange p) :
    ∃ m e hm, c.start.toModel.unpack = .finite .positive m e hm :=
  let ⟨_, hlow, hlowest, hhighest⟩ := h.exists_lowest
  h.unpack_of_bounds hlow hlowest hhighest

lemma stop_le (h : c.InRange p) : (c.lowerStop p).stop ≤ p.maxFrequency := by
  have hmax : p.maxFrequency ≤ p.maxFrequency := (Double.le_self_of_lt h.maxFrequency_pos.1).2
  have hstop : c.stop ≤ c.stop := by simpa [Scalar.undefined] using h.stop
  unfold lowerStop
  dsimp only
  split
  · exact hmax
  · exact Double.le_of_not_lt hstop hmax (by assumption)

lemma step_and_averagingCount (h : c.InRange p) : ¬ (c.lowerStop p).stop < c.start ∧
    Scalar.positive c.step = true ∧ 1 ≤ c.averagingCount.toNat := by
  have hs := h.settings
  unfold defect? at hs
  split at hs
  · cases hs
  rename_i hstop
  split at hs
  · cases hs
  rename_i hstep
  iterate 3 (split at hs; · cases hs)
  split at hs
  · cases hs
  rename_i haveraging
  refine ⟨hstop, by simpa [lowerStop] using hstep, ?_⟩
  rw [Nat.one_le_iff_ne_zero]
  exact fun hzero => haveraging (.inl (UInt32.toNat_inj.1 hzero))

lemma minPeriods_bounds (h : c.InRange p) :
    1 ≤ c.minPeriods.toNat ∧ c.minPeriods.toNat ≤ p.maxMinPeriods.toNat := by
  have hs := h.settings
  unfold defect? at hs
  iterate 6 (split at hs; · cases hs)
  split at hs
  · cases hs
  rename_i hperiods
  rw [not_or, UInt32.not_lt, UInt32.le_iff_toNat_le, ← UInt32.toNat_inj] at hperiods
  exact ⟨Nat.one_le_iff_ne_zero.2 hperiods.1, hperiods.2⟩

end SweepConfig.InRange

namespace AcquisitionPlan

variable {α : Type} [Scalar α] {bands : List (DecimationBand α)} {f : α}

lemma band?_eq_none_iff : band? bands f = none ↔ ∀ b ∈ bands, ¬ b.threshold ≤ f := by
  rw [band?, List.find?_eq_none]
  constructor
  · intro h b hb
    obtain ⟨i, hi, rfl⟩ := List.mem_iff_getElem.1 hb
    simpa using h (bands[i], i) (List.mk_mem_zipIdx_iff_getElem?.2 (List.getElem?_eq_getElem hi))
  · rintro h ⟨b, i⟩ hb
    simpa using h b (List.fst_mem_of_mem_zipIdx hb)

/-- A frequency that reaches a threshold has a plan. -/
lemma exists_make {b : DecimationBand α} (hb : b ∈ bands) (h : b.threshold ≤ f) (rate : α)
    (minPeriods : UInt32) : ∃ plan, make bands rate f minPeriods = .ok plan := by
  unfold make
  split
  · rename_i hnone
    exact absurd h (band?_eq_none_iff.1 hnone b hb)
  · exact ⟨_, rfl⟩

end AcquisitionPlan

namespace ValidatedSweep

variable {sweep : ValidatedSweep Float}

/-- What acceptance guarantees. -/
structure Sound (sweep : ValidatedSweep Float) : Prop where
  ascending : sweep.frequencies.Pairwise (· < ·)
  nonempty : sweep.frequencies ≠ []
  passes : 1 ≤ sweep.passesPerPoint.toNat
  plans : ∀ f ∈ sweep.frequencies, ∃ plan,
    AcquisitionPlan.ofProfile sweep.profile f sweep.config.minPeriods = .ok plan

/-- The frequencies of settings in range ascend from the start. -/
lemma frequencies_of_inRange {c : SweepConfig Float} {p : HardwareProfile Float} (hc : c.InRange p)
    (h : ((c.lowerStop p).lowerSweeps p).resolve p = .ok sweep) :
    sweep.frequencies.Pairwise (· < ·) ∧ sweep.frequencies.head? = some c.start := by
  obtain ⟨m, e, hm, hstart⟩ := hc.unpack_start
  obtain ⟨-, hstep, -⟩ := hc.step_and_averagingCount
  obtain ⟨n, mode, points, -, rfl, ⟨-, -, -, hpoints⟩ | ⟨-, -, -, rfl⟩⟩ :=
    SweepConfig.eq_of_resolve h
  · refine ⟨Grid.pairwise_of_points hpoints, ?_⟩
    change points.head? = _
    rw [Grid.head_of_points hpoints]
    exact congrArg some (Double.add_zero_mul hstart (Scalar.positive_iff.1 hstep).2)
  · exact ⟨List.pairwise_singleton _ _, rfl⟩

/-- The passes of a point are at least one, and their number does not wrap. -/
lemma passes_of_inRange {c : SweepConfig Float} {p : HardwareProfile Float} (hc : c.InRange p)
    (h : ((c.lowerStop p).lowerSweeps p).resolve p = .ok sweep) :
    sweep.passesPerPoint.toNat =
      sweep.config.averagingCount.toNat * sweep.config.measurementSweeps.toNat ∧
    1 ≤ sweep.passesPerPoint.toNat := by
  obtain ⟨-, -, haveraging⟩ := hc.step_and_averagingCount
  obtain ⟨n, mode, points, hsize, rfl, hmode⟩ := SweepConfig.eq_of_resolve h
  have hn : 1 ≤ n.toNat := by
    rcases hmode with ⟨-, -, rfl, -⟩ | ⟨-, -, rfl, -⟩
    · decide
    · exact SweepConfig.one_le_lowerSweeps
  change (UInt32.ofNat _).toNat = _ ∧ 1 ≤ (UInt32.ofNat _).toNat
  rw [UInt32.toNat_ofNat_of_lt' hsize]
  exact ⟨rfl, Nat.mul_pos haveraging hn⟩

/-- The frequencies stay between the limits of the profile. -/
lemma bounds_of_inRange {c : SweepConfig Float} {p : HardwareProfile Float} (hc : c.InRange p)
    (h : ((c.lowerStop p).lowerSweeps p).resolve p = .ok sweep) :
    ∃ low, DecimationBand.lowest p.bands = some low ∧
      ∀ f ∈ sweep.frequencies, low ≤ f ∧ f ≤ p.maxFrequency := by
  obtain ⟨low, hlow, hstart, hhighest⟩ := hc.exists_lowest
  obtain ⟨hasc, hhead⟩ := frequencies_of_inRange hc h
  obtain ⟨rest, hrest⟩ := List.head?_eq_some_iff.1 hhead
  refine ⟨low, hlow, fun f hf => ⟨?_, ?_⟩⟩
  · rw [hrest] at hasc hf
    rcases List.mem_cons.1 hf with rfl | hf
    · exact hstart
    · exact Double.le_trans hstart (Double.le_of_lt ((List.pairwise_cons.1 hasc).1 f hf))
  · obtain ⟨n, mode, points, -, rfl, ⟨-, -, -, hpoints⟩ | ⟨-, -, -, rfl⟩⟩ :=
      SweepConfig.eq_of_resolve h
    · exact Double.le_of_lt
        (Double.lt_of_lt_of_le (Grid.lt_of_mem_points hpoints f hf) hc.stop_le)
    · rw [List.mem_singleton.1 hf]
      exact hhighest

/-- The oscilloscope can be set up at every frequency, for any number of periods. -/
lemma Accepted.exists_plan (h : sweep.Accepted) {f : Float} (hf : f ∈ sweep.frequencies)
    (minPeriods : UInt32) :
    ∃ plan, AcquisitionPlan.ofProfile sweep.profile f minPeriods = .ok plan := by
  obtain ⟨c, p, ws, h⟩ := h
  rw [SweepConfig.run_validate, SweepConfig.outcome_eq_ok_iff] at h
  obtain ⟨low, hlow, hbounds⟩ := bounds_of_inRange h.1 h.2
  obtain ⟨b, hb, rfl⟩ := DecimationBand.mem_of_lowest hlow
  obtain ⟨n, mode, points, -, rfl, -⟩ := SweepConfig.eq_of_resolve h.2
  exact AcquisitionPlan.exists_make hb (hbounds f hf).1 p.adcRate minPeriods

lemma Accepted.unpack (h : sweep.Accepted) {f : Float} (hf : f ∈ sweep.frequencies) :
    ∃ m e hm, f.toModel.unpack = .finite .positive m e hm := by
  obtain ⟨c, p, ws, h⟩ := h
  rw [SweepConfig.run_validate, SweepConfig.outcome_eq_ok_iff] at h
  obtain ⟨low, hlow, hbounds⟩ := bounds_of_inRange h.1 h.2
  exact h.1.unpack_of_bounds hlow (hbounds f hf).1 (hbounds f hf).2

lemma Accepted.profile_valid (h : sweep.Accepted) : sweep.profile.validate = .ok () := by
  obtain ⟨c, p, ws, h⟩ := h
  rw [SweepConfig.run_validate, SweepConfig.outcome_eq_ok_iff] at h
  obtain ⟨n, mode, points, -, rfl, -⟩ := SweepConfig.eq_of_resolve h.2
  exact h.1.profile

theorem Accepted.sound (h : sweep.Accepted) : sweep.Sound := by
  have hplans := fun f hf => h.exists_plan (f := f) hf sweep.config.minPeriods
  obtain ⟨c, p, ws, h⟩ := h
  rw [SweepConfig.run_validate, SweepConfig.outcome_eq_ok_iff] at h
  obtain ⟨hasc, hhead⟩ := frequencies_of_inRange h.1 h.2
  obtain ⟨-, hpasses⟩ := passes_of_inRange h.1 h.2
  obtain ⟨rest, hrest⟩ := List.head?_eq_some_iff.1 hhead
  exact ⟨hasc, by simp [hrest], hpasses, hplans⟩

/-- Two frequencies with one pass each, which is left out after ten empty polls. -/
def twoPoints : ValidatedSweep Float where
  config := { SweepConfig.standard with
    stop := 3000.0
    averagingCount := 1
    retry := ⟨10, 1, none⟩
    timeoutPolicy := .skipPass }
  mode := .frequency
  profile := .standard
  frequencies := [1000.0, 2000.0]
  passesPerPoint := 1

lemma twoPoints_accepted : twoPoints.Accepted := ⟨twoPoints.config, .standard, [], rfl⟩

end ValidatedSweep

end ImpedanceBench

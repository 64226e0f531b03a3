import Mathlib.Data.Set.Card
import ImpedanceBench.Proofs.Exact.Rounding
import ImpedanceBench.Proofs.Sweep.Accepted

/-!
The grid of a frequency sweep in exact arithmetic. The quotient rounded up is the number of points
below the end, also where the end is a point itself, so that taking points while they are below the
end drops none: the grid is complete, and only its size is a reason to refuse a step.
-/

namespace ImpedanceBench

open Exact

namespace Grid

variable {start stop step : ℝ} {maxPoints : UInt64}

/-- The steps after which the sweep is still below its end. -/
def below (start stop step : ℝ) : Set ℕ := {k | start + k * step < stop}

noncomputable def size (start stop step : ℝ) : ℕ := (below start stop step).ncard

/-- The first `n` points. -/
noncomputable def points (start step : ℝ) (n : ℕ) : List ℝ :=
  (List.range n).map fun k : ℕ => start + k * step

/-- All points below the end, in their order, and nothing else. -/
structure Complete (start stop step : ℝ) (fs : List ℝ) : Prop where
  eq : fs = points start step (size start stop step)
  mem_iff : ∀ f, f ∈ fs ↔ ∃ k : ℕ, f = start + k * step ∧ f < stop
  stop_notMem : stop ∉ fs

lemma mem_below_iff (hstep : 0 < step) {k : ℕ} :
    k ∈ below start stop step ↔ k < ⌈(stop - start) / step⌉₊ := by
  rw [Nat.lt_ceil, lt_div_iff₀ hstep, lt_sub_iff_add_lt']
  rfl

lemma below_eq (hstep : 0 < step) :
    below start stop step = Finset.range ⌈(stop - start) / step⌉₊ := by
  ext k
  rw [mem_below_iff hstep, Finset.coe_range, Set.mem_Iio]

lemma size_eq (hstep : 0 < step) : size start stop step = ⌈(stop - start) / step⌉₊ := by
  rw [size, below_eq hstep, Set.ncard_coe_finset, Finset.card_range]

lemma lt_size_iff (hstep : 0 < step) {k : ℕ} :
    k < size start stop step ↔ start + k * step < stop := by
  rw [size_eq hstep, ← mem_below_iff hstep]
  rfl

lemma complete_points (hstep : 0 < step) :
    Complete start stop step (points start step (size start stop step)) := by
  have hmem : ∀ f, f ∈ points start step (size start stop step) ↔
      ∃ k : ℕ, f = start + k * step ∧ f < stop := fun f => by
    simp only [points, List.mem_map, List.mem_range, lt_size_iff hstep]
    constructor
    · rintro ⟨k, hk, rfl⟩
      exact ⟨k, rfl, hk⟩
    · rintro ⟨k, rfl, hk⟩
      exact ⟨k, hk, rfl⟩
  exact ⟨rfl, hmem, fun hstop => by
    obtain ⟨k, -, hlt⟩ := (hmem stop).1 hstop
    exact lt_irrefl _ hlt⟩

lemma ascending_points (hstep : 0 < step) (n : ℕ) : ascending (points start step n) = true := by
  simp only [ascending_iff, not_le, List.isChain_iff_pairwise, points, List.pairwise_map]
  refine List.pairwise_lt_range.imp fun {i j} hij => ?_
  have : (i : ℝ) < j := by exact_mod_cast hij
  nlinarith

/-- The grid has all points below the end, if they are not too many. -/
lemma points?_real (hstep : 0 < step) (hlt : start < stop) :
    points? start stop step maxPoints =
      if size start stop step ≤ maxPoints.toNat then
        some (points start step (size start stop step))
      else none := by
  have hone : (1.0 : ℝ) = 1 := by norm_num
  have hquotient : 0 < (stop - start) / step := div_pos (sub_pos.2 hlt) hstep
  have hceil : (Scalar.ceil ((stop - start) / step) : ℝ) = size start stop step := by
    rw [size_eq hstep]
    exact (natCast_ceil_eq_intCast_ceil hquotient.le).symm
  have hpos : 1 ≤ size start stop step := by
    rw [size_eq hstep]
    exact Nat.one_le_ceil_iff.2 hquotient
  have htake : ((List.range (size start stop step)).map fun k : ℕ =>
      start + k * step).takeWhile (· < stop) = points start step (size start stop step) := by
    refine List.takeWhile_eq_self_iff.2 fun f hf => ?_
    obtain ⟨k, hk, rfl⟩ := List.mem_map.1 hf
    exact decide_eq_true ((lt_size_iff hstep).1 (List.mem_range.1 hk))
  have hne : (points start step (size start stop step)).isEmpty = false := by
    rw [points, List.isEmpty_map, List.isEmpty_eq_false_iff, Ne, List.range_eq_nil]
    omega
  have hup : ¬ start + step ≤ start := by linarith
  unfold points?
  simp only [hceil, hone, hup, Scalar.ofNat_real, Nat.cast_le, Nat.one_le_cast, hpos, true_and,
    false_or, ite_not]
  split
  · rename_i hmax
    have hword : (Scalar.toUInt64 (size start stop step : ℝ)).toNat = size start stop step :=
      toNat_toUInt64_natCast (hmax.trans_lt maxPoints.toNat_lt)
    simp [hword, htake, hne, ascending_points hstep]
  · rfl

end Grid

namespace SweepConfig

variable {c : SweepConfig ℝ} {p : HardwareProfile ℝ}

/-- Settings that pass with the step 1 pass with any positive step, and with no other. -/
lemma defect?_of_step (h : ({ c with step := 1 } : SweepConfig ℝ).defect? p = none) :
    c.defect? p = if 0 < c.step then none else some (.invalidStep c.step) := by
  have hone : Scalar.positive (1 : ℝ) = true := (Scalar.positive_real 1).2 one_pos
  unfold defect? at h ⊢
  dsimp only at h
  split at h
  · cases h
  rename_i hstop
  rw [if_neg hstop]
  simp only [hone, Bool.not_true, Bool.false_eq_true, if_false] at h
  rw [Scalar.positive_eq_decide]
  by_cases hstep : 0 < c.step
  · simpa only [hstep, decide_true, Bool.not_true, Bool.false_eq_true, if_false, if_true] using h
  · simp only [hstep, decide_false, Bool.not_false, if_true, if_false]

/-- The end that is left of the one asked for. -/
noncomputable def top (c : SweepConfig ℝ) (p : HardwareProfile ℝ) : ℝ := min c.stop p.maxFrequency

/-- Settings for a frequency sweep that pass all checks, apart from those on the step. -/
structure Ascends (c : SweepConfig ℝ) (p : HardwareProfile ℝ) : Prop where
  profile : p.validate = .ok ()
  start : c.startInRange p = true
  start_lt : c.start < c.top p
  settings : ({ c with stop := c.top p, step := 1 } : SweepConfig ℝ).defect? p = none

namespace Ascends

/-- The size of the grid is the only limit on a positive step. -/
lemma run_validate (h : c.Ascends p) (ws : List (Warning ℝ)) :
    ((c.validate p).run.run ws).1 =
      if 0 < c.step ∧ Grid.size c.start (c.top p) c.step ≤ p.maxSweepPoints.toNat then
        .ok ⟨{ c with stop := c.top p, measurementSweeps := 1 }, .frequency, p,
          Grid.points c.start c.step (Grid.size c.start (c.top p) c.step),
          UInt32.ofNat (c.averagingCount.toNat * 1)⟩
      else .error (.invalidStep c.step) := by
  have htop : (if p.maxFrequency < c.stop then p.maxFrequency else c.stop) = c.top p := by
    rw [top, min_comm, min_def_lt]
  have hdefect := defect?_of_step (c := { c with stop := c.top p }) h.settings
  rw [run_validate_eq, h.profile, h.start, Scalar.undefined_real]
  simp only [Bool.not_true, Bool.false_eq_true, if_false, htop, hdefect]
  by_cases hstep : 0 < c.step
  · simp only [hstep, if_true, true_and]
    rw [resolve_of_lt p h.start_lt, Grid.points?_real hstep h.start_lt]
    by_cases hsize : Grid.size c.start (c.top p) c.step ≤ p.maxSweepPoints.toNat
    · simp only [hsize, if_true]
    · simp only [hsize, if_false]
  · simp only [hstep, if_false, false_and]

end Ascends

/-- **The grid is complete.** With a positive step the points below the end are finitely many. If
the profile allows so many, they are the frequencies of the sweep, all of them and nothing else;
the step is refused if they are more or if it is not positive, and for no other reason. -/
theorem complete_of_ascends (h : c.Ascends p) (ws : List (Warning ℝ)) :
    (0 < c.step → (Grid.below c.start (c.top p) c.step).Finite) ∧
    (0 < c.step → Grid.size c.start (c.top p) c.step ≤ p.maxSweepPoints.toNat →
      ∃ sweep, ((c.validate p).run.run ws).1 = .ok sweep ∧ sweep.mode = .frequency ∧
        Grid.Complete c.start (c.top p) c.step sweep.frequencies) ∧
    (((c.validate p).run.run ws).1 = .error (.invalidStep c.step) ↔
      ¬ 0 < c.step ∨ p.maxSweepPoints.toNat < Grid.size c.start (c.top p) c.step) := by
  refine ⟨fun hstep => ?_, fun hstep hsize => ?_, ?_⟩
  · rw [Grid.below_eq hstep]
    exact Finset.finite_toSet _
  · rw [h.run_validate, if_pos ⟨hstep, hsize⟩]
    exact ⟨_, rfl, rfl, Grid.complete_points hstep⟩
  · rw [h.run_validate]
    split
    · rename_i hgrid
      simp [hgrid.1, hgrid.2]
    · rename_i hgrid
      rw [not_and_or, not_le] at hgrid
      exact iff_of_true rfl hgrid

/-- The standard settings end at a point of the grid, which is not visited. -/
theorem complete_of_ascends_standard :
    ∃ sweep, (((standard : SweepConfig ℝ).validate .standard).run.run []).1 = .ok sweep ∧
      sweep.frequencies.length = 9 ∧ (9000 : ℝ) ∈ sweep.frequencies ∧
      (10000 : ℝ) ∉ sweep.frequencies := by
  have htop : (standard : SweepConfig ℝ).top .standard = 10000 := by
    change min (10000.0 : ℝ) 62500000.0 = _
    norm_num
  have hascends : (standard : SweepConfig ℝ).Ascends .standard := {
    profile := HardwareProfile.standard_accepted_real
    start := by
      simp [startInRange, DecimationBand.lowest, HardwareProfile.standard, DecimationBand.standard,
        standard]
      norm_num
    start_lt := by
      rw [htop]
      change (1000.0 : ℝ) < 10000
      norm_num
    settings := by
      rw [htop]
      simp [defect?, standard, HardwareProfile.standard, DecimationBand.standard,
        Scalar.positive_eq_decide]
      norm_num }
  have hstep : (0 : ℝ) < (standard : SweepConfig ℝ).step := by
    change (0 : ℝ) < 1000.0
    norm_num
  have hsize : Grid.size (standard : SweepConfig ℝ).start (standard.top .standard)
      (standard : SweepConfig ℝ).step = 9 := by
    rw [Grid.size_eq hstep, htop]
    change ⌈((10000 : ℝ) - 1000.0) / 1000.0⌉₊ = 9
    rw [Nat.ceil_eq_iff (by norm_num)]
    norm_num
  have hmax : Grid.size (standard : SweepConfig ℝ).start (standard.top .standard)
      (standard : SweepConfig ℝ).step ≤
        (HardwareProfile.standard : HardwareProfile ℝ).maxSweepPoints.toNat := by
    rw [hsize]
    decide
  obtain ⟨sweep, hsweep, -, hcomplete⟩ := (complete_of_ascends hascends []).2.1 hstep hmax
  refine ⟨sweep, hsweep, ?_, (hcomplete.mem_iff 9000).2 ⟨8, ?_, ?_⟩, ?_⟩
  · rw [hcomplete.eq, hsize, Grid.points, List.length_map, List.length_range]
  · change (9000 : ℝ) = 1000.0 + (8 : ℕ) * 1000.0
    norm_num
  · rw [htop]
    norm_num
  · exact htop ▸ hcomplete.stop_notMem

end SweepConfig

end ImpedanceBench

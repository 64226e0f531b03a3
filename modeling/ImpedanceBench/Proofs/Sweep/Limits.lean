import ImpedanceBench.Proofs.Double.Whole
import ImpedanceBench.Proofs.Sweep.Accepted

/-!
What validation promises about the sweep that it returns, for any settings and any profile. The
grid is computed with rounding, and its bound on the number of points is compared as a double; both
are as good as exact, because a grid that has not been refused is strictly ascending.
-/

namespace ImpedanceBench

namespace Grid

variable {start stop step : Float} {maxPoints : UInt64} {points : List Float}

/-- Above `2^53` the doubles no longer tell the points apart, so a grid has never more of them. -/
lemma length_points_le_of_large (h : points? start stop step maxPoints = some points) :
    points.length ≤ 2 ^ 53 + 1 := by
  obtain ⟨⟨count, -, hpoints⟩, -⟩ := eq_of_points h
  have hasc := pairwise_of_points h
  by_contra hlen
  have hpoint (i : ℕ) (hi : i < points.length) : points[i] = start + Scalar.ofNat i * step := by
    have hstart : points <+: (List.range count.toUInt64.toNat).map fun k =>
        start + Scalar.ofNat k * step := by
      rw [hpoints]
      exact List.takeWhile_prefix _
    rw [hstart.getElem hi]
    simp
  have hsame : (Scalar.ofNat (2 ^ 53) : Float) = Scalar.ofNat (2 ^ 53 + 1) := by decide +kernel
  have hlt : points[2 ^ 53] < points[2 ^ 53 + 1] :=
    List.pairwise_iff_getElem.1 hasc _ _ (by omega) (by omega) (by omega)
  rw [hpoint, hpoint, hsame] at hlt
  exact Double.lt_irrefl _ hlt

/-- A grid has at most as many points as are allowed. -/
lemma length_points_le (h : points? start stop step maxPoints = some points) :
    points.length ≤ maxPoints.toNat := by
  rcases le_or_gt maxPoints.toNat (2 ^ 53) with hmax | hmax
  · obtain ⟨⟨count, hcount, rfl⟩, -⟩ := eq_of_points h
    calc _ ≤ ((List.range count.toUInt64.toNat).map fun k =>
            start + Scalar.ofNat k * step).length := (List.takeWhile_prefix _).length_le
      _ = count.toUInt64.toNat := by simp
      _ ≤ (Double.ofNat maxPoints.toNat).toUInt64.toNat := Double.toUInt64_mono hcount
      _ = maxPoints.toNat := Double.toNat_toUInt64_ofNat hmax
  · have hlen := length_points_le_of_large h
    omega

end Grid

namespace SweepConfig.InRange

variable {c : SweepConfig Float} {p : HardwareProfile Float}

lemma stop_defined (h : c.InRange p) : (c.lowerStop p).stop ≤ (c.lowerStop p).stop := by
  have hstop : c.stop ≤ c.stop := by simpa [Scalar.undefined] using h.stop
  unfold lowerStop
  dsimp only
  split
  · exact (Double.le_self_of_lt h.maxFrequency_pos.1).2
  · exact hstop

/-- Settings in range have an end above the start or the start itself as their end. -/
lemma stop_eq (h : c.InRange p) (hmode : ¬ c.start < (c.lowerStop p).stop) :
    (c.lowerStop p).stop = c.start := by
  obtain ⟨m, e, hm, hstart⟩ := h.unpack_start
  obtain ⟨hdescending, -⟩ := h.step_and_averagingCount
  exact Double.eq_of_not_lt hstart h.stop_defined hmode hdescending

lemma one_le_maxMeasurementSweeps (h : c.InRange p) : 1 ≤ p.maxMeasurementSweeps.toNat := by
  have hsweeps : (p.maxMeasurementSweeps != 0) = true :=
    HardwareProfile.eq_true_of_mem_checks h.profile .maxMeasurementSweeps
      (by simp [HardwareProfile.checks])
  rw [Nat.one_le_iff_ne_zero]
  exact fun hzero => (bne_iff_ne.1 hsweeps) (UInt32.toNat_inj.1 hzero)

lemma one_le_maxSweepPoints (h : c.InRange p) : 1 ≤ p.maxSweepPoints.toNat := by
  have hpoints : (p.maxSweepPoints != 0) = true :=
    HardwareProfile.eq_true_of_mem_checks h.profile .maxSweepPoints
      (by simp [HardwareProfile.checks])
  rw [Nat.one_le_iff_ne_zero]
  exact fun hzero => (bne_iff_ne.1 hpoints) (UInt64.toNat_inj.1 hzero)

lemma lowerSweeps_le (h : c.InRange p) :
    (c.lowerSweeps p).measurementSweeps.toNat ≤ p.maxMeasurementSweeps.toNat := by
  have hone := h.one_le_maxMeasurementSweeps
  change (max _ 1 : UInt32).toNat ≤ _
  rw [toNat_max]
  refine max_le ?_ hone
  split
  · exact le_rfl
  · rename_i hle
    rw [UInt32.lt_iff_toNat_lt] at hle
    omega

end SweepConfig.InRange

namespace ValidatedSweep

/-- What a sweep promises that was made from the settings `c` for the profile `p`. -/
structure Keeps (sweep : ValidatedSweep Float) (c : SweepConfig Float) (p : HardwareProfile Float) :
    Prop where
  profile : sweep.profile = p
  /-- Only the end and the repetitions may differ from the settings. -/
  config : sweep.config =
    { c.lowerStop p with measurementSweeps := sweep.config.measurementSweeps }
  head : sweep.frequencies.head? = some c.start
  ascending : sweep.frequencies.Pairwise (· < ·)
  length_le : sweep.frequencies.length ≤ p.maxSweepPoints.toNat
  bounds : ∃ low, DecimationBand.lowest p.bands = some low ∧
    ∀ f ∈ sweep.frequencies, low ≤ f ∧ f ≤ p.maxFrequency
  mode : sweep.mode = .frequency ↔ c.start < (c.lowerStop p).stop
  frequency : sweep.mode = .frequency →
    (∀ f ∈ sweep.frequencies, f < (c.lowerStop p).stop) ∧ sweep.config.measurementSweeps = 1
  repeated : sweep.mode = .repeated → (c.lowerStop p).stop = c.start ∧
    sweep.frequencies = [c.start] ∧
    sweep.config.measurementSweeps = (c.lowerSweeps p).measurementSweeps
  sweeps : 1 ≤ sweep.config.measurementSweeps.toNat ∧
    sweep.config.measurementSweeps.toNat ≤ p.maxMeasurementSweeps.toNat
  passes : sweep.passesPerPoint.toNat =
    sweep.config.averagingCount.toNat * sweep.config.measurementSweeps.toNat
  passes_pos : 1 ≤ sweep.passesPerPoint.toNat

end ValidatedSweep

/-- **Validation is sound.** Whatever the settings and the profile, and whatever the rounding, a
sweep that validation returns keeps to the limits of the profile. -/
theorem SweepConfig.keeps_of_validate {c : SweepConfig Float} {p : HardwareProfile Float}
    {ws : List (Warning Float)} {sweep : ValidatedSweep Float}
    (valid : ((c.validate p).run.run ws).1 = .ok sweep) : sweep.Keeps c p := by
  rw [run_validate, outcome_eq_ok_iff] at valid
  obtain ⟨hc, hresolve⟩ := valid
  obtain ⟨hasc, hhead⟩ := ValidatedSweep.frequencies_of_inRange hc hresolve
  obtain ⟨hpasses, hone⟩ := ValidatedSweep.passes_of_inRange hc hresolve
  have hbounds := ValidatedSweep.bounds_of_inRange hc hresolve
  obtain ⟨n, mode, points, -, rfl, ⟨rfl, hup, rfl, hpoints⟩ | ⟨rfl, hup, rfl, rfl⟩⟩ :=
    eq_of_resolve hresolve
  · have hbelow := Grid.lt_of_mem_points hpoints
    exact {
      profile := rfl
      config := rfl
      head := hhead
      ascending := hasc
      length_le := Grid.length_points_le hpoints
      bounds := hbounds
      mode := ⟨fun _ => hup, fun _ => rfl⟩
      frequency := fun _ => ⟨hbelow, rfl⟩
      repeated := fun h => by cases h
      sweeps := ⟨le_rfl, hc.one_le_maxMeasurementSweeps⟩
      passes := hpasses
      passes_pos := hone }
  · exact {
      profile := rfl
      config := rfl
      head := rfl
      ascending := hasc
      length_le := hc.one_le_maxSweepPoints
      bounds := hbounds
      mode := ⟨fun h => (by cases h), fun h => absurd h hup⟩
      frequency := fun h => by cases h
      repeated := fun _ => ⟨hc.stop_eq hup, rfl, rfl⟩
      sweeps := ⟨one_le_lowerSweeps, hc.lowerSweeps_le⟩
      passes := hpasses
      passes_pos := hone }

/-- Settings with an end and a number of repetitions that are too high. -/
def SweepConfig.excessive : SweepConfig Float :=
  { SweepConfig.standard with
    stop := 1000000000.0, step := 30000000.0, measurementSweeps := 99 }

/-- Their end is lowered, and a frequency sweep has no repetitions. -/
theorem SweepConfig.keeps_of_validate_excessive :
    ∃ sweep, ((excessive.validate .standard).run.run []).1 = .ok sweep ∧
      sweep.frequencies = [1000.0, 30001000.0, 60001000.0] ∧ sweep.config.stop = 62500000.0 ∧
      sweep.Keeps excessive .standard := by
  have hvalid : ((excessive.validate .standard).run.run []).1 = .ok
      { config := { excessive with stop := 62500000.0, measurementSweeps := 1 }
        mode := .frequency
        profile := .standard
        frequencies := [1000.0, 30001000.0, 60001000.0]
        passesPerPoint := 5 } := rfl
  exact ⟨_, hvalid, rfl, rfl, keeps_of_validate hvalid⟩

end ImpedanceBench

import Mathlib.Analysis.Real.Pi.Bounds
import ImpedanceBench.Proofs.Double.Functions

/-!
The level of a square wave off its edges. It is taken from the cosine after this has been scaled
and rounded, so the upper level is held only where the scaled cosine is at least one half. Nearer to
its zeros, and for small amplitudes far from them, the cosine is positive and the level is the
lower one.
-/

namespace ImpedanceBench

open Double

/-- The whole numbers of a word, taken from a double. -/
lemma Double.toInt32_ofNat {n : ℕ} (hn : n < 2 ^ 31) : (Scalar.toInt32 (ofNat n)).toInt = n := by
  have hnearest := Exact.nearest_natCast n
  have hwhole := Exact.wholeWithin_nearest (x := n) (n := n) (by rw [hnearest, Nat.abs_cast]) hn
  rw [hnearest, Int.cast_natCast] at hwhole
  rw [toInt_toInt32 (value_ofNat (by omega)), hwhole]

lemma Double.neg_toInt32_ofNat {n : ℕ} (hn : n < 2 ^ 31) :
    (-Scalar.toInt32 (ofNat n)).toInt = -n := by
  rw [Int32.toInt_neg, toInt32_ofNat hn]
  exact Int.bmod_eq_of_le (by omega) (by omega)

namespace Waveform

/-- The place lies on neither edge. -/
def OffEdges (p : HardwareProfile Float) (spec : SignalSpec Float) (i : ℕ) : Prop :=
  ¬ (edges p spec).Falling (ofNat i) ∧ ¬ (edges p spec).Rising (ofNat i)

instance (p : HardwareProfile Float) (spec : SignalSpec Float) (i : ℕ) :
    Decidable (OffEdges p spec i) := inferInstanceAs (Decidable (_ ∧ _))

variable {p : HardwareProfile Float} {spec : SignalSpec Float} {i : ℕ}

lemma sample_off_edges (off : OffEdges p spec i) (cosine : Float) :
    (edges p spec).sample (ofNat i) (peak p spec) cosine =
      if 0.0 < cosine then Scalar.toInt32 (peak p spec) else -Scalar.toInt32 (peak p spec) := by
  rw [SquareEdges.sample, if_neg off.1, if_neg off.2]

/-- The upper level is held where the scaled cosine is at least one half. -/
lemma toInt_off_edges (f : Functions) (accepted : p.validate = .ok ())
    (square : spec.shape = .square) (off : OffEdges p spec i) :
    (f.sampleAt p spec i).toInt =
      if (0.5 : Float) ≤ peak p spec * f.cosine p i then ((counts p spec.amplitude).toNat : ℤ)
      else -(counts p spec.amplitude).toNat := by
  have hcounts := counts_lt accepted spec.amplitude
  rw [f.sampleAt_square p i square, sample_off_edges off]
  simp only [zero_lt_roundHalfAway_iff]
  split
  · exact toInt32_ofNat (by omega)
  · exact neg_toInt32_ofNat (by omega)

/-- The scaled cosine is less than one half if it is at most some double that is so. -/
lemma not_half_le_of_le {n : ℕ} (hn : n < 2 ^ 53) {c y : Float} {γ b : ℝ} (hc : value? c = some γ)
    (hy : value? y = some b) (hb : b < 1 / 2) (h : n * γ ≤ b) : ¬ (0.5 : Float) ≤ ofNat n * c := by
  have hle := (rounds_mul (value_ofNat hn) hc).le hy h
  intro hhalf
  have := (le_iff_value value_half hy).1 (Double.le_trans hhalf hle)
  linarith

/-- **The level off the edges.** Under an accepted profile every sample of a square wave that lies
on no edge is at the upper level if the scaled cosine is at least one half, and at the lower level
if not. So it is at the level of the cosine's sign unless the cosine is positive and the scaled one
is less than one half. -/
theorem level_off_edges (f : Functions) (accepted : p.validate = .ok ())
    (square : spec.shape = .square) {v : Int32} (hv : (f.signedSamples p spec)[i]? = some v)
    (off : OffEdges p spec i) :
    v.toInt = (if (0.5 : Float) ≤ peak p spec * f.cosine p i then
      ((counts p spec.amplitude).toNat : ℤ) else -(counts p spec.amplitude).toNat) ∧
    ∀ γ, value? (f.cosine p i) = some γ → γ ≠ 0 → 0 < (counts p spec.amplitude).toNat →
      (v.toInt = SignType.sign γ * (counts p spec.amplitude).toNat ↔
        ¬ (0 < γ ∧ ¬ (0.5 : Float) ≤ peak p spec * f.cosine p i)) := by
  have hi : i < p.bufferLength.toNat := by
    rw [← f.length_signedSamples p spec]
    exact (List.getElem?_eq_some_iff.1 hv).1
  rw [f.getElem?_signedSamples p spec hi, Option.some_inj] at hv
  have hlevel := toInt_off_edges f accepted square off
  rw [hv] at hlevel
  refine ⟨hlevel, fun γ hγ hne hpos => ?_⟩
  rcases lt_or_gt_of_ne hne with hneg | hpos'
  · have hcounts := counts_lt accepted spec.amplitude
    have hlow : ¬ (0.5 : Float) ≤ peak p spec * f.cosine p i :=
      not_half_le_of_le (by omega) hγ value_zero (by norm_num)
        (mul_nonpos_of_nonneg_of_nonpos (Nat.cast_nonneg _) hneg.le)
    rw [hlevel, if_neg hlow, sign_neg hneg]
    exact iff_of_true (by simp) fun h => absurd h.1 (not_lt.2 hneg.le)
  · rw [hlevel, sign_pos hpos']
    split
    · rename_i hhalf
      exact iff_of_true (by simp) fun h => h.2 hhalf
    · rename_i hhalf
      refine iff_of_false (fun heq => ?_) (not_not_intro ⟨hpos', hhalf⟩)
      simp at heq
      omega

/-- The scaled cosine is at least one half if the exact one is so by a margin. -/
lemma half_le_scaled {n : ℕ} (hn : n < 2 ^ 53) {c : Float} {γ : ℝ} (hc : value? c = some γ)
    (h : 1 / 2 ≤ n * γ) : (0.5 : Float) ≤ ofNat n * c :=
  (rounds_mul (value_ofNat hn) hc).ge value_half h

/-- A square wave of one volt at a kilohertz. -/
def plainSquare : SignalSpec Float := ⟨.square, 1.0, 1000.0, 1000.0⟩

/-- A square wave of one count. -/
def faintSquare : SignalSpec Float := ⟨.square, 0.00025, 1000.0, 1000.0⟩

lemma exists_cosine_standard (i : ℕ) (hi : i ≤ 16384) :
    ∃ c, value? (Functions.fiftyPlaces.cosine .standard i) = some c ∧
      |c - turn 16384 i| ≤ 2 ^ (-39 : ℤ) :=
  Functions.fiftyPlaces_accurate.exists_cosine (p := .standard) (by decide) (by decide) hi

/-- The first sample of a plain square wave. -/
theorem level_off_edges_plain :
    (Functions.fiftyPlaces.signedSamples .standard plainSquare)[0]? =
        some (Functions.fiftyPlaces.sampleAt .standard plainSquare 0) ∧
      (Functions.fiftyPlaces.sampleAt .standard plainSquare 0).toInt = 4000 := by
  have hsample : (Functions.fiftyPlaces.signedSamples .standard plainSquare)[0]? =
      some (Functions.fiftyPlaces.sampleAt .standard plainSquare 0) :=
    Functions.getElem?_signedSamples _ _ _ (by decide)
  have hcounts : counts .standard plainSquare.amplitude = 4000 := by decide +kernel
  have hoff : OffEdges .standard plainSquare 0 := by decide +kernel
  obtain ⟨γ, hγ, hclose⟩ := exists_cosine_standard 0 (by norm_num)
  have hhalf : (0.5 : Float) ≤
      peak .standard plainSquare * Functions.fiftyPlaces.cosine .standard 0 := by
    rw [turn_zero] at hclose
    have hsmall : (2 : ℝ) ^ (-39 : ℤ) ≤ 1 / 2 := by norm_num
    have := (abs_le.1 (hclose.trans hsmall)).1
    have hscaled : 1 / 2 ≤ ((4000 : ℕ) : ℝ) * γ := by
      push_cast
      linarith
    rw [peak, hcounts]
    exact half_le_scaled (by decide) hγ hscaled
  have hlevel := (level_off_edges Functions.fiftyPlaces rfl rfl hsample hoff).1
  rw [if_pos hhalf, hcounts] at hlevel
  exact ⟨hsample, hlevel⟩

/-- The cosine of a place far from the edges is positive, and the only level that a peak of one
count has above zero is not held there. -/
theorem level_off_edges_faint :
    (HardwareProfile.standard : HardwareProfile Float).validate = .ok () ∧
      counts .standard faintSquare.amplitude = 1 ∧ OffEdges .standard faintSquare 3000 ∧
      (∃ γ, value? (Functions.fiftyPlaces.cosine .standard 3000) = some γ ∧ 0 < γ) ∧
      ∃ v, (Functions.fiftyPlaces.signedSamples .standard faintSquare)[3000]? = some v ∧
        v.toInt = -1 := by
  have hsample : (Functions.fiftyPlaces.signedSamples .standard faintSquare)[3000]? =
      some (Functions.fiftyPlaces.sampleAt .standard faintSquare 3000) :=
    Functions.getElem?_signedSamples _ _ _ (by decide)
  have hcounts : counts .standard faintSquare.amplitude = 1 := by decide +kernel
  have hoff : OffEdges .standard faintSquare 3000 := by decide +kernel
  obtain ⟨γ, hγ, hclose⟩ := exists_cosine_standard 3000 (by norm_num)
  obtain ⟨hlow, hhigh⟩ := turn_quarter_bounds (m := 4096) (k := 1096) (by norm_num) (by norm_num)
  norm_num at hlow hhigh
  have hpi := Real.pi_lt_d2
  have hsmall : (2 : ℝ) ^ (-39 : ℤ) ≤ 1 / 100 := by norm_num
  obtain ⟨hcloselow, hclosehigh⟩ := abs_le.1 (hclose.trans hsmall)
  have hpos : 0 < γ := by linarith
  have hlt : γ < 1 / 2 := by linarith
  have hhalf : ¬ (0.5 : Float) ≤
      peak .standard faintSquare * Functions.fiftyPlaces.cosine .standard 3000 := by
    rw [peak, hcounts]
    exact not_half_le_of_le (n := 1) (by norm_num) hγ hγ hlt (by rw [Nat.cast_one, one_mul])
  have hlevel := toInt_off_edges Functions.fiftyPlaces rfl rfl hoff
  rw [if_neg hhalf, hcounts] at hlevel
  exact ⟨rfl, hcounts, hoff, ⟨γ, hγ, hpos⟩, _, hsample, hlevel⟩

end Waveform

end ImpedanceBench

import ImpedanceBench.Proofs.Double.Arithmetic
import ImpedanceBench.Waveform.SquareEdges

/-!
The ramps of a square wave in doubles. A place on an edge is not farther from its start than the
width, but for the rounding of the end, and there the ramp is close to the straight line from one
level to the other.
-/

namespace ImpedanceBench.Double

variable {x y z : Float} {a b c : ℝ}

/-- A double is not above a rounded sum by more than the rounding. -/
lemma le_add_of_le (hx : value? x = some a) (hy : value? y = some b) (hz : value? z = some c)
    (h : z ≤ x + y) : c ≤ a + b + (|c| + 1) * 2 ^ (-52 : ℤ) := by
  by_contra hlt
  have hpos : 0 < (|c| + 1) * (2 : ℝ) ^ (-52 : ℤ) := by positivity
  have habove : a + b < c := by linarith
  rcases rounds_add hx hy with ⟨v, hv, hnearest, hclose⟩ | ⟨-, hlarge⟩ | ⟨hinfinite, -⟩
  · have hcv := (le_iff_value hz hv).1 h
    have hnear := (le_abs_self _).trans (hnearest z c hz)
    rw [abs_of_pos (by linarith : 0 < c - (a + b))] at hnear
    obtain rfl : v = c := by linarith
    have htiny : least / 2 ≤ 2 ^ (-53 : ℤ) := by
      refine half_least_le.trans ?_
      exact mul_le_of_le_one_left (by positivity) (by norm_num)
    have hclose := hclose.trans (add_le_add_right htiny _)
    have hsum : |a + b| ≤ |v| + (v - (a + b)) := by
      have := abs_sub_abs_le_abs_sub (a + b) v
      rw [abs_sub_comm, abs_of_pos (by linarith : 0 < v - (a + b))] at this
      linarith
    rw [abs_of_pos (by linarith : 0 < v - (a + b))] at hclose
    have hdouble : (2 : ℝ) ^ (-52 : ℤ) = 2 * 2 ^ (-53 : ℤ) := by norm_num
    have hhalf : (2 : ℝ) ^ (-53 : ℤ) ≤ 1 / 2 := by norm_num
    have hδ : (0 : ℝ) < 2 ^ (-53 : ℤ) := by positivity
    rw [hdouble] at hlt
    generalize (2 : ℝ) ^ (-53 : ℤ) = δ at *
    have := abs_nonneg v
    nlinarith
  · have := (abs_le.1 (abs_value_le hz)).2
    linarith
  · obtain ⟨i, hi, -⟩ := worth_of_value hz
    rcases worth_cases hi with ⟨s, hs, -⟩ | ⟨m, e, hm, hs, -⟩ | ⟨m, e, hm, hs, -⟩ <;>
      simp [le_iff, rank, hinfinite, hs, place, Prod.Lex.toLex_le_toLex] at h

/-- The error of a product is that of each factor, taken with the other one. -/
lemma abs_mul_sub_mul_le (σ d r t : ℝ) : |σ * d - r * t| ≤ |σ - r| * |d| + |r| * |d - t| := by
  have hsplit : σ * d - r * t = (σ - r) * d + r * (d - t) := by ring
  rw [hsplit, ← abs_mul, ← abs_mul]
  exact abs_add_le _ _

/-- A slope of at most two levels over the width, and a place that is at most one step past it. -/
lemma abs_slope_mul_sub_le {N width r σ t d ε : ℝ} (hN : 0 ≤ N) (hone : 1 ≤ width) (hε0 : 0 ≤ ε)
    (hε1 : ε ≤ 1) (hr : |r| ≤ 2 * N / width) (hσ : |σ - r| ≤ 2 * N / width * ε)
    (ht : |t| ≤ width + 1) (hd : |d - t| ≤ (width + 1) * ε) :
    |r * t| ≤ 4 * N ∧ |σ * d - r * t| ≤ 12 * N * ε := by
  have hpos : 0 < width := by linarith
  have hratio : 2 * N / width * (width + 1) ≤ 4 * N := by
    have hpart : 2 * N / width ≤ 2 * N := div_le_self (by linarith) hone
    have hwhole : 2 * N / width * width = 2 * N := div_mul_cancel₀ _ hpos.ne'
    linarith
  have hline : |r * t| ≤ 4 * N := by
    rw [abs_mul]
    exact (mul_le_mul hr ht (abs_nonneg _) (by positivity)).trans hratio
  have hd' : |d| ≤ (width + 1) * 2 := by
    have hsmall : (width + 1) * ε ≤ width + 1 := mul_le_of_le_one_right (by linarith) hε1
    have := abs_sub_abs_le_abs_sub d t
    linarith
  refine ⟨hline, (abs_mul_sub_mul_le σ d r t).trans ?_⟩
  have hfirst : |σ - r| * |d| ≤ 8 * N * ε := by
    calc |σ - r| * |d| ≤ 2 * N / width * ε * ((width + 1) * 2) :=
          mul_le_mul hσ hd' (abs_nonneg _) (by positivity)
      _ = 2 * N / width * (width + 1) * (2 * ε) := by ring
      _ ≤ 4 * N * (2 * ε) := mul_le_mul_of_nonneg_right hratio (by positivity)
      _ = 8 * N * ε := by ring
  have hsecond : |r| * |d - t| ≤ 4 * N * ε := by
    calc |r| * |d - t| ≤ 2 * N / width * ((width + 1) * ε) :=
          mul_le_mul hr hd (abs_nonneg _) (by positivity)
      _ = 2 * N / width * (width + 1) * ε := by ring
      _ ≤ 4 * N * ε := mul_le_mul_of_nonneg_right hratio hε0
  linarith

section

variable {n : ℕ} {k : ℤ} {y₁ y₂ w : Float} {width : ℝ} (hn : n < 2 ^ 31) (hk : |k| = n)
  (hy₁ : value? y₁ = some (k : ℝ)) (hy₂ : value? y₂ = some (-(k : ℝ)))
  (hw : value? w = some width) (hone : 1 ≤ width) (hwide : width ≤ 2 ^ 64)

include hn hk hy₁ hy₂ hw hone hwide

/-- The slope of the ramp from the level `k` to the level `-k`. -/
lemma exists_slope : |-2 * k / width| ≤ 2 * (n + 1) / width ∧
    ∃ σ, value? ((y₂ - y₁) / w) = some σ ∧
      |σ - -2 * k / width| ≤ 2 * (n + 1) / width * 2 ^ (-52 : ℤ) := by
  have hpos : 0 < width := by linarith
  have hcast : |(k : ℝ)| = n := by exact_mod_cast hk
  have hwide' : (n : ℝ) + 1 ≤ 2 ^ 31 := by exact_mod_cast hn
  have hn0 : (0 : ℝ) ≤ n := Nat.cast_nonneg n
  have hstep : value? (y₂ - y₁) = some (-2 * k : ℝ) := by
    have hdouble : |-2 * k| < 2 ^ 53 := by
      rw [abs_mul, hk]
      norm_num
      omega
    have hvalue := value_ofInt hdouble
    have hround := rounds_sub hy₂ hy₁
    push_cast at hvalue
    rw [show -(k : ℝ) - k = -2 * k by ring] at hround
    exact hround.value_eq hvalue
  have hslope : |-2 * k / width| ≤ 2 * (n + 1) / width := by
    rw [abs_div, abs_mul, abs_neg, abs_two, hcast, abs_of_pos hpos]
    gcongr
    linarith
  refine ⟨hslope, (rounds_div hstep hw hpos.ne').exists_near hslope ?_ ?_⟩
  · have hsmall : (2 : ℝ) ^ (-100 : ℤ) * 2 ^ 64 ≤ 2 := by norm_num
    rw [le_div_iff₀ hpos]
    calc (2 : ℝ) ^ (-100 : ℤ) * width ≤ 2 ^ (-100 : ℤ) * 2 ^ 64 := by gcongr
      _ ≤ 2 * 1 := by linarith
      _ ≤ 2 * (n + 1) := by linarith
  · exact (div_le_self (by positivity) hone).trans (by linarith)

/-- The ramp from the level `k` to the level `-k` is close to the straight line. -/
lemma exists_ramp {x₁ x : Float} {start place : ℝ} (hx₁ : value? x₁ = some start)
    (hx : value? x = some place) (hlow : 0 ≤ place - start) (hhigh : place - start ≤ width + 1) :
    ∃ v, value? ((y₂ - y₁) / w * (x - x₁) + y₁) = some v ∧
      |v - (k - 2 * k / width * (place - start))| ≤ (n + 1) * 2 ^ (-47 : ℤ) := by
  obtain ⟨N, hN⟩ : ∃ N : ℝ, (n : ℝ) + 1 = N := ⟨_, rfl⟩
  obtain ⟨r, hr⟩ : ∃ r : ℝ, -2 * k / width = r := ⟨_, rfl⟩
  have hNone : 1 ≤ N := by
    have := Nat.cast_nonneg (α := ℝ) n
    linarith
  have hNwide : N ≤ 2 ^ 31 := by
    rw [← hN]
    exact_mod_cast hn
  have hkN : |(k : ℝ)| ≤ N := by
    have : |(k : ℝ)| = n := by exact_mod_cast hk
    linarith
  have hsmall : (2 : ℝ) ^ (-100 : ℤ) ≤ 1 := by norm_num
  obtain ⟨hslope, σ, hσ, hσnear⟩ := exists_slope hn hk hy₁ hy₂ hw hone hwide
  have hdistance : |place - start| ≤ width + 1 := abs_le.2 ⟨by linarith, hhigh⟩
  obtain ⟨d, hd, hdnear⟩ := (rounds_sub hx hx₁).exists_near hdistance (by linarith) (by linarith)
  obtain ⟨ε, hε⟩ : ∃ ε : ℝ, (2 : ℝ) ^ (-52 : ℤ) = ε := ⟨_, rfl⟩
  have hε0 : 0 < ε := hε ▸ by positivity
  have hε1 : ε ≤ 1 / 1000 := hε ▸ by norm_num
  rw [hN, hr] at hslope hσnear
  rw [hε] at hσnear hdnear
  obtain ⟨hline, hproduct⟩ := abs_slope_mul_sub_le (by linarith) hone hε0.le (by linarith) hslope
    hσnear hdistance hdnear
  have hNε : N * ε ≤ N * (1 / 1000) := mul_le_mul_of_nonneg_left hε1 (by linarith)
  have hNε0 : 0 < N * ε := mul_pos (by linarith) hε0
  have hproduct' : |σ * d| ≤ 5 * N := by
    have := abs_sub_abs_le_abs_sub (σ * d) (r * (place - start))
    linarith
  obtain ⟨q, hq, hqnear⟩ := (rounds_mul hσ hd).exists_near hproduct' (by linarith) (by linarith)
  rw [hε] at hqnear
  have hsum : |q + k| ≤ 7 * N := by
    have := abs_sub_abs_le_abs_sub q (σ * d)
    have := abs_add_le q (k : ℝ)
    linarith
  obtain ⟨v, hv, hvnear⟩ := (rounds_add hq hy₁).exists_near hsum (by linarith) (by linarith)
  rw [hε] at hvnear
  refine ⟨v, hv, ?_⟩
  have htotal : (2 : ℝ) ^ (-47 : ℤ) = 32 * ε := by
    rw [← hε]
    norm_num
  have hsplit : v - (k - 2 * k / width * (place - start)) =
      v - (q + k) + (q - σ * d + (σ * d - r * (place - start))) := by
    rw [← hr]
    ring
  rw [hN, htotal, hsplit]
  have h₁ := abs_add_le (v - (q + k)) (q - σ * d + (σ * d - r * (place - start)))
  have h₂ := abs_add_le (q - σ * d) (σ * d - r * (place - start))
  linarith

end

/-- The line from `k` to `-k`, a little past its end. -/
lemma abs_line_le {n : ℕ} {k : ℤ} (hk : |k| = n) {width t δ : ℝ} (hone : 1 ≤ width) (hlow : 0 ≤ t)
    (hhigh : t ≤ width + δ) (hδ : 0 ≤ δ) : |k - 2 * k / width * t| ≤ n + 2 * n * δ := by
  have hpos : 0 < width := by linarith
  have hcast : |(k : ℝ)| = n := by exact_mod_cast hk
  have hfraction : t / width ≤ 1 + δ := by
    rw [div_le_iff₀ hpos]
    nlinarith
  have hnonneg : 0 ≤ t / width := by positivity
  have hline : (k : ℝ) - 2 * k / width * t = k * (1 - 2 * (t / width)) := by ring
  have hfactor : |1 - 2 * (t / width)| ≤ 1 + 2 * δ := abs_le.2 ⟨by linarith, by linarith⟩
  calc |k - 2 * k / width * t| = n * |1 - 2 * (t / width)| := by rw [hline, abs_mul, hcast]
    _ ≤ n * (1 + 2 * δ) := mul_le_mul_of_nonneg_left hfactor (Nat.cast_nonneg n)
    _ = n + 2 * n * δ := by ring

/-- The samples of a ramp are within a half of the straight line. -/
lemma abs_toInt_ramp_sub_le {n : ℕ} (hn : n < 2 ^ 31) {k : ℤ} (hk : |k| = n) {e : SquareEdges Float}
    {y₁ y₂ x₁ x : Float} (hy₁ : value? y₁ = some (k : ℝ)) (hy₂ : value? y₂ = some (-(k : ℝ)))
    {width start place : ℝ} (hw : value? e.width = some width) (hx₁ : value? x₁ = some start)
    (hx : value? x = some place) (hone : 1 ≤ width) (hwide : width ≤ 2 ^ 64)
    (hlow : 0 ≤ place - start) (hhigh : place - start ≤ width) :
    |((e.ramp x₁ y₁ y₂ x).toInt : ℝ) - (k - 2 * k / width * (place - start))| ≤
      1 / 2 + (n + 1) * 2 ^ (-47 : ℤ) := by
  obtain ⟨v, hv, hnear⟩ := exists_ramp hn hk hy₁ hy₂ hw hone hwide hx₁ hx hlow (by linarith)
  have hline := abs_line_le hk hone hlow (δ := 0) (by linarith) le_rfl
  rw [mul_zero, add_zero] at hline
  obtain ⟨line, hline'⟩ : ∃ line, (k : ℝ) - 2 * k / width * (place - start) = line := ⟨_, rfl⟩
  rw [hline'] at hnear hline ⊢
  have hcast : (n : ℝ) + 1 ≤ 2 ^ 31 := by exact_mod_cast hn
  have hsmall : ((n : ℝ) + 1) * 2 ^ (-47 : ℤ) < 1 / 2 := by
    calc ((n : ℝ) + 1) * 2 ^ (-47 : ℤ) ≤ 2 ^ 31 * 2 ^ (-47 : ℤ) := by gcongr
      _ < 1 / 2 := by norm_num
  have hvlt : |v| < n + 1 / 2 := by
    have := (abs_sub_abs_le_abs_sub v line).trans_lt (hnear.trans_lt hsmall)
    linarith
  have hsample : (e.ramp x₁ y₁ y₂ x).toInt = Exact.nearest v := by
    rw [← Exact.wholeWithin_nearest (Exact.abs_nearest_le hvlt) hn]
    exact toInt_toInt32 (value_roundHalfAway hv)
  rw [hsample]
  exact (abs_sub_le _ v _).trans (add_le_add (Exact.abs_nearest_sub_le v) hnear)

end ImpedanceBench.Double

import ImpedanceBench.Proofs.Exact.Reals

/-!
The outline of a square wave with soft edges: it falls and rises along lines of one slope and is cut
off at the levels. Cutting off does not make a line steeper, so no step of the outline is larger than
one of the lines. Whole numbers that follow it within a half take steps that are larger by one at
most.
-/

namespace ImpedanceBench.Waveform

variable {peak slope fall rise x y : ℝ}

/-- The line that falls from the peak at `fall`, or the one that rises from the negative peak at
`rise` where it is higher, cut off at the levels. -/
noncomputable def trapezoid (peak slope fall rise x : ℝ) : ℝ :=
  max (-peak) (min peak (max (peak - slope * (x - fall)) (slope * (x - rise) - peak)))

lemma abs_trapezoid_sub_le (hslope : 0 ≤ slope) (peak fall rise x y : ℝ) :
    |trapezoid peak slope fall rise y - trapezoid peak slope fall rise x| ≤ slope * |y - x| := by
  have hfall : |peak - slope * (y - fall) - (peak - slope * (x - fall))| = slope * |y - x| := by
    have hline : peak - slope * (y - fall) - (peak - slope * (x - fall)) = -(slope * (y - x)) := by
      ring
    rw [hline, abs_neg, abs_mul, abs_of_nonneg hslope]
  have hrise : |slope * (y - rise) - peak - (slope * (x - rise) - peak)| = slope * |y - x| := by
    have hline : slope * (y - rise) - peak - (slope * (x - rise) - peak) = slope * (y - x) := by
      ring
    rw [hline, abs_mul, abs_of_nonneg hslope]
  have hpos : 0 ≤ slope * |y - x| := mul_nonneg hslope (abs_nonneg _)
  refine (abs_max_sub_max_le_max _ _ _ _).trans (max_le (by simpa using hpos) ?_)
  refine (abs_min_sub_min_le_max _ _ _ _).trans (max_le (by simpa using hpos) ?_)
  exact (abs_max_sub_max_le_max _ _ _ _).trans (max_le hfall.le hrise.le)

/-! The pieces of the outline, where the lines need `width` from one level to the other. -/

section

variable {width : ℝ} (hslope : 0 ≤ slope) (hwidth : slope * width = 2 * peak)

include hslope hwidth in
lemma slope_mul_le (h : x ≤ width) : slope * x ≤ 2 * peak :=
  (mul_le_mul_of_nonneg_left h hslope).trans_eq hwidth

include hslope hwidth in
lemma le_slope_mul (h : width ≤ x) : 2 * peak ≤ slope * x :=
  hwidth.symm.trans_le (mul_le_mul_of_nonneg_left h hslope)

include hslope in
lemma trapezoid_before_fall (hpeak : 0 ≤ peak) (h : x ≤ fall) :
    trapezoid peak slope fall rise x = peak := by
  have hline := mul_nonpos_of_nonneg_of_nonpos hslope (sub_nonpos.2 h)
  rw [trapezoid, min_eq_left (le_max_of_le_left (by linarith)), max_eq_right (by linarith)]

include hslope hwidth in
lemma trapezoid_falling (hlow : fall ≤ x) (hhigh : x ≤ fall + width) (hrise : x ≤ rise) :
    trapezoid peak slope fall rise x = peak - slope * (x - fall) := by
  have hline := slope_mul_le hslope hwidth (sub_le_iff_le_add'.2 hhigh)
  have hline' := mul_nonneg hslope (sub_nonneg.2 hlow)
  have hother := mul_nonpos_of_nonneg_of_nonpos hslope (sub_nonpos.2 hrise)
  have hmax : max (peak - slope * (x - fall)) (slope * (x - rise) - peak) =
      peak - slope * (x - fall) := max_eq_left (by linarith)
  rw [trapezoid, hmax, min_eq_right (by linarith), max_eq_right (by linarith)]

include hslope hwidth in
lemma trapezoid_lower (hpeak : 0 ≤ peak) (hlow : fall + width ≤ x) (hhigh : x ≤ rise) :
    trapezoid peak slope fall rise x = -peak := by
  have hline := le_slope_mul hslope hwidth (le_sub_iff_add_le'.2 hlow)
  have hother := mul_nonpos_of_nonneg_of_nonpos hslope (sub_nonpos.2 hhigh)
  have hle : max (peak - slope * (x - fall)) (slope * (x - rise) - peak) ≤ -peak :=
    max_le (by linarith) (by linarith)
  rw [trapezoid, min_eq_right (hle.trans (by linarith)), max_eq_left hle]

include hslope hwidth in
lemma trapezoid_rising (hpast : fall + width ≤ x) (hlow : rise ≤ x) (hhigh : x ≤ rise + width) :
    trapezoid peak slope fall rise x = slope * (x - rise) - peak := by
  have hline := slope_mul_le hslope hwidth (sub_le_iff_le_add'.2 hhigh)
  have hline' := mul_nonneg hslope (sub_nonneg.2 hlow)
  have hother := le_slope_mul hslope hwidth (le_sub_iff_add_le'.2 hpast)
  have hmax : max (peak - slope * (x - fall)) (slope * (x - rise) - peak) =
      slope * (x - rise) - peak := max_eq_right (by linarith)
  rw [trapezoid, hmax, min_eq_right (by linarith), max_eq_right (by linarith)]

include hslope hwidth in
lemma trapezoid_after_rise (hpeak : 0 ≤ peak) (h : rise + width ≤ x) :
    trapezoid peak slope fall rise x = peak := by
  have hline := le_slope_mul hslope hwidth (le_sub_iff_add_le'.2 h)
  rw [trapezoid, min_eq_left (le_max_of_le_right (by linarith)), max_eq_right (by linarith)]

end

/-- Whole numbers close to the ends of a step of at most `2 n / w` take one that is larger by one
at most. The slack beyond one half is lost, because `w` times the step is whole. -/
lemma abs_sub_le_of_near {n w : ℕ} (hw : 0 < w) {a b : ℤ} {ε : ℝ} (ha : |a - x| ≤ 1 / 2 + ε)
    (hb : |b - y| ≤ 1 / 2 + ε) (hstep : |y - x| ≤ 2 * n / w) (hε : 2 * ε * w < 1) :
    |(b : ℝ) - a| ≤ 2 * n / w + 1 := by
  have hw' : (0 : ℝ) < w := by exact_mod_cast hw
  have hsum : |(b : ℝ) - a| ≤ 2 * n / w + 1 + 2 * ε := by
    have hsplit : (b : ℝ) - a = b - y + (y - x) + -(a - x) := by ring
    rw [hsplit]
    have h₁ := abs_add_le ((b : ℝ) - y + (y - x)) (-(a - x))
    have h₂ := abs_add_le ((b : ℝ) - y) (y - x)
    rw [abs_neg] at h₁
    linarith
  have hscaled : (((|b - a| - 1) * w : ℤ) : ℝ) < ((2 * n + 1 : ℤ) : ℝ) := by
    push_cast
    calc (|(b : ℝ) - a| - 1) * w ≤ (2 * n / w + 2 * ε) * w := by gcongr; linarith
      _ = 2 * n + 2 * ε * w := by field_simp
      _ < 2 * n + 1 := by linarith
  have hwhole : (|b - a| - 1) * w ≤ 2 * n := Int.lt_add_one_iff.1 (Int.cast_lt.1 hscaled)
  have hreal : (|(b : ℝ) - a| - 1) * w ≤ 2 * n := by exact_mod_cast hwhole
  rw [← sub_le_iff_le_add, le_div_iff₀ hw']
  exact hreal

end ImpedanceBench.Waveform

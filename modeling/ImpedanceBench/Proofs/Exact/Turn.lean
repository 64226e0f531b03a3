import Mathlib.Analysis.Real.Pi.Bounds
import Mathlib.Analysis.SpecialFunctions.Trigonometric.Bounds
import ImpedanceBench.Proofs.Exact.Reals

/-!
The cosine at equal steps of one turn: its symmetries, and how it rises from its zeros.
-/

namespace ImpedanceBench.Waveform

open Real

/-- The exact cosine at a place of a buffer of `n` samples. -/
noncomputable def turn (n i : ℕ) : ℝ := cos (2 * π * i / n)

lemma abs_turn_le (n i : ℕ) : |turn n i| ≤ 1 := abs_cos_le_one _

@[simp] lemma turn_zero (n : ℕ) : turn n 0 = 1 := by simp [turn]

/-- The second half of a turn mirrors the first. -/
lemma turn_sub {n i : ℕ} (hn : 0 < n) (hi : i ≤ n) : turn n (n - i) = turn n i := by
  have hangle : 2 * π * ((n - i : ℕ) : ℝ) / n = 2 * π - 2 * π * i / n := by
    rw [Nat.cast_sub hi]
    field_simp
  rw [turn, turn, hangle, cos_two_pi_sub]

lemma turn_add_half {m : ℕ} (hm : 0 < m) (i : ℕ) : turn (2 * m) (i + m) = -turn (2 * m) i := by
  have hangle : 2 * π * ((i + m : ℕ) : ℝ) / (2 * m : ℕ) = 2 * π * i / (2 * m : ℕ) + π := by
    push_cast
    field_simp
  rw [turn, turn, hangle, cos_add_pi]

/-- The cosine falls over the first half of a turn. -/
lemma turn_anti {m i j : ℕ} (hm : 0 < m) (hij : i ≤ j) (hj : j ≤ m) :
    turn (2 * m) j ≤ turn (2 * m) i := by
  have hmono {a b : ℕ} (h : a ≤ b) : 2 * π * a / (2 * m : ℕ) ≤ 2 * π * b / (2 * m : ℕ) := by
    gcongr
  have hpi : 2 * π * m / (2 * m : ℕ) = π := by
    push_cast
    field_simp
  refine cos_le_cos_of_nonneg_of_le_pi (by positivity) ?_ (hmono hij)
  exact (hmono hj).trans_eq hpi

/-- Before the first quarter the cosine is the sine of what is left of the quarter. -/
lemma turn_quarter_sub {m k : ℕ} (hm : 0 < m) (hk : k ≤ m) :
    turn (4 * m) (m - k) = sin (π / 2 * (k / m)) := by
  have hangle : 2 * π * ((m - k : ℕ) : ℝ) / (4 * m : ℕ) = π / 2 - π / 2 * (k / m) := by
    rw [Nat.cast_sub hk]
    push_cast
    field_simp
    ring
  rw [turn, hangle, cos_pi_div_two_sub]

/-- Near its zero the cosine lies under its tangent and over its chord. -/
lemma turn_quarter_bounds {m k : ℕ} (hm : 0 < m) (hk : k ≤ m) :
    (k : ℝ) / m ≤ turn (4 * m) (m - k) ∧ turn (4 * m) (m - k) ≤ π / 2 * (k / m) := by
  have hratio : (k : ℝ) / m ≤ 1 := by
    rw [div_le_one (by exact_mod_cast hm)]
    exact_mod_cast hk
  have hnonneg : 0 ≤ π / 2 * ((k : ℝ) / m) := by positivity
  have hquarter : π / 2 * ((k : ℝ) / m) ≤ π / 2 :=
    mul_le_of_le_one_right (by positivity) hratio
  rw [turn_quarter_sub hm hk]
  refine ⟨?_, sin_le hnonneg⟩
  have hchord := mul_le_sin hnonneg hquarter
  have hslope : 2 / π * (π / 2 * ((k : ℝ) / m)) = k / m := by field_simp
  rwa [hslope] at hchord

end ImpedanceBench.Waveform

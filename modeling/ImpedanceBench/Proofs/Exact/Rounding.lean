import ImpedanceBench.Proofs.Exact.Reals

/-!
Rounding of real numbers. A half goes away from zero, so rounding commutes with a change of the
sign; it leaves whole numbers alone and moves no number by more than a half.
-/

namespace ImpedanceBench.Exact

/-- The nearest whole number; a half goes away from zero. -/
noncomputable def nearest (x : ℝ) : ℤ := if 0 ≤ x then ⌊x + 1 / 2⌋ else ⌈x - 1 / 2⌉

lemma round_real (x : ℝ) : (Scalar.round x : ℝ) = nearest x := by
  change ((whole (if 0 ≤ x then x + 1 / 2 else x - 1 / 2) : ℤ) : ℝ) = _
  unfold whole nearest
  by_cases hx : 0 ≤ x
  · rw [if_pos hx, if_pos hx, if_pos (by linarith)]
  · rw [if_neg hx, if_neg hx, if_neg (by linarith)]

@[simp] lemma nearest_neg (x : ℝ) : nearest (-x) = -nearest x := by
  unfold nearest
  rcases lt_trichotomy x 0 with hx | rfl | hx
  · rw [if_pos (by linarith), if_neg (by linarith), ← Int.floor_neg]
    congr 1
    ring
  · norm_num
  · rw [if_neg (by linarith), if_pos hx.le, ← Int.ceil_neg]
    congr 1
    ring

@[simp] lemma nearest_intCast (n : ℤ) : nearest n = n := by
  unfold nearest
  split
  · rw [Int.floor_eq_iff]
    constructor <;> linarith
  · rw [Int.ceil_eq_iff]
    constructor <;> linarith

lemma nearest_natCast (n : ℕ) : nearest n = n := nearest_intCast n

lemma abs_nearest_sub_le (x : ℝ) : |nearest x - x| ≤ 1 / 2 := by
  unfold nearest
  rw [abs_le]
  split
  · have hle := Int.floor_le (x + 1 / 2)
    have hlt := Int.lt_floor_add_one (x + 1 / 2)
    constructor <;> linarith
  · have hle := Int.le_ceil (x - 1 / 2)
    have hlt := Int.ceil_lt_add_one (x - 1 / 2)
    constructor <;> linarith

/-- No other whole number is closer. -/
lemma abs_nearest_sub_le_abs_sub (x : ℝ) (k : ℤ) : |nearest x - x| ≤ |k - x| := by
  have hclose := abs_nearest_sub_le x
  rcases eq_or_ne k (nearest x) with rfl | hk
  · exact le_rfl
  · have hone : (1 : ℝ) ≤ |(k - nearest x : ℤ)| := by
      exact_mod_cast Int.one_le_abs (sub_ne_zero.2 hk)
    have htriangle := abs_sub_le (k : ℝ) x (nearest x)
    rw [abs_sub_comm x] at htriangle
    push_cast at hone
    linarith

lemma nearest_nonneg {x : ℝ} (h : 0 ≤ x) : 0 ≤ nearest x := by
  rw [nearest, if_pos h, Int.floor_nonneg]
  linarith

/-- Rounding does not pass a whole number. -/
lemma nearest_mem {x : ℝ} {m n : ℤ} (hm : m ≤ x) (hn : x ≤ n) :
    m ≤ nearest x ∧ nearest x ≤ n := by
  obtain ⟨hlow, hhigh⟩ := abs_le.1 (abs_nearest_sub_le x)
  have hm' : (m : ℝ) < nearest x + 1 := by linarith
  have hn' : (nearest x : ℝ) < n + 1 := by linarith
  exact ⟨Int.lt_add_one_iff.1 (by exact_mod_cast hm'), Int.lt_add_one_iff.1 (by exact_mod_cast hn')⟩

lemma nearest_pos_iff {x : ℝ} : 0 < nearest x ↔ 1 / 2 ≤ x := by
  refine ⟨fun h => ?_, fun h => ?_⟩
  · have hclose := (abs_le.1 (abs_nearest_sub_le x)).2
    have : (1 : ℝ) ≤ nearest x := by exact_mod_cast h
    linarith
  · rw [nearest, if_pos (by linarith), Int.floor_pos]
    linarith

/-- A number within a half of a bound is rounded to one within it. -/
lemma abs_nearest_le {x : ℝ} {n : ℕ} (h : |x| < n + 1 / 2) : |nearest x| ≤ n := by
  have hclose := abs_nearest_sub_le x
  have hsum : |(nearest x : ℝ)| < n + 1 := by
    have := abs_sub_abs_le_abs_sub (nearest x : ℝ) x
    linarith
  have hlt : |nearest x| < n + 1 := by exact_mod_cast hsum
  omega

@[simp] lemma whole_neg (x : ℝ) : whole (-x) = -whole x := by
  unfold whole
  rcases lt_trichotomy x 0 with hx | rfl | hx
  · rw [if_pos (by linarith), if_neg (by linarith), Int.floor_neg]
  · simp
  · rw [if_neg (by linarith), if_pos hx.le, Int.ceil_neg]

@[simp] lemma whole_intCast (z : ℤ) : whole z = z := by
  unfold whole
  split
  · exact Int.floor_intCast z
  · exact Int.ceil_intCast z

lemma wholeWithin_intCast {lo hi z : ℤ} (hlo : lo ≤ z) (hhi : z ≤ hi) :
    wholeWithin lo hi z = z := by
  rw [wholeWithin, whole_intCast, min_eq_right hhi, max_eq_right hlo]

/-- A natural number that a word holds is not changed by it. -/
lemma toNat_toUInt32_natCast {n : ℕ} (h : n < 2 ^ 32) :
    (Scalar.toUInt32 (n : ℝ)).toNat = n := by
  change (UInt32.ofNat (wholeWithin 0 (2 ^ 32 - 1) ((n : ℤ) : ℝ)).toNat).toNat = n
  rw [wholeWithin_intCast (by omega) (by omega), Int.toNat_natCast, UInt32.toNat_ofNat_of_lt' h]

lemma toNat_toUInt64_natCast {n : ℕ} (h : n < 2 ^ 64) :
    (Scalar.toUInt64 (n : ℝ)).toNat = n := by
  change (UInt64.ofNat (wholeWithin 0 (2 ^ 64 - 1) ((n : ℤ) : ℝ)).toNat).toNat = n
  rw [wholeWithin_intCast (by omega) (by omega), Int.toNat_natCast, UInt64.toNat_ofNat_of_lt' h]

/-- A word counts a rounded number up to the largest that it can hold. -/
lemma toNat_toUInt64_round_eq_min {x : ℝ} (hx : 0 ≤ x) :
    ((Scalar.toUInt64 (Scalar.round x)).toNat : ℤ) = min (nearest x) (2 ^ 64 - 1) := by
  have hnonneg := nearest_nonneg hx
  have hwithin : wholeWithin 0 (2 ^ 64 - 1) (nearest x) = min (nearest x) (2 ^ 64 - 1) := by
    rw [wholeWithin, whole_intCast, min_comm]
    exact max_eq_right (le_min hnonneg (by norm_num))
  rw [round_real]
  change ((UInt64.ofNat (wholeWithin 0 (2 ^ 64 - 1) (nearest x)).toNat).toNat : ℤ) = _
  rw [hwithin, UInt64.toNat_ofNat_of_lt' (by change _ < 2 ^ 64; omega)]
  omega

lemma toNat_toUInt64_round {x : ℝ} (hx : 0 ≤ x) (hword : nearest x < 2 ^ 64) :
    ((Scalar.toUInt64 (Scalar.round x)).toNat : ℤ) = nearest x := by
  rw [toNat_toUInt64_round_eq_min hx]
  omega

/-- A count is within a half of the number that it was rounded from up to where it stays behind. -/
lemma abs_toUInt64_round_sub_le_iff {x : ℝ} (hx : 0 ≤ x) :
    |((Scalar.toUInt64 (Scalar.round x)).toNat : ℝ) - x| ≤ 1 / 2 ↔ x ≤ 2 ^ 64 - 1 / 2 := by
  have hcount : ((Scalar.toUInt64 (Scalar.round x)).toNat : ℝ) =
      (min (nearest x) (2 ^ 64 - 1) : ℤ) := by
    rw [← toNat_toUInt64_round_eq_min hx, Int.cast_natCast]
  obtain ⟨hlow, hhigh⟩ := abs_le.1 (abs_nearest_sub_le x)
  rcases le_or_gt (nearest x) (2 ^ 64 - 1) with h | h
  · rw [min_eq_left h] at hcount
    have hmost : (nearest x : ℝ) ≤ 2 ^ 64 - 1 := by exact_mod_cast h
    rw [hcount, abs_le]
    exact ⟨fun _ => by linarith, fun _ => ⟨hlow, hhigh⟩⟩
  · rw [min_eq_right h.le] at hcount
    have hnext : (2 ^ 64 : ℝ) ≤ nearest x := by
      have hnext : 2 ^ 64 ≤ nearest x := by omega
      exact_mod_cast hnext
    have hlargest : ((2 ^ 64 - 1 : ℤ) : ℝ) = 2 ^ 64 - 1 := by norm_num
    rw [hcount, hlargest, abs_le]
    constructor
    · rintro ⟨hle, -⟩
      linarith
    · intro hle
      constructor <;> linarith

/-- The nearest whole number fits in a word where it is moderate. -/
lemma wholeWithin_nearest {x : ℝ} {n : ℕ} (h : |nearest x| ≤ n) (hn : n < 2 ^ 31) :
    wholeWithin (-2 ^ 31) (2 ^ 31 - 1) (nearest x) = nearest x := by
  obtain ⟨hlow, hhigh⟩ := abs_le.1 h
  exact wholeWithin_intCast (by omega) (by omega)

lemma toInt_toInt32_round {x : ℝ} {n : ℕ} (h : |nearest x| ≤ n) (hn : n < 2 ^ 31) :
    (Scalar.toInt32 (Scalar.round x)).toInt = nearest x := by
  obtain ⟨hlow, hhigh⟩ := abs_le.1 h
  rw [round_real]
  change (Int32.ofInt (wholeWithin (-2 ^ 31) (2 ^ 31 - 1) (nearest x : ℝ))).toInt = _
  rw [wholeWithin_nearest h hn, Int32.toInt_ofInt_of_le] <;> omega

end ImpedanceBench.Exact

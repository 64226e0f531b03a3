import Mathlib.Analysis.SpecialFunctions.Complex.Arg
import Mathlib.Analysis.SpecialFunctions.Log.Basic
import Mathlib.Analysis.SpecialFunctions.Trigonometric.Inverse
import ImpedanceBench.Hardware.Validation

/-!
The real numbers as scalars. Every formula of the library is also one on real numbers, where nothing
is rounded and the functions are the mathematical ones.
-/

namespace ImpedanceBench

/-- The whole part of a real number, toward zero. -/
noncomputable def Exact.whole (x : ℝ) : ℤ := if 0 ≤ x then ⌊x⌋ else ⌈x⌉

/-- The whole part as the nearest number of `[lo, hi]`. -/
noncomputable def Exact.wholeWithin (lo hi : ℤ) (x : ℝ) : ℤ := max lo (min hi (whole x))

/-- What the numeral 2 rests on, under one name for all definitions on real numbers. -/
instance Exact.two_atLeastTwo : Nat.AtLeastTwo 2 := inferInstance

open Exact in
/-- Every real number is finite and defined, and has itself as its nearest number of single
precision. -/
noncomputable instance : Scalar ℝ where
  decLt := Classical.decRel _
  decLe := Classical.decRel _
  finite _ := true
  ofInt := Int.cast
  abs x := |x|
  round x := whole (if 0 ≤ x then x + 1 / 2 else x - 1 / 2)
  ceil x := ⌈x⌉
  toUInt32 x := .ofNat (wholeWithin 0 (2 ^ 32 - 1) x).toNat
  toUInt64 x := .ofNat (wholeWithin 0 (2 ^ 64 - 1) x).toNat
  toInt32 x := .ofInt (wholeWithin (-2 ^ 31) (2 ^ 31 - 1) x)
  toInt64 x := .ofInt (wholeWithin (-2 ^ 63) (2 ^ 63 - 1) x)
  rem x y := x - whole (x / y) * y
  twoPow e := 2 ^ e
  single x := x
  pi := Real.pi
  sin := Real.sin
  cos := Real.cos
  acos := Real.arccos
  exp := Real.exp
  log := Real.log
  atan2 y x := Complex.arg ⟨x, y⟩
  hypot x y := √(x ^ 2 + y ^ 2)

lemma Exact.abs_sub_whole_lt (x : ℝ) : |x - whole x| < 1 := by
  unfold whole
  rw [abs_lt]
  split
  · have hle := Int.floor_le x
    have hlt := Int.lt_floor_add_one x
    constructor <;> linarith
  · have hle := Int.le_ceil x
    have hlt := Int.ceil_lt_add_one x
    constructor <;> linarith

namespace Scalar

@[simp] lemma ofNat_real (n : ℕ) : (ofNat n : ℝ) = n := Int.cast_natCast n

@[simp] lemma sum_real (xs : List ℝ) : sum xs = xs.sum := by
  have hzero : (-0.0 : ℝ) = 0 := by norm_num
  rw [sum, hzero, List.sum_eq_foldl]

@[simp] lemma undefined_real (x : ℝ) : undefined x = false := by simp [undefined]

lemma positive_eq_decide (x : ℝ) : positive x = decide (0 < x) := by
  have hzero : (0.0 : ℝ) = 0 := by norm_num
  rw [positive, hzero]
  exact Bool.and_true _

@[simp] lemma positive_real (x : ℝ) : positive x = true ↔ 0 < x := by
  rw [positive_eq_decide, decide_eq_true_iff]

lemma rem_real_eq (x y : ℝ) : rem x y = x - Exact.whole (x / y) * y := rfl

/-- A remainder is smaller than the divisor, and the dividend is a multiple away from it. -/
lemma rem_real {y : ℝ} (hy : 0 < y) (x : ℝ) :
    -y < rem x y ∧ rem x y < y ∧ ∃ z : ℤ, x = rem x y + z • y := by
  have hx : rem x y = (x / y - Exact.whole (x / y)) * y := by
    rw [sub_mul, div_mul_cancel₀ x hy.ne']
    rfl
  obtain ⟨hlow, hhigh⟩ := abs_lt.1 (Exact.abs_sub_whole_lt (x / y))
  refine ⟨?_, ?_, Exact.whole (x / y), ?_⟩
  · rw [hx]
    nlinarith
  · rw [hx]
    nlinarith
  · rw [zsmul_eq_mul]
    exact (sub_add_cancel x _).symm

/-- The Euclidean remainder is the one in `[0, y)`. -/
lemma remEuclid_real {y : ℝ} (hy : 0 < y) (x : ℝ) : remEuclid x y = toIcoMod hy 0 x := by
  have hzero : (0.0 : ℝ) = 0 := by norm_num
  have hrun : remEuclid x y = if rem x y < 0 then rem x y + y else rem x y := by
    rw [remEuclid, hzero]
    congr
    exact abs_of_pos hy
  obtain ⟨hlow, hhigh, z, hz⟩ := rem_real hy x
  symm
  rw [toIcoMod_eq_iff, zero_add, hrun]
  split
  · refine ⟨⟨by linarith, by linarith⟩, z - 1, ?_⟩
    rw [sub_zsmul, one_zsmul]
    linarith
  · exact ⟨⟨by linarith, hhigh⟩, z, hz⟩

@[simp] lemma toDegrees_real (x : ℝ) : toDegrees x = x * (180 / Real.pi) := by
  have hhalf : (180.0 : ℝ) = 180 := by norm_num
  rw [toDegrees, hhalf]
  rfl

@[simp] lemma toRadians_real (x : ℝ) : toRadians x = x * (Real.pi / 180) := by
  have hhalf : (180.0 : ℝ) = 180 := by norm_num
  rw [toRadians, hhalf]
  rfl

end Scalar

/-- The standard profile is accepted in exact arithmetic as well. -/
lemma HardwareProfile.standard_accepted_real :
    (HardwareProfile.standard : HardwareProfile ℝ).validate = .ok () := by
  have hdefect : (HardwareProfile.standard : HardwareProfile ℝ).defect? = none := by
    rw [defect?, Option.map_eq_none_iff, List.find?_eq_none]
    simp [checks, HardwareProfile.standard, SquareTransition.standard, DecimationBand.standard]
    norm_num
  rw [validate, hdefect]

end ImpedanceBench

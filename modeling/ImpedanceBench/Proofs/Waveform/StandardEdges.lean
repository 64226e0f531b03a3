import Mathlib.Analysis.Real.Pi.Bounds
import ImpedanceBench.Proofs.Waveform.Range

/-!
The square wave of the standard profile, piece by piece: which places lie on its edges, how wide
these are, and from where on the cosine is large enough for the upper level. The zeros of the cosine
are at the places 4096 and 12288. A cosine `k` places away from one is about `k` times `2π / 16384`,
and scaled by `n` it reaches one half as soon as `n * k` reaches 1304.
-/

namespace ImpedanceBench

open Double

namespace Waveform

/-- The width of the standard edges at a frequency, in samples. -/
def edgeWidth (frequency : Float) : ℕ :=
  (SquareEdges.wholeWidth (SquareTransition.standard : SquareTransition Float)
    frequency).toInt.toNat

/-- The standard edges are `w` samples wide, and the falling one starts at `fall`, between two
places. -/
structure HasEdges (spec : SignalSpec Float) (w : ℕ) (fall : ℝ) : Prop where
  width : value? (edges .standard spec).width = some (w : ℝ)
  least : 11 ≤ w
  most : w ≤ 18750
  start : value? (edges .standard spec).fallStart = some fall
  start_ge : 4079.5 ≤ fall
  start_le : fall ≤ 4079.75

/-- The width as a double, before it is cut off to a whole number. -/
lemma exists_width {frequency : Float} (hpos : (0.0 : Float) < frequency)
    (hmax : frequency ≤ 62500000.0) :
    ∃ z, value? (frequency / 1000000.0 * 300.0) = some z ∧ 0 ≤ z ∧ z ≤ 18750 := by
  have hmillion : value? 1000000.0 = some ((1000000 : ℕ) : ℝ) :=
    value_ofNat (n := 1000000) (by norm_num)
  have hsamples : value? 300.0 = some ((300 : ℕ) : ℝ) :=
    value_ofNat (n := 300) (by norm_num)
  have hmost : value? 18750.0 = some ((18750 : ℕ) : ℝ) :=
    value_ofNat (n := 18750) (by norm_num)
  have hfastest : value? 62500000.0 = some ((62500000 : ℕ) : ℝ) :=
    value_ofNat (n := 62500000) (by norm_num)
  have hratio : value? 62.5 = some (62.5 : ℝ) := by
    have h : (62.5 : Float).toModel.unpack = .finite .positive 8796093022208000 (-47) (by decide) :=
      rfl
    rw [value_of_unpack h]
    norm_num
  obtain ⟨m, e, hm, hunpack⟩ := unpack_of_pos_of_le hpos hmax rfl
  obtain ⟨v, hv⟩ : ∃ v, value? frequency = some v := ⟨_, value_of_unpack hunpack⟩
  have hv0 := (lt_iff_value value_zero hv).1 hpos
  have hv1 := (le_iff_value hv hfastest).1 hmax
  push_cast at hmillion hsamples hmost hv1
  obtain ⟨q, hq, hq0, hq1⟩ := (rounds_div hv hmillion (by norm_num)).exists_between value_zero hratio
    (by positivity) (by linarith)
  obtain ⟨z, hz, hz0, hz1⟩ := (rounds_mul hq hsamples).exists_between value_zero hmost
    (by positivity) (by linarith)
  exact ⟨z, hz, hz0, hz1⟩

lemma wholeWidth_le {frequency : Float} (hpos : (0.0 : Float) < frequency)
    (hmax : frequency ≤ 62500000.0) :
    11 ≤ (SquareEdges.wholeWidth (SquareTransition.standard : SquareTransition Float)
      frequency).toInt ∧
    (SquareEdges.wholeWidth (SquareTransition.standard : SquareTransition Float)
      frequency).toInt ≤ 18750 := by
  obtain ⟨z, hz, hz0, hz1⟩ := exists_width hpos hmax
  have hwhole : (Scalar.toInt64 (frequency / 1000000.0 * 300.0)).toInt ≤ 18750 := by
    have hfloor : ⌊z⌋ ≤ 18750 := by
      have : (⌊z⌋ : ℝ) ≤ (18750 : ℤ) := (Int.floor_le z).trans (by exact_mod_cast hz1)
      exact_mod_cast this
    rw [toInt_toInt64 hz, Exact.wholeWithin, Exact.whole, if_pos hz0]
    omega
  unfold SquareEdges.wholeWidth
  dsimp only
  split
  · decide
  · rename_i hgt
    refine ⟨?_, hwhole⟩
    rw [Int64.le_iff_toInt_le] at hgt
    exact not_le.1 hgt

lemma exists_hasEdges {spec : SignalSpec Float} (hpos : (0.0 : Float) < spec.start)
    (hmax : spec.start ≤ 62500000.0) : ∃ fall, HasEdges spec (edgeWidth spec.start) fall := by
  obtain ⟨hlow, hhigh⟩ := wholeWidth_le hpos hmax
  have hcast : ((edgeWidth spec.start : ℕ) : ℤ) =
      (SquareEdges.wholeWidth (SquareTransition.standard : SquareTransition Float)
        spec.start).toInt := Int.toNat_of_nonneg (by omega)
  have hwidth : value? (edges .standard spec).width = some (edgeWidth spec.start : ℝ) := by
    change value? (ofInt (SquareEdges.wholeWidth
      (SquareTransition.standard : SquareTransition Float) spec.start).toInt) = _
    rw [← hcast]
    exact value_ofNat (by omega)
  have hunpack : (ofNat 16384 * 0.249 : Float).toModel.unpack =
      .finite .positive 8971170457722028 (-41) (by decide) := rfl
  exact ⟨_, hwidth, by omega, by omega, value_of_unpack hunpack, by norm_num, by norm_num⟩

/-! Places on the edges. -/

/-- The rising edge starts at a zero of the cosine. -/
lemma value_riseStart (spec : SignalSpec Float) :
    value? (edges .standard spec).riseStart = some (12288 : ℝ) := by
  have h : value? (ofNat 12288) = some ((12288 : ℕ) : ℝ) :=
    value_ofNat (n := 12288) (by norm_num)
  rw [Nat.cast_ofNat] at h
  exact h

variable {spec : SignalSpec Float} {w i : ℕ} {fall : ℝ}

lemma falling_iff (h : HasEdges spec w fall) (hi : i < 2 ^ 53) :
    (edges .standard spec).Falling (ofNat i) ↔ 4080 ≤ i ∧ i ≤ 4079 + w := by
  have hlow := h.start_ge
  have hhigh := h.start_le
  have hmost : (w : ℝ) ≤ 18750 := by exact_mod_cast h.most
  have hw0 : (0 : ℝ) ≤ w := Nat.cast_nonneg w
  obtain ⟨s, hs, hnear⟩ := (rounds_add h.start h.width).exists_near (s := 2 ^ 15)
    (abs_le.2 ⟨by linarith, by linarith⟩) (by norm_num) (by norm_num)
  have hsmall : (2 : ℝ) ^ 15 * 2 ^ (-52 : ℤ) ≤ 1 / 8 := by norm_num
  obtain ⟨hslow, hshigh⟩ := abs_le.1 (hnear.trans hsmall)
  rw [SquareEdges.Falling, lt_iff_value h.start (value_ofNat hi), le_iff_value (value_ofNat hi) hs]
  refine and_congr ⟨fun hlt => ?_, fun hle => ?_⟩ ⟨fun hle => ?_, fun hle => ?_⟩
  · have : ((4079 : ℕ) : ℝ) < i := by
      push_cast
      linarith
    exact Nat.cast_lt.1 this
  · have : ((4080 : ℕ) : ℝ) ≤ i := Nat.cast_le.2 hle
    push_cast at this
    linarith
  · have : (i : ℝ) < (4079 + w + 1 : ℕ) := by
      push_cast
      linarith
    exact Nat.lt_add_one_iff.1 (Nat.cast_lt.1 this)
  · have : (i : ℝ) ≤ (4079 + w : ℕ) := Nat.cast_le.2 hle
    push_cast at this
    linarith

lemma rising_iff (h : HasEdges spec w fall) (hi : i < 2 ^ 53) :
    (edges .standard spec).Rising (ofNat i) ↔ 12289 ≤ i ∧ i ≤ 12288 + w := by
  have hmost := h.most
  have hend : value? ((edges .standard spec).riseStart + (edges .standard spec).width) =
      some ((12288 + w : ℕ) : ℝ) := by
    refine Rounds.value_eq ?_ (value_ofNat (n := 12288 + w) (by omega))
    push_cast
    exact rounds_add (value_riseStart spec) h.width
  rw [SquareEdges.Rising, lt_iff_value (value_riseStart spec) (value_ofNat hi),
    le_iff_value (value_ofNat hi) hend, Nat.cast_le]
  refine and_congr_left fun _ => ⟨fun hlt => ?_, fun hle => ?_⟩
  · have : ((12288 : ℕ) : ℝ) < i := by exact_mod_cast hlt
    exact Nat.cast_lt.1 this
  · exact_mod_cast Nat.lt_of_succ_le hle

/-! Where the scaled cosine is at least one half. -/

section

variable {n k : ℕ}

/-- The angle of the `k`-th place before the first zero of the cosine. -/
lemma turn_before_zero (hk : k ≤ 4096) :
    turn 16384 (4096 - k) = Real.sin (Real.pi / 8192 * k) := by
  have hangle : Real.pi / 2 * ((k : ℝ) / (4096 : ℕ)) = Real.pi / 8192 * k := by
    push_cast
    ring
  rw [show 16384 = 4 * 4096 from rfl, turn_quarter_sub (by norm_num) hk, hangle]

lemma half_lt_scaled_turn (hk : k ≤ 17) (h : 1304 ≤ n * k) :
    1 / 2 + 1 / 2 ^ 16 ≤ n * turn 16384 (4096 - k) := by
  have hpi := Real.pi_gt_d4
  have hpi' := Real.pi_lt_d4
  have hkpos : 0 < k := Nat.pos_of_ne_zero (by rintro rfl; omega)
  have hk1 : (k : ℝ) ≤ 17 := by exact_mod_cast hk
  have hk0 : (0 : ℝ) < k := by exact_mod_cast hkpos
  have hproduct : (1304 : ℝ) ≤ n * k := by exact_mod_cast h
  obtain ⟨x, hx⟩ : ∃ x, Real.pi / 8192 * (k : ℝ) = x := ⟨_, rfl⟩
  have hx0 : 0 < x := hx ▸ by positivity
  have hx1 : x ≤ 0.00652 := by
    rw [← hx]
    nlinarith
  have hsin := Real.sin_gt_sub_cube hx0
  have hcube : x * (1 - 0.0000107) ≤ Real.sin x := by nlinarith [mul_pos hx0 hx0]
  rw [turn_before_zero (by omega), hx]
  calc (1 / 2 + 1 / 2 ^ 16 : ℝ) ≤ 3.1415 / 8192 * 1304 * (1 - 0.0000107) := by norm_num
    _ ≤ Real.pi / 8192 * (n * k) * (1 - 0.0000107) := by gcongr
    _ = n * (x * (1 - 0.0000107)) := by
      rw [← hx]
      ring
    _ ≤ n * Real.sin x := mul_le_mul_of_nonneg_left hcube (Nat.cast_nonneg n)

lemma scaled_turn_lt_half (hk : k ≤ 17) (h : n * k < 1304) :
    n * turn 16384 (4096 - k) ≤ 1 / 2 - 1 / 2 ^ 13 := by
  have hpi := Real.pi_lt_d4
  have hproduct : (n : ℝ) * k ≤ 1303 := by exact_mod_cast Nat.lt_succ_iff.1 h
  have hsin : Real.sin (Real.pi / 8192 * k) ≤ Real.pi / 8192 * k := Real.sin_le (by positivity)
  rw [turn_before_zero (by omega)]
  calc n * Real.sin (Real.pi / 8192 * k) ≤ n * (Real.pi / 8192 * k) :=
        mul_le_mul_of_nonneg_left hsin (Nat.cast_nonneg n)
    _ = Real.pi / 8192 * (n * k) := by ring
    _ ≤ 3.1416 / 8192 * 1303 := by gcongr
    _ ≤ 1 / 2 - 1 / 2 ^ 13 := by norm_num

/-- A place of the second half of the turn has the cosine of one of the first half. -/
lemma exists_turn_eq {i : ℕ} (hi : i ≤ 16384) :
    ∃ j ≤ 8192, turn 16384 i = turn 16384 j ∧ (j = i ∨ j = 16384 - i) := by
  rcases le_total i 8192 with h | h
  · exact ⟨i, h, rfl, .inl rfl⟩
  · exact ⟨16384 - i, by omega, (turn_sub (by norm_num) hi).symm, .inr rfl⟩

lemma turn_le_turn {i j : ℕ} (hij : i ≤ j) (hj : j ≤ 8192) : turn 16384 j ≤ turn 16384 i :=
  turn_anti (m := 8192) (by norm_num) hij hj

variable {f : Functions} (accurate : f.Accurate) (hn : n ≤ 8191) (hk : k ≤ 17)

include accurate hn in
/-- The scaled cosine of a place is close to the exact one. -/
lemma exists_scaled {i : ℕ} (hi : i ≤ 16384) : ∃ γ : ℝ,
    value? (f.cosine .standard i) = some γ ∧ |n * γ - n * turn 16384 i| ≤ 2 ^ (-26 : ℤ) := by
  obtain ⟨γ, hγ, hnear⟩ := accurate.exists_cosine (p := .standard) (by decide) (by decide) hi
  refine ⟨γ, hγ, ?_⟩
  have hn' : (n : ℝ) ≤ 2 ^ 13 := by exact_mod_cast hn.trans (by norm_num)
  rw [← mul_sub, abs_mul, Nat.abs_cast]
  calc n * |γ - turn 16384 i| ≤ 2 ^ 13 * 2 ^ (-39 : ℤ) :=
        mul_le_mul hn' hnear (abs_nonneg _) (by norm_num)
    _ = 2 ^ (-26 : ℤ) := by norm_num

include accurate hn hk in
/-- The upper level, `k` places or more away from the zeros. -/
lemma half_le_cosine (h : 1304 ≤ n * k) {i : ℕ}
    (hi : i ≤ 4096 - k ∨ 12288 + k ≤ i ∧ i ≤ 16384) :
    (0.5 : Float) ≤ ofNat n * f.cosine .standard i := by
  obtain ⟨j, hj, hturn, hplace⟩ := exists_turn_eq (i := i) (by omega)
  obtain ⟨γ, hγ, hnear⟩ := exists_scaled accurate hn (i := i) (by omega)
  have hge : turn 16384 (4096 - k) ≤ turn 16384 i := by
    rw [hturn]
    exact turn_le_turn (by omega) (by omega)
  have hscaled := mul_le_mul_of_nonneg_left hge (Nat.cast_nonneg (α := ℝ) n)
  have hhalf := half_lt_scaled_turn hk h
  have hsmall : (2 : ℝ) ^ (-26 : ℤ) ≤ 1 / 2 ^ 16 := by norm_num
  have := (abs_le.1 (hnear.trans hsmall)).1
  exact half_le_scaled (by omega) hγ (by linarith)

include accurate hn hk in
/-- The lower level, up to `k` places before the first zero and after the second. -/
lemma not_half_le_cosine (h : n * k < 1304) {i : ℕ} (hlow : 4096 - k ≤ i)
    (hhigh : i ≤ 12288 + k) : ¬ (0.5 : Float) ≤ ofNat n * f.cosine .standard i := by
  obtain ⟨j, hj, hturn, hplace⟩ := exists_turn_eq (i := i) (by omega)
  obtain ⟨γ, hγ, hnear⟩ := exists_scaled accurate hn (i := i) (by omega)
  have hle : turn 16384 i ≤ turn 16384 (4096 - k) := by
    rw [hturn]
    exact turn_le_turn (by omega) hj
  have hscaled := mul_le_mul_of_nonneg_left hle (Nat.cast_nonneg (α := ℝ) n)
  have hhalf := scaled_turn_lt_half hk h
  have hsmall : (2 : ℝ) ^ (-26 : ℤ) ≤ 1 / 2 ^ 14 := by norm_num
  have := (abs_le.1 (hnear.trans hsmall)).2
  have hbelow : value? 0.49993896484375 = some (1 / 2 - 1 / 2 ^ 14 : ℝ) := by
    have hunpack : (0.49993896484375 : Float).toModel.unpack =
        .finite .positive 9006099743113216 (-54) (by decide) := rfl
    rw [value_of_unpack hunpack]
    norm_num
  exact not_half_le_of_le (by omega) hγ hbelow (by norm_num) (by linarith)

end

end Waveform

end ImpedanceBench

import ImpedanceBench.Proofs.Double.Functions

/-!
What becomes of numbers that are too large. An overflow is infinite and stays so in sums, and in
products and quotients with numbers; only zero times an infinite number is undefined. Confined to a
range, all but the undefined numbers are in it, and whole numbers of 24 bits survive single
precision.
-/

namespace ImpedanceBench.Double

open Float.Model UnpackedFloat

variable {x y lo hi : Float} {a b r : ℝ}

def Infinite (x : Float) : Prop := ∃ s, x.toModel.unpack = .infinity s

lemma not_undefined_of_value (h : value? x = some a) : ¬ Undefined x := by
  intro hx
  rw [value?, show x.toModel.unpack = .notANumber from hx] at h
  cases h

lemma value_ne_zero_of_unpack {m : ℕ} {e : ℤ} {hm : 0 < m}
    (h : x.toModel.unpack = .finite .positive m e hm) : value? x ≠ some 0 := by
  have hne : (m * 2 ^ e : ℝ) ≠ 0 := by positivity
  simpa [value_of_unpack h] using hne

lemma Infinite.not_undefined (h : Infinite x) : ¬ Undefined x := by
  obtain ⟨s, hs⟩ := h
  intro hx
  rw [show x.toModel.unpack = .notANumber from hx] at hs
  cases hs

lemma infinite_of_isInf (h : x.isInf = true) : Infinite x := by
  have hinf : x.toModel.unpack.isInf = true := h
  rcases hx : x.toModel.unpack with s | _ | s | ⟨s, m, e, hm⟩ <;> rw [hx] at hinf <;> cases hinf
  exact ⟨s, hx⟩

lemma value_or_infinite (h : ¬ Undefined x) : (∃ a, value? x = some a) ∨ Infinite x :=
  (value_or x).imp_right fun hx => hx.resolve_right h

lemma Rounds.not_undefined (h : Rounds r x) : ¬ Undefined x := by
  rcases h with ⟨v, hv, -, -⟩ | ⟨h, -⟩ | ⟨h, -⟩
  · exact not_undefined_of_value hv
  · exact Infinite.not_undefined ⟨_, h⟩
  · exact Infinite.not_undefined ⟨_, h⟩

lemma unpack_pack_infinity (s : Sign) : (Float.Model.pack (.infinity s)).unpack = .infinity s := by
  cases s <;> rfl

/-! Undefined operands. -/

lemma unpack_pack_notANumber {u : UnpackedFloat} (h : u = .notANumber) :
    (Float.Model.pack u).unpack = .notANumber := by
  rw [h]
  rfl

lemma Undefined.mul_left (h : Undefined x) (y : Float) : Undefined (x * y) := by
  refine unpack_pack_notANumber (u := .mul .binary64 _ y.toModel.unpack) ?_
  rw [show x.toModel.unpack = .notANumber from h, UnpackedFloat.mul]

lemma Undefined.mul_right (h : Undefined y) (x : Float) : Undefined (x * y) := by
  refine unpack_pack_notANumber (u := .mul .binary64 x.toModel.unpack _) ?_
  rw [show y.toModel.unpack = .notANumber from h]
  cases x.toModel.unpack <;> rfl

lemma Undefined.div_left (h : Undefined x) (y : Float) : Undefined (x / y) := by
  refine unpack_pack_notANumber (u := .div .binary64 _ y.toModel.unpack) ?_
  rw [show x.toModel.unpack = .notANumber from h, UnpackedFloat.div]

lemma Undefined.sub_left (h : Undefined x) (y : Float) : Undefined (x - y) := by
  refine unpack_pack_notANumber (u := .sub .binary64 _ y.toModel.unpack) ?_
  rw [show x.toModel.unpack = .notANumber from h, UnpackedFloat.sub]

lemma Undefined.add_left (h : Undefined x) (y : Float) : Undefined (x + y) := by
  refine unpack_pack_notANumber (u := .add .binary64 _ y.toModel.unpack) ?_
  rw [show x.toModel.unpack = .notANumber from h, UnpackedFloat.add]

/-! Infinite operands. -/

lemma Infinite.mul_right (hx : value? x = some a) (ha : a ≠ 0) (hy : Infinite y) :
    Infinite (x * y) := by
  obtain ⟨s, hs⟩ := hy
  obtain ⟨_, -, rfl⟩ | ⟨s', m, e, hm, hx, -⟩ := value_cases hx
  · exact absurd rfl ha
  refine ⟨s' * s, ?_⟩
  change (Float.Model.pack (.mul .binary64 x.toModel.unpack y.toModel.unpack)).unpack = _
  rw [hx, hs]
  exact unpack_pack_infinity _

lemma Infinite.zero_mul (hx : value? x = some 0) (hy : Infinite y) : Undefined (x * y) := by
  obtain ⟨s, hs⟩ := hy
  obtain ⟨s', hs'⟩ := unpack_of_value_zero hx
  refine unpack_pack_notANumber (u := .mul .binary64 x.toModel.unpack y.toModel.unpack) ?_
  rw [hs, hs', UnpackedFloat.mul]

lemma Infinite.div (hx : Infinite x) (hy : value? y = some b) : Infinite (x / y) := by
  obtain ⟨s, hs⟩ := hx
  obtain ⟨s', hs', -⟩ | ⟨s', m, e, hm, hs', -⟩ := value_cases hy <;>
  · refine ⟨s / s', ?_⟩
    change (Float.Model.pack (.div .binary64 x.toModel.unpack y.toModel.unpack)).unpack = _
    rw [hs, hs']
    exact unpack_pack_infinity _

lemma Infinite.add (hx : Infinite x) (hy : value? y = some b) : Infinite (x + y) := by
  obtain ⟨s, hs⟩ := hx
  obtain ⟨s', hs', -⟩ | ⟨s', m, e, hm, hs', -⟩ := value_cases hy <;>
  · refine ⟨s, ?_⟩
    change (Float.Model.pack (.add .binary64 x.toModel.unpack y.toModel.unpack)).unpack = _
    rw [hs, hs']
    exact unpack_pack_infinity _

/-- A product with a number is undefined only if the other factor is, or is infinite where the
number is zero. -/
lemma undefined_mul_iff (hx : value? x = some a) (hy : ¬ Undefined y) :
    Undefined (x * y) ↔ a = 0 ∧ Infinite y := by
  constructor
  · intro h
    rcases value_or_infinite hy with ⟨b, hb⟩ | hy
    · exact absurd h (rounds_mul hx hb).not_undefined
    · refine ⟨?_, hy⟩
      by_contra ha
      exact (hy.mul_right hx ha).not_undefined h
  · rintro ⟨rfl, hy⟩
    exact hy.zero_mul hx

lemma not_undefined_div (hx : ¬ Undefined x) (hy : value? y = some b) (hb : b ≠ 0) :
    ¬ Undefined (x / y) := by
  rcases value_or_infinite hx with ⟨a, ha⟩ | hx
  · exact (rounds_div ha hy hb).not_undefined
  · exact (hx.div hy).not_undefined

lemma not_undefined_add (hx : ¬ Undefined x) (hy : value? y = some b) : ¬ Undefined (x + y) := by
  rcases value_or_infinite hx with ⟨a, ha⟩ | hx
  · exact (rounds_add ha hy).not_undefined
  · exact (hx.add hy).not_undefined

/-! Confined numbers. -/

lemma not_lt_of_undefined (h : Undefined x) (y : Float) : ¬ x < y ∧ ¬ y < x := by
  have h : x.toModel.unpack = .notANumber := h
  simp [lt_iff, rank, h, place]

lemma confine_of_undefined (h : Undefined x) (lo hi : Float) : Scalar.confine lo hi x = x := by
  rw [Scalar.confine, if_neg (not_lt_of_undefined h lo).1, if_neg (not_lt_of_undefined h hi).2]

lemma lt_or_lt_of_infinite (hx : Infinite x) : (∀ {y b}, value? y = some b → x < y) ∨
    ∀ {y b}, value? y = some b → ¬ x < y ∧ y < x := by
  obtain ⟨s, hs⟩ := hx
  cases s
  case positive =>
    refine .inr fun hy => ?_
    obtain ⟨_, hy, -⟩ | ⟨s, _, _, _, hy, -⟩ := value_cases hy
    · simp [lt_iff, rank, hs, hy, place, Prod.Lex.toLex_lt_toLex]
    · cases s <;> simp [lt_iff, rank, hs, hy, place, Prod.Lex.toLex_lt_toLex]
  case negative =>
    refine .inl fun hy => ?_
    obtain ⟨_, hy, -⟩ | ⟨s, _, _, _, hy, -⟩ := value_cases hy
    · simp [lt_iff, rank, hs, hy, place, Prod.Lex.toLex_lt_toLex]
    · cases s <;> simp [lt_iff, rank, hs, hy, place, Prod.Lex.toLex_lt_toLex]

/-- Rounded and confined between whole numbers, a number is a whole number between them. -/
lemma exists_confine_round {l h : ℤ} (hlh : l ≤ h) (hlo : value? lo = some (l : ℝ))
    (hhi : value? hi = some (h : ℝ)) (hx : ¬ Undefined x) :
    ∃ k : ℤ, value? (Scalar.confine lo hi (Scalar.round x)) = some (k : ℝ) ∧ l ≤ k ∧ k ≤ h := by
  rcases value_or_infinite hx with ⟨a, ha⟩ | hx
  · have hround : value? (Scalar.round x) = some (Exact.nearest a : ℝ) := value_roundHalfAway ha
    unfold Scalar.confine
    simp only [lt_iff_value hround hlo, lt_iff_value hhi hround, Int.cast_lt]
    split_ifs
    · exact ⟨l, hlo, le_rfl, hlh⟩
    · exact ⟨h, hhi, hlh, le_rfl⟩
    · exact ⟨_, hround, by omega, by omega⟩
  · obtain ⟨s, hs⟩ := hx
    have hparts := parts_eq x
    rw [hs] at hparts
    have hround : Scalar.round x = x := roundHalfAway_of_infinite hparts
    rw [hround, Scalar.confine]
    rcases lt_or_lt_of_infinite ⟨s, hs⟩ with hlt | hlt
    · rw [if_pos (hlt hlo)]
      exact ⟨l, hlo, le_rfl, hlh⟩
    · rw [if_neg (hlt hlo).1, if_pos (hlt hhi).2]
      exact ⟨h, hhi, hlh, le_rfl⟩

/-! Single precision. -/

lemma single_of_undefined (h : Undefined x) : single x = x := by
  have hparts := parts_eq x
  rw [show x.toModel.unpack = .notANumber from h] at hparts
  rw [single, hparts]
  rfl

section Whole

variable {k : ℤ} {m : ℕ} {e : ℤ} (hc : Canonical m e) (hsize : (|k| : ℝ) = m * 2 ^ e)

include hc hsize

lemma lt_exponent_of_whole (hk : 0 < |k|) : -53 < e := by
  by_contra hle
  have hlow : (1 : ℝ) ≤ m * 2 ^ e := by
    rw [← hsize]
    exact_mod_cast hk
  have hunit : (2 : ℝ) ^ e ≤ 2 ^ (-53 : ℤ) := zpow_le_zpow_right₀ one_le_two (by omega)
  have hmantissa : (m : ℝ) < 2 ^ 53 := by exact_mod_cast hc.lt
  have hsmall : (m : ℝ) * 2 ^ e < 2 ^ 53 * 2 ^ (-53 : ℤ) :=
    mul_lt_mul hmantissa hunit (by positivity) (by positivity)
  norm_num at hsmall hlow
  linarith

lemma exponent_le_of_whole (hk : |k| < 2 ^ 24) : e ≤ -29 := by
  by_contra hlt
  have hhigh : (m * 2 ^ e : ℝ) < 2 ^ 24 := by
    rw [← hsize]
    exact_mod_cast hk
  have hunit : (2 : ℝ) ^ (-28 : ℤ) ≤ 2 ^ e := zpow_le_zpow_right₀ one_le_two (by omega)
  have hmantissa : (2 : ℝ) ^ 52 ≤ m := by exact_mod_cast hc.leading (by omega)
  have hlarge : (2 : ℝ) ^ 52 * 2 ^ (-28 : ℤ) ≤ m * 2 ^ e :=
    mul_le_mul hmantissa hunit (by positivity) (by positivity)
  norm_num at hlarge hhigh
  linarith

omit hc in
/-- The last 29 bits of the mantissa stand behind the point. -/
lemma mantissa_of_whole (he : e ≤ -29) : m % 2 ^ 29 = 0 := by
  obtain ⟨n, rfl⟩ : ∃ n : ℕ, e = -(n + 29 : ℕ) := ⟨(-29 - e).toNat, by omega⟩
  have hmantissa : (m : ℝ) = |(k : ℝ)| * 2 ^ n * 2 ^ 29 := by
    rw [hsize, zpow_neg, zpow_natCast, mul_assoc, ← pow_add, inv_mul_cancel_right₀ (by positivity)]
  have hdvd : (2 ^ 29 : ℤ) ∣ m := ⟨|k| * 2 ^ n, by exact_mod_cast hmantissa.trans (mul_comm _ _)⟩
  exact Nat.mod_eq_zero_of_dvd (by exact_mod_cast hdvd)

end Whole

/-- A whole number of 24 bits is a number of single precision. -/
lemma single_of_whole {k : ℤ} (hk : |k| < 2 ^ 24) (h : value? x = some (k : ℝ)) : single x = x := by
  obtain ⟨s, hs, -⟩ | ⟨s, m, e, hm, hs, hc, hvalue⟩ := value_cases h
  · obtain rfl | rfl : x = 0.0 ∨ x = -0.0 := by
      cases s
      case positive => exact .inl (eq_of_unpack_eq hs)
      case negative => exact .inr (eq_of_unpack_eq hs)
    · decide +kernel
    · decide +kernel
  have hsize : (|k| : ℝ) = m * 2 ^ e := by
    rw [hvalue, abs_signed, abs_of_pos (by positivity)]
  have hpos : 0 < |k| := by
    have hreal : (0 : ℝ) < |(k : ℝ)| := by
      rw [hsize]
      positivity
    exact_mod_cast hreal
  have hlow := lt_exponent_of_whole hc hsize hpos
  have hhigh := exponent_le_of_whole hc hsize hk
  have hparts := parts_eq x
  rw [hs] at hparts
  rw [single, hparts]
  exact if_pos ⟨mantissa_of_whole hsize hhigh, by omega, by omega⟩

end ImpedanceBench.Double

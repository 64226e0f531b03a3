import ImpedanceBench.Proofs.Double.Arithmetic

/-!
Results that need no rounding. A whole number of 53 bits times a power of two is a double, so the
difference of two doubles is exact where they are within a factor of two of each other, and the
remainder of a division is always exact: it has the unit of the smaller operand and is below both.
-/

namespace ImpedanceBench.Double

open Float.Model UnpackedFloat

variable {x y : Float} {a b : ℝ} {m m' : ℕ} {e e' : ℤ}

/-! Powers of two. -/

/-- The bits of a finite number are kept. -/
lemma toBits_ofBits {w : UInt64} (h : (w >>> 52) &&& 0x7ff ≠ 0x7ff) : (Float.ofBits w).toBits = w := by
  have hvalid : Format.binary64.Valid w.toBitVec := by
    refine ⟨fun hlast => absurd ?_ h⟩
    rw [← UInt64.toNat_inj, toNat_exponentBits, hlast]
    rfl
  exact congrArg UInt64.ofBitVec (pack_unpack_of_valid hvalid)

lemma value_of_parts {negative : Bool} (h : parts x = .finite negative m e) :
    value? x = some (signed negative (m * 2 ^ e)) := by
  rw [parts_eq] at h
  rcases hx : x.toModel.unpack with s | _ | s | ⟨s, m', e', hm⟩ <;> rw [hx] at h <;> cases h
  · cases s <;> simp [value?, hx, worth?, signed]
  · rw [mul_two_zpow (canonical_of_unpack hx).least, value?, hx]
    cases s <;> simp [worth?, signed, Sign.apply]

section Fields

variable {w : UInt64} {exponent fraction : ℕ} (hw : w.toNat = exponent * 2 ^ 52 + fraction)
  (hfraction : fraction < 2 ^ 52)

include hw hfraction

lemma toNat_exponentField (hexponent : exponent < 0x7ff) :
    ((w >>> 52) &&& 0x7ff).toNat = exponent := by
  have hmask : ((w >>> 52) &&& 0x7ff).toNat = w.toNat / 2 ^ 52 % 2 ^ 11 := by
    rw [UInt64.toNat_and, UInt64.toNat_shiftRight]
    change w.toNat >>> 52 &&& (2 ^ 11 - 1) = _
    rw [Nat.and_two_pow_sub_one_eq_mod, Nat.shiftRight_eq_div_pow]
  rw [hmask, hw]
  omega

lemma toNat_fractionField : (w &&& 0xfffffffffffff).toNat = fraction := by
  have hmask : (w &&& 0xfffffffffffff).toNat = w.toNat % 2 ^ 52 := by
    rw [UInt64.toNat_and]
    exact Nat.and_two_pow_sub_one_eq_mod _ 52
  rw [hmask, hw]
  omega

lemma signField_eq_zero (hexponent : exponent < 0x7ff) : w >>> 63 = 0 := by
  rw [← UInt64.toNat_inj, UInt64.toNat_shiftRight]
  change w.toNat >>> 63 = 0
  rw [Nat.shiftRight_eq_div_pow, hw]
  omega

/-- The number that the fields of a word say. -/
lemma parts_ofBits (hexponent : exponent < 0x7ff) :
    parts (Float.ofBits w) = if exponent = 0 then .finite false fraction (-1074)
      else .finite false (fraction + 2 ^ 52) (exponent - 1075) := by
  have hexp := toNat_exponentField hw hfraction hexponent
  have hfrac := toNat_fractionField hw hfraction
  have hsign : (w >>> 63 != 0) = false := by
    rw [signField_eq_zero hw hfraction hexponent]
    rfl
  have hlast : (w >>> 52) &&& 0x7ff ≠ 0x7ff := fun heq => by
    rw [heq] at hexp
    exact hexponent.ne hexp.symm
  have hlead : ((w &&& 0xfffffffffffff) + 0x10000000000000).toNat = fraction + 2 ^ 52 := by
    have hword : UInt64.toNat 0x10000000000000 = 2 ^ 52 := rfl
    rw [UInt64.toNat_add, hfrac, hword, Nat.mod_eq_of_lt (by omega)]
  unfold parts
  rw [toBits_ofBits hlast]
  dsimp only
  rw [hexp, if_neg hexponent.ne, hsign, hfrac, hlead]

end Fields

lemma value_twoPow (he : -1074 ≤ e) (he' : e ≤ 1023) : value? (twoPow e) = some (2 ^ e : ℝ) := by
  unfold twoPow
  rw [if_neg (by omega)]
  split
  · obtain ⟨k, rfl⟩ : ∃ k : ℕ, e = k + -1074 := ⟨(e + 1074).toNat, by omega⟩
    have hk : 2 ^ k < 2 ^ 52 := Nat.pow_lt_pow_right (by decide) (by omega)
    have hword : (1 <<< UInt64.ofNat (k + -1074 + 1074 : ℤ).toNat : UInt64).toNat =
        0 * 2 ^ 52 + 2 ^ k := by
      have hmod : k % 64 = k := Nat.mod_eq_of_lt (by omega)
      rw [neg_add_cancel_right, Int.toNat_natCast, UInt64.toNat_shiftLeft,
        UInt64.toNat_ofNat_of_lt' (by change k < 2 ^ 64; omega), hmod, Nat.shiftLeft_eq]
      change 1 * 2 ^ k % 2 ^ 64 = _
      omega
    rw [value_of_parts (parts_ofBits hword hk (by decide)), zpow_add₀ two_ne_zero, zpow_natCast]
    push_cast
    rfl
  · rw [if_pos (by omega)]
    obtain ⟨k, rfl⟩ : ∃ k : ℕ, e = k + -1023 := ⟨(e + 1023).toNat, by omega⟩
    have hword : (UInt64.ofNat (k + -1023 + 1023 : ℤ).toNat <<< 52).toNat = k * 2 ^ 52 + 0 := by
      rw [neg_add_cancel_right, Int.toNat_natCast, UInt64.toNat_shiftLeft,
        UInt64.toNat_ofNat_of_lt' (by change k < 2 ^ 64; omega), Nat.shiftLeft_eq]
      change k * 2 ^ 52 % 2 ^ 64 = _
      omega
    have hparts := parts_ofBits hword (by decide) (by omega)
    have hexp : ((52 : ℕ) : ℤ) + (k - 1075) = k + -1023 := by omega
    rw [if_neg (by omega), zero_add] at hparts
    rw [value_of_parts hparts, ← hexp, zpow_add₀ two_ne_zero, zpow_natCast, Nat.cast_pow,
      Nat.cast_ofNat]
    rfl

/-! Doubles with a known unit. -/

lemma canonical_zero : Canonical 0 (-1074) :=
  ⟨by decide, le_rfl, by decide, fun h => absurd h (Int.lt_irrefl _)⟩

/-- A mantissa of 53 bits is canonical in a unit that is small enough for its leading bit. -/
lemma exists_canonical (hm : m < 2 ^ 53) (he : -1074 ≤ e) (he' : e ≤ 971) :
    ∃ m' e', Canonical m' e' ∧ (m * 2 ^ e : ℝ) = m' * 2 ^ e' := by
  rcases Nat.eq_zero_or_pos m with rfl | hpos
  · exact ⟨0, -1074, canonical_zero, by simp⟩
  obtain ⟨n, hn⟩ : ∃ n, min (52 - m.log2) (e + 1074).toNat = n := ⟨_, rfl⟩
  have hlog : m.log2 < 53 := (Nat.log2_lt hpos.ne').2 hm
  refine ⟨m * 2 ^ n, e - n, ⟨?_, by omega, by omega, fun hlead => ?_⟩, ?_⟩
  · calc m * 2 ^ n < 2 ^ (m.log2 + 1) * 2 ^ n :=
          Nat.mul_lt_mul_of_pos_right Nat.lt_log2_self (Nat.two_pow_pos n)
      _ = 2 ^ (m.log2 + 1 + n) := (pow_add _ _ _).symm
      _ ≤ 2 ^ 53 := Nat.pow_le_pow_right two_pos (by omega)
  · calc 2 ^ 52 = 2 ^ m.log2 * 2 ^ n := by
          rw [← pow_add]
          congr 1
          omega
      _ ≤ m * 2 ^ n := Nat.mul_le_mul_right _ (Nat.log2_self_le hpos.ne')
  · rw [zpow_sub₀ two_ne_zero, zpow_natCast]
    push_cast
    field_simp

/-- A whole number of 53 bits times a power of two is a double. -/
lemma exists_value_mul {k : ℤ} (hk : |k| < 2 ^ 53) (he : -1074 ≤ e) (he' : e ≤ 971) :
    ∃ y, value? y = some (k * 2 ^ e : ℝ) := by
  rw [Int.abs_eq_natAbs] at hk
  obtain ⟨m, e', hc, hm⟩ := exists_canonical (m := k.natAbs) (by omega) he he'
  rcases Int.natAbs_eq k with hsign | hsign <;> rw [hsign]
  · rw [Int.cast_natCast, hm]
    exact ⟨_, value_pack .positive hc⟩
  · rw [Int.cast_neg, Int.cast_natCast, neg_mul, hm]
    exact ⟨_, value_pack .negative hc⟩

lemma value_scaled (negative : Bool) (hm : m < 2 ^ 53) (he : -1074 ≤ e) (he' : e ≤ 971) :
    value? (scaled negative m e) = some (signed negative (m * 2 ^ e)) := by
  obtain ⟨y, hy⟩ := exists_value_mul (k := m) (by simpa using hm) he he'
  rw [Int.cast_natCast] at hy
  have hrounds := rounds_mul (value_ofNat hm) (value_twoPow he (by omega))
  exact value_withSign negative (hrounds.value_eq hy)

/-- A double in its parts. -/
lemma exists_parts (h : value? x = some a) : ∃ negative m e,
    parts x = .finite negative m e ∧ Canonical m e ∧ a = signed negative (m * 2 ^ e) := by
  have hparts := parts_eq x
  obtain ⟨s, hs, rfl⟩ | ⟨s, m, e, hm, hs, hc, rfl⟩ := value_cases h <;> rw [hs] at hparts
  · exact ⟨_, _, _, hparts, canonical_zero, by simp [signed]⟩
  · exact ⟨_, _, _, hparts, hc, rfl⟩

lemma mantissa_ne_zero {negative : Bool} (h : signed negative (m * 2 ^ e : ℝ) ≠ 0) : m ≠ 0 := by
  rintro rfl
  exact h (by simp [signed])

lemma unpack_of_value_pos (h : value? x = some a) (ha : 0 < a) :
    ∃ m e hm, x.toModel.unpack = .finite .positive m e hm := by
  obtain ⟨s, -, rfl⟩ | ⟨s, m, e, hm, hs, -, rfl⟩ := value_cases h
  · exact absurd rfl ha.ne
  cases s
  · have hnonneg : (0 : ℝ) ≤ m * 2 ^ e := by positivity
    exact absurd ha (neg_nonpos.2 hnonneg).not_gt
  · exact ⟨m, e, hm, hs⟩

lemma unpack_of_value_zero (h : value? x = some 0) : ∃ s, x.toModel.unpack = .zero s := by
  obtain ⟨s, hs, -⟩ | ⟨s, m, e, hm, -, -, hvalue⟩ := value_cases h
  · exact ⟨s, hs⟩
  · have hpos : (0 : ℝ) < m * 2 ^ e := mul_pos (Nat.cast_pos.2 hm) (zpow_pos two_pos e)
    have habs := abs_signed (s == .negative) (m * 2 ^ e : ℝ)
    rw [← hvalue, abs_zero, abs_of_pos hpos] at habs
    exact absurd habs hpos.ne

/-- Doubles of one value are the same unless they are zero. -/
lemma eq_of_value (hx : value? x = some a) (hy : value? y = some a) (ha : a ≠ 0) : x = y := by
  obtain ⟨s, hs, rfl⟩ | ⟨s, m, e, hm, hs, hc, rfl⟩ := value_cases hx
  · exact absurd rfl ha
  · exact (eq_of_not_lt hs ((le_iff_value hy hy).2 le_rfl)
      (fun h => ((lt_iff_value hx hy).1 h).false) fun h => ((lt_iff_value hy hx).1 h).false).symm

/-- A double is a whole number of 53 bits times a power of two. -/
lemma exists_multiple (h : value? x = some a) :
    ∃ (k e : ℤ), |k| < 2 ^ 53 ∧ -1074 ≤ e ∧ e ≤ 971 ∧ a = k * 2 ^ e := by
  obtain ⟨negative, m, e, -, hc, rfl⟩ := exists_parts h
  have hm : |(m : ℤ)| < 2 ^ 53 := by
    rw [Nat.abs_cast]
    exact_mod_cast hc.lt
  cases negative
  · exact ⟨m, e, hm, hc.least, hc.most, by rw [Int.cast_natCast]; rfl⟩
  · exact ⟨-m, e, by rwa [abs_neg], hc.least, hc.most, by rw [Int.cast_neg, neg_mul]; rfl⟩

/-- Whole multiples of two doubles add up to a double, if it is not larger than either of them. -/
lemma exists_value_add {r : ℝ} {i j : ℤ} (hx : value? x = some a) (hy : value? y = some b)
    (hr : r = i * a + j * b) (ha : |r| ≤ |a|) (hb : |r| ≤ |b|) : ∃ z, value? z = some r := by
  obtain ⟨k, e, hk, he, he', rfl⟩ := exists_multiple hx
  obtain ⟨k', e', hk', hf, hf', rfl⟩ := exists_multiple hy
  -- The unit of the sum is the smaller one, and so is the bound that belongs to it.
  wlog hle : e ≤ e' generalizing i j k e k' e' x y
  · exact this k' e' hk' hf hf' hy hb k e hk he he' hx ha (by rw [hr, add_comm])
      (by omega)
  obtain ⟨n, rfl⟩ : ∃ n : ℕ, e' = e + n := ⟨(e' - e).toNat, by omega⟩
  have hunit : (0 : ℝ) < 2 ^ e := zpow_pos two_pos e
  have hsum : r = (i * k + j * (k' * 2 ^ n) : ℤ) * 2 ^ e := by
    rw [hr, zpow_add₀ two_ne_zero, zpow_natCast]
    push_cast
    ring
  have hbound : |i * k + j * (k' * 2 ^ n)| ≤ |k| := by
    rw [hsum, abs_mul, abs_mul, mul_le_mul_iff_left₀ (abs_pos.2 hunit.ne')] at ha
    exact_mod_cast ha
  rw [hsum]
  exact exists_value_mul (hbound.trans_lt hk) he he'

/-- **A difference within a factor of two is exact.** -/
theorem value_sub (hx : value? x = some a) (hy : value? y = some b) (hlow : b ≤ 2 * a)
    (hhigh : a ≤ 2 * b) : value? (x - y) = some (a - b) := by
  have hdiff : a - b = (1 : ℤ) * a + (-1 : ℤ) * b := by
    push_cast
    ring
  have hsmall : |a - b| ≤ a ∧ |a - b| ≤ b := by
    rw [abs_le, abs_le]
    exact ⟨⟨by linarith, by linarith⟩, by linarith, by linarith⟩
  obtain ⟨z, hz⟩ := exists_value_add hx hy hdiff (hsmall.1.trans (le_abs_self a))
    (hsmall.2.trans (le_abs_self b))
  exact (rounds_sub hx hy).value_eq hz

/-! Remainders. -/

lemma rem_signed (negative negative' : Bool) (a b : ℝ) :
    Scalar.rem (signed negative a) (signed negative' b) = signed negative (Scalar.rem a b) := by
  cases negative <;> cases negative' <;>
    simp only [signed, Scalar.rem_real_eq, if_true, Bool.false_eq_true, if_false, neg_div, div_neg,
      Exact.whole_neg, neg_neg, Int.cast_neg] <;>
    ring

lemma rem_natCast_mul (m : ℕ) {m' : ℕ} (hm' : m' ≠ 0) {u : ℝ} (hu : u ≠ 0) :
    Scalar.rem (m * u) (m' * u) = (m % m' : ℕ) * u := by
  have hquotient : Exact.whole ((m : ℝ) / m') = (m / m' : ℕ) := by
    rw [Exact.whole, if_pos (by positivity), ← Int.natCast_floor_eq_floor (by positivity),
      Nat.floor_div_eq_div]
  have hdivision : (m : ℝ) = m' * (m / m' : ℕ) + (m % m' : ℕ) := by
    exact_mod_cast (Nat.div_add_mod m m').symm
  rw [Scalar.rem_real_eq, mul_div_mul_right _ _ hu, hquotient, Int.cast_natCast]
  nth_rewrite 1 [hdivision]
  ring

/-- **Remainders are exact.** -/
theorem value_rem (hx : value? x = some a) (hy : value? y = some b) (hb : b ≠ 0) :
    value? (rem x y) = some (Scalar.rem a b) := by
  obtain ⟨negative, m, e, hparts, hc, rfl⟩ := exists_parts hx
  obtain ⟨negative', m', e', hparts', hc', rfl⟩ := exists_parts hy
  have hm' := mantissa_ne_zero hb
  obtain ⟨lo, hlo⟩ : ∃ lo, min e e' = lo := ⟨_, rfl⟩
  obtain ⟨n, hn⟩ : ∃ n, (e - lo).toNat = n := ⟨_, rfl⟩
  obtain ⟨n', hn'⟩ : ∃ n', (e' - lo).toNat = n' := ⟨_, rfl⟩
  have hrun : rem x y = scaled negative (m * 2 ^ n % (m' * 2 ^ n')) lo := by
    unfold rem
    rw [hparts, hparts']
    simp only [if_neg hm', remParts, hlo, hn, hn', Nat.shiftLeft_eq]
  -- One of the operands has the unit of the remainder, and the remainder is not above it.
  have hlt : m * 2 ^ n % (m' * 2 ^ n') < 2 ^ 53 := by
    rcases le_total e e' with hle | hle
    · obtain rfl : n = 0 := by omega
      exact (Nat.mod_le _ _).trans_lt (by simpa using hc.lt)
    · obtain rfl : n' = 0 := by omega
      have hpos : 0 < m' * 2 ^ 0 := by positivity
      exact (Nat.mod_lt _ hpos).trans (by simpa using hc'.lt)
  have hleast : -1074 ≤ lo := hlo ▸ le_min hc.least hc'.least
  have hmost : lo ≤ 971 := hlo ▸ (min_le_left e e').trans hc.most
  have hunit : (2 : ℝ) ^ lo ≠ 0 := (zpow_pos two_pos lo).ne'
  have hscale {k : ℕ} {d : ℤ} {p : ℕ} (hp : (d - lo).toNat = p) (hd : lo ≤ d) :
      (k * 2 ^ d : ℝ) = (k * 2 ^ p : ℕ) * 2 ^ lo := by
    have hexp : d = p + lo := by omega
    rw [hexp, zpow_add₀ two_ne_zero, zpow_natCast]
    push_cast
    ring
  rw [hrun, value_scaled negative hlt hleast hmost, rem_signed, hscale hn (by omega),
    hscale hn' (by omega), rem_natCast_mul _ (by positivity) hunit]

/-- A zero is its own remainder, with its sign. -/
lemma rem_of_zero (hx : value? x = some 0) (hy : value? y = some b) (hb : b ≠ 0) :
    rem x y = x := by
  obtain ⟨s, hs⟩ := unpack_of_value_zero hx
  obtain ⟨negative, m, e, hparts, hc, rfl⟩ := exists_parts hy
  have hm := mantissa_ne_zero hb
  have hlo : -1074 ≤ min (-1074) e := le_min le_rfl hc.least
  have hzero : ofNat 0 * twoPow (min (-1074) e) = 0.0 := by
    obtain ⟨m', e', hm', hunpack⟩ := unpack_of_value_pos (value_twoPow hlo (by omega))
      (zpow_pos two_pos _)
    exact zero_mul_of_positive hunpack
  have hparts' := parts_eq x
  rw [hs] at hparts'
  unfold rem
  rw [hparts', hparts]
  simp only [partsOf, if_neg hm, remParts, Nat.zero_shiftLeft, Nat.zero_mod, scaled, hzero]
  refine eq_of_unpack_eq ?_
  rw [hs]
  cases s <;> rfl

lemma rem_real_of_lt (h : |a| < |b|) : Scalar.rem a b = a := by
  have hquotient : |a / b| < 1 := by
    rwa [abs_div, div_lt_one ((abs_nonneg a).trans_lt h)]
  obtain ⟨hlow, hhigh⟩ := abs_lt.1 hquotient
  have hwhole : Exact.whole (a / b) = 0 := by
    rw [Exact.whole]
    split
    · rw [Int.floor_eq_zero_iff]
      constructor <;> linarith
    · rw [Int.ceil_eq_zero_iff]
      constructor <;> linarith
  rw [Scalar.rem_real_eq, hwhole, Int.cast_zero, zero_mul, sub_zero]

/-- A number below the divisor is its own remainder. -/
theorem rem_of_lt (hx : value? x = some a) (hy : value? y = some b) (h : |a| < |b|) :
    rem x y = x := by
  have hb : b ≠ 0 := abs_pos.1 ((abs_nonneg a).trans_lt h)
  have hrem := value_rem hx hy hb
  rw [rem_real_of_lt h] at hrem
  rcases eq_or_ne a 0 with rfl | ha
  · exact rem_of_zero hx hy hb
  · exact eq_of_value hrem hx ha

end ImpedanceBench.Double

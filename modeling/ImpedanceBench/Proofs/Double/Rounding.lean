import ImpedanceBench.Proofs.Double.Sign
import ImpedanceBench.Proofs.Double.Whole

/-!
Rounding to whole numbers. The bits of a double say the same as its unpacked form, so that rounding,
which works on the bits, can be told by the unpacked form: a positive number goes to the nearest
whole one. A rounded number therefore exceeds `k` exactly when the number is at least `k + ½`,
whatever kind of double it is.
-/

namespace ImpedanceBench.Double

open Float.Model UnpackedFloat

/-! The three fields of the bits. -/

lemma toNat_exponentBits (b : UInt64) :
    ((b >>> 52) &&& 0x7ff).toNat = (@unpackExponent .binary64 b.toBitVec).toNat := by
  have h : (@unpackExponent .binary64 b.toBitVec).toNat = b.toNat >>> 52 % 2 ^ 11 := by
    unfold unpackExponent
    rw [BitVec.toNat_cast, BitVec.extractLsb_toNat]
    rfl
  rw [h, UInt64.toNat_and, UInt64.toNat_shiftRight]
  exact Nat.and_two_pow_sub_one_eq_mod _ 11

lemma toNat_mantissaBits (b : UInt64) :
    (b &&& 0xfffffffffffff).toNat = (@unpackMantissa .binary64 b.toBitVec).toNat := by
  have h : (@unpackMantissa .binary64 b.toBitVec).toNat = b.toNat >>> 0 % 2 ^ 52 := by
    unfold unpackMantissa
    rw [BitVec.toNat_cast, BitVec.extractLsb_toNat]
    rfl
  rw [h, UInt64.toNat_and]
  exact Nat.and_two_pow_sub_one_eq_mod _ 52

lemma signBit_eq (b : UInt64) :
    (b >>> 63 != 0) = (Sign.ofBitVec (@unpackSign .binary64 b.toBitVec) == .negative) := by
  have h : (@unpackSign .binary64 b.toBitVec).toNat = (b >>> 63).toNat := by
    unfold unpackSign
    rw [BitVec.toNat_cast, BitVec.extractLsb_toNat, UInt64.toNat_shiftRight]
    change b.toNat >>> 63 % 2 ^ 1 = b.toNat >>> 63
    have := b.toNat_lt
    rw [Nat.shiftRight_eq_div_pow]
    omega
  have hzero : b >>> 63 = 0 ↔ @unpackSign .binary64 b.toBitVec = 0#1 := by
    rw [← UInt64.toNat_inj, ← h, ← BitVec.toNat_inj]
    rfl
  unfold Sign.ofBitVec
  by_cases hs : b >>> 63 = 0
  · rw [if_pos (hzero.1 hs), hs]
    rfl
  · rw [if_neg (hs ∘ hzero.2)]
    simpa using hs

/-- The parts of an unpacked number. -/
def partsOf : UnpackedFloat → Parts
  | .notANumber => .undefined
  | .infinity s => .infinite (s == .negative)
  | .zero s => .finite (s == .negative) 0 (-1074)
  | .finite s m e _ => .finite (s == .negative) m e

/-- The bits say what the number is. -/
theorem parts_eq (x : Float) : parts x = partsOf x.toModel.unpack := by
  have hbits : x.toBits = x.toModel.toBits := rfl
  unfold parts Float.Model.unpack UnpackedFloat.unpack
  rw [hbits]
  generalize x.toModel.toBits = b
  have hmantissa := toNat_mantissaBits b
  have hexponent := toNat_exponentBits b
  have hlast : (@unpackExponent .binary64 b.toBitVec).toNat = 0x7ff ↔
      @unpackExponent .binary64 b.toBitVec = -1#11 := by
    rw [← BitVec.toNat_inj]
    rfl
  have hfirst : (@unpackExponent .binary64 b.toBitVec).toNat = 0 ↔
      @unpackExponent .binary64 b.toBitVec = 0#11 := by
    rw [← BitVec.toNat_inj]
    rfl
  have hzero : b &&& 0xfffffffffffff = 0 ↔ @unpackMantissa .binary64 b.toBitVec = 0#52 := by
    rw [← UInt64.toNat_inj, hmantissa, ← BitVec.toNat_inj]
    rfl
  dsimp only
  rw [signBit_eq, hexponent]
  by_cases h : @unpackExponent .binary64 b.toBitVec = -1#11
  · rw [if_pos (hlast.2 h), if_pos h]
    by_cases hm : @unpackMantissa .binary64 b.toBitVec = 0#52
    · rw [if_pos (hzero.2 hm), if_pos hm]
      rfl
    · rw [if_neg (hm ∘ hzero.1), if_neg hm]
      rfl
  · rw [if_neg (h ∘ hlast.1), if_neg h]
    by_cases h' : @unpackExponent .binary64 b.toBitVec = 0#11
    · rw [if_pos (hfirst.2 h'), if_pos h', hmantissa]
      by_cases hm : @unpackMantissa .binary64 b.toBitVec = 0#52
      · rw [dif_pos hm, hm]
        rfl
      · rw [dif_neg hm, partsOf, h']
        rfl
    · rw [if_neg (h' ∘ hfirst.1), if_neg h', partsOf, exponentBias_binary64, toNat_one_append]
      have hlt : (@unpackMantissa .binary64 b.toBitVec).toNat < 2 ^ 52 := BitVec.isLt _
      have hsum : ((b &&& 0xfffffffffffff) + 0x10000000000000).toNat =
          2 ^ 52 + (@unpackMantissa .binary64 b.toBitVec).toNat := by
        have hword : UInt64.toNat 0x10000000000000 = 2 ^ 52 := rfl
        rw [UInt64.toNat_add, hmantissa, hword, Nat.mod_eq_of_lt (by omega), Nat.add_comm]
      rw [hsum]
      rfl

/-! The words of a rounded number. -/

lemma toNat_toUInt64_eq (x : Float) : x.toUInt64.toNat =
    min (wholeBelow (UInt64.size - 1) x.toModel.unpack) (UInt64.size - 1) := toNat_toUInt64 x

lemma toNat_toUInt32_eq (x : Float) : x.toUInt32.toNat =
    min (wholeBelow (UInt32.size - 1) x.toModel.unpack) (UInt32.size - 1) := by
  change (UInt32.ofNatClamp _).toNat = _
  unfold UInt32.ofNatClamp wholeBelow
  split <;> rw [UInt32.toNat_ofNatLT] <;> omega

variable {top : ℤ}

lemma wholeBelow_of_sign {u : UnpackedFloat} (h : sign? u = some .negative) :
    wholeBelow top u = 0 := by
  rcases u with s | _ | s | ⟨s, m, e, hm⟩ <;> cases h
  · rfl
  · rfl
  · change (-(_ : ℕ) : ℤ).toNat = 0
    omega

lemma sign?_neg (x : Float) : sign? (-x).toModel.unpack = (sign? x.toModel.unpack).map (- ·) := by
  change sign? (Float.Model.pack x.toModel.unpack.neg).unpack = _
  rw [sign?_pack]
  cases x.toModel.unpack <;> rfl

lemma sign?_ofNat {n : ℕ} (hn : n < 2 ^ 53) : sign? (ofNat n).toModel.unpack = some .positive := by
  rcases Nat.eq_zero_or_pos n with rfl | hpos
  · rfl
  · obtain ⟨hm, hunpack, -⟩ := unpack_ofNat hpos hn
    rw [hunpack]
    rfl

/-- The whole number nearest to so many units of the least positive double; a half goes up. -/
def nearest (u : ℕ) : ℕ := (2 * u + 2 ^ 1074) / (2 * 2 ^ 1074)

lemma lt_of_quotient {m k : ℕ} (hm : m < 2 ^ 53) : (m + 1 <<< k) >>> (k + 1) < 2 ^ 53 := by
  rw [Nat.shiftRight_eq_div_pow, Nat.shiftLeft_eq, one_mul, pow_succ,
    Nat.div_lt_iff_lt_mul (by positivity)]
  have := Nat.two_pow_pos k
  nlinarith

lemma quotient_zero (k : ℕ) : (0 + 1 <<< k) >>> (k + 1) = 0 := by
  rw [Nat.shiftRight_eq_div_pow, Nat.shiftLeft_eq, zero_add, one_mul]
  exact Nat.div_eq_of_lt (Nat.pow_lt_pow_succ (by omega))

lemma nearest_eq {m k : ℕ} (hk : k < 1074) :
    nearest (units m (Int.negSucc k)) = (m + 1 <<< k) >>> (k + 1) := by
  have hexp : (Int.negSucc k + 1074).toNat = 1073 - k := by omega
  have hlow : 1074 - k = 1073 - k + 1 := by omega
  have hhigh : 1074 = 1074 - k + k := by omega
  have hnum : 2 * (m * 2 ^ (1073 - k)) = 2 ^ (1074 - k) * m := by
    rw [hlow, pow_succ]
    ring
  have hunit : 2 ^ 1074 = 2 ^ (1074 - k) * 2 ^ k := by rw [← pow_add, ← hhigh]
  rw [nearest, units, hexp, hnum, hunit, Nat.shiftRight_eq_div_pow, Nat.shiftLeft_eq, one_mul,
    ← mul_add, mul_left_comm, Nat.mul_div_mul_left _ _ (Nat.two_pow_pos _), pow_succ, mul_comm 2]

lemma nearest_whole (m n : ℕ) :
    nearest (units m (Int.ofNat n)) = units m (Int.ofNat n) / 2 ^ 1074 := by
  have hexp : (Int.ofNat n + 1074).toNat = n + 1074 := by
    change ((n : ℤ) + 1074).toNat = _
    omega
  have hunits : units m (Int.ofNat n) = m * 2 ^ n * 2 ^ 1074 := by
    rw [units, hexp, pow_add, mul_assoc]
  obtain ⟨p, hp, hpos⟩ : ∃ p, 2 ^ 1074 = p ∧ 0 < p := ⟨_, rfl, Nat.two_pow_pos _⟩
  rw [nearest, hunits, hp]
  have hnum : 2 * (m * 2 ^ n * p) + p = (2 * (m * 2 ^ n) + 1) * p := by ring
  rw [hnum, Nat.mul_div_mul_right _ _ hpos, Nat.mul_div_cancel _ hpos]
  omega

lemma lt_nearest_iff (k u : ℕ) : k < nearest u ↔ (2 * k + 1) * 2 ^ 1074 ≤ 2 * u := by
  obtain ⟨p, hp, hpos⟩ : ∃ p, 2 ^ 1074 = p ∧ 0 < p := ⟨_, rfl, Nat.two_pow_pos _⟩
  rw [nearest, hp, ← Nat.succ_le_iff, Nat.le_div_iff_mul_le (by omega)]
  constructor <;> intro h <;> nlinarith

/-! Rounding, by the parts of a number. -/

variable {x : Float}

lemma roundHalfAway_of_quotient {negative : Bool} {m k : ℕ}
    (h : parts x = .finite negative m (Int.negSucc k)) :
    roundHalfAway x = withSign negative (ofNat ((m + 1 <<< k) >>> (k + 1))) := by
  unfold roundHalfAway roundBy
  rw [h]
  rfl

lemma roundHalfAway_of_whole {negative : Bool} {m n : ℕ}
    (h : parts x = .finite negative m (Int.ofNat n)) : roundHalfAway x = x := by
  unfold roundHalfAway roundBy
  rw [h]

lemma roundHalfAway_of_infinite {negative : Bool} (h : parts x = .infinite negative) :
    roundHalfAway x = x := by
  unfold roundHalfAway roundBy
  rw [h]

lemma roundHalfAway_of_undefined (h : parts x = .undefined) : roundHalfAway x = x := by
  unfold roundHalfAway roundBy
  rw [h]

lemma sign?_withSign (negative : Bool) (y : Float) (hy : sign? y.toModel.unpack = some .positive) :
    sign? (withSign negative y).toModel.unpack =
      some (if negative then .negative else .positive) := by
  cases negative
  · exact hy
  · change sign? (-y).toModel.unpack = _
    rw [sign?_neg, hy]
    rfl

/-- Rounding keeps the sign. -/
lemma sign?_roundHalfAway (x : Float) :
    sign? (roundHalfAway x).toModel.unpack = sign? x.toModel.unpack := by
  have hparts := parts_eq x
  rcases hx : x.toModel.unpack with s | _ | s | ⟨s, m, e, hm⟩ <;> rw [hx] at hparts
  · rw [roundHalfAway_of_infinite hparts, hx]
  · rw [roundHalfAway_of_undefined hparts, hx]
  · rw [roundHalfAway_of_quotient hparts,
      sign?_withSign _ _ (sign?_ofNat (lt_of_quotient (by decide)))]
    cases s <;> rfl
  · rcases e with n | k
    · rw [roundHalfAway_of_whole hparts, hx]
    · rw [roundHalfAway_of_quotient hparts,
        sign?_withSign _ _ (sign?_ofNat (lt_of_quotient (canonical_of_unpack hx).lt))]
      cases s <;> rfl

/-- A positive number is rounded to the nearest whole one. -/
lemma wholeBelow_roundHalfAway {m : ℕ} {e : ℤ} {h : 0 < m}
    (hx : x.toModel.unpack = .finite .positive m e h) :
    wholeBelow top (roundHalfAway x).toModel.unpack = nearest (units m e) := by
  have hparts := parts_eq x
  have hc := canonical_of_unpack hx
  rw [hx] at hparts
  rcases e with n | k
  · rw [roundHalfAway_of_whole hparts, hx, wholeBelow_positive hc, nearest_whole]
  · have hleast := hc.least
    rw [roundHalfAway_of_quotient hparts, nearest_eq (by omega)]
    exact wholeBelow_ofNat (lt_of_quotient hc.lt)

/-! Thresholds. -/

lemma units_lt {m m' : ℕ} {e e' : ℤ} (h : Canonical m e) (h' : Canonical m' e')
    (hlt : e < e' ∨ e = e' ∧ m < m') : units m e < units m' e' := by
  rcases hlt with he | ⟨rfl, hm⟩
  · have hleast := h.least
    have hlt := h.lt
    have hm' := h'.leading (by omega)
    have hexp : (e' + 1074).toNat = (e + 1074).toNat + 1 + (e' - e - 1).toNat := by omega
    calc units m e < m' * 2 * 2 ^ (e + 1074).toNat :=
          Nat.mul_lt_mul_of_pos_right (by omega) (Nat.two_pow_pos _)
      _ = m' * 2 ^ ((e + 1074).toNat + 1) := by rw [pow_succ]; ring
      _ ≤ units m' e' := Nat.mul_le_mul_left _ (Nat.pow_le_pow_right (by omega) (by omega))
  · exact Nat.mul_lt_mul_of_pos_right hm (Nat.two_pow_pos _)

/-- Positive numbers compare as their units do. -/
lemma le_iff_units {y : Float} {m m' : ℕ} {e e' : ℤ} {h : 0 < m} {h' : 0 < m'}
    (hx : x.toModel.unpack = .finite .positive m e h)
    (hy : y.toModel.unpack = .finite .positive m' e' h') : x ≤ y ↔ units m e ≤ units m' e' := by
  have hplaces : x ≤ y ↔ e < e' ∨ e = e' ∧ m ≤ m' := by
    simp [le_iff, rank, hx, hy, place, Prod.Lex.toLex_le_toLex]
  rw [hplaces]
  constructor
  · exact (canonical_of_unpack hx).units_le (canonical_of_unpack hy)
  · intro hle
    by_contra hgt
    have := units_lt (canonical_of_unpack hy) (canonical_of_unpack hx) (by omega)
    omega

lemma not_le_of_place {half : Float} {m : ℕ} {e : ℤ} {h : 0 < m}
    (hhalf : half.toModel.unpack = .finite .positive m e h)
    (hx : ∀ a ∈ rank x, a ≤ toLex (0, toLex (0, 0))) : ¬ half ≤ x := by
  intro hle
  obtain ⟨a, ha, b, hb, hab⟩ := le_iff.1 hle
  have ha : a = toLex (1, toLex (e, (m : ℤ))) := by
    rw [rank, hhalf] at ha
    exact (Option.some.inj ha).symm
  have := hab.trans (hx b hb)
  rw [ha, Prod.Lex.toLex_le_toLex] at this
  omega

/-- **Where rounding rises.** A number is rounded to more than `k` when it is at least `k + ½`. -/
theorem lt_wholeBelow_roundHalfAway_iff (top : ℤ) {k : ℕ} (hk : k < top.toNat) {half : Float}
    {m : ℕ} {e : ℤ} {h : 0 < m} (hhalf : half.toModel.unpack = .finite .positive m e h)
    (hunits : 2 * units m e = (2 * k + 1) * 2 ^ 1074) (x : Float) :
    k < wholeBelow top (roundHalfAway x).toModel.unpack ↔ half ≤ x := by
  have hparts := parts_eq x
  have hsign := sign?_roundHalfAway x
  rcases hx : x.toModel.unpack with (_ | _) | _ | (_ | _) | ⟨_ | _, m', e', hm'⟩ <;>
    rw [hx] at hparts hsign
  case finite.positive =>
    rw [wholeBelow_roundHalfAway hx, lt_nearest_iff, le_iff_units hhalf hx, ← hunits]
    omega
  case infinity.positive =>
    rw [roundHalfAway_of_infinite hparts, hx]
    have hle : half ≤ x := by simp [le_iff, rank, hx, hhalf, place, Prod.Lex.toLex_le_toLex]
    exact iff_of_true hk hle
  case notANumber =>
    rw [roundHalfAway_of_undefined hparts, hx]
    exact iff_of_false (Nat.not_lt_zero _) (not_le_of_place hhalf (by simp [rank, hx, place]))
  case zero.positive =>
    rw [roundHalfAway_of_quotient hparts, quotient_zero]
    exact iff_of_false (Nat.not_lt_zero _) (not_le_of_place hhalf (by simp [rank, hx, place]))
  all_goals
    rw [wholeBelow_of_sign hsign]
    refine iff_of_false (Nat.not_lt_zero _) (not_le_of_place hhalf ?_)
    simp [rank, hx, place, Prod.Lex.toLex_le_toLex]

lemma unpack_half : ∃ h, (0.5 : Float).toModel.unpack = .finite .positive (2 ^ 52) (-53) h :=
  ⟨by decide, rfl⟩

lemma unpack_threeHalves :
    ∃ h, (1.5 : Float).toModel.unpack = .finite .positive (3 * 2 ^ 51) (-52) h :=
  ⟨by decide, rfl⟩

/-- A number rounds to at least one from one half on. -/
theorem one_le_toUInt32_round (x : Float) :
    1 ≤ (Scalar.toUInt32 (Scalar.round x)).toNat ↔ (0.5 : Float) ≤ x := by
  obtain ⟨h, hhalf⟩ := unpack_half
  have hunits : 2 * units (2 ^ 52) (-53) = (2 * 0 + 1) * 2 ^ 1074 := by
    have hexp : 1074 = 1 + 52 + (-53 + 1074 : ℤ).toNat := rfl
    rw [units, hexp, pow_add, pow_add, mul_zero, zero_add, one_mul, pow_one, mul_assoc]
  rw [← lt_wholeBelow_roundHalfAway_iff (UInt32.size - 1) (by decide) hhalf hunits]
  change 1 ≤ (roundHalfAway x).toUInt32.toNat ↔ _
  rw [toNat_toUInt32_eq, Nat.le_min]
  exact and_iff_left (by decide)

/-- A number rounds to at least two from one and a half on. -/
theorem two_le_toUInt64_round (x : Float) :
    2 ≤ (Scalar.toUInt64 (Scalar.round x)).toNat ↔ (1.5 : Float) ≤ x := by
  obtain ⟨h, hhalf⟩ := unpack_threeHalves
  have hunits : 2 * units (3 * 2 ^ 51) (-52) = (2 * 1 + 1) * 2 ^ 1074 := by
    have hexp : 1074 = 1 + 51 + (-52 + 1074 : ℤ).toNat := rfl
    rw [units, hexp, pow_add, pow_add]
    ring
  rw [← lt_wholeBelow_roundHalfAway_iff (UInt64.size - 1) (by decide) hhalf hunits]
  change 2 ≤ (roundHalfAway x).toUInt64.toNat ↔ _
  rw [toNat_toUInt64_eq, Nat.le_min]
  exact and_iff_left (by decide)

end ImpedanceBench.Double

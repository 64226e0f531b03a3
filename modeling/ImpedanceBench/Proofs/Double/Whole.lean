import ImpedanceBench.Proofs.Double.Packing

/-!
Doubles as whole numbers. The whole part of a number does not fall when the number rises, and a
whole number up to `2^53` is its own whole part, so a bound on a double is a bound on the count
that is taken from it.
-/

namespace ImpedanceBench.Double

open Float.Model UnpackedFloat

/-- A number `m · 2^e` in units of the least positive double. -/
def units (m : ℕ) (e : ℤ) : ℕ := m * 2 ^ (e + 1074).toNat

/-- Canonical numbers compare by their exponents, and by their mantissas when these agree. -/
lemma Canonical.units_le {m m' : ℕ} {e e' : ℤ} (h : Canonical m e) (h' : Canonical m' e')
    (hle : e < e' ∨ e = e' ∧ m ≤ m') : units m e ≤ units m' e' := by
  have hleast := h.least
  have hlt := h.lt
  unfold units
  rcases hle with he | ⟨rfl, hm⟩
  · have hm' := h'.leading (by omega)
    have hexp : (e' + 1074).toNat = (e + 1074).toNat + 1 + (e' - e - 1).toNat := by omega
    calc m * 2 ^ (e + 1074).toNat ≤ m' * 2 * 2 ^ (e + 1074).toNat :=
          Nat.mul_le_mul_right _ (by omega)
      _ = m' * 2 ^ ((e + 1074).toNat + 1) := by rw [pow_succ]; ring
      _ ≤ m' * 2 ^ (e' + 1074).toNat :=
          Nat.mul_le_mul_left _ (Nat.pow_le_pow_right (by omega) (by omega))
  · exact Nat.mul_le_mul_right _ hm

lemma mantissa_shiftRight (em : ExtendedMantissa) (n : ℕ) :
    (em >>> n).mantissa = em.mantissa / 2 ^ n := by
  induction n with
  | zero => exact (Nat.div_one _).symm
  | succ n ih =>
    change (em >>> n).mantissa / 2 = _
    rw [ih, Nat.div_div_eq_div_mul, pow_succ]

/-- The whole part of a number. -/
lemma roundToInt_eq {m : ℕ} {e : ℤ} (h : Canonical m e) (s : Sign) :
    roundToInt s m e = s.apply (units m e / 2 ^ 1074 : ℕ) := by
  have hleast := h.least
  unfold roundToInt decreaseExponent shiftToExponent
  dsimp only
  rw [mantissa_shiftRight]
  change s.apply ((m <<< (e - 0).toNat / 2 ^ _ : ℕ) : ℤ) = _
  congr 2
  rw [Nat.shiftLeft_eq, units]
  rcases le_total 0 e with he | he
  · have hshift : (0 - (e - ((e - 0).toNat : ℤ))).toNat = 0 := by omega
    have hexp : (e + 1074).toNat = (e - 0).toNat + 1074 := by omega
    rw [hshift, hexp, pow_add, ← mul_assoc, Nat.mul_div_cancel _ (Nat.two_pow_pos _), pow_zero,
      Nat.div_one]
  · have hshift : (0 - (e - ((e - 0).toNat : ℤ))).toNat = (-e).toNat := by omega
    have hexp : 1074 = (-e).toNat + (e + 1074).toNat := by omega
    have hzero : (e - 0).toNat = 0 := by omega
    rw [hshift, hzero, pow_zero, mul_one]
    conv_rhs => rw [hexp, pow_add]
    rw [Nat.mul_div_mul_right _ _ (Nat.two_pow_pos _)]

/-- The whole part of a number that is not negative; the positive infinity has `top`. -/
def wholeBelow (top : ℤ) (u : UnpackedFloat) : ℕ := (u.toInt 0 top).toNat

lemma wholeBelow_positive {top : ℤ} {m : ℕ} {e : ℤ} {h : 0 < m} (hc : Canonical m e) :
    wholeBelow top (.finite .positive m e h) = units m e / 2 ^ 1074 := by
  change (roundToInt .positive m e).toNat = _
  rw [roundToInt_eq hc]
  exact Int.toNat_natCast _

lemma toNat_ofNatClamp (n : ℕ) : (UInt64.ofNatClamp n).toNat = min n (UInt64.size - 1) := by
  unfold UInt64.ofNatClamp
  split
  · rw [UInt64.toNat_ofNatLT]
    omega
  · rw [UInt64.toNat_ofNatLT]
    omega

/-- The whole part that a word can hold at most. -/
def whole (u : UnpackedFloat) : ℕ := (u.toInt 0 (UInt64.size - 1)).toNat

lemma toNat_toUInt64 (x : Float) :
    x.toUInt64.toNat = min (whole x.toModel.unpack) (UInt64.size - 1) := toNat_ofNatClamp _

lemma whole_positive {m : ℕ} {e : ℤ} {h : 0 < m} (hc : Canonical m e) :
    whole (.finite .positive m e h) = units m e / 2 ^ 1074 := wholeBelow_positive hc

lemma whole_negative {m : ℕ} {e : ℤ} {h : 0 < m} (hc : Canonical m e) :
    whole (.finite .negative m e h) = 0 := by
  change (roundToInt .negative m e).toNat = _
  rw [roundToInt_eq hc]
  change (-((units m e / 2 ^ 1074 : ℕ) : ℤ)).toNat = 0
  omega

lemma toUInt64_mono {x y : Float} (h : x ≤ y) : x.toUInt64.toNat ≤ y.toUInt64.toNat := by
  rw [toNat_toUInt64, toNat_toUInt64]
  have hle : x.toModel.unpack.le y.toModel.unpack = true := of_decide_eq_true h
  rcases hx : x.toModel.unpack with (_ | _) | _ | _ | ⟨_ | _, m, e, hm⟩
  case infinity.negative => exact Nat.zero_le _
  case zero => exact Nat.zero_le _
  case finite.negative =>
    rw [whole_negative (canonical_of_unpack hx)]
    exact Nat.zero_le _
  all_goals
    rcases hy : y.toModel.unpack with (_ | _) | _ | _ | ⟨_ | _, m', e', hm'⟩ <;>
      rw [hx, hy] at hle
  case finite.positive.infinity.positive => exact min_le_right _ _
  case finite.positive.finite.positive =>
    have hx := canonical_of_unpack hx
    have hy := canonical_of_unpack hy
    rw [whole_positive hx, whole_positive hy]
    refine min_le_min_right _ (Nat.div_le_div_right (hx.units_le hy ?_))
    rw [UnpackedFloat.le, UnpackedFloat.compare, Option.any_some, Ordering.isLE_then_iff_or] at hle
    simpa [compare_lt_iff_lt, Nat.isLE_compare] using hle
  all_goals cases hle

/-- A canonical number is rounded to itself. -/
lemma roundWithAccuracy_of_log2 (s : Sign) {m : ℕ} {e : ℤ} (hpos : 0 < m) (hm : m.log2 = 52)
    (he : -1074 ≤ e) : roundWithAccuracy .binary64 s m e .exact = .finite s m e hpos := by
  have htarget : Format.binary64.targetExponent (totalExponent m e) = e := by
    simp only [Format.targetExponent, totalExponent, hm, Format.mantissaBits, Format.minExponent]
    omega
  have hshift (em : ExtendedMantissa) : em >>> (0 : ℕ) = em := rfl
  simp [roundWithAccuracy, shiftToTargetExponent, htarget, shiftToExponent, hshift,
    ExtendedMantissa.ofMantissaAndAccuracy, ExtendedMantissa.roundedMantissa,
    ExtendedMantissa.accuracy, Accuracy.roundToNearestEven, hpos.ne']

/-- A whole number below `2^53`, with a mantissa of full length. -/
lemma unpack_ofNat {n : ℕ} (hpos : 0 < n) (hn : n < 2 ^ 53) : ∃ h,
    (ofNat n).toModel.unpack = .finite .positive (n * 2 ^ (52 - n.log2)) (n.log2 - 52) h ∧
      Canonical (n * 2 ^ (52 - n.log2)) (n.log2 - 52) := by
  have hlog : n.log2 < 53 := (Nat.log2_lt hpos.ne').2 hn
  have hlow : 2 ^ 52 ≤ n * 2 ^ (52 - n.log2) := by
    calc 2 ^ 52 = 2 ^ n.log2 * 2 ^ (52 - n.log2) := by rw [← pow_add]; congr 1; omega
      _ ≤ n * 2 ^ (52 - n.log2) := Nat.mul_le_mul_right _ (Nat.log2_self_le hpos.ne')
  have hhigh : n * 2 ^ (52 - n.log2) < 2 ^ 53 := by
    calc n * 2 ^ (52 - n.log2) < 2 ^ (n.log2 + 1) * 2 ^ (52 - n.log2) :=
          Nat.mul_lt_mul_of_pos_right Nat.lt_log2_self (Nat.two_pow_pos _)
      _ = 2 ^ 53 := by rw [← pow_add]; congr 1; omega
  have hcanonical : Canonical (n * 2 ^ (52 - n.log2)) (n.log2 - 52) :=
    ⟨hhigh, by omega, by omega, fun _ => hlow⟩
  have hround : UnpackedFloat.round .binary64 .positive n 0 =
      .finite .positive (n * 2 ^ (52 - n.log2)) (n.log2 - 52) (by omega) := by
    have htarget : Format.binary64.targetExponent (totalExponent n 0) = n.log2 - 52 := by
      simp only [Format.targetExponent, totalExponent, Format.mantissaBits, Format.minExponent]
      omega
    have hshift : (0 - ((n.log2 : ℤ) - 52)).toNat = 52 - n.log2 := by omega
    have hexp : (0 : ℤ) - ((52 - n.log2 : ℕ) : ℤ) = n.log2 - 52 := by omega
    unfold UnpackedFloat.round decreaseExponent
    simp only [htarget, hshift, hexp, Nat.shiftLeft_eq]
    exact roundWithAccuracy_of_log2 _ _ ((Nat.log2_eq_iff (by omega)).2 ⟨hlow, hhigh⟩) (by omega)
  refine ⟨by omega, ?_, hcanonical⟩
  have hword : n >>> 64 = 0 := Nat.shiftRight_eq_zero _ _ (by omega)
  have hnat : (UInt64.ofNat n).toNat = n := UInt64.toNat_ofNat_of_lt' (by change n < 2 ^ 64; omega)
  have hcompare : compare (n : ℤ) 0 = .gt := compare_gt_iff_gt.2 (by omega)
  rw [ofNat, if_pos hword]
  change (Float.Model.pack
    (normalize .binary64 ((UInt64.ofNat n).toNat : ℤ) 0 .positive)).unpack = _
  rw [hnat, UnpackedFloat.normalize, hcompare]
  change (Float.Model.pack (UnpackedFloat.round .binary64 .positive n 0)).unpack = _
  rw [hround, unpack_pack hlow hcanonical]

lemma wholeBelow_ofNat {top : ℤ} {n : ℕ} (hn : n < 2 ^ 53) :
    wholeBelow top (ofNat n).toModel.unpack = n := by
  rcases Nat.eq_zero_or_pos n with rfl | hpos
  · rfl
  obtain ⟨hm, hunpack, hcanonical⟩ := unpack_ofNat hpos hn
  have hexp : 1074 = 52 - n.log2 + ((n.log2 - 52 : ℤ) + 1074).toNat := by
    have hlog : n.log2 < 53 := (Nat.log2_lt hpos.ne').2 hn
    omega
  rw [hunpack, wholeBelow_positive hcanonical, units, mul_assoc, ← pow_add, ← hexp,
    Nat.mul_div_cancel _ (Nat.two_pow_pos _)]

/-- Counting is exact up to `2^53`. -/
lemma toNat_toUInt64_ofNat {n : ℕ} (hn : n ≤ 2 ^ 53) : (ofNat n).toUInt64.toNat = n := by
  rcases hn.lt_or_eq with hn | rfl
  · have hwhole : whole (ofNat n).toModel.unpack = n := wholeBelow_ofNat hn
    rw [toNat_toUInt64, hwhole]
    change min n (2 ^ 64 - 1) = n
    omega
  · decide +kernel

end ImpedanceBench.Double

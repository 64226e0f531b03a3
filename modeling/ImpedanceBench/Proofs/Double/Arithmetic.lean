import ImpedanceBench.Proofs.Double.Nearest

/-!
The four operations and the counts. Each result is a nearest double to what the operation gives in
real numbers, so it does not pass a double that the exact result does not pass, and it is exact
where the exact result is a double.
-/

namespace ImpedanceBench.Double

open Float.Model UnpackedFloat

variable {x y : Float} {a b r : ℝ}

/-- A double rounds itself. -/
lemma rounds_value (h : value? x = some a) : Rounds a x := by
  refine .finite a h (fun y w _ => ?_) ?_
  · rw [sub_self, abs_zero]
    exact abs_nonneg _
  · rw [sub_self, abs_zero]
    exact add_nonneg (by positivity) (half_pos least_pos).le

lemma value_cases (h : value? x = some a) : (∃ s, x.toModel.unpack = .zero s ∧ a = 0) ∨
    ∃ s m e hm, x.toModel.unpack = .finite s m e hm ∧ Canonical m e ∧
      a = signed (s == .negative) (m * 2 ^ e) := by
  obtain ⟨i, hi, rfl⟩ := worth_of_value h
  rcases worth_cases hi with ⟨s, hx, rfl⟩ | ⟨m, e, hm, hx, rfl⟩ | ⟨m, e, hm, hx, rfl⟩
  · exact .inl ⟨s, hx, by simp⟩
  · have hc := canonical_of_unpack hx
    exact .inr ⟨_, m, e, hm, hx, hc, by rw [mul_two_zpow hc.least]; rfl⟩
  · have hc := canonical_of_unpack hx
    exact .inr ⟨_, m, e, hm, hx, hc, by rw [mul_two_zpow hc.least]; simp [signed]⟩

lemma describes_exact (m : ℕ) : Describes (.ofMantissaAndAccuracy m .exact) m :=
  ⟨0, le_rfl, by norm_num, by simp [ExtendedMantissa.ofMantissaAndAccuracy],
    by simp [ExtendedMantissa.ofMantissaAndAccuracy]⟩

lemma rounds_of_unpack_zero {s : Sign} (h : x.toModel.unpack = .zero s) : Rounds 0 x :=
  rounds_value (by simp [value?, h, worth?])

lemma signed_mul_signed (s s' : Sign) (a b : ℝ) :
    signed (s == .negative) a * signed (s' == .negative) b =
      signed (s * s' == .negative) (a * b) := by
  cases s <;> cases s'
  · exact neg_mul_neg a b
  · exact neg_mul a b
  · exact mul_neg a b
  · rfl

lemma signed_div_signed (s s' : Sign) (a b : ℝ) :
    signed (s == .negative) a / signed (s' == .negative) b =
      signed (s / s' == .negative) (a / b) := by
  cases s <;> cases s'
  · exact neg_div_neg_eq a b
  · exact neg_div b a
  · exact div_neg a
  · rfl

theorem rounds_mul (hx : value? x = some a) (hy : value? y = some b) : Rounds (a * b) (x * y) := by
  have hmul : (x * y).toModel.unpack = (Float.Model.pack
      (UnpackedFloat.mul .binary64 x.toModel.unpack y.toModel.unpack)).unpack := rfl
  rcases value_cases hx with ⟨s, hs, rfl⟩ | ⟨s, m, e, hm, hs, hc, rfl⟩ <;>
    rcases value_cases hy with ⟨s', hs', rfl⟩ | ⟨s', m', e', hm', hs', hc', rfl⟩ <;>
    rw [hs, hs'] at hmul
  case inl.inl =>
    rw [zero_mul]
    exact rounds_of_unpack_zero (hmul.trans (unpack_pack_zero _))
  case inl.inr =>
    rw [zero_mul]
    exact rounds_of_unpack_zero (hmul.trans (unpack_pack_zero _))
  case inr.inl =>
    rw [mul_zero]
    exact rounds_of_unpack_zero (hmul.trans (unpack_pack_zero _))
  case inr.inr =>
    have hproduct : (m : ℝ) * 2 ^ e * (m' * 2 ^ e') = (m * m' : ℕ) * 2 ^ (e + e') := by
      rw [zpow_add₀ two_ne_zero]
      push_cast
      ring
    -- The product is long enough unless both factors have the least exponent.
    have hexponent : e + e' ≤ Format.binary64.targetExponent (totalExponent (m * m') (e + e')) := by
      rw [targetExponent_eq]
      have hlead := hc.leading
      have hlead' := hc'.leading
      have hlog : -1074 < e ∨ -1074 < e' → 52 ≤ (m * m').log2 := by
        intro h
        rw [Nat.le_log2 (Nat.mul_pos hm hm').ne']
        rcases h with h | h
        · exact (hlead h).trans (Nat.le_mul_of_pos_right m hm')
        · exact (hlead' h).trans (Nat.le_mul_of_pos_left m' hm)
      have := hc.least
      have := hc'.least
      omega
    rw [signed_mul_signed, hproduct]
    have := rounds_roundWithAccuracy (s * s') (describes_exact (m * m')) hexponent
    have hxy : x * y = Float.ofModel (Float.Model.pack
        (UnpackedFloat.mul .binary64 x.toModel.unpack y.toModel.unpack)) := rfl
    rw [hxy, hs, hs']
    exact this

lemma log2_mul_two_pow {m : ℕ} (hm : m ≠ 0) (n : ℕ) : (m * 2 ^ n).log2 = m.log2 + n := by
  induction n with
  | zero => rw [pow_zero, mul_one, add_zero]
  | succ n ih =>
    rw [pow_succ, ← mul_assoc, mul_comm _ 2, Nat.log2_two_mul (by positivity), ih, add_assoc]

/-- A whole number of units of a power of two. -/
lemma rounds_round (s : Sign) {m : ℕ} (hm : 0 < m) (e : ℤ) :
    Rounds (signed (s == .negative) (m * 2 ^ e))
      (Float.ofModel (Float.Model.pack (UnpackedFloat.round .binary64 s m e))) := by
  obtain ⟨n, hn⟩ : ∃ n, (e - Format.binary64.targetExponent (totalExponent m e)).toNat = n :=
    ⟨_, rfl⟩
  have hlog := log2_mul_two_pow hm.ne' n
  have hscaled : (m : ℝ) * 2 ^ e = (m * 2 ^ n : ℕ) * 2 ^ (e - n) := by
    rw [zpow_sub₀ two_ne_zero, zpow_natCast]
    push_cast
    field_simp
  have hexponent : e - n ≤
      Format.binary64.targetExponent (totalExponent (m * 2 ^ n) (e - n)) := by
    rw [targetExponent_eq] at hn ⊢
    rw [hlog]
    push_cast
    omega
  rw [hscaled]
  have := rounds_roundWithAccuracy s (describes_exact (m * 2 ^ n)) hexponent
  unfold UnpackedFloat.round decreaseExponent
  simp only [hn, Nat.shiftLeft_eq]
  exact this

lemma rounds_normalize (k e : ℤ) (s : Sign) :
    Rounds (k * 2 ^ e) (Float.ofModel (Float.Model.pack (UnpackedFloat.normalize .binary64 k e s))) := by
  unfold UnpackedFloat.normalize
  rcases lt_trichotomy k 0 with hk | rfl | hk
  · rw [compare_lt_iff_lt.2 hk]
    have hcast : (k : ℝ) = -(-k).toNat := by
      have : ((-k).toNat : ℤ) = -k := by omega
      have : (((-k).toNat : ℤ) : ℝ) = ((-k : ℤ) : ℝ) := by rw [this]
      push_cast at this
      linarith
    have := rounds_round .negative (m := (-k).toNat) (by omega) e
    rw [hcast, neg_mul]
    exact this
  · rw [Int.cast_zero, zero_mul]
    exact rounds_of_unpack_zero (unpack_pack_zero s)
  · rw [compare_gt_iff_gt.2 hk]
    have hcast : (k : ℝ) = k.toNat := by
      have : (k.toNat : ℤ) = k := by omega
      exact_mod_cast this.symm
    have := rounds_round .positive (m := k.toNat) (by omega) e
    rw [hcast]
    exact this

/-- A finite number in units of a smaller power of two. -/
lemma apply_shiftLeft (s : Sign) (m : ℕ) {e lo : ℤ} (h : lo ≤ e) :
    ((s.apply (m <<< (e - lo).toNat : ℕ) : ℤ) : ℝ) * 2 ^ lo =
      signed (s == .negative) (m * 2 ^ e) := by
  have hscaled : ((m <<< (e - lo).toNat : ℕ) : ℝ) * 2 ^ lo = m * 2 ^ e := by
    obtain ⟨n, rfl⟩ : ∃ n : ℕ, e = lo + n := ⟨(e - lo).toNat, by omega⟩
    rw [add_sub_cancel_left, Int.toNat_natCast, Nat.shiftLeft_eq, zpow_add₀ two_ne_zero,
      zpow_natCast]
    push_cast
    ring
  rw [← hscaled]
  cases s
  · change ((-(m <<< (e - lo).toNat : ℕ) : ℤ) : ℝ) * 2 ^ lo = -_
    rw [Int.cast_neg, neg_mul, Int.cast_natCast]
  · change (((m <<< (e - lo).toNat : ℕ) : ℤ) : ℝ) * 2 ^ lo = _
    rw [Int.cast_natCast]
    rfl

theorem rounds_add (hx : value? x = some a) (hy : value? y = some b) : Rounds (a + b) (x + y) := by
  have hadd : x + y = Float.ofModel (Float.Model.pack
      (UnpackedFloat.add .binary64 x.toModel.unpack y.toModel.unpack)) := rfl
  rcases value_cases hx with ⟨s, hs, rfl⟩ | ⟨s, m, e, hm, hs, hc, rfl⟩ <;>
    rcases value_cases hy with ⟨s', hs', rfl⟩ | ⟨s', m', e', hm', hs', hc', rfl⟩
  case inl.inl =>
    rw [hadd, hs, hs', add_zero]
    cases s <;> cases s' <;> exact rounds_of_unpack_zero (unpack_pack_zero _)
  case inl.inr =>
    have hxy : x + y = y := by
      rw [hadd, hs, hs']
      change Float.ofModel (Float.Model.pack (.finite s' m' e' hm')) = y
      rw [← hs', pack_unpack]
    rw [hxy, zero_add]
    exact rounds_value hy
  case inr.inl =>
    have hxy : x + y = x := by
      rw [hadd, hs, hs']
      change Float.ofModel (Float.Model.pack (.finite s m e hm)) = x
      rw [← hs, pack_unpack]
    rw [hxy, add_zero]
    exact rounds_value hx
  case inr.inr =>
    have hsum := rounds_normalize (s.apply (m <<< (e - min e e').toNat : ℕ) +
      s'.apply (m' <<< (e' - min e e').toNat : ℕ)) (min e e') .positive
    rw [Int.cast_add, add_mul, apply_shiftLeft s m (min_le_left e e'),
      apply_shiftLeft s' m' (min_le_right e e')] at hsum
    rw [hadd, hs, hs']
    exact hsum

lemma sub_eq_add (x y : Float) : x - y = x + -y := by
  have hsub : UnpackedFloat.sub .binary64 x.toModel.unpack y.toModel.unpack =
      UnpackedFloat.add .binary64 x.toModel.unpack y.toModel.unpack.neg := by
    rcases x.toModel.unpack with s | _ | s | ⟨s, m, e, hm⟩ <;>
      rcases y.toModel.unpack with s' | _ | s' | ⟨s', m', e', hm'⟩ <;> try rfl
    cases s'
    · simp only [UnpackedFloat.sub, UnpackedFloat.add, UnpackedFloat.neg]
      rw [sub_eq_add_neg]
      exact congrArg (fun k => UnpackedFloat.normalize .binary64 (_ + k) _ _) (neg_neg _)
    · rfl
  change Float.ofModel (Float.Model.pack (UnpackedFloat.sub .binary64 x.toModel.unpack
    y.toModel.unpack)) = Float.ofModel (Float.Model.pack (UnpackedFloat.add .binary64
      x.toModel.unpack (-y).toModel.unpack))
  rw [unpack_neg, hsub]

theorem rounds_sub (hx : value? x = some a) (hy : value? y = some b) : Rounds (a - b) (x - y) := by
  rw [sub_eq_add, sub_eq_add_neg]
  exact rounds_add hx (value_neg hy)

/-- The residual bits of a quotient. -/
lemma describes_fraction (k : ℕ) {n d : ℕ} (h : n < d) :
    Describes (.ofMantissaAndAccuracy k (accuracyOfFraction n d)) (k + n / d) := by
  have hd : (0 : ℝ) < d := by exact_mod_cast Nat.zero_lt_of_lt h
  have hone : (n : ℝ) / d < 1 := (div_lt_one hd).2 (by exact_mod_cast h)
  unfold accuracyOfFraction
  rcases Nat.eq_zero_or_pos n with rfl | hpos
  · rw [if_pos rfl, Nat.cast_zero, zero_div, add_zero]
    exact describes_exact k
  have hfraction : 0 < (n : ℝ) / d := div_pos (by exact_mod_cast hpos) hd
  rw [if_neg hpos.ne']
  rcases lt_trichotomy (2 * n) d with hlt | heq | hgt
  · have hlow : (n : ℝ) / d < 1 / 2 := by
      rw [div_lt_div_iff₀ hd two_pos]
      exact_mod_cast (by omega : n * 2 < 1 * d)
    rw [compare_lt_iff_lt.2 hlt]
    exact ⟨n / d, hfraction.le, hlow, by simpa [ExtendedMantissa.ofMantissaAndAccuracy] using
      hfraction, by simp [ExtendedMantissa.ofMantissaAndAccuracy]⟩
  · have hhalf : (n : ℝ) / d = 1 / 2 := by
      rw [div_eq_div_iff hd.ne' two_ne_zero]
      exact_mod_cast (by omega : n * 2 = 1 * d)
    rw [compare_eq_iff_eq.2 heq, hhalf]
    exact ⟨0, le_rfl, by norm_num, by simp [ExtendedMantissa.ofMantissaAndAccuracy],
      by simp [ExtendedMantissa.ofMantissaAndAccuracy]⟩
  · have hhigh : 1 / 2 < (n : ℝ) / d := by
      rw [div_lt_div_iff₀ two_pos hd]
      exact_mod_cast (by omega : 1 * d < n * 2)
    rw [compare_gt_iff_gt.2 hgt]
    refine ⟨n / d - 1 / 2, by linarith, by linarith, ?_, ?_⟩
    · simpa [ExtendedMantissa.ofMantissaAndAccuracy] using hhigh
    · simp only [ExtendedMantissa.ofMantissaAndAccuracy, if_true]
      ring

theorem rounds_div (hx : value? x = some a) (hy : value? y = some b) (hb : b ≠ 0) :
    Rounds (a / b) (x / y) := by
  have hdiv : x / y = Float.ofModel (Float.Model.pack
      (UnpackedFloat.div .binary64 x.toModel.unpack y.toModel.unpack)) := rfl
  obtain ⟨s', hs', rfl⟩ | ⟨s', m', e', hm', hs', hc', rfl⟩ := value_cases hy
  · exact absurd rfl hb
  rcases value_cases hx with ⟨s, hs, rfl⟩ | ⟨s, m, e, hm, hs, hc, rfl⟩
  · rw [hdiv, hs, hs', zero_div]
    exact rounds_of_unpack_zero (unpack_pack_zero _)
  obtain ⟨lo, hlo⟩ : ∃ lo, min (e - e') (Format.binary64.targetExponent
    (totalExponent m e - totalExponent m' e')) = lo := ⟨_, rfl⟩
  obtain ⟨n, hn⟩ : ∃ n, (e - e' - lo).toNat = n := ⟨_, rfl⟩
  have hcore : divCore .binary64 m e m' e' =
      (m * 2 ^ n / m', lo, accuracyOfFraction (m * 2 ^ n % m') m') := by
    unfold divCore
    simp only [hlo, hn, Nat.shiftLeft_eq]
  have hquotient : ((m * 2 ^ n / m' : ℕ) + (m * 2 ^ n % m' : ℕ) / m' : ℝ) * 2 ^ lo =
      m * 2 ^ e / (m' * 2 ^ e') := by
    have hd : (m' : ℝ) ≠ 0 := Nat.cast_ne_zero.2 hm'.ne'
    have hwhole : (m : ℝ) * 2 ^ n = m' * (m * 2 ^ n / m' : ℕ) + (m * 2 ^ n % m' : ℕ) := by
      exact_mod_cast (Nat.div_add_mod (m * 2 ^ n) m').symm
    have hexp : e = e' + lo + n := by omega
    rw [hexp, zpow_add₀ two_ne_zero, zpow_add₀ two_ne_zero, zpow_natCast]
    field_simp
    linarith
  -- The dividend has been lengthened until the quotient has all the bits of a mantissa.
  have hexponent : lo ≤
      Format.binary64.targetExponent (totalExponent (m * 2 ^ n / m') lo) := by
    rw [targetExponent_eq]
    have hlow : lo ≤ max ((m.log2 : ℤ) + e - m'.log2 - e' - 53) (-1074) := by
      rw [← hlo]
      simp only [Format.targetExponent, totalExponent, Format.mantissaBits, Format.minExponent]
      omega
    by_cases hbottom : lo ≤ -1074
    · omega
    have hlength : m'.log2 + 1 + 52 ≤ (m * 2 ^ n).log2 := by
      rw [log2_mul_two_pow hm.ne']
      omega
    have hlog : 52 ≤ (m * 2 ^ n / m').log2 := by
      have hle : 2 ^ 52 ≤ m * 2 ^ n / m' := by
        rw [Nat.le_div_iff_mul_le hm']
        calc 2 ^ 52 * m' ≤ 2 ^ 52 * 2 ^ (m'.log2 + 1) :=
              Nat.mul_le_mul_left _ Nat.lt_log2_self.le
          _ = 2 ^ (m'.log2 + 1 + 52) := by rw [← pow_add, add_comm]
          _ ≤ 2 ^ (m * 2 ^ n).log2 := Nat.pow_le_pow_right two_pos hlength
          _ ≤ m * 2 ^ n := Nat.log2_self_le (by positivity)
      exact (Nat.le_log2 (by omega)).2 hle
    omega
  have hrounds := rounds_roundWithAccuracy (s / s')
    (describes_fraction (m * 2 ^ n / m') (Nat.mod_lt (m * 2 ^ n) hm')) hexponent
  rw [hquotient] at hrounds
  rw [signed_div_signed, hdiv, hs, hs']
  unfold UnpackedFloat.div
  simp only [hcore]
  exact hrounds

/-- Counts that a word holds are rounded to a nearest double. -/
theorem rounds_ofNat {n : ℕ} (hn : n < 2 ^ 64) : Rounds n (ofNat n) := by
  have hword : n >>> 64 = 0 := Nat.shiftRight_eq_zero _ _ hn
  have hnat : (UInt64.ofNat n).toNat = n := UInt64.toNat_ofNat_of_lt' hn
  have hrounds := rounds_normalize n 0 .positive
  rw [zpow_zero, mul_one, Int.cast_natCast] at hrounds
  rw [ofNat, if_pos hword]
  change Rounds n (Float.ofModel (Float.Model.pack
    (UnpackedFloat.normalize .binary64 ((UInt64.ofNat n).toNat : ℤ) 0 .positive)))
  rwa [hnat]

lemma Rounds.neg (h : Rounds r x) : Rounds (-r) (-x) := by
  rcases h with ⟨v, hv, hnearest, hclose⟩ | ⟨hx, hlarge⟩ | ⟨hx, hlarge⟩
  · refine .finite (-v) (value_neg hv) (fun y w hw => ?_) ?_
    · have := hnearest (-y) (-w) (value_neg hw)
      rw [neg_sub_neg, abs_sub_comm]
      refine this.trans_eq ?_
      rw [← abs_neg]
      congr 1
      ring
    · rwa [neg_sub_neg, abs_sub_comm, abs_neg]
  · exact .below (by rw [unpack_neg, hx]; rfl) (neg_lt_neg hlarge)
  · exact .above (by rw [unpack_neg, hx]; rfl) (by linarith)

/-- The rounded number without its sign is the number without its sign, rounded. -/
lemma Rounds.abs (h : Rounds r x) : Rounds |r| x.abs := by
  rcases h with ⟨v, hv, hnearest, hclose⟩ | ⟨hx, hlarge⟩ | ⟨hx, hlarge⟩
  · have hle : |(|v| - |r|)| ≤ |v - r| := abs_abs_sub_abs_le v r
    refine .finite |v| (value_abs hv) (fun y w hw => hle.trans ?_) ?_
    · rcases le_total 0 r with hr | hr
      · rw [abs_of_nonneg hr]
        exact hnearest y w hw
      · have := hnearest (-y) (-w) (value_neg hw)
        rw [abs_of_nonpos hr]
        rwa [← abs_neg (-w - r), neg_sub, sub_neg_eq_add, add_comm, ← sub_neg_eq_add] at this
    · rw [abs_abs]
      exact hle.trans hclose
  · exact .above (by rw [unpack_abs, hx]; rfl) (hlarge.trans_le (le_abs_self r))
  · exact .above (by rw [unpack_abs, hx]; rfl) ((lt_neg_of_lt_neg hlarge).trans_le (neg_le_abs r))

theorem rounds_ofInt {k : ℤ} (hk : |k| < 2 ^ 64) : Rounds k (ofInt k) := by
  obtain ⟨hlow, hhigh⟩ := abs_lt.1 hk
  rcases k with n | n
  · have hn : (n : ℤ) < 2 ^ 64 := hhigh
    exact rounds_ofNat (by omega)
  · have := (rounds_ofNat (n := n + 1) (by omega)).neg
    rw [ofInt, Int.negSucc_eq]
    push_cast at this ⊢
    exact this

/-! What is known of a rounded number. -/

lemma abs_value_le (h : value? x = some a) : |a| ≤ largest := by
  obtain ⟨s, hs, rfl⟩ | ⟨s, m, e, hm, hs, hc, rfl⟩ := value_cases h
  · rw [abs_zero, largest]
    exact mul_nonneg (by norm_num) (zpow_pos two_pos _).le
  · have hm : (m : ℝ) ≤ 2 ^ 53 - 1 := by
      have : m + 1 ≤ 2 ^ 53 := hc.lt
      have : ((m + 1 : ℕ) : ℝ) ≤ (2 ^ 53 : ℕ) := Nat.cast_le.2 this
      push_cast at this
      linarith
    have he : (2 : ℝ) ^ e ≤ 2 ^ (971 : ℤ) := zpow_le_zpow_right₀ one_le_two hc.most
    rw [abs_signed, abs_of_nonneg (by positivity), largest]
    exact mul_le_mul hm he (by positivity) (by norm_num)

/-- A number that is not beyond the largest double is rounded to a number. -/
lemma Rounds.exists_value (h : Rounds r x) (hr : |r| ≤ largest) : ∃ v, value? x = some v ∧
    (∀ (y : Float) (w : ℝ), value? y = some w → |v - r| ≤ |w - r|) ∧
    |v - r| ≤ |r| * 2 ^ (-53 : ℤ) + least / 2 := by
  obtain ⟨hlow, hhigh⟩ := abs_le.1 hr
  rcases h with ⟨v, hv, hnearest, hclose⟩ | ⟨hx, hlarge⟩ | ⟨hx, hlarge⟩
  · exact ⟨v, hv, hnearest, hclose⟩
  · linarith
  · linarith

lemma Rounds.close {v : ℝ} (h : Rounds r x) (hx : value? x = some v) :
    |v - r| ≤ |r| * 2 ^ (-53 : ℤ) + least / 2 := by
  rcases h with ⟨v', hv', -, hclose⟩ | ⟨hinf, -⟩ | ⟨hinf, -⟩
  · rw [hx] at hv'
    obtain rfl : v = v' := Option.some.inj hv'
    exact hclose
  · rw [value?, hinf] at hx
    cases hx
  · rw [value?, hinf] at hx
    cases hx

/-- Rounding keeps the order of numbers that are not beyond the largest double. -/
lemma Rounds.le_of_lt {s : ℝ} (hx : Rounds r x) (hy : Rounds s y) (hr : |r| ≤ largest)
    (hs : |s| ≤ largest) (h : r < s) : x ≤ y := by
  obtain ⟨v, hv, hv', -⟩ := hx.exists_value hr
  obtain ⟨w, hw, hw', -⟩ := hy.exists_value hs
  have hleft := sq_le_sq.2 (hv' y w hw)
  have hright := sq_le_sq.2 (hw' x v hv)
  rw [le_iff_value hv hw]
  by_contra hlt
  nlinarith

lemma le_largest : (2 : ℝ) ^ 100 ≤ largest := by
  have hzpow : (2 : ℝ) ^ 100 ≤ 2 ^ (971 : ℤ) := by
    rw [← zpow_natCast]
    exact zpow_le_zpow_right₀ one_le_two (by norm_num)
  rw [largest]
  exact hzpow.trans (le_mul_of_one_le_left (zpow_pos two_pos _).le (by norm_num))

lemma half_least_le : least / 2 ≤ 2 ^ (-100 : ℤ) * 2 ^ (-53 : ℤ) := by
  have hleast : least ≤ 2 ^ (-153 : ℤ) := zpow_le_zpow_right₀ one_le_two (by norm_num)
  have := least_pos
  rw [← zpow_add₀ two_ne_zero]
  exact (half_le_self this.le).trans hleast

/-- A number of moderate size is rounded to one that is close to it. -/
lemma Rounds.exists_near (h : Rounds r x) {s : ℝ} (hr : |r| ≤ s)
    (hlow : 2 ^ (-100 : ℤ) ≤ s) (hhigh : s ≤ 2 ^ 100) :
    ∃ v, value? x = some v ∧ |v - r| ≤ s * 2 ^ (-52 : ℤ) := by
  obtain ⟨v, hv, -, hclose⟩ := h.exists_value ((hr.trans hhigh).trans le_largest)
  refine ⟨v, hv, hclose.trans ?_⟩
  have hsplit : (2 : ℝ) ^ (-52 : ℤ) = 2 ^ (-53 : ℤ) + 2 ^ (-53 : ℤ) := by norm_num
  have hpos : (0 : ℝ) ≤ 2 ^ (-53 : ℤ) := by positivity
  rw [hsplit, mul_add]
  exact add_le_add (mul_le_mul_of_nonneg_right hr hpos)
    (half_least_le.trans (mul_le_mul_of_nonneg_right hlow hpos))

/-- A number that a double is, is rounded to this double. -/
lemma Rounds.value_eq (h : Rounds r x) (hy : value? y = some r) : value? x = some r := by
  obtain ⟨v, hv, hnearest, -⟩ := h.exists_value (abs_value_le hy)
  have hzero := hnearest y r hy
  rw [sub_self, abs_zero] at hzero
  rwa [sub_eq_zero.1 (abs_eq_zero.1 (le_antisymm hzero (abs_nonneg _)))] at hv

/-- Rounding does not pass a double. -/
lemma Rounds.le (h : Rounds r x) (hy : value? y = some b) (hr : r ≤ b) : x ≤ y := by
  rcases h with ⟨v, hv, hnearest, -⟩ | ⟨hx, hlarge⟩ | ⟨hx, hlarge⟩
  · rw [le_iff_value hv hy]
    have := hnearest y b hy
    rw [abs_of_nonneg (by linarith : 0 ≤ b - r)] at this
    have := le_abs_self (v - r)
    linarith
  · have := (abs_le.1 (abs_value_le hy)).2
    linarith
  · rcases value_cases hy with ⟨s, hs, -⟩ | ⟨_ | _, m, e, hm, hs, -, -⟩ <;>
      simp [le_iff, rank, hx, hs, place, Prod.Lex.toLex_le_toLex]

lemma Rounds.ge (h : Rounds r x) (hy : value? y = some b) (hr : b ≤ r) : y ≤ x := by
  rcases h with ⟨v, hv, hnearest, -⟩ | ⟨hx, hlarge⟩ | ⟨hx, hlarge⟩
  · rw [le_iff_value hy hv]
    have := hnearest y b hy
    rw [abs_of_nonpos (by linarith : b - r ≤ 0)] at this
    have := neg_le_abs (v - r)
    linarith
  · rcases value_cases hy with ⟨s, hs, -⟩ | ⟨_ | _, m, e, hm, hs, -, -⟩ <;>
      simp [le_iff, rank, hx, hs, place, Prod.Lex.toLex_le_toLex]
  · have := (abs_le.1 (abs_value_le hy)).1
    linarith

section Between

variable {z : Float} {c : ℝ} (hy : value? y = some b) (hz : value? z = some c)

include hy hz

/-- A number between two doubles is rounded to a number between them. -/
lemma Rounds.exists_between (h : Rounds r x) (hlow : b ≤ r) (hhigh : r ≤ c) :
    ∃ v, value? x = some v ∧ b ≤ v ∧ v ≤ c := by
  have hsize : |r| ≤ largest := abs_le.2
    ⟨(abs_le.1 (abs_value_le hy)).1.trans hlow, hhigh.trans (abs_le.1 (abs_value_le hz)).2⟩
  obtain ⟨v, hv, -⟩ := h.exists_value hsize
  exact ⟨v, hv, (le_iff_value hy hv).1 (h.ge hy hlow), (le_iff_value hv hz).1 (h.le hz hhigh)⟩

/-- What lies between two numbers is a number. -/
lemma exists_value_of_le (hlow : y ≤ x) (hhigh : x ≤ z) :
    ∃ v, value? x = some v ∧ b ≤ v ∧ v ≤ c := by
  obtain ⟨v, hv⟩ | ⟨s, hx⟩ | hx := value_or x
  · exact ⟨v, hv, (le_iff_value hy hv).1 hlow, (le_iff_value hv hz).1 hhigh⟩
  · cases s with
    | positive =>
      rcases value_cases hz with ⟨s, hs, -⟩ | ⟨_ | _, m, e, hm, hs, -, -⟩ <;>
        simp [le_iff, rank, hx, hs, place, Prod.Lex.toLex_le_toLex] at hhigh
    | negative =>
      rcases value_cases hy with ⟨s, hs, -⟩ | ⟨_ | _, m, e, hm, hs, -, -⟩ <;>
        simp [le_iff, rank, hx, hs, place, Prod.Lex.toLex_le_toLex] at hlow
  · simp [le_iff, rank, hx, place] at hlow

end Between

/-- Numbers compare as they do when they are rounded, but for the roundings. -/
lemma Rounds.le_of_le {s : ℝ} (hx : Rounds r x) (hy : Rounds s y) (hr : 0 ≤ r) (hs : 0 ≤ s)
    (hlargest : s ≤ largest) (h : x ≤ y) :
    r * (1 - 2 ^ (-53 : ℤ)) ≤ s * (1 + 2 ^ (-53 : ℤ)) + least := by
  obtain ⟨w, hw, -, hwclose⟩ := hy.exists_value ((abs_of_nonneg hs).trans_le hlargest)
  obtain ⟨v, hv, -, hvw⟩ := exists_value_of_le value_zero hw (hx.ge value_zero hr) h
  have hvclose := hx.close hv
  rw [abs_of_nonneg hr] at hvclose
  rw [abs_of_nonneg hs] at hwclose
  have hvlow := (abs_le.1 hvclose).1
  have hwhigh := (abs_le.1 hwclose).2
  generalize (2 : ℝ) ^ (-53 : ℤ) = ε at *
  linarith

end ImpedanceBench.Double

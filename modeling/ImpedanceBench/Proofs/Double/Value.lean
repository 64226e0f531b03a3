import ImpedanceBench.Proofs.Double.Rounding
import ImpedanceBench.Proofs.Exact.Rounding

/-!
Doubles as real numbers. A double that is neither infinite nor undefined is a whole number of times
the least positive double, and what the program asks of it can be asked of that real number:
comparisons, negation, size, rounding to whole numbers and conversion to words.
-/

namespace ImpedanceBench.Double

open Float.Model UnpackedFloat

/-- What an unpacked number is worth, in units of the least positive double. Infinite and undefined
numbers are worth nothing. -/
def worth? : UnpackedFloat → Option ℤ
  | .zero _ => some 0
  | .finite s m e _ => some (s.apply (units m e))
  | _ => none

/-- The least positive double. -/
noncomputable def least : ℝ := 2 ^ (-1074 : ℤ)

/-- The real number that a double is. -/
noncomputable def value? (x : Float) : Option ℝ :=
  (worth? x.toModel.unpack).map fun n : ℤ => (n : ℝ) * least

lemma least_pos : 0 < least := zpow_pos two_pos _

lemma mul_two_zpow {m : ℕ} {e : ℤ} (he : -1074 ≤ e) : (m * 2 ^ e : ℝ) = units m e * least := by
  have hexp : e = ((e + 1074).toNat : ℤ) + -1074 := by omega
  rw [units, least, Nat.cast_mul, Nat.cast_pow, Nat.cast_ofNat, mul_assoc, ← zpow_natCast,
    ← zpow_add₀ two_ne_zero, ← hexp]

/-- A number that is worth something is zero or has a sign. -/
lemma worth_cases {u : UnpackedFloat} {n : ℤ} (h : worth? u = some n) :
    (∃ s, u = .zero s ∧ n = 0) ∨ (∃ m e hm, u = .finite .positive m e hm ∧ n = units m e) ∨
      ∃ m e hm, u = .finite .negative m e hm ∧ n = -units m e := by
  rcases u with _ | _ | s | ⟨_ | _, m, e, hm⟩ <;> cases h
  · exact .inl ⟨s, rfl, rfl⟩
  · exact .inr (.inr ⟨m, e, hm, rfl, rfl⟩)
  · exact .inr (.inl ⟨m, e, hm, rfl, rfl⟩)

lemma units_pos {m : ℕ} (e : ℤ) (h : 0 < m) : 0 < units m e := Nat.mul_pos h (Nat.two_pow_pos _)

lemma units_le_iff {m m' : ℕ} {e e' : ℤ} (h : Canonical m e) (h' : Canonical m' e') :
    units m e ≤ units m' e' ↔ e < e' ∨ e = e' ∧ m ≤ m' := by
  refine ⟨fun hle => ?_, h.units_le h'⟩
  by_contra hgt
  have := units_lt h' h (by omega)
  omega

variable {x y : Float}

/-- Doubles compare as what they are worth. -/
lemma le_iff_worth {i j : ℤ} (hi : worth? x.toModel.unpack = some i)
    (hj : worth? y.toModel.unpack = some j) : x ≤ y ↔ i ≤ j := by
  rcases worth_cases hi with ⟨s, hx, rfl⟩ | ⟨m, e, hm, hx, rfl⟩ | ⟨m, e, hm, hx, rfl⟩ <;>
    rcases worth_cases hj with ⟨s', hy, rfl⟩ | ⟨m', e', hm', hy, rfl⟩ | ⟨m', e', hm', hy, rfl⟩ <;>
    simp only [le_iff, rank, hx, hy, place, Option.mem_def, Option.some.injEq, exists_eq_left',
      Prod.Lex.toLex_le_toLex]
  case inl.inl => simp
  case inl.inr.inl => have := units_pos e' hm'; simp; try omega
  case inl.inr.inr => have := units_pos e' hm'; simp; try omega
  case inr.inl.inl => have := units_pos e hm; simp; try omega
  case inr.inl.inr.inl =>
    have := units_le_iff (canonical_of_unpack hx) (canonical_of_unpack hy)
    simp
    omega
  case inr.inl.inr.inr => have := units_pos e hm; have := units_pos e' hm'; simp; try omega
  case inr.inr.inl => have := units_pos e hm; simp; try omega
  case inr.inr.inr.inl => have := units_pos e hm; have := units_pos e' hm'; simp; try omega
  case inr.inr.inr.inr =>
    have := units_le_iff (canonical_of_unpack hy) (canonical_of_unpack hx)
    simp
    omega

variable {a b : ℝ}

/-- A double is a number, infinite or undefined. -/
lemma value_or (x : Float) : (∃ a, value? x = some a) ∨ (∃ s, x.toModel.unpack = .infinity s) ∨
    x.toModel.unpack = .notANumber := by
  rw [value?]
  rcases x.toModel.unpack with s | _ | s | ⟨s, m, e, hm⟩
  · exact .inr (.inl ⟨s, rfl⟩)
  · exact .inr (.inr rfl)
  · exact .inl ⟨_, rfl⟩
  · exact .inl ⟨_, rfl⟩

lemma exists_value_of_isFinite (h : x.isFinite = true) : ∃ a, value? x = some a := by
  have hfinite : x.toModel.unpack.isFinite = true := h
  obtain hvalue | ⟨s, hx⟩ | hx := value_or x
  · exact hvalue
  · rw [hx] at hfinite
    cases hfinite
  · rw [hx] at hfinite
    cases hfinite

lemma worth_of_value (h : value? x = some a) :
    ∃ i : ℤ, worth? x.toModel.unpack = some i ∧ a = i * least := by
  rw [value?, Option.map_eq_some_iff] at h
  obtain ⟨i, hi, rfl⟩ := h
  exact ⟨i, hi, rfl⟩

/-- Doubles compare as the real numbers that they are. -/
lemma le_iff_value (ha : value? x = some a) (hb : value? y = some b) : x ≤ y ↔ a ≤ b := by
  obtain ⟨i, hi, rfl⟩ := worth_of_value ha
  obtain ⟨j, hj, rfl⟩ := worth_of_value hb
  rw [le_iff_worth hi hj, mul_le_mul_iff_left₀ least_pos, Int.cast_le]

lemma lt_iff_value (ha : value? x = some a) (hb : value? y = some b) : x < y ↔ a < b := by
  rw [← not_le, ← le_iff_value hb ha]
  refine ⟨not_le_of_lt, fun h => ?_⟩
  by_contra hlt
  exact h (le_of_not_lt ((le_iff_value hb hb).2 le_rfl) ((le_iff_value ha ha).2 le_rfl) hlt)

lemma value_atLeast (ha : value? x = some a) (hb : value? y = some b) :
    value? (Scalar.atLeast x y) = some (max a b) := by
  unfold Scalar.atLeast
  by_cases h : x < y
  · rw [if_pos h, max_eq_right ((lt_iff_value ha hb).1 h).le, hb]
  · rw [if_neg h, max_eq_left (not_lt.1 fun hlt => h ((lt_iff_value ha hb).2 hlt)), ha]

lemma worth_neg (u : UnpackedFloat) : worth? u.neg = (worth? u).map (- ·) := by
  rcases u with _ | _ | s | ⟨_ | _, m, e, hm⟩
  · rfl
  · rfl
  · rfl
  · exact congrArg some (neg_neg _).symm
  · rfl

/-- A mantissa without the leading bit is packed with the first exponent. -/
lemma unpack_pack_subnormal {s : Sign} {m : ℕ} {h : 0 < m} (hm : m < 2 ^ 52) :
    (Float.Model.pack (.finite s m (-1074) h)).unpack = .finite s m (-1074) h := by
  have hlog : m.log2 < 52 := (Nat.log2_lt h.ne').2 hm
  have hmant : (BitVec.ofNat 52 m).toNat = m := Nat.mod_eq_of_lt hm
  have hnonzero : BitVec.ofNat 52 m ≠ 0#52 := fun heq => by
    have := congrArg BitVec.toNat heq
    rw [hmant] at this
    exact h.ne' this
  have hbias : (-1074 + (Format.binary64.exponentBias : ℤ) +
      Format.binary64.mantissaBitsWithoutImplicit).toNat = 1 := rfl
  have hfits : ¬ 2 ^ Format.binary64.exponentBits ≤ 1 + 1 := by decide
  have hshort : ¬ m.log2 + 1 = Format.binary64.mantissaBits := by
    change ¬ m.log2 + 1 = 53
    omega
  change UnpackedFloat.unpack .binary64 (UnpackedFloat.pack .binary64 _) = _
  simp only [UnpackedFloat.pack, hbias]
  rw [if_neg hfits, if_neg hshort]
  simp only [UnpackedFloat.unpack, unpackMantissa_packComponents, unpackExponent_packComponents]
  rw [if_neg (by decide), if_pos trivial, dif_neg hnonzero]
  simp only [UnpackedFloat.finite.injEq]
  exact ⟨unpackSign_packComponents _ _ _, hmant, rfl⟩

/-- Canonical parts are kept. -/
lemma unpack_pack_of_canonical {s : Sign} {m : ℕ} {e : ℤ} {h : 0 < m} (hc : Canonical m e) :
    (Float.Model.pack (.finite s m e h)).unpack = .finite s m e h := by
  by_cases hm : 2 ^ 52 ≤ m
  · exact unpack_pack hm hc
  · obtain rfl : e = -1074 := by
      have := hc.least
      have := hc.leading
      omega
    exact unpack_pack_subnormal (by omega)

lemma unpack_neg (x : Float) : (-x).toModel.unpack = x.toModel.unpack.neg := by
  change (Float.Model.pack x.toModel.unpack.neg).unpack = _
  rcases hx : x.toModel.unpack with s | _ | s | ⟨s, m, e, hm⟩
  · cases s <;> rfl
  · rfl
  · exact unpack_pack_zero _
  · exact unpack_pack_of_canonical (canonical_of_unpack hx)

lemma value_neg (h : value? x = some a) : value? (-x) = some (-a) := by
  obtain ⟨i, hi, rfl⟩ := worth_of_value h
  rw [value?, unpack_neg, worth_neg, hi]
  simp

lemma worth_abs (u : UnpackedFloat) : worth? u.abs = (worth? u).map (|·|) := by
  rcases u with _ | _ | s | ⟨_ | _, m, e, hm⟩
  · rfl
  · rfl
  · rfl
  · exact congrArg some ((abs_neg _).trans (Nat.abs_cast _)).symm
  · exact congrArg some (Nat.abs_cast _).symm

lemma unpack_abs (x : Float) : x.abs.toModel.unpack = x.toModel.unpack.abs := by
  change (Float.Model.pack x.toModel.unpack.abs).unpack = _
  rcases hx : x.toModel.unpack with s | _ | s | ⟨s, m, e, hm⟩
  · cases s <;> rfl
  · rfl
  · exact unpack_pack_zero _
  · exact unpack_pack_of_canonical (canonical_of_unpack hx)

lemma value_abs (h : value? x = some a) : value? x.abs = some |a| := by
  obtain ⟨i, hi, rfl⟩ := worth_of_value h
  rw [value?, unpack_abs, worth_abs, hi, abs_mul, abs_of_pos least_pos]
  simp

/-- Whole numbers below `2^53` are doubles. -/
lemma value_ofNat {n : ℕ} (hn : n < 2 ^ 53) : value? (ofNat n) = some (n : ℝ) := by
  rcases Nat.eq_zero_or_pos n with rfl | hpos
  · simp [value?, show worth? (ofNat 0).toModel.unpack = some 0 from rfl]
  obtain ⟨hm, hunpack, hcanonical⟩ := unpack_ofNat hpos hn
  have hlog : n.log2 < 53 := (Nat.log2_lt hpos.ne').2 hn
  have hvalue : (n : ℝ) = units (n * 2 ^ (52 - n.log2)) (n.log2 - 52) * least := by
    rw [← mul_two_zpow hcanonical.least, Nat.cast_mul, Nat.cast_pow, Nat.cast_ofNat, mul_assoc,
      ← zpow_natCast, ← zpow_add₀ two_ne_zero]
    have hexp : ((52 - n.log2 : ℕ) : ℤ) + (n.log2 - 52) = 0 := by omega
    rw [hexp, zpow_zero, mul_one]
  rw [value?, hunpack, hvalue]
  rfl

lemma value_ofInt {k : ℤ} (hk : |k| < 2 ^ 53) : value? (ofInt k) = some (k : ℝ) := by
  rcases k with n | n
  · exact value_ofNat (by simpa [abs_of_nonneg] using hk)
  · have hn : n + 1 < 2 ^ 53 := by
      rw [Int.negSucc_eq, abs_neg, abs_of_nonneg (by omega)] at hk
      omega
    have := value_neg (value_ofNat hn)
    rw [ofInt, this, Int.negSucc_eq]
    push_cast
    rfl

/-! Whole numbers. -/

lemma two_pow_mul_least : (2 : ℝ) ^ 1074 * least = 1 := by
  rw [least, ← zpow_natCast, ← zpow_add₀ two_ne_zero]
  norm_num

lemma least_eq : least = 1 / (2 ^ 1074 : ℕ) := by
  have := two_pow_mul_least
  rw [eq_div_iff (by positivity), mul_comm]
  exact_mod_cast this

/-- Rounding a number of units agrees with rounding the real number. -/
lemma nearest_units (u : ℕ) : Exact.nearest (u * least) = nearest u := by
  obtain ⟨p, hp, hpos⟩ : ∃ p, 2 ^ 1074 = p ∧ 0 < p := ⟨_, rfl, Nat.two_pow_pos _⟩
  have hhalf : (u : ℝ) * least + 1 / 2 = ((2 * u + p : ℕ) : ℝ) / (2 * p : ℕ) := by
    rw [least_eq, hp]
    push_cast
    field_simp
  have hnearest : nearest u = (2 * u + p) / (2 * p) := by rw [nearest, hp]
  rw [Exact.nearest, if_pos (mul_nonneg (Nat.cast_nonneg _) least_pos.le), hhalf,
    ← Int.natCast_floor_eq_floor (div_nonneg (Nat.cast_nonneg _) (Nat.cast_nonneg _)),
    Nat.floor_div_eq_div, hnearest]

/-- The value of a number with a sign. -/
noncomputable def signed (negative : Bool) (a : ℝ) : ℝ := if negative then -a else a

lemma value_withSign (negative : Bool) (h : value? x = some a) :
    value? (withSign negative x) = some (signed negative a) := by
  cases negative
  · exact h
  · exact value_neg h

/-- A double with a value has a mantissa and an exponent. -/
lemma parts_of_value (h : value? x = some a) : ∃ negative m e,
    parts x = .finite negative m e ∧ m < 2 ^ 53 ∧ -1074 ≤ e ∧
      a = signed negative (units m e * least) := by
  obtain ⟨i, hi, rfl⟩ := worth_of_value h
  have hparts := parts_eq x
  rcases worth_cases hi with ⟨s, hx, rfl⟩ | ⟨m, e, hm, hx, rfl⟩ | ⟨m, e, hm, hx, rfl⟩ <;>
    rw [hx] at hparts
  · exact ⟨_, _, _, hparts, by decide, le_rfl, by simp [signed, units]⟩
  · have hc := canonical_of_unpack hx
    exact ⟨_, _, _, hparts, hc.lt, hc.least, rfl⟩
  · have hc := canonical_of_unpack hx
    exact ⟨_, _, _, hparts, hc.lt, hc.least, by simp [signed]⟩

lemma nearest_signed (negative : Bool) (u : ℕ) :
    (Exact.nearest (signed negative (u * least)) : ℝ) = signed negative (nearest u) := by
  cases negative
  · exact congrArg _ (nearest_units u)
  · change ((Exact.nearest (-(u * least)) : ℤ) : ℝ) = -_
    rw [Exact.nearest_neg, nearest_units, Int.cast_neg, Int.cast_natCast]

/-- A double is rounded as the real number that it is. -/
lemma value_roundHalfAway (h : value? x = some a) :
    value? (roundHalfAway x) = some (Exact.nearest a : ℝ) := by
  obtain ⟨negative, m, e, hparts, hm, he, rfl⟩ := parts_of_value h
  rw [nearest_signed]
  rcases e with n | k
  · have hwhole : (units m (Int.ofNat n) : ℝ) * least = nearest (units m (Int.ofNat n)) := by
      have hunits : units m (Int.ofNat n) = m * 2 ^ n * 2 ^ 1074 := by
        have hexp : (Int.ofNat n + 1074).toNat = n + 1074 := by
          change ((n : ℤ) + 1074).toNat = _
          omega
        rw [units, hexp, pow_add, mul_assoc]
      rw [nearest_whole, hunits, Nat.mul_div_cancel _ (Nat.two_pow_pos _), Nat.cast_mul _ (2 ^ 1074),
        mul_assoc, Nat.cast_pow, Nat.cast_ofNat, two_pow_mul_least, mul_one]
    rw [roundHalfAway_of_whole hparts, h, hwhole]
  · rw [roundHalfAway_of_quotient hparts, nearest_eq (by omega)]
    exact value_withSign _ (value_ofNat (lt_of_quotient hm))

/-- The value of a positive double with known parts. -/
lemma value_of_unpack {m : ℕ} {e : ℤ} {hm : 0 < m}
    (h : x.toModel.unpack = .finite .positive m e hm) : value? x = some (m * 2 ^ e : ℝ) := by
  rw [mul_two_zpow (canonical_of_unpack h).least, value?, h]
  rfl

lemma value_half : value? 0.5 = some (1 / 2) := by
  obtain ⟨h, hunpack⟩ := unpack_half
  rw [value_of_unpack hunpack]
  norm_num

lemma value_zero : value? 0.0 = some 0 := by
  simp [value?, show worth? (0.0 : Float).toModel.unpack = some 0 from rfl]

lemma floor_units (u : ℕ) : ⌊(u : ℝ) * least⌋₊ = u / 2 ^ 1074 := by
  obtain ⟨p, hp⟩ : ∃ p, 2 ^ 1074 = p := ⟨_, rfl⟩
  rw [least_eq, hp, mul_one_div, Nat.floor_div_eq_div]

lemma toNat_toUInt64_of_value (h : value? x = some a) :
    x.toUInt64.toNat = min ⌊a⌋₊ (2 ^ 64 - 1) := by
  obtain ⟨i, hi, rfl⟩ := worth_of_value h
  rw [toNat_toUInt64]
  rcases worth_cases hi with ⟨s, hx, rfl⟩ | ⟨m, e, hm, hx, rfl⟩ | ⟨m, e, hm, hx, rfl⟩ <;> rw [hx]
  · simp [whole, UnpackedFloat.toInt]
  · rw [whole_positive (canonical_of_unpack hx), Int.cast_natCast, floor_units]
    rfl
  · have hle : ((-(units m e : ℤ) : ℤ) : ℝ) * least ≤ 0 := by
      rw [Int.cast_neg, Int.cast_natCast, neg_mul, neg_nonpos]
      exact mul_nonneg (Nat.cast_nonneg _) least_pos.le
    rw [whole_negative (canonical_of_unpack hx), Nat.floor_of_nonpos hle]
    rfl

/-- A word counts a rounded double as it counts the rounded real number. -/
lemma toNat_toUInt64_round (h : value? x = some a) (ha : 0 ≤ a) (hword : Exact.nearest a < 2 ^ 64) :
    ((Scalar.toUInt64 (Scalar.round x)).toNat : ℤ) = Exact.nearest a := by
  obtain ⟨n, hn⟩ := Int.eq_ofNat_of_zero_le (Exact.nearest_nonneg ha)
  have hround := value_roundHalfAway h
  rw [hn, Int.cast_natCast] at hround
  have hcount := toNat_toUInt64_of_value hround
  rw [Nat.floor_natCast, min_eq_left (by omega)] at hcount
  rw [hn]
  exact congrArg _ hcount

/-- The whole part of a double is that of the real number, as far as a word holds it. -/
lemma wholePart_of_value {bits : ℕ} (hbits : bits ≤ 63) (h : value? x = some a) :
    wholePart bits x = Exact.wholeWithin (-2 ^ bits) (2 ^ bits - 1) a := by
  have hlimit : (2 : ℕ) ^ bits ≤ 2 ^ 63 := Nat.pow_le_pow_right two_pos hbits
  have hcast : ((2 ^ bits : ℕ) : ℤ) = 2 ^ bits := by norm_cast
  have hpos : 0 < 2 ^ bits := Nat.two_pow_pos bits
  unfold wholePart Exact.wholeWithin Exact.whole
  simp only [lt_iff_value h value_zero, Nat.shiftLeft_eq, one_mul]
  by_cases ha : a < 0
  · have hfloor : ((⌊-a⌋₊ : ℕ) : ℤ) = -⌈a⌉ := by
      rw [Int.natCast_floor_eq_floor (by linarith), Int.floor_neg]
    rw [if_pos ha, if_neg (by linarith), toNat_toUInt64_of_value (value_neg h)]
    omega
  · have hfloor : ((⌊a⌋₊ : ℕ) : ℤ) = ⌊a⌋ := Int.natCast_floor_eq_floor (by linarith)
    rw [if_neg ha, if_pos (by linarith), toNat_toUInt64_of_value h]
    omega

lemma toInt_toInt32 (h : value? x = some a) :
    (Scalar.toInt32 x).toInt = Exact.wholeWithin (-2 ^ 31) (2 ^ 31 - 1) a := by
  change (Int32.ofInt (wholePart 31 x)).toInt = _
  rw [wholePart_of_value (by decide) h, Exact.wholeWithin, Int32.toInt_ofInt_of_le] <;> omega

lemma toInt_toInt64 (h : value? x = some a) :
    (Scalar.toInt64 x).toInt = Exact.wholeWithin (-2 ^ 63) (2 ^ 63 - 1) a := by
  change (Int64.ofInt (wholePart 63 x)).toInt = _
  rw [wholePart_of_value le_rfl h, Exact.wholeWithin, Int64.toInt_ofInt_of_le] <;> omega

/-- A rounded number is positive from one half on. -/
lemma zero_lt_roundHalfAway_iff (x : Float) :
    (0.0 : Float) < roundHalfAway x ↔ (0.5 : Float) ≤ x := by
  have hparts := parts_eq x
  obtain ⟨h, hhalf⟩ := unpack_half
  have hzero : (0.0 : Float).toModel.unpack = .zero .positive := rfl
  obtain ⟨a, ha⟩ | ⟨s, hx⟩ | hx := value_or x
  · rw [lt_iff_value value_zero (value_roundHalfAway ha), le_iff_value value_half ha]
    exact_mod_cast Exact.nearest_pos_iff
  · rw [hx] at hparts
    rw [roundHalfAway_of_infinite hparts]
    cases s <;> simp [lt_iff, le_iff, rank, hx, hhalf, hzero, place, Prod.Lex.toLex_le_toLex,
      Prod.Lex.toLex_lt_toLex]
  · rw [hx] at hparts
    rw [roundHalfAway_of_undefined hparts]
    simp [lt_iff, le_iff, rank, hx, place]

end ImpedanceBench.Double

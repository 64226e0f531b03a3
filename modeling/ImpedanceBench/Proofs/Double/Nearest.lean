import ImpedanceBench.Proofs.Double.Value

/-!
Every operation gives a nearest double. A result is first a mantissa with the bits that say where
the exact number lies above it; dropping further bits keeps that, and rounding then goes to the
nearer neighbour. No double lies between the two neighbours, so none is nearer to the exact number
than the result is, unless this number is beyond the largest double.
-/

namespace ImpedanceBench.Double

open Float.Model UnpackedFloat

/-! Mantissas with residual bits. -/

/-- The number lies above the mantissa by what the residual bits say: a half or not, and a rest. -/
def Describes (em : ExtendedMantissa) (r : ℝ) : Prop :=
  ∃ rest : ℝ, 0 ≤ rest ∧ rest < 1 / 2 ∧ (em.stickyBit = true ↔ 0 < rest) ∧
    r = em.mantissa + (if em.roundBit then 1 / 2 else 0) + rest

variable {em : ExtendedMantissa} {r : ℝ}

lemma Describes.shiftRightOne (h : Describes em r) : Describes em.shiftRightOne (r / 2) := by
  obtain ⟨rest, hrest, hlt, hsticky, rfl⟩ := h
  obtain ⟨m, half, sticky⟩ := em
  have hm : (m : ℝ) = 2 * (m / 2 : ℕ) + (m % 2 : ℕ) := by exact_mod_cast (Nat.div_add_mod m 2).symm
  refine ⟨(if half then 1 / 4 else 0) + rest / 2, ?_, ?_, ?_, ?_⟩
  · split <;> linarith
  · split <;> linarith
  · cases half
    · simpa [ExtendedMantissa.shiftRightOne] using hsticky
    · simp only [ExtendedMantissa.shiftRightOne, Bool.true_or, true_iff, if_true]
      linarith
  · simp only [ExtendedMantissa.shiftRightOne]
    rcases Nat.mod_two_eq_zero_or_one m with hodd | hodd <;> rw [hodd] at hm <;>
      simp only [hodd, hm] <;> cases half <;> norm_num <;> ring

lemma Describes.shiftRight (h : Describes em r) (n : ℕ) : Describes (em >>> n) (r / 2 ^ n) := by
  induction n with
  | zero =>
    rw [pow_zero, div_one]
    exact h
  | succ n ih =>
    rw [pow_succ, ← div_div]
    exact ih.shiftRightOne

/-- Rounding takes the nearer of the two neighbours. -/
lemma Describes.roundedMantissa (h : Describes em r) : (em.mantissa : ℝ) ≤ r ∧
    r < em.mantissa + 1 ∧ |(em.roundedMantissa : ℝ) - r| ≤ 1 / 2 ∧
    (em.roundedMantissa = em.mantissa ∨ em.roundedMantissa = em.mantissa + 1) := by
  obtain ⟨rest, hrest, hlt, hsticky, rfl⟩ := h
  obtain ⟨m, half, sticky⟩ := em
  cases half <;> cases sticky <;>
    simp only [ExtendedMantissa.roundedMantissa, ExtendedMantissa.accuracy,
      Accuracy.roundToNearestEven, Bool.false_eq_true, if_false, if_true, false_iff, true_iff,
      not_lt] at hsticky ⊢
  case false.false =>
    obtain rfl : rest = 0 := le_antisymm hsticky hrest
    norm_num
  case false.true =>
    refine ⟨by linarith, by linarith, abs_le.2 ⟨by linarith, by linarith⟩, .inl trivial⟩
  case true.false =>
    obtain rfl : rest = 0 := le_antisymm hsticky hrest
    rcases Nat.mod_two_eq_zero_or_one m with hodd | hodd <;> rw [hodd]
    · exact ⟨by linarith, by linarith, abs_le.2 (by norm_num), .inl rfl⟩
    · push_cast
      exact ⟨by linarith, by linarith, abs_le.2 ⟨by linarith, by linarith⟩, .inr rfl⟩
  case true.true =>
    push_cast
    exact ⟨by linarith, by linarith, abs_le.2 ⟨by linarith, by linarith⟩, .inr trivial⟩

/-! The form of a rounded number. -/

/-- The exponent that a mantissa of some length gets. -/
lemma targetExponent_eq (m : ℕ) (e : ℤ) :
    Format.binary64.targetExponent (totalExponent m e) = max (m.log2 + e - 52) (-1074) := by
  simp only [Format.targetExponent, totalExponent, Format.mantissaBits, Format.minExponent]
  omega

lemma shiftToExponent_eq {m : ℕ} {e t : ℤ} (accuracy : Accuracy) (h : e ≤ t) :
    shiftToExponent m e accuracy t =
      (ExtendedMantissa.ofMantissaAndAccuracy m accuracy >>> (t - e).toNat, t) := by
  unfold shiftToExponent
  dsimp only
  congr 1
  omega

/-- A number is between neighbours of 53 bits, the lower of which has its leading bit unless the
exponent is the least. -/
structure Between (q : ℕ) (t : ℤ) (r : ℝ) : Prop where
  lt : q < 2 ^ 53
  bottom : -1074 ≤ t
  leading : -1074 < t → 2 ^ 52 ≤ q
  low : (q : ℝ) * 2 ^ t ≤ r
  high : r < (q + 1) * 2 ^ t

/-- The parts `m` and `e` are one of the neighbours, and the nearer one. -/
structure Chosen (q : ℕ) (t : ℤ) (r : ℝ) (m : ℕ) (e : ℤ) : Prop where
  lt : m < 2 ^ 53
  bottom : -1074 ≤ e
  leading : -1074 < e → 2 ^ 52 ≤ m
  exponent : e = t ∨ e = t + 1 ∧ m = 2 ^ 52
  neighbour : (m : ℝ) * 2 ^ e = q * 2 ^ t ∨ (m : ℝ) * 2 ^ e = (q + 1) * 2 ^ t
  near : |(m : ℝ) * 2 ^ e - r| ≤ 1 / 2 * 2 ^ t

/-- A mantissa of 53 bits stays as it is. -/
lemma shift_keeps {m : ℕ} {t : ℤ} (hm : m < 2 ^ 53) (ht : -1074 ≤ t) :
    shiftToTargetExponent .binary64 m t .exact = (⟨m, false, false⟩, t) := by
  have hlog : m.log2 < 53 := by
    rcases Nat.eq_zero_or_pos m with rfl | hpos
    · decide
    · exact (Nat.log2_lt hpos.ne').2 hm
  have hstay : (max ((m.log2 : ℤ) + t - 52) (-1074) - t).toNat = 0 := by omega
  unfold shiftToTargetExponent shiftToExponent
  dsimp only
  rw [targetExponent_eq, hstay, Nat.cast_zero, add_zero]
  rfl

/-- One bit more carries over to the exponent. -/
lemma shift_carries {t : ℤ} (ht : -1074 ≤ t) :
    shiftToTargetExponent .binary64 (2 ^ 53) t .exact = (⟨2 ^ 52, false, false⟩, t + 1) := by
  have hlog : (2 ^ 53 : ℕ).log2 = 53 := Nat.log2_two_pow
  have hcarry : (max (((2 ^ 53 : ℕ).log2 : ℤ) + t - 52) (-1074) - t).toNat = 1 := by
    rw [hlog]
    omega
  unfold shiftToTargetExponent shiftToExponent
  dsimp only
  rw [targetExponent_eq, hcarry, Nat.cast_one]
  rfl

/-- The first shift leaves the exact number between two neighbours. -/
lemma exists_between {m : ℕ} {e : ℤ} {accuracy : Accuracy} {r : ℝ}
    (hr : Describes (.ofMantissaAndAccuracy m accuracy) r)
    (he : e ≤ Format.binary64.targetExponent (totalExponent m e)) :
    ∃ em t, shiftToTargetExponent .binary64 m e accuracy = (em, t) ∧
      Describes em (r * 2 ^ e / 2 ^ t) ∧ Between em.mantissa t (r * 2 ^ e) := by
  rw [targetExponent_eq] at he
  obtain ⟨t, ht⟩ : ∃ t, max ((m.log2 : ℤ) + e - 52) (-1074) = t := ⟨_, rfl⟩
  obtain ⟨n, hn⟩ : ∃ n, (t - e).toNat = n := ⟨_, rfl⟩
  rw [ht] at he
  have hshift : shiftToTargetExponent .binary64 m e accuracy =
      (ExtendedMantissa.ofMantissaAndAccuracy m accuracy >>> n, t) := by
    rw [shiftToTargetExponent, targetExponent_eq, ht, shiftToExponent_eq _ he, hn]
  have hmantissa : (ExtendedMantissa.ofMantissaAndAccuracy m accuracy >>> n).mantissa =
      m / 2 ^ n := by
    rw [mantissa_shiftRight]
    rcases accuracy with _ | (_ | _ | _) <;> rfl
  have hscaled : r * 2 ^ e / 2 ^ t = r / 2 ^ n := by
    have hexp : e = t - n := by omega
    rw [hexp, zpow_sub₀ two_ne_zero, zpow_natCast]
    field_simp
  have hdescribes := hr.shiftRight n
  rw [← hscaled] at hdescribes
  obtain ⟨hlow, hhigh, -, -⟩ := hdescribes.roundedMantissa
  refine ⟨_, t, hshift, hdescribes, ?_, by omega, fun hlt => ?_, ?_, ?_⟩
  · rw [hmantissa, Nat.div_lt_iff_lt_mul (Nat.two_pow_pos n), ← pow_add]
    exact Nat.lt_log2_self.trans_le (Nat.pow_le_pow_right two_pos (by omega))
  · have hpos : m ≠ 0 := by
      rintro rfl
      rw [Nat.log2_zero] at ht
      omega
    rw [hmantissa, Nat.le_div_iff_mul_le (Nat.two_pow_pos n), ← pow_add]
    exact (Nat.pow_le_pow_right two_pos (by omega)).trans (Nat.log2_self_le hpos)
  · rwa [le_div_iff₀ (zpow_pos two_pos t)] at hlow
  · rwa [div_lt_iff₀ (zpow_pos two_pos t)] at hhigh

/-- The rounded number is one of the two neighbours of the exact one. -/
lemma exists_chosen (s : Sign) {m : ℕ} {e : ℤ} {accuracy : Accuracy} {r : ℝ}
    (hr : Describes (.ofMantissaAndAccuracy m accuracy) r)
    (he : e ≤ Format.binary64.targetExponent (totalExponent m e)) :
    ∃ q t m' e', Between q t (r * 2 ^ e) ∧ Chosen q t (r * 2 ^ e) m' e' ∧
      roundWithAccuracy .binary64 s m e accuracy =
        if h : m' = 0 then .zero s else .finite s m' e' (Nat.pos_of_ne_zero h) := by
  obtain ⟨em, t, hshift, hdescribes, hbetween⟩ := exists_between hr he
  obtain ⟨hlow, hhigh, hnear, hchoice⟩ := hdescribes.roundedMantissa
  have ht : (0 : ℝ) < 2 ^ t := zpow_pos two_pos t
  have hnear : |(em.roundedMantissa : ℝ) * 2 ^ t - r * 2 ^ e| ≤ 1 / 2 * 2 ^ t := by
    have hfactor : (em.roundedMantissa : ℝ) * 2 ^ t - r * 2 ^ e =
        (em.roundedMantissa - r * 2 ^ e / 2 ^ t) * 2 ^ t := by
      rw [sub_mul, div_mul_cancel₀ _ ht.ne']
    rw [hfactor, abs_mul, abs_of_pos ht]
    exact mul_le_mul_of_nonneg_right hnear ht.le
  have hneighbour : (em.roundedMantissa : ℝ) * 2 ^ t = em.mantissa * 2 ^ t ∨
      (em.roundedMantissa : ℝ) * 2 ^ t = (em.mantissa + 1) * 2 ^ t := by
    rcases hchoice with h | h
    · exact .inl (by rw [h])
    · exact .inr (by rw [h, Nat.cast_add, Nat.cast_one])
  have hlt := hbetween.lt
  have hleading := hbetween.leading
  by_cases hcarry : em.roundedMantissa = 2 ^ 53
  · have hvalue : ((2 ^ 52 : ℕ) : ℝ) * 2 ^ (t + 1) = em.roundedMantissa * 2 ^ t := by
      rw [hcarry, zpow_add₀ two_ne_zero]
      push_cast
      ring
    refine ⟨em.mantissa, t, 2 ^ 52, t + 1, hbetween, ⟨by norm_num, ?_, fun _ => le_rfl,
      .inr ⟨rfl, rfl⟩, ?_, ?_⟩, ?_⟩
    · have := hbetween.bottom
      omega
    · rwa [hvalue]
    · rwa [hvalue]
    · unfold roundWithAccuracy
      rw [hshift]
      dsimp only
      rw [hcarry, shift_carries hbetween.bottom]
  · refine ⟨em.mantissa, t, em.roundedMantissa, t, hbetween, ⟨by omega, hbetween.bottom,
      by omega, .inl rfl, hneighbour, hnear⟩, ?_⟩
    unfold roundWithAccuracy
    rw [hshift]
    dsimp only
    rw [shift_keeps (by omega) hbetween.bottom]

/-! The doubles around a number. -/

variable {q : ℕ} {t : ℤ} {x y : Float} {a b v w : ℝ}

/-- No double lies between two neighbours. -/
lemma Between.le_or_ge (h : Between q t r) (hw : value? y = some w) :
    w ≤ q * 2 ^ t ∨ (q + 1) * 2 ^ t ≤ w := by
  have ht : (0 : ℝ) < 2 ^ t := zpow_pos two_pos t
  have hq : (0 : ℝ) ≤ q * 2 ^ t := by positivity
  obtain ⟨i, hi, rfl⟩ := worth_of_value hw
  rcases worth_cases hi with ⟨s, hy, rfl⟩ | ⟨m, e, hm, hy, rfl⟩ | ⟨m, e, hm, hy, rfl⟩
  · exact .inl (by simpa using hq)
  · have hc := canonical_of_unpack hy
    rw [Int.cast_natCast, ← mul_two_zpow hc.least]
    rcases lt_or_ge e t with hlt | hge
    · -- A smaller exponent leaves no room above the leading bit of the lower neighbour.
      left
      have hlead : ((2 ^ 52 : ℕ) : ℝ) ≤ q :=
        Nat.cast_le.2 (h.leading (lt_of_le_of_lt hc.least hlt))
      have hm53 : (m : ℝ) ≤ (2 ^ 53 : ℕ) := Nat.cast_le.2 hc.lt.le
      calc (m : ℝ) * 2 ^ e ≤ (2 ^ 53 : ℕ) * 2 ^ (t - 1) := by
            gcongr
            · norm_num
            · omega
        _ = (2 ^ 52 : ℕ) * 2 ^ t := by
            rw [zpow_sub₀ two_ne_zero]
            push_cast
            ring
        _ ≤ q * 2 ^ t := by gcongr
    · -- Otherwise it is a multiple of the distance of the neighbours.
      obtain ⟨n, rfl⟩ : ∃ n : ℕ, e = t + n := ⟨(e - t).toNat, by omega⟩
      have hmultiple : (m : ℝ) * 2 ^ (t + n) = (m * 2 ^ n : ℕ) * 2 ^ t := by
        rw [zpow_add₀ two_ne_zero, zpow_natCast]
        push_cast
        ring
      rw [hmultiple]
      rcases Nat.lt_or_ge q (m * 2 ^ n) with hgt | hle
      · right
        gcongr
        exact_mod_cast hgt
      · left
        gcongr
  · left
    rw [Int.cast_neg, Int.cast_natCast, neg_mul]
    have : (0 : ℝ) ≤ units m e * least := mul_nonneg (Nat.cast_nonneg _) least_pos.le
    linarith

variable {m : ℕ} {e : ℤ}

/-- No double is nearer than the chosen neighbour. -/
lemma Chosen.nearest (h : Between q t r) (hc : Chosen q t r m e) (hw : value? y = some w) :
    |(m : ℝ) * 2 ^ e - r| ≤ |w - r| := by
  have hlow := h.low
  have hhigh := h.high
  obtain ⟨hnear, hnear'⟩ := abs_le.1 hc.near
  have hup : ((q : ℝ) + 1) * 2 ^ t = q * 2 ^ t + 2 ^ t := by ring
  have hneighbour := hc.neighbour
  rw [hup] at hhigh hneighbour
  have hgap := h.le_or_ge hw
  rw [hup] at hgap
  rcases hgap with hgap | hgap <;> rcases hneighbour with heq | heq <;> rw [heq] at hnear hnear' ⊢
  · exact abs_le_abs_of_nonpos (by linarith) (by linarith)
  · rw [abs_of_nonneg (by linarith), abs_of_nonpos (by linarith)]
    linarith
  · rw [abs_of_nonpos (by linarith), abs_of_nonneg (by linarith)]
    linarith
  · exact abs_le_abs_of_nonneg (by linarith) (by linarith)

/-- The chosen neighbour differs from the exact number in no digit but the last. -/
lemma Chosen.close (h : Between q t r) (hc : Chosen q t r m e) :
    |(m : ℝ) * 2 ^ e - r| ≤ r * 2 ^ (-53 : ℤ) + least / 2 := by
  refine hc.near.trans ?_
  have hleast := least_pos
  have hr : 0 ≤ r := (by positivity : (0 : ℝ) ≤ q * 2 ^ t).trans h.low
  rcases h.bottom.lt_or_eq with hlt | rfl
  · have hlead : ((2 ^ 52 : ℕ) : ℝ) ≤ q := Nat.cast_le.2 (h.leading hlt)
    have hscale : (2 : ℝ) ^ t = (2 ^ 52 : ℕ) * 2 ^ t * 2 ^ (-52 : ℤ) := by
      norm_num
      ring
    have hle : (2 ^ 52 : ℕ) * 2 ^ t ≤ r := (by gcongr : _ ≤ (q : ℝ) * 2 ^ t).trans h.low
    have hhalf : (2 : ℝ) ^ (-52 : ℤ) = 2 * 2 ^ (-53 : ℤ) := by norm_num
    have hmul := mul_le_mul_of_nonneg_right hle (by positivity : (0 : ℝ) ≤ 2 ^ (-52 : ℤ))
    rw [← hscale, hhalf] at hmul
    generalize (2 : ℝ) ^ (-53 : ℤ) = ε at hmul ⊢
    linarith
  · have : (0 : ℝ) ≤ r * 2 ^ (-53 : ℤ) := by positivity
    rw [least] at *
    linarith

/-- The largest double. -/
noncomputable def largest : ℝ := (2 ^ 53 - 1) * 2 ^ (971 : ℤ)

/-- A number whose chosen neighbour has too large an exponent is above the largest double. -/
lemma Chosen.largest_lt (h : Between q t r) (hc : Chosen q t r m e) (he : 971 < e) :
    largest < r := by
  have htop : (0 : ℝ) < 2 ^ (971 : ℤ) := by positivity
  have hbig : largest < (2 ^ 53 - 1 / 2) * 2 ^ (971 : ℤ) := by
    rw [largest]
    exact mul_lt_mul_of_pos_right (by norm_num) htop
  refine hbig.trans_le ?_
  rcases hc.exponent with rfl | ⟨rfl, rfl⟩
  · have hlead : ((2 ^ 52 : ℕ) : ℝ) ≤ q := Nat.cast_le.2 (h.leading (by omega))
    calc ((2 : ℝ) ^ 53 - 1 / 2) * 2 ^ (971 : ℤ) ≤ (2 ^ 52 : ℕ) * 2 ^ (971 + 1 : ℤ) := by
          rw [zpow_add₀ two_ne_zero, zpow_one, mul_left_comm, mul_comm]
          exact mul_le_mul_of_nonneg_left (by norm_num) htop.le
      _ ≤ q * 2 ^ e := by
          gcongr
          · norm_num
          · omega
      _ ≤ r := h.low
  · obtain ⟨-, hnear⟩ := abs_le.1 hc.near
    have hcarried : ((2 ^ 52 : ℕ) : ℝ) * 2 ^ (t + 1) = 2 ^ 53 * 2 ^ t := by
      rw [zpow_add₀ two_ne_zero]
      push_cast
      ring
    rw [hcarried] at hnear
    calc ((2 : ℝ) ^ 53 - 1 / 2) * 2 ^ (971 : ℤ) ≤ (2 ^ 53 - 1 / 2) * 2 ^ t :=
          mul_le_mul_of_nonneg_left (zpow_le_zpow_right₀ one_le_two (by omega)) (by norm_num)
      _ ≤ r := by linarith

/-! Results of operations. -/

/-- The double is a nearest one to the number, and close to it; or it is the infinite one on the
side on which the number is beyond the largest double. -/
inductive Rounds (r : ℝ) (x : Float) : Prop
  | finite (v : ℝ) (value : value? x = some v)
      (nearest : ∀ (y : Float) (w : ℝ), value? y = some w → |v - r| ≤ |w - r|)
      (close : |v - r| ≤ |r| * 2 ^ (-53 : ℤ) + least / 2)
  | above (unpack : x.toModel.unpack = .infinity .positive) (large : largest < r)
  | below (unpack : x.toModel.unpack = .infinity .negative) (large : r < -largest)

lemma abs_signed_sub (negative : Bool) (a b : ℝ) :
    |signed negative a - signed negative b| = |a - b| := by
  cases negative
  · rfl
  · change |-a - -b| = _
    rw [neg_sub_neg, abs_sub_comm]

lemma abs_sub_signed (negative : Bool) (w b : ℝ) :
    |w - signed negative b| = |signed negative w - b| := by
  cases negative
  · rfl
  · change |w - -b| = |-w - b|
    rw [← abs_neg]
    congr 1
    ring

lemma abs_signed (negative : Bool) (a : ℝ) : |signed negative a| = |a| := by
  cases negative
  · rfl
  · exact abs_neg a

lemma unpack_pack_overflow {s : Sign} {m : ℕ} {e : ℤ} {h : 0 < m} (he : 971 < e) :
    (Float.Model.pack (.finite s m e h)).unpack = .infinity s := by
  have hbias : (e + Format.binary64.exponentBias +
      Format.binary64.mantissaBitsWithoutImplicit).toNat = (e + 1075).toNat := by
    change (e + 1023 + 52).toNat = _
    omega
  have hfits : 2 ^ Format.binary64.exponentBits ≤ (e + 1075).toNat + 1 := by
    change 2048 ≤ _
    omega
  change UnpackedFloat.unpack .binary64 (UnpackedFloat.pack .binary64 _) = _
  simp only [UnpackedFloat.pack, hbias]
  rw [if_pos hfits]
  cases s <;> rfl

/-- Canonical parts are packed as the number that they say. -/
lemma value_pack (s : Sign) {m : ℕ} {e : ℤ} (hc : Canonical m e) :
    value? (Float.ofModel (Float.Model.pack
      (if h : m = 0 then .zero s else .finite s m e (Nat.pos_of_ne_zero h)))) =
      some (signed (s == .negative) (m * 2 ^ e)) := by
  rw [value?]
  by_cases hm : m = 0
  · rw [dif_pos hm, unpack_pack_zero, hm]
    cases s <;> simp [worth?, signed]
  · rw [dif_neg hm, unpack_pack_of_canonical hc, mul_two_zpow hc.least]
    cases s <;> simp [worth?, signed, Sign.apply]

/-- Rounding and packing gives a nearest double. -/
theorem rounds_roundWithAccuracy (s : Sign) {m : ℕ} {e : ℤ} {accuracy : Accuracy} {r : ℝ}
    (hr : Describes (.ofMantissaAndAccuracy m accuracy) r)
    (he : e ≤ Format.binary64.targetExponent (totalExponent m e)) :
    Rounds (signed (s == .negative) (r * 2 ^ e))
      (Float.ofModel (Float.Model.pack (roundWithAccuracy .binary64 s m e accuracy))) := by
  obtain ⟨q, t, m', e', hbetween, hchosen, hround⟩ := exists_chosen s hr he
  rw [hround]
  have hnonneg : 0 ≤ r * 2 ^ e := (by positivity : (0 : ℝ) ≤ q * 2 ^ t).trans hbetween.low
  by_cases hbig : 971 < e'
  · have hpos : m' ≠ 0 := by
      have := hchosen.leading (by omega)
      omega
    have hlarge := hchosen.largest_lt hbetween hbig
    rw [dif_neg hpos]
    cases s
    case positive => exact .above (unpack_pack_overflow hbig) hlarge
    case negative => exact .below (unpack_pack_overflow hbig) (neg_lt_neg hlarge)
  · have hvalue : value? (Float.ofModel (Float.Model.pack
        (if h : m' = 0 then .zero s else .finite s m' e' (Nat.pos_of_ne_zero h)))) =
        some (signed (s == .negative) (m' * 2 ^ e')) :=
      value_pack s ⟨hchosen.lt, hchosen.bottom, by omega, hchosen.leading⟩
    refine .finite _ hvalue (fun y w hw => ?_) ?_
    · rw [abs_signed_sub, abs_sub_signed]
      exact hchosen.nearest hbetween (value_withSign _ hw)
    · rw [abs_signed_sub, abs_signed, abs_of_nonneg hnonneg]
      exact hchosen.close hbetween

end ImpedanceBench.Double

import ImpedanceBench.Bench.Simulated
import ImpedanceBench.Proofs.Double.Extremes
import ImpedanceBench.Proofs.Sweep.Accepted

/-!
The samples of the simulated oscilloscope. Whatever is replayed, its memory is read where it has a
sample. A voltage that is a number or infinite becomes a whole count in the range of the converter,
which single precision holds. The one voltage that is neither comes from a divider that passes
nothing of a voltage beyond the doubles.
-/

namespace ImpedanceBench

open Double

lemma HardwareProfile.adcBits_bounds {p : HardwareProfile Float} (valid : p.validate = .ok ()) :
    1 ≤ p.adcBits.toNat ∧ p.adcBits.toNat ≤ 24 := by
  have hbits : (1 ≤ p.adcBits && p.adcBits ≤ 24 : Bool) = true :=
    eq_true_of_mem_checks valid .adcBits (by simp [checks])
  simp only [Bool.and_eq_true, decide_eq_true_eq, UInt32.le_iff_toNat_le] at hbits
  exact hbits

/-! Noise. -/

namespace Noise

/-- A finite amplitude, and numbers that do not exceed it. -/
structure Bounded (n : Noise) : Prop where
  counts : n.counts.isFinite = true
  draw : ∀ k, ∃ u, value? (n.draw k) = some u ∧ |u| ≤ 1

lemma silent_bounded : silent.Bounded := ⟨rfl, fun _ => ⟨0, value_zero, by norm_num⟩⟩

lemma Bounded.drop {n : Noise} (h : n.Bounded) (k : ℕ) : (n.drop k).Bounded :=
  ⟨h.counts, fun i => h.draw (k + i)⟩

lemma Bounded.exists_deviation {n : Noise} (h : n.Bounded) (k : ℕ) :
    ∃ d, value? (n.deviation k) = some d := by
  obtain ⟨c, hc⟩ := exists_value_of_isFinite h.counts
  obtain ⟨u, hu, hle⟩ := h.draw k
  unfold deviation
  split
  · have hsize : |c * u| ≤ largest := by
      rw [abs_mul]
      exact (mul_le_of_le_one_right (abs_nonneg c) hle).trans (abs_value_le hc)
    obtain ⟨d, hd, -⟩ := (rounds_mul hc hu).exists_value hsize
    exact ⟨d, hd⟩
  · exact ⟨0, value_zero⟩

/-- The upper 53 bits of a word. -/
lemma exists_toFloat (word : UInt64) : ∃ n < 2 ^ 53, (word >>> 11).toFloat = ofNat n := by
  have hbits : (word >>> 11).toNat < 2 ^ 53 := by
    rw [UInt64.toNat_shiftRight]
    change word.toNat >>> 11 < 2 ^ 53
    rw [Nat.shiftRight_eq_div_pow]
    have := word.toNat_lt
    omega
  refine ⟨_, hbits, ?_⟩
  have hshort : (word >>> 11).toNat >>> 64 = 0 := by
    rw [Nat.shiftRight_eq_div_pow]
    exact Nat.div_eq_of_lt (hbits.trans (by decide))
  rw [ofNat, if_pos hshort, UInt64.ofNat_toNat]

/-- Numbers of 53 bits, spread over `[-1, 1]`. -/
lemma exists_spread {n : ℕ} (hn : n < 2 ^ 53) :
    ∃ u, value? (ofNat n / 4503599627370496.0 - 1.0) = some u ∧ |u| ≤ 1 := by
  have hunit : value? (4503599627370496.0 : Float) = some ((4503599627370496 : ℕ) : ℝ) := by
    rw [show (4503599627370496.0 : Float) = ofNat 4503599627370496 by decide +kernel]
    exact value_ofNat (by decide)
  have hratio : (n : ℝ) / (4503599627370496 : ℕ) ≤ 2 := by
    have hcast : (n : ℝ) ≤ 2 ^ 53 := by exact_mod_cast hn.le
    rw [div_le_iff₀ (by norm_num)]
    norm_num at hcast ⊢
    exact hcast
  obtain ⟨v, hv, hv0, hv2⟩ := (rounds_div (value_ofNat hn) hunit (by norm_num)).exists_between
    value_zero value_two (by positivity) hratio
  obtain ⟨u, hu, hlow, hhigh⟩ := (rounds_sub hv value_one).exists_between (value_neg value_one)
    value_one (by linarith) (by linarith)
  exact ⟨u, hu, abs_le.2 ⟨hlow, hhigh⟩⟩

/-- The sequences that a bench is given in the program. -/
lemma seeded_bounded {counts : Float} (h : counts.isFinite = true) (seed : UInt64) :
    (seeded counts seed).Bounded := by
  refine ⟨h, fun k => ?_⟩
  obtain ⟨n, hn, hword⟩ :=
    exists_toFloat (scramble (seed + 0x9e3779b97f4a7c15 * UInt64.ofNat (k + 1)))
  unfold seeded
  dsimp only
  rw [hword]
  exact exists_spread hn

end Noise

/-! Memory. -/

namespace Scalar

/-- Of a number that is not negative, the remainder by a whole number keeps the part behind the
point. -/
lemma rem_natCast {v : ℝ} (hv : 0 ≤ v) (n : ℕ) :
    rem v (n : ℝ) = v - (⌊v⌋₊ / n * n : ℕ) := by
  have hquotient : Exact.whole (v / n) = (⌊v⌋₊ / n : ℕ) := by
    rw [Exact.whole, if_pos (by positivity), ← Int.natCast_floor_eq_floor (by positivity),
      Nat.floor_div_natCast]
  rw [rem_real_eq, hquotient, Int.cast_natCast, Nat.cast_mul]

lemma rem_natCast_nonneg {v : ℝ} (hv : 0 ≤ v) (n : ℕ) : 0 ≤ rem v (n : ℝ) := by
  have hmultiple : ((⌊v⌋₊ / n * n : ℕ) : ℝ) ≤ v :=
    (Nat.cast_le.2 (Nat.div_mul_le_self _ _)).trans (Nat.floor_le hv)
  rw [rem_natCast hv]
  exact sub_nonneg.2 hmultiple

lemma floor_rem_natCast {v : ℝ} (hv : 0 ≤ v) (n : ℕ) : ⌊rem v (n : ℝ)⌋₊ = ⌊v⌋₊ % n := by
  rw [rem_natCast hv, Nat.floor_sub_natCast, ← Nat.mod_eq_sub_div_mul]

end Scalar

namespace SimulatedBench

lemma wrappedIndex_lt {size : ℕ} (hsize : 0 < size) (position : Float) :
    wrappedIndex size position < size := Nat.mod_lt _ hsize

/-- The place is the whole part of the remainder, but for a remainder that is rounded up to the
size. -/
lemma wrappedIndex_eq {size : ℕ} (hsize : 0 < size) (hsmall : size < 2 ^ 53) (position : Float) :
    wrappedIndex size position =
      (Scalar.toUInt64 (Scalar.remEuclid position (Scalar.ofNat size))).toNat % size := by
  unfold wrappedIndex
  dsimp only
  split_ifs with h
  swap
  · rfl
  have hbound : value? (9007199254740992.0 : Float) = some (2 ^ (53 : ℤ) : ℝ) := by
    rw [show (9007199254740992.0 : Float) = twoPow 53 by decide +kernel]
    exact value_twoPow (by decide) (by decide)
  obtain ⟨v, hv, hv0, -⟩ := exists_value_of_le value_zero hbound h.1 (le_of_lt h.2)
  have hlt : v < 2 ^ 53 := by exact_mod_cast (lt_iff_value hv hbound).1 h.2
  have hfloor : ⌊v⌋₊ < 2 ^ 53 := (Nat.floor_lt hv0).2 (by exact_mod_cast hlt)
  have hrem := value_rem hv (value_ofNat hsmall) (Nat.cast_ne_zero.2 hsize.ne')
  have heuclid : Scalar.remEuclid position (Scalar.ofNat size) = rem position (ofNat size) :=
    if_neg fun hneg =>
      ((lt_iff_value hrem value_zero).1 hneg).not_ge (Scalar.rem_natCast_nonneg hv0 size)
  have hleft := toNat_toUInt64_of_value hv
  have hright := toNat_toUInt64_of_value hrem
  rw [Scalar.floor_rem_natCast hv0] at hright
  have hmod := Nat.mod_le ⌊v⌋₊ size
  rw [min_eq_left (by omega)] at hleft hright
  rw [heuclid]
  change position.toUInt64.toNat % size = (rem position (ofNat size)).toUInt64.toNat % size
  rw [hleft, hright, Nat.mod_mod]

lemma storedAt_eq {memory : Array Int32} {position : Float}
    (h : wrappedIndex memory.size position < memory.size) :
    storedAt memory position = memory[wrappedIndex memory.size position] := by
  rw [storedAt, Array.getElem?_eq_getElem h, Option.getD_some]

lemma storedAt_mem {memory : Array Int32} (hsize : 0 < memory.size) (position : Float) :
    storedAt memory position ∈ memory := by
  rw [storedAt_eq (wrappedIndex_lt hsize position)]
  exact Array.getElem_mem _

/-- A sample of the memory stands at the place of the position. -/
structure Reads (memory : Array Int32) (position : Float) : Prop where
  lt : wrappedIndex memory.size position < memory.size
  stored : storedAt memory position = memory[wrappedIndex memory.size position]
  place : wrappedIndex memory.size position =
    (Scalar.toUInt64 (Scalar.remEuclid position (Scalar.ofNat memory.size))).toNat % memory.size

lemma reads {memory : Array Int32} (hsize : 0 < memory.size) (hsmall : memory.size < 2 ^ 53)
    (position : Float) : Reads memory position :=
  ⟨wrappedIndex_lt hsize position, storedAt_eq _, wrappedIndex_eq hsize hsmall position⟩

lemma not_undefined_voltsAt {voltsPerCount : Float} {c : ℝ} (h : value? voltsPerCount = some c)
    (p : HardwareProfile Float) (memory : Array Int32) (position : Float) :
    ¬ Undefined (voltsAt p memory voltsPerCount position) := by
  unfold voltsAt
  dsimp only
  generalize decodeSample p.dacMaxCount p.dacRebias (storedAt memory position) = count
  have hlow := Int32.le_toInt count
  have hhigh := Int32.toInt_lt count
  exact (rounds_mul (value_ofInt (abs_lt.2 ⟨by omega, by omega⟩)) h).not_undefined

/-! Counts. -/

/-- A whole number in the range of a converter, and one of single precision. -/
structure IsCount (bits : ℕ) (x : Float) : Prop where
  exists_whole : ∃ k : ℤ, value? x = some (k : ℝ) ∧ -2 ^ (bits - 1) ≤ k ∧ k ≤ 2 ^ (bits - 1) - 1
  single_eq : Scalar.single x = x

lemma not_isCount_of_undefined {bits : ℕ} {x : Float} (h : Undefined x) : ¬ IsCount bits x := by
  rintro ⟨⟨k, hk, -⟩, -⟩
  exact not_undefined_of_value hk h

lemma isCount_zero (bits : ℕ) : IsCount bits 0.0 := by
  refine ⟨⟨0, by rw [Int.cast_zero]; exact value_zero, ?_, ?_⟩, by decide +kernel⟩
  · exact neg_nonpos.2 (by positivity)
  · exact Int.sub_nonneg_of_le (one_le_pow₀ one_le_two)

namespace ScopeScale

variable {p : HardwareProfile Float} {bias volts deviation : Float}

lemma undefined_count (h : Undefined volts) (s : ScopeScale) (deviation : Float) :
    Undefined (s.count volts deviation) := by
  have hsum : Undefined (volts / s.voltsPerCount + deviation) := (h.div_left _).add_left _
  have hparts := parts_eq (volts / s.voltsPerCount + deviation)
  rw [show Float.Model.unpack _ = .notANumber from hsum] at hparts
  have hround : Scalar.round (volts / s.voltsPerCount + deviation) = _ :=
    roundHalfAway_of_undefined hparts
  have hsingle : Scalar.single _ = _ := single_of_undefined hsum
  rw [count, hround, confine_of_undefined hsum, hsingle]
  exact hsum

lemma value_limit (valid : p.validate = .ok ()) (bias : Float) :
    value? (ofProfile p bias).limit = some ((2 ^ (p.adcBits.toNat - 1) : ℤ) : ℝ) := by
  have hbounds := p.adcBits_bounds valid
  have hexp : (p.adcBits.toNat : ℤ) - 1 = (p.adcBits.toNat - 1 : ℕ) := by omega
  change value? (twoPow _) = _
  rw [hexp, value_twoPow (by omega) (by omega), zpow_natCast]
  push_cast
  rfl

/-- The ends of the range. -/
lemma exists_range (valid : p.validate = .ok ()) (bias : Float) :
    ∃ l : ℤ, 2 ^ (p.adcBits.toNat - 1) = l ∧ 1 ≤ l ∧ l ≤ 2 ^ 23 ∧
      value? (-(ofProfile p bias).limit) = some ((-l : ℤ) : ℝ) ∧
      value? ((ofProfile p bias).limit - 1.0) = some ((l - 1 : ℤ) : ℝ) := by
  have hbounds := p.adcBits_bounds valid
  obtain ⟨l, hl⟩ : ∃ l : ℤ, 2 ^ (p.adcBits.toNat - 1) = l := ⟨_, rfl⟩
  have hlow : 1 ≤ l := hl ▸ one_le_pow₀ one_le_two
  have hhigh : l ≤ 2 ^ 23 := hl ▸ pow_le_pow_right₀ one_le_two (by omega)
  have hlimit := value_limit valid bias
  rw [hl] at hlimit
  refine ⟨l, hl, hlow, hhigh, by rw [value_neg hlimit, Int.cast_neg], ?_⟩
  have hrounds := rounds_sub hlimit value_one
  rw [← Int.cast_one, ← Int.cast_sub] at hrounds
  exact hrounds.value_eq (value_ofInt (abs_lt.2 ⟨by omega, by omega⟩))

lemma isCount_count (valid : p.validate = .ok ())
    (h : ¬ Undefined (volts / (ofProfile p bias).voltsPerCount + deviation)) :
    IsCount p.adcBits.toNat ((ofProfile p bias).count volts deviation) := by
  obtain ⟨l, hl, hlow, hhigh, hmin, hmax⟩ := exists_range valid bias
  obtain ⟨k, hk, hkl, hkh⟩ := exists_confine_round (by omega) hmin hmax h
  have hbits : |k| < 2 ^ 24 := abs_lt.2 ⟨by omega, by omega⟩
  have hsame : (ofProfile p bias).count volts deviation =
      Scalar.confine (-(ofProfile p bias).limit) ((ofProfile p bias).limit - 1.0)
        (Scalar.round (volts / (ofProfile p bias).voltsPerCount + deviation)) :=
    single_of_whole hbits hk
  rw [← hsame] at hk
  exact ⟨⟨k, hk, by omega, by omega⟩, single_of_whole hbits hk⟩

end ScopeScale

end SimulatedBench

end ImpedanceBench

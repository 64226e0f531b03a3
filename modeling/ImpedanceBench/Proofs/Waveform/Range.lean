import Mathlib.Analysis.SpecialFunctions.Trigonometric.Basic
import ImpedanceBench.Proofs.Double.Extremes
import ImpedanceBench.Proofs.Waveform.Edges
import ImpedanceBench.Proofs.Waveform.Level

/-!
The range of the generator's memory. Whatever a signal asks for, even if it is undefined or
infinite, the peak is a count of the converter, no sample exceeds it in size, and none is stored
outside the words below the bias. The trigonometric functions need only have results in range.
-/

namespace ImpedanceBench

namespace Double

open Float.Model

variable {x y : Float}

/-! Undefined and limited numbers. -/

lemma Undefined.toInt32_round (h : Undefined x) :
    (Scalar.toInt32 (roundHalfAway x)).toInt = 0 := by
  have h : x.toModel.unpack = .notANumber := h
  have hparts := parts_eq x
  rw [h] at hparts
  have hneg : ¬ x < 0.0 := by simp [lt_iff, rank, h, place]
  have hword : x.toUInt64.toNat = 0 := by
    rw [toNat_toUInt64, h]
    rfl
  rw [roundHalfAway_of_undefined hparts]
  change (Int32.ofInt (wholePart 31 x)).toInt = 0
  simp only [wholePart, if_neg hneg, hword]
  rfl

/-- Undefined, or less than half above a bound in size. -/
def Limited (n : ℕ) (x : Float) : Prop :=
  Undefined x ∨ ∃ v, value? x = some v ∧ |v| < n + 1 / 2

variable {n : ℕ}

lemma Limited.abs_toInt_le (h : Limited n x) (hn : n < 2 ^ 31) :
    |(Scalar.toInt32 (roundHalfAway x)).toInt| ≤ n := by
  obtain h | ⟨v, hv, hlt⟩ := h
  · rw [h.toInt32_round, abs_zero]
    exact Nat.cast_nonneg n
  · have hle := Exact.abs_nearest_le hlt
    rw [toInt_toInt32 (value_roundHalfAway hv), Exact.wholeWithin_nearest hle hn]
    exact hle

lemma Within.mono {a b a' b' : ℝ} (h : Within a b x) (ha : a' ≤ a) (hb : b ≤ b') :
    Within a' b' x :=
  h.imp_right fun ⟨v, hv, hlow, hhigh⟩ => ⟨v, hv, ha.trans hlow, hhigh.trans hb⟩

/-- A level times a number that does not exceed one, but for the rounding. -/
lemma limited_mul (hn : n < 2 ^ 31) {k : ℤ} (hk : |k| = n) (hy : value? y = some (k : ℝ))
    (hx : Within (-(1 + 1 / 2 ^ 40)) (1 + 1 / 2 ^ 40) x) : Limited n (y * x) := by
  obtain h | ⟨v, hv, hlow, hhigh⟩ := hx
  · exact .inl (h.mul_right _)
  have hn0 : (0 : ℝ) ≤ n := Nat.cast_nonneg n
  have hwide : (n : ℝ) + 1 ≤ 2 ^ 31 := by exact_mod_cast hn
  have hcast : |(k : ℝ)| = n := by exact_mod_cast hk
  have hproduct : |k * v| ≤ n + 1 / 2 ^ 9 := by
    rw [abs_mul, hcast]
    calc n * |v| ≤ n * (1 + 1 / 2 ^ 40) := mul_le_mul_of_nonneg_left (abs_le.2 ⟨hlow, hhigh⟩) hn0
      _ ≤ n + 1 / 2 ^ 9 := by linarith
  obtain ⟨w, hw, hnear⟩ := (rounds_mul hy hv).exists_near (s := 2 ^ 32) (by linarith)
    (by norm_num) (by norm_num)
  have hsmall : (2 : ℝ) ^ 32 * 2 ^ (-52 : ℤ) ≤ 1 / 4 := by norm_num
  have hsize := (abs_sub_abs_le_abs_sub w (k * v)).trans (hnear.trans hsmall)
  exact .inr ⟨w, hw, by linarith⟩

/-- The arc cosine, scaled from `[0, π]` to `[-1, 1]`. -/
lemma within_scaled (hx : Within 0 Real.pi x) :
    Within (-(1 + 1 / 2 ^ 40)) (1 + 1 / 2 ^ 40) (x / Scalar.pi * 2.0 - 1.0) := by
  obtain h | ⟨v, hv, hlow, hhigh⟩ := hx
  · exact .inl (((h.div_left _).mul_left _).sub_left _)
  obtain ⟨c, hc⟩ : ∃ c : ℝ, 884279719003555 / 2 ^ 48 = c := ⟨_, rfl⟩
  obtain ⟨ε, hε⟩ : ∃ ε : ℝ, (2 : ℝ) ^ (-52 : ℤ) = ε := ⟨_, rfl⟩
  have hε0 : 0 < ε := hε ▸ by positivity
  have hε1 : 20 * ε ≤ 1 / 2 ^ 40 := hε ▸ by norm_num
  have hsmall : (2 : ℝ) ^ (-100 : ℤ) ≤ 1 := by norm_num
  have hpi := value_pi
  have hclose := abs_pi_sub_le
  rw [hc] at hpi hclose
  rw [hε] at hclose
  have hcpos : 3 < c := hc ▸ by norm_num
  have hratio0 : 0 ≤ v / c := by positivity
  have hratio1 : v / c ≤ 1 + ε := by
    rw [div_le_iff₀ (by linarith)]
    have hfraction : ε * 3 ≤ ε * c := mul_le_mul_of_nonneg_left hcpos.le hε0.le
    have := (abs_le.1 hclose).1
    linarith
  obtain ⟨q, hq, hqnear⟩ := (rounds_div hv hpi (by linarith)).exists_near (s := 2)
    (abs_le.2 ⟨by linarith, by linarith⟩) (by linarith) (by norm_num)
  rw [hε] at hqnear
  obtain ⟨hqlow, hqhigh⟩ := abs_le.1 hqnear
  obtain ⟨t, ht, htnear⟩ := (rounds_mul hq value_two).exists_near (s := 4)
    (abs_le.2 ⟨by linarith, by linarith⟩) (by linarith) (by norm_num)
  rw [hε] at htnear
  obtain ⟨htlow, hthigh⟩ := abs_le.1 htnear
  obtain ⟨m, hm, hmnear⟩ := (rounds_sub ht value_one).exists_near (s := 4)
    (abs_le.2 ⟨by linarith, by linarith⟩) (by linarith) (by norm_num)
  rw [hε] at hmnear
  obtain ⟨hmlow, hmhigh⟩ := abs_le.1 hmnear
  exact .inr ⟨m, hm, by linarith, by linarith⟩

/-- The start of an edge is a number if a place is past it and not past its end. -/
lemma exists_start {start w x : Float} {a b : ℝ} (hx : value? x = some a) (hw : value? w = some b)
    (hlt : start < x) (hle : x ≤ start + w) : ∃ s, value? start = some s := by
  obtain ⟨i, hi, -⟩ := worth_of_value hx
  obtain ⟨j, hj, -⟩ := worth_of_value hw
  obtain h | ⟨sign, h⟩ | h := value_or start
  · exact h
  · have hadd : UnpackedFloat.add .binary64 (.infinity sign) w.toModel.unpack = .infinity sign := by
      rcases worth_cases hj with ⟨s, hs, -⟩ | ⟨m, e, hm, hs, -⟩ | ⟨m, e, hm, hs, -⟩ <;>
        rw [hs] <;> rfl
    have hsum : (start + w).toModel.unpack = .infinity sign := by
      change (Float.Model.pack (.add .binary64 start.toModel.unpack w.toModel.unpack)).unpack = _
      rw [h, hadd]
      cases sign <;> rfl
    rcases worth_cases hi with ⟨s, hs, -⟩ | ⟨m, e, hm, hs, -⟩ | ⟨m, e, hm, hs, -⟩ <;>
      cases sign <;>
      simp [lt_iff, le_iff, rank, h, hsum, hs, place, Prod.Lex.toLex_le_toLex,
        Prod.Lex.toLex_lt_toLex] at hlt hle
  · simp [lt_iff, rank, h, place] at hlt

/-- A ramp stays between its levels, but for less than one half. Only an edge of positive width
has places. -/
lemma limited_ramp (hn : n < 2 ^ 31) {k : ℤ} (hk : |k| = n) {y₁ y₂ : Float}
    (hy₁ : value? y₁ = some (k : ℝ)) (hy₂ : value? y₂ = some (-(k : ℝ))) {start : Float} {i : ℕ}
    (hi : i < 2 ^ 17) {width : ℤ} (hwidth : |width| ≤ 2 ^ 63) (hlt : start < ofNat i)
    (hle : ofNat i ≤ start + ofInt width) :
    Limited n ((y₂ - y₁) / ofInt width * (ofNat i - start) + y₁) := by
  have hx := value_ofNat (n := i) (by omega)
  have hrounds := rounds_ofInt (hwidth.trans_lt (by norm_num))
  obtain ⟨w, hw, hwnear⟩ := hrounds.exists_near (s := 2 ^ 63) (by exact_mod_cast hwidth)
    (by norm_num) (by norm_num)
  obtain ⟨s, hs⟩ := exists_start hx hw hlt hle
  have hpos : 0 < w := by
    by_contra hneg
    exact not_le_of_lt (Double.lt_of_lt_of_le hlt hle) ((rounds_add hs hw).le hs (by linarith))
  have hwidthpos : 0 < width := by
    by_contra hneg
    have hzero := hrounds.le value_zero (by exact_mod_cast not_lt.1 hneg)
    rw [le_iff_value hw value_zero] at hzero
    linarith
  have hone : 1 ≤ w :=
    (le_iff_value value_one hw).1 (hrounds.ge value_one (by exact_mod_cast hwidthpos))
  have hwide : w ≤ 2 ^ 64 := by
    have hcast : (width : ℝ) ≤ 2 ^ 63 := by exact_mod_cast (le_abs_self _).trans hwidth
    norm_num at hwnear hcast ⊢
    have := (abs_le.1 hwnear).2
    linarith
  have hlow := (lt_iff_value hs hx).1 hlt
  have hhigh := le_add_of_le hs hw hx hle
  have hplace : (|(i : ℝ)| + 1) * 2 ^ (-52 : ℤ) ≤ 2 ^ (-35 : ℤ) := by
    have hcast : (i : ℝ) + 1 ≤ 2 ^ 17 := by exact_mod_cast hi
    rw [Nat.abs_cast]
    calc ((i : ℝ) + 1) * 2 ^ (-52 : ℤ) ≤ 2 ^ 17 * 2 ^ (-52 : ℤ) := by gcongr
      _ = 2 ^ (-35 : ℤ) := by norm_num
  have hover : i - s ≤ w + 2 ^ (-35 : ℤ) := by linarith
  have hsmall : (2 : ℝ) ^ (-35 : ℤ) ≤ 1 := by norm_num
  obtain ⟨v, hv, hnear⟩ := exists_ramp hn hk hy₁ hy₂ hw hone hwide hs hx (by linarith)
    (by linarith)
  refine .inr ⟨v, hv, ?_⟩
  have hline := abs_line_le hk hone (by linarith) hover (by positivity)
  have hcast : (n : ℝ) + 1 ≤ 2 ^ 31 := by exact_mod_cast hn
  have hvle := abs_sub_abs_le_abs_sub v (k - 2 * k / w * (i - s))
  norm_num at hline hnear
  linarith

end Double

namespace Waveform

variable {f : Functions} {p : HardwareProfile Float} {spec : SignalSpec Float}

open Double

/-- No sample of a square wave exceeds its peak, wherever the profile puts the edges. -/
lemma abs_sample_le {n : ℕ} (hn : n < 2 ^ 31) (t : SquareTransition Float)
    (frequency length cosine : Float) {i : ℕ} (hi : i < 2 ^ 17) :
    |((SquareEdges.make t frequency length).sample (ofNat i) (ofNat n) cosine).toInt| ≤ n := by
  have hpeak := value_ofNat (n := n) (by omega)
  have hwidth : |(SquareEdges.wholeWidth t frequency).toInt| ≤ 2 ^ 63 :=
    abs_le.2 ⟨Int64.le_toInt _, (Int64.toInt_lt _).le⟩
  unfold SquareEdges.sample
  split_ifs with hfalling hrising
  · have hlevel : value? (ofNat n) = some ((n : ℤ) : ℝ) := by rw [hpeak, Int.cast_natCast]
    exact (limited_ramp hn (Nat.abs_cast n) hlevel (value_neg hlevel) hi hwidth hfalling.1
      hfalling.2).abs_toInt_le hn
  · have hlevel : value? (-ofNat n) = some ((-n : ℤ) : ℝ) := by
      rw [value_neg hpeak, Int.cast_neg, Int.cast_natCast]
    have hopposite : value? (ofNat n) = some (-((-n : ℤ) : ℝ)) := by
      rw [hpeak, Int.cast_neg, Int.cast_natCast, neg_neg]
    have habs : |(-n : ℤ)| = n := by rw [abs_neg, Nat.abs_cast]
    exact (limited_ramp hn habs hlevel hopposite hi hwidth hrising.1 hrising.2).abs_toInt_le hn
  · exact (congrArg _ (toInt32_ofNat hn)).trans_le (Nat.abs_cast n).le
  · exact (congrArg _ (neg_toInt32_ofNat hn)).trans_le ((abs_neg _).trans (Nat.abs_cast n)).le

/-- No sample exceeds the peak. -/
lemma abs_sampleAt_le (h : f.Bounded) (accepted : p.validate = .ok ()) {i : ℕ}
    (hi : i < p.bufferLength.toNat) :
    |(f.sampleAt p spec i).toInt| ≤ (counts p spec.amplitude).toNat := by
  have hcounts := counts_lt accepted spec.amplitude
  have hn : (counts p spec.amplitude).toNat < 2 ^ 31 := by omega
  have hpeak : value? (peak p spec) = some (((counts p spec.amplitude).toNat : ℤ) : ℝ) := by
    rw [Int.cast_natCast]
    exact value_ofNat (n := (counts p spec.amplitude).toNat) (by omega)
  have hfraction {x : Float} (hx : Within (-1) 1 x) :
      Within (-(1 + 1 / 2 ^ 40)) (1 + 1 / 2 ^ 40) x := hx.mono (by norm_num) (by norm_num)
  cases hshape : spec.shape
  case sine =>
    rw [f.sampleAt_sine p i hshape]
    exact (limited_mul hn (Nat.abs_cast _) hpeak (hfraction (h.cos _))).abs_toInt_le hn
  case sweep =>
    obtain ⟨phase, hphase⟩ := f.sampleAt_sweep p i hshape
    rw [hphase]
    exact (limited_mul hn (Nat.abs_cast _) hpeak (hfraction (h.sin _))).abs_toInt_le hn
  case triangle =>
    have hneg : value? (-peak p spec) = some ((-(counts p spec.amplitude).toNat : ℤ) : ℝ) := by
      rw [value_neg hpeak, Int.cast_neg]
    rw [f.sampleAt_triangle p i hshape]
    exact (limited_mul hn ((abs_neg _).trans (Nat.abs_cast _)) hneg
      (within_scaled (h.acos _))).abs_toInt_le hn
  case square =>
    have hlength := (HardwareProfile.bufferLength_bounds accepted).2
    rw [f.sampleAt_square p i hshape]
    exact abs_sample_le hn _ _ _ _ (by omega)

/-- The whole part of an amplitude in counts; an infinite one has no bound. A negative or undefined
one has none. -/
noncomputable def wholeCounts (p : HardwareProfile Float) (amplitude : Float) : ℕ∞ :=
  if (0.0 : Float) < amplitude * p.dacCountsPerVolt then
    (value? (amplitude * p.dacCountsPerVolt)).elim ⊤ fun a => (⌊a⌋₊ : ℕ)
  else 0

/-- The requested counts are the whole part, as far as a word holds it. -/
lemma toNat_requestedCounts (p : HardwareProfile Float) (amplitude : Float) :
    ((requestedCounts p amplitude).toNat : ℕ∞) =
      min (wholeCounts p amplitude) (2 ^ 64 - 1 : ℕ) := by
  unfold requestedCounts wholeCounts Scalar.atLeast
  generalize amplitude * p.dacCountsPerVolt = x
  split
  case isFalse =>
    have hzero : (Scalar.toUInt64 (0.0 : Float)).toNat = 0 := by
      change (0.0 : Float).toUInt64.toNat = 0
      rw [toNat_toUInt64_of_value value_zero, Nat.floor_zero, Nat.zero_min]
    rw [hzero]
    exact (min_eq_left zero_le).symm
  case isTrue hpos =>
    change (x.toUInt64.toNat : ℕ∞) = _
    obtain ⟨a, ha⟩ | ⟨s, hs⟩ | hx := value_or x
    · rw [ha, toNat_toUInt64_of_value ha]
      exact Monotone.map_min Nat.mono_cast
    · have hnone : value? x = none := by
        rw [value?, hs]
        rfl
      have hzero : (0.0 : Float).toModel.unpack = .zero .positive := rfl
      have hword : whole (.infinity s) = 2 ^ 64 - 1 := by
        cases s
        · simp [lt_iff, rank, hs, hzero, place, Prod.Lex.toLex_lt_toLex] at hpos
        · rfl
      rw [hnone, toNat_toUInt64, hs, hword, Option.elim_none, min_eq_right le_top]
      rfl
    · simp [lt_iff, rank, hx, place] at hpos

lemma counts_eq_min (p : HardwareProfile Float) (amplitude : Float) :
    ((counts p amplitude).toNat : ℕ∞) = min (p.dacMaxCount.toNat : ℕ∞) (wholeCounts p amplitude) := by
  have hmax : p.dacMaxCount.toNat ≤ 2 ^ 64 - 1 := by
    have := p.dacMaxCount.toNat_lt
    omega
  have hword : (p.dacMaxCount.toNat : ℕ∞) ≤ (2 ^ 64 - 1 : ℕ) := Nat.cast_le.2 hmax
  rw [toNat_counts, Monotone.map_min (f := Nat.cast) Nat.mono_cast, toNat_requestedCounts,
    min_comm (wholeCounts _ _), ← min_assoc, min_eq_left hword]

lemma saturates_iff (p : HardwareProfile Float) (amplitude : Float) :
    saturates p amplitude = true ↔ (p.dacMaxCount.toNat : ℕ∞) < wholeCounts p amplitude := by
  have hmax : p.dacMaxCount.toNat < 2 ^ 64 - 1 := by
    have := p.dacMaxCount.toNat_lt
    omega
  rw [saturates, decide_eq_true_iff, ← Nat.cast_lt (α := ℕ∞), toNat_requestedCounts, lt_min_iff,
    and_iff_left (Nat.cast_lt.2 hmax)]

/-- A buffer for an amplitude of `requested` counts that the generator's memory can hold. -/
structure InRange (p : HardwareProfile Float) (requested : ℕ∞) (signed : List Int32)
    (w : Waveform) : Prop where
  size_eq : w.memory.size = p.bufferLength.toNat
  memory_eq : w.memory.toList = signed.map (encodeSample p.dacRebias)
  stored : ∀ raw ∈ w.memory, 0 ≤ raw.toInt ∧ raw.toInt < p.dacRebias.toInt
  level : ∀ v ∈ signed, |v.toInt| ≤ w.amplitudeCounts.toNat
  counts_eq : (w.amplitudeCounts.toNat : ℕ∞) = min (p.dacMaxCount.toNat : ℕ∞) requested
  saturated_iff : w.saturated = true ↔ p.dacMaxCount.toNat < requested

/-- **The range of the memory.** Under an accepted profile every signal, whatever its shape,
amplitude and frequencies, is written as one sample for each place of the buffer, none above the
peak in size, and as words below the bias. The peak is the whole part of the requested counts or
the converter's maximum, whichever is less, and the buffer is saturated if that is the maximum. -/
theorem inRange_synthesize {f : Functions} (bounded : f.Bounded) {p : HardwareProfile Float}
    (accepted : p.validate = .ok ()) (spec : SignalSpec Float) :
    InRange p (wholeCounts p spec.amplitude) (f.signedSamples p spec) (f.synthesize p spec) := by
  have hlevel : ∀ v ∈ f.signedSamples p spec,
      |v.toInt| ≤ (counts p spec.amplitude).toNat := by
    intro v hv
    obtain ⟨i, hi, rfl⟩ := (f.mem_signedSamples_iff p spec).1 hv
    exact abs_sampleAt_le bounded accepted hi
  have hmemory : (f.synthesize p spec).memory =
      ((f.signedSamples p spec).map (encodeSample p.dacRebias)).toArray := rfl
  have hmax := HardwareProfile.dacMaxCount_lt_dacRebias accepted
  refine ⟨?size, by rw [hmemory], ?stored, hlevel, counts_eq_min p spec.amplitude,
    saturates_iff p spec.amplitude⟩
  case size => rw [hmemory, List.size_toArray, List.length_map, f.length_signedSamples]
  case stored =>
    intro raw hraw
    rw [hmemory, List.mem_toArray, List.mem_map] at hraw
    obtain ⟨v, hv, rfl⟩ := hraw
    have hpeak := hlevel v hv
    have hle := counts_le p spec.amplitude
    rw [toInt_encodeSample (by omega)]
    rw [abs_le] at hpeak
    split <;> omega

/-- A triangle beyond the range of the converter. -/
def loudTriangle : SignalSpec Float := ⟨.triangle, 3.0, 1000.0, 1000.0⟩

theorem inRange_synthesize_standard :
    Functions.fiftyPlaces.Bounded ∧
      (HardwareProfile.standard : HardwareProfile Float).validate = .ok () ∧
      InRange .standard (wholeCounts .standard loudTriangle.amplitude)
        (Functions.fiftyPlaces.signedSamples .standard loudTriangle)
        (Functions.fiftyPlaces.synthesize .standard loudTriangle) :=
  ⟨Functions.fiftyPlaces_bounded, rfl,
    inRange_synthesize Functions.fiftyPlaces_bounded rfl loudTriangle⟩

end Waveform

end ImpedanceBench

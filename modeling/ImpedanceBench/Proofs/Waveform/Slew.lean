import ImpedanceBench.Proofs.Waveform.StandardEdges
import ImpedanceBench.Proofs.Waveform.Trapezoid

/-!
The slew rate of the standard square wave. Where its pieces meet, neighbours differ by no more than
on a ramp, and the samples follow a trapezoid. They do not meet if the cosine is too small for the
upper level next to an edge, which happens at faint amplitudes, or if the falling edge ends before
the cosine does, which happens at the narrowest edges; and a rising edge that does not fit in the
buffer breaks off where the buffer is replayed.
-/

namespace ImpedanceBench

open Double

namespace Waveform

/-- The peak of a signal of the standard profile, in counts. -/
def standardPeak (spec : SignalSpec Float) : ℕ := (counts .standard spec.amplitude).toNat

lemma standardPeak_le (spec : SignalSpec Float) : standardPeak spec ≤ 8191 := counts_le _ _

lemma value_standardPeak (spec : SignalSpec Float) :
    value? (peak .standard spec) = some (standardPeak spec : ℝ) :=
  value_ofNat (n := standardPeak spec) ((standardPeak_le spec).trans_lt (by norm_num))

section

variable {f : Functions} {spec : SignalSpec Float} {w : ℕ} {fall : ℝ} {i : ℕ}

/-! The samples of each piece. -/

lemma offEdges_iff (h : HasEdges spec w fall) (hi : i ≤ 16384) : OffEdges .standard spec i ↔
    (i < 4080 ∨ 4079 + w < i) ∧ (i < 12289 ∨ 12288 + w < i) := by
  rw [OffEdges, falling_iff h (by omega), rising_iff h (by omega)]
  omega

lemma toInt_upper (square : spec.shape = .square) (off : OffEdges .standard spec i)
    (hhalf : (0.5 : Float) ≤ ofNat (standardPeak spec) * f.cosine .standard i) :
    (f.sampleAt .standard spec i).toInt = standardPeak spec :=
  (toInt_off_edges f rfl square off).trans (if_pos hhalf)

lemma toInt_lower (square : spec.shape = .square) (off : OffEdges .standard spec i)
    (hhalf : ¬ (0.5 : Float) ≤ ofNat (standardPeak spec) * f.cosine .standard i) :
    (f.sampleAt .standard spec i).toInt = -standardPeak spec :=
  (toInt_off_edges f rfl square off).trans (if_neg hhalf)

/-- The samples of either ramp are within a half of the straight line, but for what the doubles
add. -/
lemma abs_ramp_sub_le (h : HasEdges spec w fall) {k : ℤ} (hk : |k| = standardPeak spec)
    {y₁ y₂ start : Float} {s : ℝ} (hy₁ : value? y₁ = some (k : ℝ))
    (hy₂ : value? y₂ = some (-(k : ℝ))) (hs : value? start = some s) (hi : i < 2 ^ 53)
    (hlow : s ≤ i) (hhigh : i ≤ s + w) :
    |(((edges .standard spec).ramp start y₁ y₂ (ofNat i)).toInt : ℝ) -
      (k - 2 * k / w * (i - s))| ≤ 1 / 2 + 1 / 2 ^ 34 := by
  have hn := standardPeak_le spec
  have hw := h.least
  have hw' := h.most
  have hone : (1 : ℝ) ≤ w := by exact_mod_cast (by omega : 1 ≤ w)
  have hwide : (w : ℝ) ≤ 2 ^ 64 := by exact_mod_cast (by omega : w ≤ 2 ^ 64)
  have hcast : (standardPeak spec : ℝ) + 1 ≤ 2 ^ 13 := by exact_mod_cast Nat.succ_le_succ hn
  refine (abs_toInt_ramp_sub_le (by omega) hk hy₁ hy₂ h.width hs (value_ofNat hi) hone hwide
    (by linarith) (by linarith)).trans ?_
  gcongr
  calc ((standardPeak spec : ℝ) + 1) * 2 ^ (-47 : ℤ) ≤ 2 ^ 13 * 2 ^ (-47 : ℤ) := by gcongr
    _ = 1 / 2 ^ 34 := by norm_num

lemma abs_falling_sub_le (square : spec.shape = .square) (h : HasEdges spec w fall)
    (hlow : 4080 ≤ i) (hhigh : i ≤ 4079 + w) :
    |((f.sampleAt .standard spec i).toInt : ℝ) -
      (standardPeak spec - 2 * standardPeak spec / w * (i - fall))| ≤ 1 / 2 + 1 / 2 ^ 34 := by
  have hmost := h.most
  have hstart := h.start_ge
  have hstart' := h.start_le
  have hi : (4080 : ℝ) ≤ i := by exact_mod_cast hlow
  have hi' : (i : ℝ) ≤ 4079 + w := by exact_mod_cast hhigh
  have hpeak : value? (peak .standard spec) = some ((standardPeak spec : ℤ) : ℝ) := by
    rw [Int.cast_natCast]
    exact value_standardPeak spec
  have hramp := abs_ramp_sub_le h (Nat.abs_cast (standardPeak spec)) hpeak (value_neg hpeak) h.start
    (i := i) (by omega) (by linarith) (by linarith)
  have hsample : f.sampleAt .standard spec i = (edges .standard spec).ramp
      (edges .standard spec).fallStart (peak .standard spec) (-peak .standard spec) (ofNat i) := by
    rw [f.sampleAt_square _ i square, SquareEdges.sample,
      if_pos ((falling_iff h (by omega)).2 ⟨hlow, hhigh⟩)]
  rwa [hsample, ← Int.cast_natCast (standardPeak spec)]

lemma abs_rising_sub_le (square : spec.shape = .square) (h : HasEdges spec w fall)
    (hpast : 4079 + w < i) (hlow : 12289 ≤ i) (hhigh : i ≤ 12288 + w) :
    |((f.sampleAt .standard spec i).toInt : ℝ) -
      (2 * standardPeak spec / w * (i - 12288) - standardPeak spec)| ≤ 1 / 2 + 1 / 2 ^ 34 := by
  have hmost := h.most
  have hi : (12289 : ℝ) ≤ i := by exact_mod_cast hlow
  have hi' : (i : ℝ) ≤ 12288 + w := by exact_mod_cast hhigh
  have hpeak := value_standardPeak spec
  have hneg : value? (-peak .standard spec) = some ((-standardPeak spec : ℤ) : ℝ) := by
    rw [value_neg hpeak, Int.cast_neg, Int.cast_natCast]
  have hpos : value? (peak .standard spec) = some (-((-standardPeak spec : ℤ) : ℝ)) := by
    rw [hpeak, Int.cast_neg, Int.cast_natCast, neg_neg]
  have hramp := abs_ramp_sub_le h ((abs_neg _).trans (Nat.abs_cast (standardPeak spec))) hneg hpos
    (value_riseStart spec) (i := i) (by omega) (by linarith) hi'
  have hsample : f.sampleAt .standard spec i = (edges .standard spec).ramp
      (edges .standard spec).riseStart (-peak .standard spec) (peak .standard spec) (ofNat i) := by
    rw [f.sampleAt_square _ i square, SquareEdges.sample, if_neg, if_pos]
    · exact (rising_iff h (by omega)).2 ⟨hlow, hhigh⟩
    · rw [falling_iff h (by omega)]
      omega
  have hline : (2 * standardPeak spec / w * (i - 12288) - standardPeak spec : ℝ) =
      ((-standardPeak spec : ℤ) : ℝ) - 2 * ((-standardPeak spec : ℤ) : ℝ) / w * (i - 12288) := by
    push_cast
    ring
  rwa [hsample, hline]

/-- The levels of a peak of `n` counts meet edges of `w` samples: the cosine is still large enough
for the upper level before the falling edge, where there are 17 places to its zero, it is too small
after it, and large enough again after the rising edge. -/
structure Meets (n w : ℕ) : Prop where
  before_fall : 1304 ≤ n * 17
  after_fall : n * (16 - w) < 1304
  after_rise : 1304 ≤ n * (w + 1)

/-- The slope of the ramps. -/
lemma slope_facts (n : ℕ) (hw : 0 < w) :
    0 ≤ (2 * n / w : ℝ) ∧ (2 * n / w : ℝ) * w = 2 * n := by
  have hw' : (w : ℝ) ≠ 0 := by exact_mod_cast hw.ne'
  exact ⟨by positivity, by field_simp⟩

/-- The samples follow the outline where the levels meet the edges. -/
lemma abs_sub_trapezoid_le (accurate : f.Accurate) (square : spec.shape = .square)
    (h : HasEdges spec w fall) (hmeets : Meets (standardPeak spec) w) (hw : w ≤ 8208)
    (hi : i < 16384) : |((f.sampleAt .standard spec i).toInt : ℝ) -
      trapezoid (standardPeak spec) (2 * standardPeak spec / w) fall 12288 i| ≤
        1 / 2 + 1 / 2 ^ 34 := by
  have hn := standardPeak_le spec
  have hleast := h.least
  have hstart := h.start_ge
  have hstart' := h.start_le
  obtain ⟨hslope, hwidth⟩ := slope_facts (w := w) (standardPeak spec) (by omega)
  have hn0 : (0 : ℝ) ≤ standardPeak spec := Nat.cast_nonneg _
  have hexact (level : ℝ) : |level - level| ≤ 1 / 2 + 1 / 2 ^ 34 := by
    rw [sub_self, abs_zero]
    positivity
  by_cases hfirst : i ≤ 4079
  · have hsample := toInt_upper (f := f) square ((offEdges_iff h hi.le).2 (by omega))
      (half_le_cosine accurate hn (k := 17) le_rfl hmeets.before_fall (.inl (by omega)))
    have hplace : (i : ℝ) ≤ 4079 := by exact_mod_cast hfirst
    rw [hsample, Int.cast_natCast, trapezoid_before_fall hslope hn0 (by linarith)]
    exact hexact _
  have hplace₁ : (4080 : ℝ) ≤ i := by exact_mod_cast (by omega : 4080 ≤ i)
  by_cases hfalling : i ≤ 4079 + w
  · have hplace₂ : (i : ℝ) ≤ 4079 + w := by exact_mod_cast hfalling
    have hplace₃ : (i : ℝ) ≤ 12288 := by exact_mod_cast (by omega : i ≤ 12288)
    rw [trapezoid_falling hslope hwidth (by linarith) (by linarith) hplace₃]
    exact abs_falling_sub_le square h (by omega) hfalling
  have hplace₂ : (4080 : ℝ) + w ≤ i := by exact_mod_cast (by omega : 4080 + w ≤ i)
  by_cases hlower : i ≤ 12288
  · have hsample := toInt_lower (f := f) square ((offEdges_iff h hi.le).2 (by omega))
      (not_half_le_cosine accurate hn (k := 16 - w) (by omega) hmeets.after_fall (by omega)
        (by omega))
    have hplace₃ : (i : ℝ) ≤ 12288 := by exact_mod_cast hlower
    rw [hsample, trapezoid_lower hslope hwidth hn0 (by linarith) hplace₃, Int.cast_neg,
      Int.cast_natCast]
    exact hexact _
  have hplace₃ : (12289 : ℝ) ≤ i := by exact_mod_cast (by omega : 12289 ≤ i)
  by_cases hrising : i ≤ 12288 + w
  · have hplace₄ : (i : ℝ) ≤ 12288 + w := by exact_mod_cast hrising
    rw [trapezoid_rising hslope hwidth (by linarith) (by linarith) hplace₄]
    exact abs_rising_sub_le square h (by omega) (by omega) hrising
  · have hhalf := half_le_cosine accurate hn (k := min (w + 1) 17) (by omega) (i := i)
      (by rcases min_choice (w + 1) 17 with hk | hk <;> rw [hk]
          exacts [hmeets.after_rise, hmeets.before_fall]) (.inr (by omega))
    have hsample := toInt_upper (f := f) square ((offEdges_iff h hi.le).2 (by omega)) hhalf
    have hplace₄ : 12288 + (w : ℝ) ≤ i := by exact_mod_cast (by omega : 12288 + w ≤ i)
    rw [hsample, Int.cast_natCast, trapezoid_after_rise hslope hwidth hn0 hplace₄]
    exact hexact _

/-- The second sample is not farther from the first than a ramp of `w` samples between the levels
`n` and `-n` goes in one step, but for the rounding. -/
def Gentle (n w : ℕ) (a b : Int32) : Prop := |(b.toInt : ℝ) - a.toInt| ≤ 2 * n / w + 1

/-- All steps are gentle, also the one from the last sample to the first, as the buffer is replayed
for ever. -/
def Smooth (n w : ℕ) (samples : List Int32) : Prop :=
  ∀ (i : ℕ) (a b : Int32), samples[i]? = some a → samples[(i + 1) % samples.length]? = some b →
    Gentle n w a b

lemma smooth_iff_forall (n w : ℕ) : Smooth n w (f.signedSamples .standard spec) ↔
    (∀ i < 16383, Gentle n w (f.sampleAt .standard spec i) (f.sampleAt .standard spec (i + 1))) ∧
      Gentle n w (f.sampleAt .standard spec 16383) (f.sampleAt .standard spec 0) := by
  have hlength : (f.signedSamples .standard spec).length = 16384 := f.length_signedSamples _ _
  have hget {i : ℕ} (hi : i < 16384) :
      (f.signedSamples .standard spec)[i]? = some (f.sampleAt .standard spec i) :=
    f.getElem?_signedSamples _ _ hi
  unfold Smooth
  rw [hlength]
  refine ⟨fun h => ⟨fun i hi => ?_, ?_⟩, fun ⟨hinner, hseam⟩ i a b ha hb => ?_⟩
  · refine h i _ _ (hget (by omega)) ?_
    rw [Nat.mod_eq_of_lt (by omega)]
    exact hget (by omega)
  · exact h 16383 _ _ (hget (by omega)) (hget (by omega))
  · have hi : i < 16384 := hlength ▸ (List.getElem?_eq_some_iff.1 ha).1
    rw [hget hi, Option.some_inj] at ha
    rw [hget (Nat.mod_lt _ (by omega)), Option.some_inj] at hb
    subst ha hb
    rcases eq_or_lt_of_le (Nat.lt_succ_iff.1 hi) with rfl | hlt
    · exact hseam
    · rw [Nat.mod_eq_of_lt (by omega)]
      exact hinner i hlt

/-- The last sample of the rising edge is at the peak. -/
lemma toInt_end_of_rise (square : spec.shape = .square) (h : HasEdges spec w fall)
    (hw : w ≤ 8208) : (f.sampleAt .standard spec (12288 + w)).toInt = standardPeak spec := by
  have hleast := h.least
  obtain ⟨-, hwidth⟩ := slope_facts (w := w) (standardPeak spec) (by omega)
  have hnear := abs_rising_sub_le (f := f) (i := 12288 + w) square h (by omega) (by omega) le_rfl
  have hline : (2 * standardPeak spec / w * ((12288 + w : ℕ) - 12288) - standardPeak spec : ℝ) =
      standardPeak spec := by
    push_cast
    rw [add_sub_cancel_left, hwidth]
    ring
  rw [hline] at hnear
  have hlt : |((f.sampleAt .standard spec (12288 + w)).toInt - standardPeak spec : ℝ)| < 1 :=
    hnear.trans_lt (by norm_num)
  have hlt' : |(f.sampleAt .standard spec (12288 + w)).toInt - standardPeak spec| < 1 := by
    exact_mod_cast hlt
  exact sub_eq_zero.1 (Int.abs_lt_one_iff.1 hlt')

/-- The first sample is at the peak. -/
lemma toInt_first (accurate : f.Accurate) (square : spec.shape = .square)
    (h : HasEdges spec w fall) (hpos : 0 < standardPeak spec) :
    (f.sampleAt .standard spec 0).toInt = standardPeak spec := by
  have hn := standardPeak_le spec
  obtain ⟨γ, hγ, hnear⟩ := exists_scaled accurate hn (i := 0) (by omega)
  have hone : (1 : ℝ) ≤ standardPeak spec := by exact_mod_cast hpos
  have hsmall : (2 : ℝ) ^ (-26 : ℤ) ≤ 1 / 2 := by norm_num
  have hlow := (abs_le.1 (hnear.trans hsmall)).1
  rw [turn_zero] at hlow
  exact toInt_upper square ((offEdges_iff h (by omega)).2 (by omega))
    (half_le_scaled (by omega) hγ (by linarith))

/-- No step from one level to the other is gentle. -/
lemma not_gentle_of_opposite {n : ℕ} (hn : 0 < n) (hw : 11 ≤ w) {a b : Int32} (ha : a.toInt = n)
    (hb : b.toInt = -n) : ¬ Gentle n w a b := by
  have hn' : (1 : ℝ) ≤ n := by exact_mod_cast hn
  have hw' : (11 : ℝ) ≤ w := by exact_mod_cast hw
  have hslope : (2 * n / w : ℝ) ≤ 2 * n / 11 := by gcongr
  rw [Gentle, ha, hb]
  push_cast
  rw [show -(n : ℝ) - n = -(2 * n) by ring, abs_neg, abs_of_nonneg (by positivity)]
  intro h
  linarith

/-! What follows if all steps inside the buffer are gentle. -/

section

variable (accurate : f.Accurate) (square : spec.shape = .square) (h : HasEdges spec w fall)
  (hpos : 0 < standardPeak spec)
  (hgentle : ∀ i < 16383, Gentle (standardPeak spec) w (f.sampleAt .standard spec i)
    (f.sampleAt .standard spec (i + 1)))

include accurate square h hpos hgentle

/-- No sample before the falling edge is at the lower level. -/
lemma toInt_before_fall (hi : i ≤ 4079) :
    (f.sampleAt .standard spec i).toInt = standardPeak spec := by
  induction i with
  | zero => exact toInt_first accurate square h hpos
  | succ i ih =>
    have off := (offEdges_iff (i := i + 1) h (by omega)).2 (by omega)
    by_cases hhalf : (0.5 : Float) ≤ ofNat (standardPeak spec) * f.cosine .standard (i + 1)
    · exact toInt_upper square off hhalf
    · exact absurd (hgentle i (by omega)) (not_gentle_of_opposite hpos h.least (ih (by omega))
        (toInt_lower square off hhalf))

lemma before_fall_of_gentle : 1304 ≤ standardPeak spec * 17 := by
  by_contra hlt
  have hlower := toInt_lower (f := f) (i := 4079) square ((offEdges_iff h (by omega)).2 (by omega))
    (not_half_le_cosine accurate (standardPeak_le spec) (k := 17) le_rfl (by omega) (by omega)
      (by omega))
  have hupper := toInt_before_fall accurate square h hpos hgentle (i := 4079) le_rfl
  omega

/-- The falling edge ends near the lower level, so the upper one may not follow. -/
lemma after_fall_of_gentle : standardPeak spec * (16 - w) < 1304 := by
  have hleast := h.least
  have hstart' := h.start_le
  obtain ⟨hslope, hwidth⟩ := slope_facts (w := w) (standardPeak spec) (by omega)
  by_contra hge
  have hw : w ≤ 15 := by
    by_contra hw
    have hzero : 16 - w = 0 := by omega
    rw [hzero] at hge
    omega
  have hupper := toInt_upper (f := f) (i := 4079 + w + 1) square
    ((offEdges_iff h (by omega)).2 (by omega))
    (half_le_cosine accurate (standardPeak_le spec) (k := 16 - w) (by omega) (by omega)
      (.inl (by omega)))
  have hnear := abs_falling_sub_le (f := f) (i := 4079 + w) square h (by omega) le_rfl
  have hstep : |_| ≤ _ := hgentle (4079 + w) (by omega)
  rw [hupper, Int.cast_natCast] at hstep
  have hpos' : (1 : ℝ) ≤ standardPeak spec := by exact_mod_cast hpos
  have hleast' : (11 : ℝ) ≤ w := by exact_mod_cast hleast
  have hsteep : (2 * standardPeak spec / w : ℝ) ≤ 2 * standardPeak spec / 11 := by gcongr
  push_cast at hnear
  obtain ⟨δ, hδ⟩ : ∃ δ : ℝ, 2 * standardPeak spec / w = δ := ⟨_, rfl⟩
  rw [hδ] at hslope hwidth hnear hstep hsteep
  have hpast : δ * (fall - 4079) ≤ δ * 0.75 := mul_le_mul_of_nonneg_left (by linarith) hslope
  have hline : δ * (4079 + w - fall) = 2 * standardPeak spec - δ * (fall - 4079) := by
    rw [← hwidth]
    ring
  have hnear' := (abs_le.1 hnear).2
  have hstep' := (abs_le.1 hstep).2
  linarith

/-- The rising edge ends at the upper level, so the lower one may not follow. -/
lemma after_rise_of_gentle : 1304 ≤ standardPeak spec * (w + 1) := by
  have hleast := h.least
  have hbefore := before_fall_of_gentle accurate square h hpos hgentle
  by_contra hlt
  have hw : w + 1 ≤ 16 := by
    by_contra hw
    have : standardPeak spec * 17 ≤ standardPeak spec * (w + 1) :=
      Nat.mul_le_mul_left _ (by omega)
    omega
  have hlower := toInt_lower (f := f) (i := 12288 + w + 1) square
    ((offEdges_iff h (by omega)).2 (by omega))
    (not_half_le_cosine accurate (standardPeak_le spec) (k := w + 1) (by omega) (by omega)
      (by omega) (by omega))
  exact not_gentle_of_opposite hpos hleast (toInt_end_of_rise square h (by omega)) hlower
    (hgentle _ (by omega))

lemma meets_of_gentle : Meets (standardPeak spec) w :=
  ⟨before_fall_of_gentle accurate square h hpos hgentle,
    after_fall_of_gentle accurate square h hpos hgentle,
    after_rise_of_gentle accurate square h hpos hgentle⟩

end

lemma Meets.pos {n : ℕ} (h : Meets n w) : 0 < n := by
  have := h.before_fall
  omega

/-- Neighbours that follow the outline. -/
lemma gentle_of_meets (accurate : f.Accurate) (square : spec.shape = .square)
    (h : HasEdges spec w fall) (hmeets : Meets (standardPeak spec) w) (hw : w ≤ 8208)
    (hi : i < 16383) : Gentle (standardPeak spec) w (f.sampleAt .standard spec i)
      (f.sampleAt .standard spec (i + 1)) := by
  have hleast := h.least
  obtain ⟨hslope, -⟩ := slope_facts (w := w) (standardPeak spec) (by omega)
  have hstep := abs_trapezoid_sub_le hslope (standardPeak spec) fall 12288 i ((i + 1 : ℕ) : ℝ)
  rw [Nat.cast_add_one, add_sub_cancel_left, abs_one, mul_one, ← Nat.cast_add_one] at hstep
  have hmost : (w : ℝ) ≤ 18750 := by exact_mod_cast h.most
  exact abs_sub_le_of_near (by omega)
    (abs_sub_trapezoid_le accurate square h hmeets hw (by omega))
    (abs_sub_trapezoid_le accurate square h hmeets hw (by omega)) hstep (by linarith)

/-- A rising edge that fits in the buffer reaches the peak where the buffer starts again. -/
lemma gentle_seam (accurate : f.Accurate) (square : spec.shape = .square)
    (h : HasEdges spec w fall) (hmeets : Meets (standardPeak spec) w) (hw : w ≤ 4096) :
    Gentle (standardPeak spec) w (f.sampleAt .standard spec 16383)
      (f.sampleAt .standard spec 0) := by
  have hleast := h.least
  have hfirst := toInt_first accurate square h hmeets.pos
  obtain ⟨hslope, hwidth⟩ := slope_facts (w := w) (standardPeak spec) (by omega)
  have hstep := abs_trapezoid_sub_le hslope (standardPeak spec) fall 12288 ((16383 : ℕ) : ℝ) 16384
  have hw' : (w : ℝ) ≤ 4096 := by exact_mod_cast hw
  rw [trapezoid_after_rise (x := 16384) hslope hwidth (Nat.cast_nonneg _) (by linarith)] at hstep
  have hnear : |(((f.sampleAt .standard spec 0).toInt : ℝ) - standardPeak spec)| ≤
      1 / 2 + 1 / 2 ^ 34 := by
    rw [hfirst, Int.cast_natCast, sub_self, abs_zero]
    positivity
  refine abs_sub_le_of_near (by omega)
    (abs_sub_trapezoid_le accurate square h hmeets (by omega) (by omega)) hnear
    (hstep.trans_eq ?_) (by linarith)
  norm_num

/-- One that does not fit breaks off too early. -/
lemma not_gentle_seam (accurate : f.Accurate) (square : spec.shape = .square)
    (h : HasEdges spec w fall) (hmeets : Meets (standardPeak spec) w) (hw : 4137 ≤ w) :
    ¬ Gentle (standardPeak spec) w (f.sampleAt .standard spec 16383)
      (f.sampleAt .standard spec 0) := by
  have hfirst := toInt_first accurate square h hmeets.pos
  have hbefore := hmeets.before_fall
  have hmost := h.most
  have hstart' := h.start_le
  have hn : (77 : ℝ) ≤ standardPeak spec := by exact_mod_cast (by omega : 77 ≤ standardPeak spec)
  have hw' : (4137 : ℝ) ≤ w := by exact_mod_cast hw
  have hmost' : (w : ℝ) ≤ 18750 := by exact_mod_cast hmost
  obtain ⟨hslope, hwidth⟩ := slope_facts (w := w) (standardPeak spec) (by omega)
  obtain ⟨δ, hδ⟩ : ∃ δ : ℝ, 2 * standardPeak spec / w = δ := ⟨_, rfl⟩
  rw [Gentle, hfirst, Int.cast_natCast, hδ]
  rw [hδ] at hslope hwidth
  intro hgentle
  have hclose := (abs_le.1 hgentle).2
  rcases le_or_gt w 12303 with hfits | hfills
  · have hnear := abs_rising_sub_le (f := f) (i := 16383) square h (by omega) (by omega) (by omega)
    rw [hδ] at hnear
    have hlast := (abs_le.1 hnear).2
    have hsteep : δ ≤ 2 * standardPeak spec / 4137 := by
      rw [← hδ]
      gcongr
    push_cast at hlast
    linarith
  · have hnear := abs_falling_sub_le (f := f) (i := 16383) square h (by omega) (by omega)
    rw [hδ] at hnear
    have hlast := (abs_le.1 hnear).2
    have hsteep : 2 * standardPeak spec / 18750 ≤ δ := by
      rw [← hδ]
      gcongr
    have hfar : δ * 12303 ≤ δ * (16383 - fall) :=
      mul_le_mul_of_nonneg_left (by linarith) hslope
    push_cast at hlast
    linarith

/-- A peak of no counts is a constant. -/
lemma toInt_eq_zero (square : spec.shape = .square) (hzero : standardPeak spec = 0)
    (hi : i < 16384) : (f.sampleAt .standard spec i).toInt = 0 := by
  have hle : |((edges .standard spec).sample (ofNat i) (peak .standard spec)
      (roundHalfAway (peak .standard spec * f.cosine .standard i))).toInt| ≤ standardPeak spec :=
    abs_sample_le (n := standardPeak spec) (by omega) _ _ _ _ (by omega)
  rw [hzero, Nat.cast_zero] at hle
  rw [f.sampleAt_square _ i square]
  exact abs_nonpos_iff.1 hle

end

/-- **The slew rate.** With an accurate cosine, a square wave of the standard profile at any
frequency up to the maximum takes gentle steps only, exactly if it has no counts, or its levels meet
the edges and the step over the end of the buffer is gentle. That step is gentle where the rising
edge fits in the buffer, but not where it is wider than that by one in a hundred. -/
theorem smooth_iff {f : Functions} (accurate : f.Accurate) {spec : SignalSpec Float}
    (square : spec.shape = .square) (hpos : (0.0 : Float) < spec.start)
    (hmax : spec.start ≤ (HardwareProfile.standard : HardwareProfile Float).maxFrequency) :
    (Smooth (standardPeak spec) (edgeWidth spec.start) (f.signedSamples .standard spec) ↔
      standardPeak spec = 0 ∨ Meets (standardPeak spec) (edgeWidth spec.start) ∧
        Gentle (standardPeak spec) (edgeWidth spec.start) (f.sampleAt .standard spec 16383)
          (f.sampleAt .standard spec 0)) ∧
    (Meets (standardPeak spec) (edgeWidth spec.start) →
      (edgeWidth spec.start ≤ 4096 → Gentle (standardPeak spec) (edgeWidth spec.start)
        (f.sampleAt .standard spec 16383) (f.sampleAt .standard spec 0)) ∧
      (4137 ≤ edgeWidth spec.start → ¬ Gentle (standardPeak spec) (edgeWidth spec.start)
        (f.sampleAt .standard spec 16383) (f.sampleAt .standard spec 0))) := by
  obtain ⟨fall, h⟩ := exists_hasEdges hpos hmax
  refine ⟨?_, fun hmeets => ⟨gentle_seam accurate square h hmeets,
    not_gentle_seam accurate square h hmeets⟩⟩
  rw [smooth_iff_forall]
  refine ⟨fun ⟨hinner, hseam⟩ => ?_, ?_⟩
  · rcases Nat.eq_zero_or_pos (standardPeak spec) with hzero | hcounts
    · exact .inl hzero
    · exact .inr ⟨meets_of_gentle accurate square h hcounts hinner, hseam⟩
  · rintro (hzero | ⟨hmeets, hseam⟩)
    · have hconstant {i j : ℕ} (hi : i < 16384) (hj : j < 16384) :
          Gentle (standardPeak spec) (edgeWidth spec.start) (f.sampleAt .standard spec i)
            (f.sampleAt .standard spec j) := by
        rw [Gentle, toInt_eq_zero square hzero hi, toInt_eq_zero square hzero hj, sub_self,
          abs_zero]
        positivity
      exact ⟨fun i hi => hconstant (by omega) (by omega), hconstant (by omega) (by omega)⟩
    · have hnarrow : edgeWidth spec.start < 4137 := by
        by_contra hwide
        exact not_gentle_seam accurate square h hmeets (not_lt.1 hwide) hseam
      exact ⟨fun i hi => gentle_of_meets accurate square h hmeets (by omega) hi, hseam⟩

/-- The steps of a square wave of one volt at a kilohertz. -/
theorem smooth_plain : Functions.fiftyPlaces.Accurate ∧ standardPeak plainSquare = 4000 ∧
    edgeWidth plainSquare.start = 30 ∧
    Smooth 4000 30 (Functions.fiftyPlaces.signedSamples .standard plainSquare) := by
  have hpeak : standardPeak plainSquare = 4000 := by decide +kernel
  have hwidth : edgeWidth plainSquare.start = 30 := by decide +kernel
  have hmeets : Meets 4000 30 := ⟨by norm_num, by norm_num, by norm_num⟩
  obtain ⟨hsmooth, hseam⟩ := smooth_iff Functions.fiftyPlaces_accurate
    (rfl : plainSquare.shape = .square) (by decide +kernel) (by decide +kernel)
  rw [hpeak, hwidth] at hsmooth hseam
  exact ⟨Functions.fiftyPlaces_accurate, hpeak, hwidth,
    hsmooth.2 (.inr ⟨hmeets, (hseam hmeets).1 (by norm_num)⟩)⟩

/-- A square wave whose rising edge is two samples too wide for the buffer. -/
def wideSquare : SignalSpec Float := ⟨.square, 2.0, 13662000.0, 13662000.0⟩

/-- The buffer ends twelve counts below its first sample, where a ramp goes four in one step. -/
theorem not_smooth_wide : (0.0 : Float) < wideSquare.start ∧
    wideSquare.start ≤ (HardwareProfile.standard : HardwareProfile Float).maxFrequency ∧
    standardPeak wideSquare = 8000 ∧ edgeWidth wideSquare.start = 4098 ∧
    ¬ Smooth 8000 4098 (Functions.fiftyPlaces.signedSamples .standard wideSquare) := by
  have hpos : (0.0 : Float) < wideSquare.start := by decide +kernel
  have hmax : wideSquare.start ≤
      (HardwareProfile.standard : HardwareProfile Float).maxFrequency := by decide +kernel
  have hpeak : standardPeak wideSquare = 8000 := by decide +kernel
  have hwidth : edgeWidth wideSquare.start = 4098 := by decide +kernel
  refine ⟨hpos, hmax, hpeak, hwidth, fun hsmooth => ?_⟩
  obtain ⟨fall, h⟩ := exists_hasEdges hpos hmax
  rw [hwidth] at h
  have hfirst := toInt_first Functions.fiftyPlaces_accurate rfl h (by rw [hpeak]; norm_num)
  have hnear := abs_rising_sub_le (f := Functions.fiftyPlaces) (i := 16383) rfl h (by norm_num)
    (by norm_num) (by norm_num)
  have hseam : |_| ≤ _ := ((smooth_iff_forall 8000 4098).1 hsmooth).2
  rw [hpeak] at hfirst hnear
  rw [hfirst] at hseam
  norm_num at hnear hseam
  have hlast := (abs_le.1 hnear).2
  have hclose := (abs_le.1 hseam).2
  linarith

end Waveform

end ImpedanceBench

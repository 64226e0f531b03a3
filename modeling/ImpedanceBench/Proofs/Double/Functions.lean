import Mathlib.Analysis.Real.Pi.Bounds
import ImpedanceBench.Proofs.Double.Unrounded
import ImpedanceBench.Proofs.Exact.Turn
import ImpedanceBench.Proofs.Waveform.Samples

/-!
The trigonometric functions on doubles. The program takes them from the machine, so a waveform is
also one for other functions in their place, and what is asked of them is said as a property: that
their results are in range, or that the cosine is accurate. The mathematical functions, rounded to
fifty binary places, have both.
-/

namespace ImpedanceBench.Double

open Float.Model UnpackedFloat

structure Functions where
  sin : Float → Float
  cos : Float → Float
  acos : Float → Float

namespace Functions

/-- The functions that the program runs with. -/
def machine : Functions := ⟨Float.sin, Float.cos, Float.acos⟩

/-- Doubles as scalars with other trigonometric functions. -/
@[reducible]
def scalar (f : Functions) : Scalar Float :=
  { (inferInstance : Scalar Float) with sin := f.sin, cos := f.cos, acos := f.acos }

/-- The signed samples of one buffer. -/
def signedSamples (f : Functions) (p : HardwareProfile Float) (spec : SignalSpec Float) :
    List Int32 := @Waveform.signedSamples Float f.scalar p spec

def synthesize (f : Functions) (p : HardwareProfile Float) (spec : SignalSpec Float) : Waveform :=
  @Waveform.synthesize Float f.scalar p spec

lemma synthesize_machine (p : HardwareProfile Float) (spec : SignalSpec Float) :
    machine.synthesize p spec = Waveform.synthesize p spec := rfl

/-- The signed sample at a place of the buffer. -/
def sampleAt (f : Functions) (p : HardwareProfile Float) (spec : SignalSpec Float) (i : ℕ) :
    Int32 := @Waveform.sampleAt Float f.scalar p spec i

/-- The cosine at a place of the buffer. -/
def cosine (f : Functions) (p : HardwareProfile Float) (i : ℕ) : Float :=
  @Waveform.cosineAt Float f.scalar (ofNat p.bufferLength.toNat) (ofNat i)

variable (f : Functions) (p : HardwareProfile Float) (spec : SignalSpec Float)

@[simp] lemma length_signedSamples :
    (f.signedSamples p spec).length = p.bufferLength.toNat :=
  @Waveform.length_signedSamples Float f.scalar p spec

lemma getElem?_signedSamples {i : ℕ} (h : i < p.bufferLength.toNat) :
    (f.signedSamples p spec)[i]? = some (f.sampleAt p spec i) :=
  @Waveform.getElem?_signedSamples Float f.scalar p spec i h

lemma mem_signedSamples_iff {v : Int32} :
    v ∈ f.signedSamples p spec ↔ ∃ i < p.bufferLength.toNat, f.sampleAt p spec i = v :=
  @Waveform.mem_signedSamples_iff Float f.scalar p spec v

end Functions

/-- The peak of a signal as a double. -/
def peak (p : HardwareProfile Float) (spec : SignalSpec Float) : Float :=
  ofNat (Waveform.counts p spec.amplitude).toNat

/-- The edges of a square wave. -/
def edges (p : HardwareProfile Float) (spec : SignalSpec Float) : SquareEdges Float :=
  .make p.squareTransition spec.start (ofNat p.bufferLength.toNat)

namespace Functions

variable (f : Functions) (p : HardwareProfile Float) {spec : SignalSpec Float} (i : ℕ)

/-! The samples of each shape. -/

lemma sampleAt_sine (h : spec.shape = .sine) : f.sampleAt p spec i =
    Scalar.toInt32 (roundHalfAway (peak p spec * f.cosine p i)) := by
  obtain ⟨shape, amplitude, start, stop⟩ := spec
  obtain rfl : shape = .sine := h
  rfl

lemma sampleAt_square (h : spec.shape = .square) : f.sampleAt p spec i =
    (edges p spec).sample (ofNat i) (peak p spec)
      (roundHalfAway (peak p spec * f.cosine p i)) := by
  obtain ⟨shape, amplitude, start, stop⟩ := spec
  obtain rfl : shape = .square := h
  rfl

lemma sampleAt_triangle (h : spec.shape = .triangle) : f.sampleAt p spec i =
    Scalar.toInt32 (roundHalfAway
      (-peak p spec * (f.acos (f.cosine p i) / Scalar.pi * 2.0 - 1.0))) := by
  obtain ⟨shape, amplitude, start, stop⟩ := spec
  obtain rfl : shape = .triangle := h
  rfl

lemma sampleAt_sweep (h : spec.shape = .sweep) : ∃ phase : Float, f.sampleAt p spec i =
    Scalar.toInt32 (roundHalfAway (peak p spec * f.sin phase)) := by
  obtain ⟨shape, amplitude, start, stop⟩ := spec
  obtain rfl : shape = .sweep := h
  exact ⟨_, rfl⟩

end Functions

/-! Properties. -/

def Undefined (x : Float) : Prop := x.toModel.unpack = .notANumber

/-- A number between two bounds, or an undefined one. -/
def Within (lo hi : ℝ) (x : Float) : Prop :=
  Undefined x ∨ ∃ v, value? x = some v ∧ lo ≤ v ∧ v ≤ hi

/-- Every result is in the range of the mathematical function, or undefined. -/
structure Functions.Bounded (f : Functions) : Prop where
  sin : ∀ x, Within (-1) 1 (f.sin x)
  cos : ∀ x, Within (-1) 1 (f.cos x)
  acos : ∀ x, Within 0 Real.pi (f.acos x)

/-- The cosine of a finite number is right to forty binary places. -/
structure Functions.Accurate (f : Functions) : Prop where
  cos : ∀ x a, value? x = some a →
    ∃ c, value? (f.cos x) = some c ∧ |c - Real.cos a| ≤ 2 ^ (-40 : ℤ)

/-! Fifty binary places. -/

lemma value_one : value? 1.0 = some 1 := by
  have h : (1.0 : Float).toModel.unpack = .finite .positive (2 ^ 52) (-52) (by decide) := rfl
  rw [value_of_unpack h]
  norm_num

lemma value_two : value? 2.0 = some 2 := by
  have h : (2.0 : Float).toModel.unpack = .finite .positive (2 ^ 52) (-51) (by decide) := rfl
  rw [value_of_unpack h]
  norm_num

lemma value_pi : value? (Scalar.pi : Float) = some (884279719003555 / 2 ^ 48 : ℝ) := by
  have h : (3.141592653589793 : Float).toModel.unpack =
      .finite .positive 7074237752028440 (-51) (by decide) := rfl
  change value? 3.141592653589793 = _
  rw [value_of_unpack h]
  norm_num

lemma abs_pi_sub_le : |(884279719003555 / 2 ^ 48 : ℝ) - Real.pi| ≤ 2 ^ (-52 : ℤ) := by
  have hpi := Real.pi_gt_d20
  have hpi' := Real.pi_lt_d20
  rw [abs_le]
  norm_num
  constructor <;> linarith

/-- The first fifty binary places of a number, rounded down. -/
noncomputable def places (r : ℝ) : ℝ := ⌊2 ^ 50 * r⌋ * 2 ^ (-50 : ℤ)

lemma places_le (r : ℝ) : places r ≤ r := by
  have hscale : 2 ^ 50 * r * 2 ^ (-50 : ℤ) = r := by
    norm_num
    ring
  have := mul_le_mul_of_nonneg_right (Int.floor_le (2 ^ 50 * r))
    (by positivity : (0 : ℝ) ≤ 2 ^ (-50 : ℤ))
  rwa [hscale] at this

lemma lt_places_add (r : ℝ) : r < places r + 2 ^ (-50 : ℤ) := by
  have hscale : 2 ^ 50 * r * 2 ^ (-50 : ℤ) = r := by
    norm_num
    ring
  have := mul_lt_mul_of_pos_right (Int.lt_floor_add_one (2 ^ 50 * r))
    (by positivity : (0 : ℝ) < 2 ^ (-50 : ℤ))
  rwa [hscale, add_mul, one_mul] at this

/-- A whole number of units in the last place is not passed by rounding down. -/
lemma le_places {r : ℝ} {k : ℤ} (h : k ≤ 2 ^ 50 * r) : k * 2 ^ (-50 : ℤ) ≤ places r :=
  mul_le_mul_of_nonneg_right (Int.cast_le.2 (Int.le_floor.2 h)) (by positivity)

lemma abs_places_le {r : ℝ} (hr : |r| ≤ 7) : |places r| ≤ 8 := by
  obtain ⟨hlow, hhigh⟩ := abs_le.1 hr
  have hle := places_le r
  have hlt := lt_places_add r
  have hunit : (2 : ℝ) ^ (-50 : ℤ) ≤ 1 := by norm_num
  exact abs_le.2 ⟨by linarith, by linarith⟩

/-- A double close to a real number of moderate size. -/
noncomputable def close (r : ℝ) : Float := ofInt ⌊2 ^ 50 * r⌋ * twoPow (-50)

lemma rounds_close {r : ℝ} (hr : |r| ≤ 7) : Rounds (places r) (close r) := by
  obtain ⟨hlow, hhigh⟩ := abs_le.1 hr
  have hle := Int.floor_le (2 ^ 50 * r)
  have hlt := Int.lt_floor_add_one (2 ^ 50 * r)
  have hscaled : |(⌊2 ^ 50 * r⌋ : ℝ)| < 2 ^ 53 := abs_lt.2 ⟨by linarith, by linarith⟩
  have hfloor : |⌊2 ^ 50 * r⌋| < 2 ^ 53 := by exact_mod_cast hscaled
  exact rounds_mul (value_ofInt hfloor) (value_twoPow (by decide) (by decide))

lemma exists_close {r : ℝ} (hr : |r| ≤ 7) :
    ∃ v, value? (close r) = some v ∧ |v - r| ≤ 2 ^ (-48 : ℤ) := by
  obtain ⟨v, hv, hnear⟩ := (rounds_close hr).exists_near (abs_places_le hr) (by norm_num)
    (by norm_num)
  refine ⟨v, hv, ?_⟩
  have hle := places_le r
  have hlt := lt_places_add r
  obtain ⟨hnear, hnear'⟩ := abs_le.1 hnear
  have hsum : (2 : ℝ) ^ (-48 : ℤ) = 4 * 2 ^ (-50 : ℤ) := by norm_num
  have hstep : (8 : ℝ) * 2 ^ (-52 : ℤ) = 2 * 2 ^ (-50 : ℤ) := by norm_num
  rw [hstep] at hnear hnear'
  have hpos : (0 : ℝ) < 2 ^ (-50 : ℤ) := by positivity
  rw [hsum]
  generalize (2 : ℝ) ^ (-50 : ℤ) = u at *
  exact abs_le.2 ⟨by linarith, by linarith⟩

/-- Doubles around the places of a number are around the close double. -/
lemma within_close {r lo hi : ℝ} {x y : Float} (hr : |r| ≤ 7) (hx : value? x = some lo)
    (hy : value? y = some hi) (hlo : lo ≤ places r) (hhi : places r ≤ hi) :
    Within lo hi (close r) := by
  obtain ⟨v, hv, -⟩ := exists_close hr
  exact .inr ⟨v, hv, (le_iff_value hx hv).1 ((rounds_close hr).ge hx hlo),
    (le_iff_value hv hy).1 ((rounds_close hr).le hy hhi)⟩

namespace Functions

open Classical in
/-- The mathematical functions to fifty binary places. -/
noncomputable def fiftyPlaces : Functions where
  sin x := (value? x).elim nan fun a => close (Real.sin a)
  cos x := (value? x).elim nan fun a => close (Real.cos a)
  acos x := (value? x).elim nan fun a => if |a| ≤ 1 then close (Real.arccos a) else nan

lemma undefined_nan : Undefined nan := rfl

lemma within_close_of_abs_le {r : ℝ} (hr : |r| ≤ 1) : Within (-1) 1 (close r) := by
  obtain ⟨hlow, hhigh⟩ := abs_le.1 hr
  have hplaces : ((-2 ^ 50 : ℤ) : ℝ) * 2 ^ (-50 : ℤ) ≤ places r := le_places (by
    push_cast
    linarith)
  refine within_close (by linarith) (value_neg value_one) value_one ?_
    ((places_le r).trans hhigh)
  norm_num at hplaces ⊢
  exact hplaces

/-- The double next to `π` is what remains of it. -/
lemma within_close_arccos (a : ℝ) : Within 0 Real.pi (close (Real.arccos a)) := by
  have hlow := Real.arccos_nonneg a
  have hhigh := Real.arccos_le_pi a
  have hpi := Real.pi_gt_d20
  have hpi' := Real.pi_lt_d20
  have hplaces : places (Real.arccos a) ≤ 884279719003555 / 2 ^ 48 := by
    have hfloor : ⌊2 ^ 50 * Real.arccos a⌋ < 4 * 884279719003555 + 1 := by
      rw [Int.floor_lt]
      push_cast
      linarith
    have hcast : (⌊2 ^ 50 * Real.arccos a⌋ : ℝ) ≤ 4 * 884279719003555 := by
      exact_mod_cast Int.lt_add_one_iff.1 hfloor
    calc places (Real.arccos a) ≤ 4 * 884279719003555 * 2 ^ (-50 : ℤ) :=
          mul_le_mul_of_nonneg_right hcast (by positivity)
      _ = 884279719003555 / 2 ^ 48 := by norm_num
  have hzero := le_places (r := Real.arccos a) (k := 0) (by
    push_cast
    positivity)
  rw [Int.cast_zero, zero_mul] at hzero
  obtain h | ⟨v, hv, hv0, hvpi⟩ := within_close (abs_le.2 ⟨by linarith, by linarith⟩) value_zero
    value_pi hzero hplaces
  · exact .inl h
  · exact .inr ⟨v, hv, hv0, by linarith⟩

theorem fiftyPlaces_bounded : fiftyPlaces.Bounded where
  sin x := by
    change Within _ _ ((value? x).elim _ _)
    rcases value? x with _ | a
    · exact .inl undefined_nan
    · exact within_close_of_abs_le (Real.abs_sin_le_one a)
  cos x := by
    change Within _ _ ((value? x).elim _ _)
    rcases value? x with _ | a
    · exact .inl undefined_nan
    · exact within_close_of_abs_le (Real.abs_cos_le_one a)
  acos x := by
    change Within _ _ ((value? x).elim _ _)
    rcases value? x with _ | a
    · exact .inl undefined_nan
    · change Within _ _ (if |a| ≤ 1 then close (Real.arccos a) else nan)
      split
      · exact within_close_arccos a
      · exact .inl undefined_nan

theorem fiftyPlaces_accurate : fiftyPlaces.Accurate where
  cos x a hx := by
    have hcos : fiftyPlaces.cos x = close (Real.cos a) := by
      change (value? x).elim _ _ = _
      rw [hx]
      rfl
    obtain ⟨c, hc, hclose⟩ := exists_close (r := Real.cos a)
      ((Real.abs_cos_le_one a).trans (by norm_num))
    rw [hcos]
    exact ⟨c, hc, hclose.trans (zpow_le_zpow_right₀ one_le_two (by norm_num))⟩

end Functions

/-! The cosine of a place. -/

lemma value_two_mul_pi :
    value? (2.0 * Scalar.pi : Float) = some (884279719003555 / 2 ^ 47 : ℝ) := by
  have h : (2.0 * 3.141592653589793 : Float).toModel.unpack =
      .finite .positive 7074237752028440 (-50) (by decide) := rfl
  change value? (2.0 * 3.141592653589793) = _
  rw [value_of_unpack h]
  norm_num

lemma abs_turn_sub_le : |(884279719003555 / 2 ^ 47 : ℝ) - 2 * Real.pi| ≤ 2 ^ (-51 : ℤ) := by
  have hdouble : (884279719003555 / 2 ^ 47 : ℝ) - 2 * Real.pi =
      2 * (884279719003555 / 2 ^ 48 - Real.pi) := by ring
  have hstep : (2 : ℝ) ^ (-51 : ℤ) = 2 * 2 ^ (-52 : ℤ) := by norm_num
  rw [hdouble, hstep, abs_mul, abs_two]
  exact mul_le_mul_of_nonneg_left abs_pi_sub_le zero_le_two

/-- The angle of a place is close to the exact one. -/
lemma exists_angle {n i : ℕ} (hn : 0 < n) (hlength : n ≤ 2 ^ 20) (hi : i ≤ n) :
    ∃ a, value? (2.0 * Scalar.pi * ofNat i / ofNat n) = some a ∧
      |a - 2 * Real.pi * i / n| ≤ 2 ^ (-45 : ℤ) := by
  obtain ⟨c, hc⟩ : ∃ c : ℝ, 884279719003555 / 2 ^ 47 = c := ⟨_, rfl⟩
  have hvalue := value_two_mul_pi
  have hturn := abs_turn_sub_le
  have hc7 : |c| ≤ 7 := by
    rw [← hc]
    norm_num
  rw [hc] at hvalue hturn
  have hn' : (0 : ℝ) < n := by exact_mod_cast hn
  have hone : (1 : ℝ) ≤ n := by exact_mod_cast hn
  have hi' : (i : ℝ) ≤ n := by exact_mod_cast hi
  have hlength' : (n : ℝ) ≤ 2 ^ 20 := by exact_mod_cast hlength
  have hproduct : |c * i| ≤ 7 * n := by
    rw [abs_mul, Nat.abs_cast]
    exact mul_le_mul hc7 hi' (Nat.cast_nonneg i) (by norm_num)
  have hsmall : (2 : ℝ) ^ (-100 : ℤ) ≤ 1 := by norm_num
  obtain ⟨b, hb, hbnear⟩ := (rounds_mul hvalue (value_ofNat (n := i) (by omega))).exists_near
    hproduct (by linarith) (by linarith)
  have hquotient : |b / n| ≤ 8 := by
    have hu : (2 : ℝ) ^ (-52 : ℤ) ≤ 1 / 7 := by norm_num
    have hstep : 7 * (n : ℝ) * 2 ^ (-52 : ℤ) ≤ 7 * n * (1 / 7) :=
      mul_le_mul_of_nonneg_left hu (by positivity)
    have hb8 : |b| ≤ 8 * n := by
      have := (abs_sub_abs_le_abs_sub b (c * i)).trans (hbnear.trans hstep)
      linarith
    rwa [abs_div, Nat.abs_cast, div_le_iff₀ hn']
  obtain ⟨a, ha, hanear⟩ := (rounds_div hb (value_ofNat (n := n) (by omega))
    hn'.ne').exists_near hquotient (by norm_num) (by norm_num)
  refine ⟨a, ha, ?_⟩
  have hfirst : |b / n - c * i / n| ≤ 7 * 2 ^ (-52 : ℤ) := by
    rw [← sub_div, abs_div, Nat.abs_cast, div_le_iff₀ hn']
    linarith
  have hsecond : |c * i / n - 2 * Real.pi * i / n| ≤ 2 ^ (-51 : ℤ) := by
    rw [← sub_div, ← sub_mul, mul_div_assoc, abs_mul]
    have hratio : |(i : ℝ) / n| ≤ 1 := by
      rw [abs_div, Nat.abs_cast, Nat.abs_cast]
      exact (div_le_one hn').2 hi'
    exact (mul_le_of_le_one_right (abs_nonneg _) hratio).trans hturn
  calc |a - 2 * Real.pi * i / n|
      ≤ |a - b / n| + (|b / n - c * i / n| + |c * i / n - 2 * Real.pi * i / n|) :=
        (abs_sub_le _ (b / n) _).trans (add_le_add_right (abs_sub_le _ _ _) _)
    _ ≤ 8 * 2 ^ (-52 : ℤ) + (7 * 2 ^ (-52 : ℤ) + 2 ^ (-51 : ℤ)) :=
        add_le_add hanear (add_le_add hfirst hsecond)
    _ ≤ 2 ^ (-45 : ℤ) := by norm_num

/-- An accurate cosine is close to the exact one at every place. -/
theorem Functions.Accurate.exists_cosine {f : Functions} (h : f.Accurate)
    {p : HardwareProfile Float} (hlength : 0 < p.bufferLength.toNat)
    (hlength' : p.bufferLength.toNat ≤ 2 ^ 20) {i : ℕ} (hi : i ≤ p.bufferLength.toNat) :
    ∃ c, value? (f.cosine p i) = some c ∧
      |c - Waveform.turn p.bufferLength.toNat i| ≤ 2 ^ (-39 : ℤ) := by
  obtain ⟨a, ha, hangle⟩ := exists_angle hlength hlength' hi
  obtain ⟨c, hc, hcos⟩ := h.cos _ a ha
  refine ⟨c, hc, ?_⟩
  calc |c - Waveform.turn p.bufferLength.toNat i|
      ≤ |c - Real.cos a| + |Real.cos a - Waveform.turn p.bufferLength.toNat i| :=
        abs_sub_le _ _ _
    _ ≤ 2 ^ (-40 : ℤ) + 2 ^ (-45 : ℤ) :=
        add_le_add hcos ((Real.abs_cos_sub_cos_le _ _).trans hangle)
    _ ≤ 2 ^ (-39 : ℤ) := by norm_num

end ImpedanceBench.Double

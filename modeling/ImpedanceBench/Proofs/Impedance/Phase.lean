import Mathlib.Algebra.Order.ToIntervalMod
import ImpedanceBench.Proofs.Double.Unrounded
import ImpedanceBench.Proofs.Exact.Polar

/-!
Wrapped phases. In exact arithmetic a phase is wrapped to the one angle of `(-180, 180]` that is
whole turns away from it. In doubles only one step is rounded: a negative remainder is moved up by a
turn, and a tiny one is moved to the turn itself, which becomes zero. What has been wrapped is moved
up and down by a turn without rounding, so it is not changed by being wrapped again.
-/

namespace ImpedanceBench.ImpedancePoint

/-- An angle of `(-180, 180]` that is whole turns away from another one. -/
structure Wraps (degrees wrapped : ℝ) : Prop where
  low : -180 < wrapped
  high : wrapped ≤ 180
  turns : ∃ k : ℤ, degrees = wrapped + 360 * k

lemma wraps_iff {degrees wrapped : ℝ} : Wraps degrees wrapped ↔ wrapped = wrapPhase degrees := by
  have hturn : (0 : ℝ) < 360 := by norm_num
  have htop : (-180 : ℝ) + 360 = 180 := by norm_num
  rw [wrapPhase_real, eq_comm, toIocMod_eq_iff hturn, htop]
  constructor
  · rintro ⟨hlow, hhigh, k, hk⟩
    refine ⟨⟨hlow, hhigh⟩, k, ?_⟩
    rw [hk, zsmul_eq_mul, mul_comm]
  · rintro ⟨⟨hlow, hhigh⟩, k, hk⟩
    refine ⟨hlow, hhigh, k, ?_⟩
    rw [hk, zsmul_eq_mul, mul_comm]

lemma wraps_wrapPhase (degrees : ℝ) : Wraps degrees (wrapPhase degrees) := wraps_iff.2 rfl

lemma wrapPhase_add_turns (degrees : ℝ) (k : ℤ) :
    wrapPhase (degrees + 360 * k) = wrapPhase degrees := by
  obtain ⟨hlow, hhigh, j, hj⟩ := wraps_wrapPhase degrees
  refine (wraps_iff.1 ⟨hlow, hhigh, j + k, ?_⟩).symm
  push_cast
  linarith

lemma wrapPhase_self {degrees : ℝ} (hlow : -180 < degrees) (hhigh : degrees ≤ 180) :
    wrapPhase degrees = degrees := by
  refine (wraps_iff.1 ⟨hlow, hhigh, 0, ?_⟩).symm
  simp

/-! Doubles. -/

section Doubles

open Double

lemma value_turn : value? 360.0 = some 360 := by
  have h : (360.0 : Float).toModel.unpack = .finite .positive 6333186975989760 (-44) (by decide) :=
    rfl
  rw [value_of_unpack h]
  norm_num

lemma value_halfTurn : value? 180.0 = some 180 := by
  have h : (180.0 : Float).toModel.unpack = .finite .positive 6333186975989760 (-45) (by decide) :=
    rfl
  rw [value_of_unpack h]
  norm_num

variable {p : Float} {a : ℝ}

/-- The remainder of an angle by a turn, before it is moved up. -/
lemma value_rem_turn (h : value? p = some a) :
    value? (rem p 360.0) = some (Scalar.rem a 360) := value_rem h value_turn (by norm_num)

lemma remEuclid_of_neg (h : value? p = some a) (hneg : Scalar.rem a 360 < 0) :
    Scalar.remEuclid p 360.0 = rem p 360.0 + 360.0 :=
  if_pos ((lt_iff_value (value_rem_turn h) value_zero).2 hneg)

lemma remEuclid_of_nonneg (h : value? p = some a) (hnonneg : 0 ≤ Scalar.rem a 360) :
    Scalar.remEuclid p 360.0 = rem p 360.0 :=
  if_neg fun hlt => hnonneg.not_gt ((lt_iff_value (value_rem_turn h) value_zero).1 hlt)

/-- Moving a negative remainder up by a turn is the only rounding. -/
lemma exists_remEuclid (h : value? p = some a) : ∃ w, value? (Scalar.remEuclid p 360.0) = some w ∧
    0 ≤ w ∧ w ≤ 360 ∧ ∃ k : ℤ, |w + 360 * k - a| ≤ 2 ^ (-43 : ℤ) := by
  obtain ⟨hlow, hhigh, k, hk⟩ := Scalar.rem_real (show (0 : ℝ) < 360 by norm_num) a
  rw [zsmul_eq_mul] at hk
  have hrem := value_rem_turn h
  by_cases hneg : Scalar.rem a 360 < 0
  · rw [remEuclid_of_neg h hneg]
    have hrounds := rounds_add hrem value_turn
    obtain ⟨w, hw, hw0, hw360⟩ := hrounds.exists_between value_zero value_turn
      (by linarith) (by linarith)
    obtain ⟨w', hw', hnear⟩ := hrounds.exists_near (s := 360) (abs_le.2 ⟨by linarith, by linarith⟩)
      (by norm_num) (by norm_num)
    obtain rfl : w = w' := Option.some.inj (hw.symm.trans hw')
    refine ⟨w, hw, hw0, hw360, k - 1, ?_⟩
    have hsplit : w + 360 * (k - 1 : ℤ) - a = w - (Scalar.rem a 360 + 360) := by
      push_cast
      linarith
    rw [hsplit]
    exact hnear.trans (by norm_num)
  · rw [not_lt] at hneg
    rw [remEuclid_of_nonneg h hneg]
    refine ⟨_, hrem, hneg, hhigh.le, k, ?_⟩
    have hsplit : Scalar.rem a 360 + 360 * k - a = 0 := by linarith
    rw [hsplit, abs_zero]
    positivity

/-- The upper half of a turn is moved down, the rest stays. -/
lemma wrapPhase_cases {w : ℝ} (h : value? (Scalar.remEuclid p 360.0) = some w) :
    (180 < w ∧ wrapPhase p = Scalar.remEuclid p 360.0 - 360.0) ∨
      (w ≤ 180 ∧ wrapPhase p = Scalar.remEuclid p 360.0) := by
  by_cases hupper : 180 < w
  · exact .inl ⟨hupper, if_pos ((lt_iff_value value_halfTurn h).2 hupper)⟩
  · exact .inr ⟨not_lt.1 hupper,
      if_neg fun hlt => hupper ((lt_iff_value value_halfTurn h).1 hlt)⟩

lemma value_sub_turn {x : Float} {w : ℝ} (h : value? x = some w) (hlow : 180 < w) (hhigh : w ≤ 360) :
    value? (x - 360.0) = some (w - 360) := value_sub h value_turn (by linarith) (by linarith)

lemma exists_wrapPhase (h : value? p = some a) : ∃ v, value? (wrapPhase p) = some v ∧
    -180 < v ∧ v ≤ 180 ∧ ∃ k : ℤ, |v + 360 * k - a| ≤ 2 ^ (-43 : ℤ) := by
  obtain ⟨w, hw, hw0, hw360, k, hk⟩ := exists_remEuclid h
  obtain ⟨hupper, hwrap⟩ | ⟨hlower, hwrap⟩ := wrapPhase_cases hw <;> rw [hwrap]
  · refine ⟨w - 360, value_sub_turn hw hupper hw360, by linarith, by linarith, k + 1, ?_⟩
    have hsplit : w - 360 + 360 * (k + 1 : ℤ) - a = w + 360 * k - a := by
      push_cast
      ring
    rwa [hsplit]
  · exact ⟨w, hw, by linarith, hlower, k, hk⟩

/-- An angle of the lower half of a turn is not changed, and zero keeps its sign. -/
lemma wrapPhase_of_nonneg (h : value? p = some a) (hlow : 0 ≤ a) (hhigh : a ≤ 180) :
    wrapPhase p = p := by
  have hlt : |a| < |(360 : ℝ)| := by
    rw [abs_of_nonneg hlow, abs_of_nonneg (by norm_num)]
    linarith
  have hself : Scalar.remEuclid p 360.0 = p := by
    rw [remEuclid_of_nonneg h (by rwa [rem_real_of_lt hlt]), rem_of_lt h value_turn hlt]
  obtain ⟨hupper, -⟩ | ⟨-, hwrap⟩ := wrapPhase_cases (hself.symm ▸ h)
  · linarith
  · rw [hwrap, hself]

/-- A turn less than an angle of the upper half is not changed. -/
lemma wrapPhase_sub_turn {x : Float} {w : ℝ} (h : value? x = some w) (hlow : 180 < w)
    (hhigh : w ≤ 360) : wrapPhase (x - 360.0) = x - 360.0 := by
  have hsub := value_sub_turn h hlow hhigh
  obtain hlt | rfl := hhigh.lt_or_eq
  · have habs : |w - 360| < |(360 : ℝ)| := by
      rw [abs_of_neg (by linarith), abs_of_pos (by norm_num)]
      linarith
    have hback : Scalar.remEuclid (x - 360.0) 360.0 = x := by
      have hrounds := rounds_add hsub value_turn
      rw [sub_add_cancel] at hrounds
      rw [remEuclid_of_neg hsub (by rw [rem_real_of_lt habs]; linarith),
        rem_of_lt hsub value_turn habs]
      exact eq_of_value (hrounds.value_eq h) h (by linarith)
    obtain ⟨-, hwrap⟩ | ⟨hlower, -⟩ := wrapPhase_cases (hback.symm ▸ h)
    · rw [hwrap, hback]
    · linarith
  · exact wrapPhase_of_nonneg hsub (by norm_num) (by norm_num)

/-- Wrapping twice is wrapping once. -/
lemma wrapPhase_wrapPhase (h : value? p = some a) : wrapPhase (wrapPhase p) = wrapPhase p := by
  obtain ⟨w, hw, hw0, hw360, -⟩ := exists_remEuclid h
  obtain ⟨hupper, hwrap⟩ | ⟨hlower, hwrap⟩ := wrapPhase_cases hw <;> rw [hwrap]
  · exact wrapPhase_sub_turn hw hupper hw360
  · exact wrapPhase_of_nonneg hw hw0 hlower

/-- A wrapped double: it is in `(-180, 180]`, is not changed by being wrapped again, and is whole
turns away from what has been wrapped, up to one rounding. -/
structure WrapsRounded (p w : Float) : Prop where
  low : -180.0 < w
  high : w ≤ 180.0
  again : wrapPhase w = w
  turns : ∃ a v : ℝ, value? p = some a ∧ value? w = some v ∧
    ∃ k : ℤ, |v + 360 * k - a| ≤ 2 ^ (-43 : ℤ)

lemma wrapsRounded_wrapPhase (h : p.isFinite = true) : WrapsRounded p (wrapPhase p) := by
  obtain ⟨a, ha⟩ := exists_value_of_isFinite h
  obtain ⟨v, hv, hlow, hhigh, hturns⟩ := exists_wrapPhase ha
  constructor
  · exact (lt_iff_value (value_neg value_halfTurn) hv).2 hlow
  · exact (le_iff_value hv value_halfTurn).2 hhigh
  · exact wrapPhase_wrapPhase ha
  · exact ⟨a, v, ha, hv, hturns⟩

end Doubles

/-- **Phases are wrapped into `(-180, 180]`.** A finite double is, whatever is rounded, and stays as
it is when it is wrapped again. In exact arithmetic the wrapped phase is the only one in this
interval that is whole turns away; so phases that are whole turns apart are wrapped to the same one,
and those that are in the interval stay as they are. -/
theorem wrapPhase_wraps :
    (∀ p : Float, p.isFinite = true → WrapsRounded p (wrapPhase p)) ∧
    (∀ degrees wrapped : ℝ, Wraps degrees wrapped ↔ wrapped = wrapPhase degrees) ∧
    (∀ (degrees : ℝ) (k : ℤ), wrapPhase (degrees + 360 * k) = wrapPhase degrees) ∧
    (∀ degrees : ℝ, -180 < degrees → degrees ≤ 180 → wrapPhase degrees = degrees) ∧
    ∀ degrees : ℝ, wrapPhase (wrapPhase degrees) = wrapPhase degrees := by
  refine ⟨fun p => wrapsRounded_wrapPhase, fun _ _ => wraps_iff, wrapPhase_add_turns,
    fun _ => wrapPhase_self, fun degrees => ?_⟩
  obtain ⟨hlow, hhigh, -⟩ := wraps_wrapPhase degrees
  exact wrapPhase_self hlow hhigh

/-- A tiny negative angle has the whole turn as its remainder, and is wrapped to zero. -/
theorem wrapPhase_wraps_tiny : (-1e-20 : Float).isFinite = true ∧
    Scalar.remEuclid (-1e-20 : Float) 360.0 = 360.0 ∧ WrapsRounded (-1e-20) 0.0 := by
  have hfinite : (-1e-20 : Float).isFinite = true := by decide +kernel
  have hzero : wrapPhase (-1e-20 : Float) = 0.0 := by decide +kernel
  have hwraps := wrapPhase_wraps.1 (-1e-20) hfinite
  rw [hzero] at hwraps
  exact ⟨hfinite, by decide +kernel, hwraps⟩

end ImpedanceBench.ImpedancePoint

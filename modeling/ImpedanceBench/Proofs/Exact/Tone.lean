import Mathlib.Algebra.BigOperators.Field
import Mathlib.RingTheory.RootsOfUnity.Complex
import ImpedanceBench.Proofs.Exact.Polar

/-!
What the lock-in reads of a tone in exact arithmetic. Over whole periods of more than two samples
the double frequency sums to nothing, which leaves of the products of a tone with the references
what is constant in them: the cosine and the sine of its phase.
-/

namespace ImpedanceBench

open Real Finset

section Orthogonality

-- A sample is a step of `θ`, and `N` steps are a turn.
variable {N : ℕ} (hN : 2 < N) {θ : ℝ} (hθ : N * θ = 2 * π) (M : ℕ) (φ : ℝ)

include hN hθ

/-- The double frequency turns by a root of unity that is not 1. -/
lemma sum_exp_two_mul :
    ∑ k ∈ range (M * N), Complex.exp ((2 * (θ * k) + φ : ℝ) * Complex.I) = 0 := by
  have hN0 : N ≠ 0 := by omega
  have hζ : IsPrimitiveRoot (Complex.exp (2 * π * Complex.I / N)) N :=
    Complex.isPrimitiveRoot_exp N hN0
  have hstep : (2 * π * Complex.I / N : ℂ) = θ * Complex.I := by
    have hcast : (N * θ : ℂ) = 2 * π := mod_cast hθ
    rw [← hcast]
    field_simp
  rw [hstep] at hζ
  generalize hz : Complex.exp (θ * Complex.I) = ζ at hζ
  have hterm (k : ℕ) : Complex.exp ((2 * (θ * k) + φ : ℝ) * Complex.I) =
      Complex.exp (φ * Complex.I) * (ζ ^ 2) ^ k := by
    rw [← hz, ← pow_mul, ← Complex.exp_nat_mul, ← Complex.exp_add]
    push_cast
    ring_nf
  have hne : ζ ^ 2 - 1 ≠ 0 := sub_ne_zero.2 (hζ.pow_ne_one_of_pos_of_lt two_ne_zero hN)
  have hone : (ζ ^ 2) ^ (M * N) = 1 := by
    rw [← pow_mul, mul_comm M N, mul_left_comm, pow_mul, hζ.pow_eq_one, one_pow]
  have hgeom : (∑ k ∈ range (M * N), (ζ ^ 2) ^ k) * (ζ ^ 2 - 1) = 0 := by
    rw [geom_sum_mul, hone, sub_self]
  simp only [hterm]
  rw [← mul_sum, (mul_eq_zero_iff_right hne).1 hgeom, mul_zero]

lemma sum_cos_two_mul : ∑ k ∈ range (M * N), cos (2 * (θ * k) + φ) = 0 := by
  simpa only [Complex.re_sum, Complex.exp_ofReal_mul_I_re, Complex.zero_re] using
    congrArg Complex.re (sum_exp_two_mul hN hθ M φ)

lemma sum_sin_two_mul : ∑ k ∈ range (M * N), sin (2 * (θ * k) + φ) = 0 := by
  simpa only [Complex.im_sum, Complex.exp_ofReal_mul_I_im, Complex.zero_im] using
    congrArg Complex.im (sum_exp_two_mul hN hθ M φ)

lemma sum_sin_mul_sin :
    ∑ k ∈ range (M * N), sin (θ * k + φ) * sin (θ * k) = M * N / 2 * cos φ := by
  have hproduct (u : ℝ) : sin (u + φ) * sin u = (cos φ - cos (2 * u + φ)) / 2 := by
    have h := two_mul_sin_mul_sin (u + φ) u
    rw [add_sub_cancel_left, add_right_comm, ← two_mul] at h
    linarith
  simp only [hproduct]
  rw [← sum_div, sum_sub_distrib, sum_cos_two_mul hN hθ, sum_const, card_range, nsmul_eq_mul]
  push_cast
  ring

lemma sum_sin_mul_cos :
    ∑ k ∈ range (M * N), sin (θ * k + φ) * cos (θ * k) = M * N / 2 * sin φ := by
  have hproduct (u : ℝ) : sin (u + φ) * cos u = (sin φ + sin (2 * u + φ)) / 2 := by
    have h := two_mul_sin_mul_cos (u + φ) u
    rw [add_sub_cancel_left, add_right_comm, ← two_mul] at h
    linarith
  simp only [hproduct]
  rw [← sum_div, sum_add_distrib, sum_sin_two_mul hN hθ, sum_const, card_range, nsmul_eq_mul]
  push_cast
  ring

end Orthogonality

namespace LockIn

lemma steps_range {α : Type} (f : ℕ → α) (n : ℕ) :
    steps ((List.range (n + 1)).map f) = (List.range n).map fun k => (f k, f (k + 1)) := by
  apply List.ext_getElem
  · simp
  · intro k h₁ h₂
    simp [steps]

/-- Over whole periods both ends of the window count as one sample. -/
lemma trapezoid_of_periodic {f : ℕ → ℝ} {n : ℕ} (h : f n = f 0) (T : ℝ) :
    trapezoid ((List.range (n + 1)).map f) ((List.range (n + 1)).map fun k : ℕ => k * T) =
      T * ∑ k ∈ range n, f k := by
  have htwo : (2.0 : ℝ) = 2 := by norm_num
  have hshift : ∑ k ∈ range n, f (k + 1) = ∑ k ∈ range n, f k := by
    have hends := (sum_range_succ f n).symm.trans (sum_range_succ' f n)
    linarith
  have harea (k : ℕ) : (((k + 1 : ℕ) : ℝ) * T - k * T) * (f k + f (k + 1)) / 2.0 =
      T / 2 * (f k + f (k + 1)) := by
    rw [htwo]
    push_cast
    ring
  rw [trapezoid, integral, steps_range, steps_range, List.zipWith_map, List.zipWith_self,
    Scalar.sum_real]
  simp only [harea]
  change ∑ k ∈ range n, T / 2 * (f k + f (k + 1)) = _
  rw [← mul_sum, sum_add_distrib, hshift]
  ring

lemma make_real (n : ℕ) (ω T : ℝ) (rule : IntegrationRule) :
    make n ω T rule =
      let times := (List.range n).map fun k : ℕ => k * T
      ⟨rule, times, times.map fun t => sin (t * ω), times.map fun t => cos (t * ω)⟩ := by
  simp only [make, Scalar.ofNat_real]
  rfl

/-- The samples `a · sin (ω k T + φ)` for `k < n`. -/
noncomputable def tone (n : ℕ) (ω T a φ : ℝ) : List ℝ :=
  (List.range n).map fun k : ℕ => a * sin (ω * k * T + φ)

@[simp] lemma length_tone (n : ℕ) (ω T a φ : ℝ) : (tone n ω T a φ).length = n := by
  simp [tone]

section Window

variable {N : ℕ} {T ω : ℝ} (hω : N * (ω * T) = 2 * π) (M : ℕ) (a φ : ℝ)

include hω

/-- A tone times a reference of its period has this period too, so that its integral is a sum. -/
lemma trapezoid_tone_mul {reference : ℝ → ℝ} (hperiodic : reference.Periodic (2 * π)) :
    trapezoid
      (List.zipWith (· * ·) (tone (M * N + 1) ω T a φ)
        (((List.range (M * N + 1)).map fun k : ℕ => k * T).map fun t => reference (t * ω)))
      ((List.range (M * N + 1)).map fun k : ℕ => k * T) =
    T * (a * ∑ k ∈ range (M * N), sin (ω * T * k + φ) * reference (ω * T * k)) := by
  have htone (k : ℕ) : ω * k * T = ω * T * k := mul_right_comm ω k T
  have href (k : ℕ) : k * T * ω = ω * T * k := by ring
  have hturns : ω * T * (M * N : ℕ) = M * (2 * π) := by
    rw [← hω]
    push_cast
    ring
  rw [tone, List.map_map, List.zipWith_map, List.zipWith_self]
  simp only [Function.comp_apply, htone, href]
  rw [trapezoid_of_periodic]
  · simp only [mul_sum, mul_assoc]
  · rw [hturns, Nat.cast_zero, mul_zero, hperiodic.nat_mul_eq, zero_add, add_comm,
      sin_add_nat_mul_two_pi]

/-- A window over `M` periods of `N` samples reads of a tone its amplitude times the cosine and the
sine of its phase, times half of the time. -/
lemma components_tone (hN : 2 < N) :
    (make (M * N + 1) ω T .signed).components (tone (M * N + 1) ω T a φ) =
      ⟨a * cos φ * (M * N * T) / 2, a * sin φ * (M * N * T) / 2⟩ := by
  have hsine := trapezoid_tone_mul hω M a φ sin_periodic
  have hcosine := trapezoid_tone_mul hω M a φ cos_periodic
  rw [sum_sin_mul_sin hN hω] at hsine
  rw [sum_sin_mul_cos hN hω] at hcosine
  rw [make_real, components]
  refine congrArg₂ Components.mk (hsine.trans ?_) (hcosine.trans ?_)
  · ring
  · ring

end Window

/-- What a window of the time `D` shows of a voltage `A · sin (ω t + p)` and a current
`B · sin (ω t + r)`: both tones, and the quotient of their phasors. -/
structure Recovers (A p B r D : ℝ) (shown : Components ℝ × Components ℝ) : Prop where
  voltage : shown.1 = ⟨A * cos p * D / 2, A * sin p * D / 2⟩
  current : shown.2 = ⟨B * cos r * D / 2, B * sin r * D / 2⟩
  estimate : ∀ frequency : ℝ, ImpedancePoint.estimate frequency shown.1 shown.2 =
    .ok ⟨frequency, A / B * cos (p - r), A / B * sin (p - r), A / B,
      ImpedancePoint.wrapPhase (Scalar.toDegrees (p - r))⟩

/-- **Tones are recovered exactly** over any number of periods of at least three samples. -/
theorem recovers_tones {N M : ℕ} (hN : 3 ≤ N) (hM : 1 ≤ M) {T ω A B : ℝ} (hT : 0 < T)
    (hω : ω = 2 * π / (N * T)) (hA : 0 < A) (hB : 0 < B) (p r : ℝ) :
    Recovers A p B r (M * N * T)
      (demodulate (tone (M * N + 1) ω T A p) (tone (M * N + 1) ω T B r) ω T .signed) := by
  have hD : 0 < M * N * T := by positivity
  have hturn : N * (ω * T) = 2 * π := by
    rw [hω]
    field_simp
  rw [demodulate, length_tone, length_tone, max_self, components_tone hturn M A p hN,
    components_tone hturn M B r hN]
  refine ⟨rfl, rfl, fun frequency => ?_⟩
  generalize M * N * T = D at hD
  have hpolar (a x : ℝ) : a * x * D / 2 = a * D / 2 * x := by ring
  have hratio : A * D / 2 / (B * D / 2) = A / B := by field_simp
  rw [hpolar, hpolar, hpolar, hpolar,
    ImpedancePoint.estimate_polar frequency (by positivity) (by positivity), hratio]

/-- One period of four samples, of a voltage a quarter of a turn ahead of the current. -/
theorem recovers_tones_quarter :
    Recovers 6 (π / 2) 2 0 4
        (demodulate (tone 5 (π / 2) 1 6 (π / 2)) (tone 5 (π / 2) 1 2 0) (π / 2) 1 .signed) ∧
      ImpedancePoint.wrapPhase (Scalar.toDegrees (π / 2 - 0)) = 90 := by
  have hω : π / 2 = 2 * π / ((4 : ℕ) * 1) := by
    push_cast
    ring
  have hsix : (0 : ℝ) < 6 := by norm_num
  have hD : ((1 : ℕ) : ℝ) * (4 : ℕ) * 1 = 4 := by norm_num
  have hquarter : toIocMod two_pi_pos (-π) (π / 2 - 0) = π / 2 := by
    rw [sub_zero, toIocMod_eq_self]
    constructor <;> linarith [pi_pos]
  constructor
  · exact hD ▸ recovers_tones (show 3 ≤ 4 by decide) le_rfl one_pos hω hsix two_pos (π / 2) 0
  · rw [ImpedancePoint.wrapPhase_toDegrees, hquarter, Scalar.toDegrees_real]
    field_simp
    norm_num

end LockIn

end ImpedanceBench

import Mathlib.Topology.EMetricSpace.BoundedVariation
import ImpedanceBench.Proofs.Acquisition.Overlap
import ImpedanceBench.Proofs.Exact.Superposition

/-!
In which sense the two rules are integrals. Both add up segments, so they can be split at every
sample, and what has no partner in the other list plays no part. The trapezoid rule is exact on
straight lines for any spacing of the times. The movement forgets the level of the values and
measures how much they vary; on a uniform grid it is their total variation.
-/

namespace ImpedanceBench.LockIn

section Segments

variable {α : Type}

lemma steps_drop (xs : List α) (m : ℕ) : steps (xs.drop m) = (steps xs).drop m := by
  rw [steps, steps, List.zip_eq_zipWith, List.zip_eq_zipWith, List.drop_zipWith, List.tail_drop,
    List.drop_tail]

/-- The steps of two lists side by side are those of the pairs. -/
lemma zip_steps {β : Type} (xs : List α) (ys : List β) : (steps xs).zip (steps ys) =
    (steps (xs.zip ys)).map fun s => ((s.1.1, s.2.1), (s.1.2, s.2.2)) := by
  induction xs generalizing ys with
  | nil => rfl
  | cons x xs ih =>
    cases xs with
    | nil => cases ys <;> simp [steps]
    | cons x' xs =>
      cases ys with
      | nil => simp [steps]
      | cons y ys =>
        cases ys with
        | nil => simp [steps]
        | cons y' ys => exact congrArg _ (ih (y' :: ys))

variable [Scalar α]

/-- An integral is one of the samples that have a time. -/
lemma integral_eq_sum (area : α × α → α × α → α) (values times : List α) :
    integral area values times = Scalar.sum ((steps (values.zip times)).map fun s =>
      area (s.1.1, s.2.1) (s.1.2, s.2.2)) := by
  rw [integral, ← List.map_uncurry_zip_eq_zipWith, zip_steps, List.map_map]
  rfl

end Segments

/-- What both rules have in common, as sums over the segments between samples that have a time. -/
structure SumsSegments (rule : List ℝ → List ℝ → ℝ) : Prop where
  /-- Sample `m` ends one part and begins the other. -/
  split : ∀ (values times : List ℝ) (m : ℕ), rule values times =
    rule (values.take (m + 1)) (times.take (m + 1)) + rule (values.drop m) (times.drop m)
  overlap : ∀ values times values' times' : List ℝ, values.zip times = values'.zip times' →
    rule values times = rule values' times'
  short : ∀ values times : List ℝ, min values.length times.length < 2 → rule values times = 0

lemma sumsSegments (area : ℝ × ℝ → ℝ × ℝ → ℝ) : SumsSegments (integral area) where
  split values times m := by
    have hleft : (values.take (m + 1)).zip (times.take (m + 1)) =
        (values.zip times).take (m + 1) := by
      rw [List.zip_eq_zipWith, List.zip_eq_zipWith, List.take_zipWith]
    have hright : (values.drop m).zip (times.drop m) = (values.zip times).drop m := by
      rw [List.zip_eq_zipWith, List.zip_eq_zipWith, List.drop_zipWith]
    rw [integral_eq_sum, integral_eq_sum, integral_eq_sum, hleft, hright, steps_take, steps_drop,
      List.map_take, List.map_drop, Scalar.sum_real, Scalar.sum_real, Scalar.sum_real]
    exact (List.sum_take_add_sum_drop _ m).symm
  overlap values times values' times' h := by rw [integral_eq_sum, integral_eq_sum, h]
  short values times h := by
    have hlength : (steps (values.zip times)).length = 0 := by
      rw [length_steps, List.length_zip]
      omega
    rw [integral_eq_sum, List.eq_nil_of_length_eq_zero hlength, List.map_nil, Scalar.sum_real,
      List.sum_nil]

lemma sumsSegments_integrate (rule : IntegrationRule) : SumsSegments (integrate rule) := by
  cases rule <;> exact sumsSegments _

lemma trapezoid_cons_cons (f f' : ℝ) (fs : List ℝ) (t t' : ℝ) (ts : List ℝ) :
    trapezoid (f :: f' :: fs) (t :: t' :: ts) =
      (t' - t) * (f + f') / 2 + trapezoid (f' :: fs) (t' :: ts) := by
  have htwo : (2.0 : ℝ) = 2 := by norm_num
  rw [trapezoid, integral_cons_cons, htwo]

lemma movement_cons_cons (f f' : ℝ) (fs : List ℝ) (t t' : ℝ) (ts : List ℝ) :
    movement (f :: f' :: fs) (t :: t' :: ts) =
      |(t' - t) * (f - f') / 2| + movement (f' :: fs) (t' :: ts) := by
  have htwo : (2.0 : ℝ) = 2 := by norm_num
  rw [movement, integral_cons_cons, htwo]
  rfl

/-- The area under a straight line, whatever the times in between. -/
lemma trapezoid_affine (a b t : ℝ) (ts : List ℝ) :
    trapezoid ((t :: ts).map (a * · + b)) (t :: ts) =
      a * ((t :: ts).getLast (List.cons_ne_nil t ts) ^ 2 - t ^ 2) / 2 +
        b * ((t :: ts).getLast (List.cons_ne_nil t ts) - t) := by
  induction ts generalizing t with
  | nil =>
    have hshort : trapezoid ([t].map (a * · + b)) [t] = 0 := (sumsSegments _).short _ _ (by simp)
    rw [hshort]
    simp
  | cons t' ts ih =>
    have hrest := ih t'
    rw [List.map_cons] at hrest
    rw [List.map_cons, List.map_cons, trapezoid_cons_cons, hrest,
      List.getLast_cons (List.cons_ne_nil t' ts)]
    ring

/-- A movement sees the differences of the values only, and not their signs. -/
lemma movement_congr {g : ℝ → ℝ} (hg : ∀ x y, |g x - g y| = |x - y|) (values times : List ℝ) :
    movement (values.map g) times = movement values times := by
  have harea (w x y c : ℝ) : |w * (g x - g y) / c| = |w * (x - y) / c| := by
    rw [abs_div, abs_mul, hg, abs_div, abs_mul]
  rw [movement, integral, integral, steps_map, List.zipWith_map_left]
  congr 2
  funext f t
  exact harea _ _ _ _

/-! Total variation. -/

/-- The total variation of a sequence, as that of a function of the places in it. -/
noncomputable def variation (values : List ℝ) : ℝ :=
  (eVariationOn (fun i => values.getD i 0) (Set.Iio values.length)).toReal

lemma variation_cons (x : ℝ) (xs : List ℝ) : variation (x :: xs) =
    ∑ i ∈ Finset.range xs.length, |(x :: xs).getD i 0 - (x :: xs).getD (i + 1) 0| := by
  have hplaces : Set.Iio (x :: xs).length = id '' Set.Iic xs.length := by
    rw [Set.image_id]
    ext i
    simp
  rw [variation, hplaces, eVariationOn.image_range_of_monotone _ monotone_id,
    ENNReal.toReal_sum fun i _ => edist_ne_top _ _]
  exact Finset.sum_congr rfl fun i _ => (dist_edist _ _).symm

lemma variation_of_short {values : List ℝ} (h : values.length < 2) : variation values = 0 := by
  rcases values with _ | ⟨x, _ | ⟨y, xs⟩⟩
  · simp [variation]
  · simp [variation_cons]
  · simp at h

lemma variation_cons_cons (x y : ℝ) (xs : List ℝ) :
    variation (x :: y :: xs) = |x - y| + variation (y :: xs) := by
  rw [variation_cons, variation_cons, List.length_cons, Finset.sum_range_succ', add_comm]
  rfl

/-- On a grid of one step a movement is the total variation of the values that have a time. -/
lemma movement_uniform {d : ℝ} : ∀ {times : List ℝ} (_ : times.IsChain fun t t' => t' - t = d)
    (values : List ℝ), movement values times = |d| / 2 * variation (values.take times.length)
  | t :: t' :: ts, h, f :: f' :: fs => by
    rw [List.isChain_cons_cons] at h
    have hrest := movement_uniform h.2 (f' :: fs)
    rw [List.length_cons, List.take_succ_cons] at hrest
    rw [movement_cons_cons, hrest, List.length_cons, List.length_cons, List.take_succ_cons,
      List.take_succ_cons, variation_cons_cons, h.1, abs_div, abs_mul, abs_two]
    ring
  -- Otherwise there is no segment.
  | [], _, _ | [_], _, _ | _ :: _ :: _, _, [] | _ :: _ :: _, _, [_] => by
    rw [variation_of_short (by simp), mul_zero]
    exact (sumsSegments _).short _ _ (by simp)

/-- **The two rules as integrals**, on any grid. Both add up over its parts and use the samples only
that have a time. The trapezoid rule is exact on straight lines. The movement is half the step times
the total variation where the grid has one step, and on every grid a constant that is added to the
values, or the sign of them all, makes no difference to it. -/
theorem integrates_segments :
    (∀ rule, SumsSegments (integrate rule)) ∧
    (∀ (a b : ℝ) (times : List ℝ) (h : times ≠ []),
      trapezoid (times.map (a * · + b)) times =
        a * (times.getLast h ^ 2 - times.head h ^ 2) / 2 +
          b * (times.getLast h - times.head h)) ∧
    (∀ (d : ℝ) (times : List ℝ), (times.IsChain fun t t' => t' - t = d) → ∀ values : List ℝ,
      movement values times = |d| / 2 * variation (values.take times.length)) ∧
    ∀ values times : List ℝ, (∀ c : ℝ, movement (values.map (· + c)) times = movement values times) ∧
      movement (values.map (-·)) times = movement values times := by
  refine ⟨sumsSegments_integrate, fun a b times h => ?_, fun d times h values => ?_,
    fun values times => ⟨fun c => ?_, ?_⟩⟩
  · obtain ⟨t, ts, rfl⟩ := List.exists_cons_of_ne_nil h
    exact trapezoid_affine a b t ts
  · exact movement_uniform h values
  · exact movement_congr (fun x y => by rw [add_sub_add_right_eq_sub]) values times
  · exact movement_congr (fun x y => by rw [neg_sub_neg, abs_sub_comm]) values times

/-- A straight line at uneven times, and three values on four times of one step: from 0 over 2 down
to -1 they vary by 5. -/
theorem integrates_segments_uneven :
    let times : List ℝ := [0, 1, 2, 3]
    trapezoid [1, 4, 10] [0, 1, 3] = (33 / 2 : ℝ) ∧ movement [0, 2, -1] times = 5 / 2 ∧
      movement [0, 2, -1] times = movement [0, 2] [0, 1] + movement [2, -1] [1, 2, 3] ∧
      movement [5] times = 0 := by
  intro times
  obtain ⟨hsegments, haffine, huniform, -⟩ := integrates_segments
  have hstep : times.IsChain fun t t' => t' - t = 1 := by norm_num [times]
  refine ⟨?_, ?_, (hsegments .absoluteSegments).split [0, 2, -1] times 1,
    (hsegments .absoluteSegments).short [5] times (by simp)⟩
  · have hline := haffine 3 1 [0, 1, 3] (by simp)
    norm_num at hline
    exact hline
  · rw [huniform 1 times hstep]
    norm_num [times, variation_cons_cons, variation_of_short]

end ImpedanceBench.LockIn

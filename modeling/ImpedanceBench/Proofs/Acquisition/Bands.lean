import Mathlib.Order.Bounds.Defs
import ImpedanceBench.Proofs.Sweep.Accepted

/-!
Which band of a table samples a frequency. The first band whose threshold the frequency reaches is
taken, whatever the order of the table; in a descending table this is the band with the greatest
threshold that the frequency reaches. There is none exactly below the least threshold.
-/

namespace ImpedanceBench

namespace DecimationBand

variable {bands : List (DecimationBand Float)} {low : Float}

lemma lowest_concat {α : Type} [Scalar α] (bands : List (DecimationBand α))
    (b : DecimationBand α) :
    lowest (bands ++ [b]) =
      match lowest bands with
      | none => if Scalar.undefined b.threshold then none else some b.threshold
      | some x => if b.threshold ≤ x then some b.threshold else some x := by
  rw [lowest, List.foldl_append]
  rfl

/-- Only a table without a defined threshold has no lowest one. -/
lemma lowest_eq_none_iff :
    lowest bands = none ↔ ∀ b ∈ bands, ¬ b.threshold ≤ b.threshold := by
  induction bands using List.reverseRecOn with
  | nil => simp [lowest]
  | append_singleton bands b ih =>
    rw [lowest_concat, List.forall_mem_append, ← ih]
    cases lowest bands with
    | none => simp [Scalar.undefined]
    | some x =>
      dsimp only
      split <;> simp

/-- The lowest threshold is not above any that is defined. -/
lemma lowest_le (h : lowest bands = some low) :
    low ≤ low ∧ ∀ b ∈ bands, b.threshold ≤ b.threshold → low ≤ b.threshold := by
  induction bands using List.reverseRecOn generalizing low with
  | nil => cases h
  | append_singleton bands b ih =>
    rw [lowest_concat] at h
    rw [List.forall_mem_append, List.forall_mem_singleton]
    cases hbefore : lowest bands with
    | none =>
      have hundefined := lowest_eq_none_iff.1 hbefore
      simp only [hbefore] at h
      split at h <;> cases h
      rename_i hb
      have hdef : b.threshold ≤ b.threshold := by simpa [Scalar.undefined] using hb
      exact ⟨hdef, fun b' hb' hdef' => absurd hdef' (hundefined b' hb'), id⟩
    | some x =>
      obtain ⟨hx, hleast⟩ := ih hbefore
      simp only [hbefore] at h
      split at h <;> cases h
      · rename_i hb
        exact ⟨(Double.le_self_of_le hb).1,
          fun b' hb' hdef => Double.le_trans hb (hleast b' hb' hdef), id⟩
      · rename_i hb
        exact ⟨hx, hleast, fun hdef => (Double.le_or_le hx hdef).resolve_right hb⟩

def thresholds (bands : List (DecimationBand Float)) : Set Float :=
  {x | ∃ b ∈ bands, b.threshold = x}

/-- From one band to the next the thresholds fall. -/
def Descending (bands : List (DecimationBand Float)) : Prop :=
  bands.Pairwise fun a b => b.threshold < a.threshold

lemma exists_isLeast (hne : bands ≠ [])
    (hpos : ∀ b ∈ bands, Scalar.positive b.threshold = true) :
    ∃ low, lowest bands = some low ∧ IsLeast (thresholds bands) low := by
  have hdef : ∀ b ∈ bands, b.threshold ≤ b.threshold := fun b hb =>
    (Double.le_self_of_lt (Scalar.positive_iff.1 (hpos b hb)).1).2
  obtain ⟨b, hb⟩ := List.exists_mem_of_ne_nil bands hne
  obtain ⟨low, hlow⟩ := Option.ne_none_iff_exists'.1 fun hnone =>
    lowest_eq_none_iff.1 hnone b hb (hdef b hb)
  refine ⟨low, hlow, mem_of_lowest hlow, ?_⟩
  rintro _ ⟨b', hb', rfl⟩
  exact (lowest_le hlow).2 b' hb' (hdef b' hb')

end DecimationBand

namespace AcquisitionPlan

open DecimationBand

variable {bands : List (DecimationBand Float)} {f : Float}

section

variable {α : Type} [Scalar α] {bands : List (DecimationBand α)} {f : α}

/-- The first band is taken whose threshold the frequency reaches. -/
lemma band?_eq_some_iff {b : DecimationBand α} {i : ℕ} :
    band? bands f = some (b, i) ↔ ∃ h : i < bands.length, bands[i] = b ∧ b.threshold ≤ f ∧
      ∀ j (hj : j < i), ¬ bands[j].threshold ≤ f := by
  rw [band?, List.find?_eq_some_iff_getElem]
  simp only [List.getElem_zipIdx, List.length_zipIdx, Prod.mk.injEq, decide_eq_true_eq,
    Bool.not_eq_true', decide_eq_false_iff_not, Nat.zero_add]
  constructor
  · rintro ⟨hreached, _, h, ⟨hb, rfl⟩, hfirst⟩
    exact ⟨h, hb, hreached, hfirst⟩
  · rintro ⟨h, hb, hreached, hfirst⟩
    exact ⟨hreached, i, h, ⟨hb, rfl⟩, hfirst⟩

/-- The samples that take the time of the periods, not yet rounded to a whole number. -/
def demand (rate f : α) (n factor : UInt32) : α :=
  Scalar.ofNat n.toNat * rate / (f * Scalar.ofNat factor.toNat)

/-- A plan is made for the band that is taken. -/
lemma make_eq_ok_iff {rate : α} {n : UInt32} {plan : AcquisitionPlan α} :
    make bands rate f n = .ok plan ↔ ∃ b i, band? bands f = some (b, i) ∧
      plan = ⟨i, b.factor, Scalar.toUInt64 (Scalar.round (demand rate f n b.factor)),
        Scalar.ofNat b.factor.toNat / rate⟩ := by
  unfold make
  constructor
  · intro h
    split at h
    · cases h
    · rename_i b i hband
      cases h
      exact ⟨b, i, hband, rfl⟩
  · rintro ⟨b, i, hband, rfl⟩
    rw [hband]
    rfl

lemma band?_of_make {rate : α} {n : UInt32} {plan : AcquisitionPlan α}
    (h : make bands rate f n = .ok plan) :
    ∃ b, band? bands f = some (b, plan.bucket) ∧ plan.factor = b.factor := by
  obtain ⟨b, i, hband, rfl⟩ := make_eq_ok_iff.1 h
  exact ⟨b, hband, rfl⟩

end

lemma make_eq_error (h : ∀ b ∈ bands, ¬ b.threshold ≤ f) (rate : Float) (n : UInt32) :
    make bands rate f n = .error (.frequencyBelowRange f (lowest bands)) := by
  rw [make, band?_eq_none_iff.2 h]

/-- A higher frequency is sampled in the same band or in an earlier one. -/
lemma bucket_le {rate rate' f' : Float} {n n' : UInt32} {plan plan' : AcquisitionPlan Float}
    (h : make bands rate f n = .ok plan) (h' : make bands rate' f' n' = .ok plan') (hle : f ≤ f') :
    plan'.bucket ≤ plan.bucket := by
  obtain ⟨b, hband, -⟩ := band?_of_make h
  obtain ⟨b', hband', -⟩ := band?_of_make h'
  obtain ⟨hi, rfl, hreached, -⟩ := band?_eq_some_iff.1 hband
  obtain ⟨_, rfl, -, hfirst⟩ := band?_eq_some_iff.1 hband'
  by_contra hlt
  exact hfirst _ (not_le.1 hlt) (Double.le_trans hreached hle)

/-- The thresholds that a frequency reaches. -/
def reached (bands : List (DecimationBand Float)) (f : Float) : Set Float :=
  {x ∈ thresholds bands | x ≤ f}

/-- In a descending table the later thresholds are the lower ones. -/
lemma isGreatest_reached_iff (hdesc : Descending bands) {b : DecimationBand Float} {bucket : ℕ}
    (hband : band? bands f = some (b, bucket)) {i : ℕ} (hi : i < bands.length) :
    IsGreatest (reached bands f) bands[i].threshold ↔ i = bucket := by
  obtain ⟨hbucket, rfl, hreached, hfirst⟩ := band?_eq_some_iff.1 hband
  have hfalls := List.pairwise_iff_getElem.1 hdesc
  constructor
  · rintro ⟨⟨-, hi'⟩, hupper⟩
    rcases lt_trichotomy i bucket with hlt | heq | hlt
    · exact absurd hi' (hfirst i hlt)
    · exact heq
    · have hle := hupper ⟨⟨_, List.getElem_mem hbucket, rfl⟩, hreached⟩
      exact absurd hle (Double.not_le_of_lt (hfalls _ _ hbucket hi hlt))
  · rintro rfl
    refine ⟨⟨⟨_, List.getElem_mem hi, rfl⟩, hreached⟩, ?_⟩
    rintro _ ⟨⟨b', hb', rfl⟩, hb'f⟩
    obtain ⟨j, hj, rfl⟩ := List.mem_iff_getElem.1 hb'
    rcases lt_trichotomy j i with hlt | rfl | hlt
    · exact absurd hb'f (hfirst j hlt)
    · exact (Double.le_self_of_le hreached).1
    · exact Double.le_of_lt (hfalls _ _ hi hj hlt)

/-- The least threshold of a descending table is its last one. -/
lemma eq_getLast_of_isLeast (hdesc : Descending bands) (hne : bands ≠ []) {low : Float}
    (hlow : IsLeast (thresholds bands) low) : low = (bands.getLast hne).threshold := by
  obtain ⟨⟨b, hb, rfl⟩, hleast⟩ := hlow
  obtain ⟨i, hi, rfl⟩ := List.mem_iff_getElem.1 hb
  have hlast := hleast ⟨_, List.getLast_mem hne, rfl⟩
  rw [List.getLast_eq_getElem] at hlast ⊢
  rcases (show i ≤ bands.length - 1 by omega).lt_or_eq with hlt | rfl
  · have hbelow := List.pairwise_iff_getElem.1 hdesc i (bands.length - 1) hi (by omega) hlt
    exact absurd hlast (Double.not_le_of_lt hbelow)
  · rfl

/-- How a table with the least threshold `low` chooses: a frequency has a plan exactly from `low`
on, and a higher one is sampled no later in the table. -/
structure Chooses (bands : List (DecimationBand Float)) (low : Float) : Prop where
  least : IsLeast (thresholds bands) low
  succeeds : ∀ rate f n, (∃ plan, make bands rate f n = .ok plan) ↔ low ≤ f
  fails : ∀ rate f n, ¬ low ≤ f →
    make bands rate f n = .error (.frequencyBelowRange f (some low))
  bucket_le : ∀ rate rate' f f' n n' plan plan', make bands rate f n = .ok plan →
    make bands rate' f' n' = .ok plan' → f ≤ f' → plan'.bucket ≤ plan.bucket

/-- The place of a plan is the one of the greatest threshold that its frequency reaches. -/
def TakesGreatest (bands : List (DecimationBand Float)) : Prop :=
  ∀ rate f n plan, make bands rate f n = .ok plan →
    (∃ h : plan.bucket < bands.length, bands[plan.bucket].factor = plan.factor) ∧
    ∀ i (h : i < bands.length),
      IsGreatest (reached bands f) bands[i].threshold ↔ i = plan.bucket

/-- **Choice of the band.** A table of positive thresholds has a plan for a frequency exactly if it
reaches the least of them; if the thresholds descend, this is the last one, and the band with the
greatest threshold that is reached is taken. -/
theorem chooses_of_positive (nonempty : bands ≠ [])
    (positive : ∀ b ∈ bands, Scalar.positive b.threshold = true) :
    ∃ low, Chooses bands low ∧ (Descending bands →
      low = (bands.getLast nonempty).threshold ∧ TakesGreatest bands) := by
  obtain ⟨low, hlow, hleast⟩ := exists_isLeast nonempty positive
  have hbelow {f : Float} (hf : ¬ low ≤ f) : ∀ b ∈ bands, ¬ b.threshold ≤ f := fun b hb hle =>
    hf (Double.le_trans (hleast.2 ⟨b, hb, rfl⟩) hle)
  refine ⟨low, ⟨hleast, fun rate f n => ⟨?_, fun hf => ?_⟩, fun rate f n hf => ?_, ?_⟩,
    fun hdesc => ⟨eq_getLast_of_isLeast hdesc nonempty hleast, fun rate f n plan h => ?_⟩⟩
  · rintro ⟨plan, h⟩
    by_contra hf
    rw [make_eq_error (hbelow hf)] at h
    cases h
  · obtain ⟨b, hb, rfl⟩ := hleast.1
    exact exists_make hb hf rate n
  · rw [make_eq_error (hbelow hf), hlow]
  · exact fun _ _ _ _ _ _ _ _ => bucket_le
  · obtain ⟨b, hband, hfactor⟩ := band?_of_make h
    obtain ⟨hbucket, rfl, -⟩ := band?_eq_some_iff.1 hband
    exact ⟨⟨hbucket, hfactor.symm⟩, fun i hi => isGreatest_reached_iff hdesc hband hi⟩

/-- The standard table, at a threshold and below all of them. -/
theorem chooses_of_positive_standard :
    (∀ b ∈ (standard : List (DecimationBand Float)), Scalar.positive b.threshold = true) ∧
      Descending standard ∧ TakesGreatest standard ∧
      IsGreatest (reached standard 2500.0) (2500.0 : Float) ∧
      ∃ low, Chooses standard low ∧ make standard 125000000.0 2.0 15 =
        .error (.frequencyBelowRange 2.0 (some low)) := by
  have hpos : ∀ b ∈ (standard : List (DecimationBand Float)),
      Scalar.positive b.threshold = true := by
    decide +kernel
  have hdesc : Descending standard := by
    unfold Descending
    decide +kernel
  obtain ⟨low, hchooses, hlast⟩ := chooses_of_positive (by decide) hpos
  obtain ⟨rfl, hgreatest⟩ := hlast hdesc
  refine ⟨hpos, hdesc, hgreatest, ?_, _, hchooses, hchooses.fails _ _ _ (by decide +kernel)⟩
  exact (hgreatest 125000000.0 2500.0 15 _ rfl).2 2 (by decide) |>.2 rfl

end AcquisitionPlan

end ImpedanceBench

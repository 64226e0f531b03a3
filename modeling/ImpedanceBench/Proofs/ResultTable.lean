import ImpedanceBench.Proofs.Double.Functions
import ImpedanceBench.Proofs.Rig.Baseline

/-!
The correction of any table by any other, in whatever order their entries stand and however often a
frequency occurs. Either each entry is corrected by the first entry of the baseline within the
tolerance and nothing else changes, or the first entry without one is reported; what the baseline
holds beyond that has no influence. The tolerance of doubles is that of real numbers, up to the last
places of the distance and of the bound.
-/

namespace ImpedanceBench

open Double

namespace ResultTable

/-- The first entry of the table within the tolerance of the frequency. -/
def FirstWithin (table : ResultTable Float) (frequency : Float) (b : FrequencyResult Float) :
    Prop :=
  ∃ before after, table.entries = before ++ b :: after ∧ SameFrequency frequency b.frequency ∧
    ∀ d ∈ before, ¬ SameFrequency frequency d.frequency

/-- Some entry of the table is within the tolerance of the frequency. -/
def Covers (table : ResultTable Float) (frequency : Float) : Prop :=
  ∃ b ∈ table.entries, SameFrequency frequency b.frequency

/-- The entries of a baseline within the tolerance of some measured frequency. -/
def relevant (short measured : ResultTable Float) : List (FrequencyResult Float) :=
  short.entries.filter fun b =>
    measured.entries.any fun e => SameFrequency e.frequency b.frequency

/-- The table `t` is the measured one with each mean less that of the first entry of the baseline
that belongs to it. -/
structure Reduces (measured short t : ResultTable Float) : Prop where
  length_entries : t.entries.length = measured.entries.length
  frequency_entries : t.entries.map (·.frequency) = measured.entries.map (·.frequency)
  passes_entries : t.entries.map (·.passes) = measured.entries.map (·.passes)
  skipped_eq : t.skipped = measured.skipped
  means : List.Forall₂ (fun e e' => ∃ b, short.FirstWithin e.frequency b ∧
    e'.meanReal = e.meanReal - b.meanReal ∧ e'.meanImag = e.meanImag - b.meanImag)
      measured.entries t.entries

variable {measured short table : ResultTable Float} {f : Float}

lemma at?_eq_some_iff_firstWithin {b : FrequencyResult Float} :
    table.at? f = some b ↔ table.FirstWithin f b := by
  unfold at? FirstWithin
  rw [List.find?_eq_some_iff_append]
  constructor
  · rintro ⟨hsame, before, after, hsplit, hbefore⟩
    exact ⟨before, after, hsplit, of_decide_eq_true hsame, by simpa using hbefore⟩
  · rintro ⟨before, after, hsplit, hsame, hbefore⟩
    exact ⟨decide_eq_true hsame, before, after, hsplit, by simpa using hbefore⟩

lemma FirstWithin.mem {b : FrequencyResult Float} (h : table.FirstWithin f b) :
    b ∈ table.entries := by
  obtain ⟨before, after, hsplit, -⟩ := h
  simp [hsplit]

lemma exists_firstWithin_iff :
    (∃ b ∈ table.entries, table.FirstWithin f b) ↔ table.Covers f := by
  have hisSome : (table.at? f).isSome = true ↔ table.Covers f := by
    unfold at? Covers
    rw [List.find?_isSome]
    simp
  rw [← hisSome, Option.isSome_iff_exists]
  constructor
  · rintro ⟨b, -, hb⟩
    exact ⟨b, at?_eq_some_iff_firstWithin.2 hb⟩
  · rintro ⟨b, hb⟩
    have hfirst := at?_eq_some_iff_firstWithin.1 hb
    exact ⟨b, hfirst.mem, hfirst⟩

/-- The correction of any two tables. -/
lemma corrects_firstWithin (measured short : ResultTable Float) :
    measured.Corrects short fun e b => short.FirstWithin e.frequency b := by
  refine corrects_of_at? fun e _ b => ?_
  rw [at?_eq_some_iff_firstWithin]
  exact ⟨fun h => ⟨h.mem, h⟩, And.right⟩

lemma exists_correctedBy_iff : (∃ t, measured.correctedBy short = .ok t) ↔
    ∀ e ∈ measured.entries, short.Covers e.frequency := by
  simp only [(corrects_firstWithin measured short).ok]
  constructor
  · rintro ⟨t, -, ht⟩ e he
    obtain ⟨_, b, hb, hfirst, -⟩ := exists_forall₂_iff.1 ⟨t.entries, ht⟩ e he
    exact exists_firstWithin_iff.1 ⟨b, hb, hfirst⟩
  · intro h
    have hentries : ∀ e ∈ measured.entries,
        ∃ e', ∃ b ∈ short.entries, short.FirstWithin e.frequency b ∧ e' = e.less b := by
      intro e he
      obtain ⟨b, hb, hfirst⟩ := exists_firstWithin_iff.2 (h e he)
      exact ⟨_, b, hb, hfirst, rfl⟩
    obtain ⟨entries, hall⟩ := exists_forall₂_iff.2 hentries
    exact ⟨⟨entries, measured.skipped⟩, rfl, hall⟩

lemma reduces_of_correctedBy {t : ResultTable Float} (h : measured.correctedBy short = .ok t) :
    measured.Reduces short t := by
  obtain ⟨hskipped, hall⟩ := ((corrects_firstWithin measured short).ok t).1 h
  refine ⟨hall.length_eq.symm, map_eq_map_of_forall₂ hall ?_, map_eq_map_of_forall₂ hall ?_,
    hskipped, hall.imp ?_⟩
  · rintro e _ ⟨b, -, -, rfl⟩
    rfl
  · rintro e _ ⟨b, -, -, rfl⟩
    rfl
  · rintro e _ ⟨b, -, hb, rfl⟩
    exact ⟨b, hb, rfl, rfl⟩

/-- A measured frequency is looked up among the relevant entries. -/
lemma at?_eq_find?_relevant {e : FrequencyResult Float} (he : e ∈ measured.entries) :
    short.at? e.frequency =
      (short.relevant measured).find? fun b => SameFrequency e.frequency b.frequency := by
  unfold at? relevant
  rw [List.find?_filter]
  congr 1
  ext b
  by_cases hsame : SameFrequency e.frequency b.frequency
  · have hany : ∃ d ∈ measured.entries, SameFrequency d.frequency b.frequency := ⟨e, he, hsame⟩
    simp [hsame, hany]
  · simp [hsame]

lemma correctedBy_congr {short' : ResultTable Float}
    (h : short'.relevant measured = short.relevant measured) :
    measured.correctedBy short' = measured.correctedBy short := by
  have hcorrect : ∀ e ∈ measured.entries, short'.correct e = short.correct e := by
    intro e he
    rw [correct, correct, at?_eq_find?_relevant he, at?_eq_find?_relevant he, h]
  rw [correctedBy_eq, correctedBy_eq, mapM_congr hcorrect]

/-! The tolerance. -/

/-- The double nearest to `1e-9`. -/
noncomputable def billionth : ℝ := 4835703278458517 * 2 ^ (-82 : ℤ)

lemma value_billionth : value? 1e-9 = some billionth := by
  have hunpack : (1e-9 : Float).toModel.unpack =
      .finite .positive 4835703278458517 (-82) (by decide) := rfl
  exact_mod_cast value_of_unpack hunpack

lemma lt_billionth : 1e-9 < billionth := by
  unfold billionth
  norm_num

lemma billionth_le : billionth ≤ 1e-9 * (1 + 2 ^ (-53 : ℤ)) := by
  unfold billionth
  norm_num

section Tolerance

variable {f g : Float} {a b : ℝ} (hf : value? f = some a) (hg : value? g = some b)

include hf in
lemma bound_le_largest : max 1 |a| * billionth ≤ largest := by
  have hone : (1 : ℝ) ≤ largest := (by norm_num : (1 : ℝ) ≤ 2 ^ 100).trans le_largest
  have hle : billionth ≤ 1 := by
    unfold billionth
    norm_num
  exact (mul_le_of_le_one_right (by positivity) hle).trans (max_le hone (abs_value_le hf))

include hf hg

/-- What is compared is the distance and the bound, both rounded. -/
lemma sameFrequency_iff : ∃ x y : Float, Rounds |b - a| x ∧ Rounds (max 1 |a| * billionth) y ∧
    (SameFrequency f g ↔ x ≤ y) :=
  ⟨_, _, (rounds_sub hg hf).abs,
    rounds_mul (value_atLeast value_one (value_abs hf)) value_billionth, Iff.rfl⟩

/-- The double is above `1e-9`, so that rounding does not lose what is within the bound. -/
lemma sameFrequency_of_le (h : |b - a| ≤ 1e-9 * max 1 |a|) : SameFrequency f g := by
  obtain ⟨x, y, hx, hy, hiff⟩ := sameFrequency_iff hf hg
  have hlargest := bound_le_largest hf
  have hmax : 1 ≤ max 1 |a| := le_max_left _ _
  have hlt : |b - a| < max 1 |a| * billionth := by
    rw [mul_comm] at h
    exact h.trans_lt (mul_lt_mul_of_pos_left lt_billionth (by linarith))
  refine hiff.2 (hx.le_of_lt hy ?_ ?_ hlt)
  · rw [abs_abs]
    exact hlt.le.trans hlargest
  · rwa [abs_of_nonneg ((abs_nonneg _).trans hlt.le)]

lemma le_of_sameFrequency (h : SameFrequency f g) :
    |b - a| ≤ (1 + 2 ^ (-51 : ℤ)) * (1e-9 * max 1 |a|) := by
  obtain ⟨x, y, hx, hy, hiff⟩ := sameFrequency_iff hf hg
  have hmax : 1 ≤ max 1 |a| := le_max_left _ _
  have hpos : 0 ≤ max 1 |a| * billionth := mul_nonneg (by linarith) (by linarith [lt_billionth])
  have hbound : max 1 |a| * billionth ≤ max 1 |a| * (1e-9 * (1 + 2 ^ (-53 : ℤ))) :=
    mul_le_mul_of_nonneg_left billionth_le (by linarith)
  have hdistance := hx.le_of_le hy (abs_nonneg _) hpos (bound_le_largest hf) (hiff.1 h)
  have hleast : least ≤ 2 ^ (-153 : ℤ) := zpow_le_zpow_right₀ one_le_two (by norm_num)
  generalize max 1 |a| = m at *
  norm_num at hdistance hbound hleast ⊢
  linarith

end Tolerance

/-- Either every entry is corrected or the first one that cannot be is reported, and a baseline
counts only for what is within the tolerance of some entry. Doubles are within it when the real
numbers are, and only when these are within it but for the last places. -/
theorem correctedBy_all_or_first_missing (measured short : ResultTable Float) :
    ((∃ t, measured.correctedBy short = .ok t) ↔
      ∀ e ∈ measured.entries, short.Covers e.frequency) ∧
    (∀ t, measured.correctedBy short = .ok t → measured.Reduces short t) ∧
    (∀ failure, measured.correctedBy short = .error failure ↔ ∃ before e after,
      measured.entries = before ++ e :: after ∧ (∀ d ∈ before, short.Covers d.frequency) ∧
        ¬ short.Covers e.frequency ∧ failure = .missingCalibrationPoint e.frequency) ∧
    (∀ short' : ResultTable Float, short'.relevant measured = short.relevant measured →
      measured.correctedBy short' = measured.correctedBy short) ∧
    ∀ f g a b, value? f = some a → value? g = some b →
      (|b - a| ≤ 1e-9 * max 1 |a| → SameFrequency f g) ∧
        (SameFrequency f g → |b - a| ≤ (1 + 2 ^ (-51 : ℤ)) * (1e-9 * max 1 |a|)) := by
  refine ⟨exists_correctedBy_iff, fun t => reduces_of_correctedBy, fun failure => ?_,
    fun short' => correctedBy_congr,
    fun f g a b hf hg => ⟨sameFrequency_of_le hf hg, le_of_sameFrequency hf hg⟩⟩
  have hnone (e : FrequencyResult Float) :
      (∀ b ∈ short.entries, ¬ short.FirstWithin e.frequency b) ↔ ¬ short.Covers e.frequency := by
    simp only [← exists_firstWithin_iff, not_exists, not_and]
  simp only [(corrects_firstWithin measured short).error, exists_firstWithin_iff, hnone]

/-- Neither table is in order, both have a frequency twice, and the baseline has one that is not
measured. -/
theorem correctedBy_all_or_first_missing_unsorted :
    let measured : ResultTable Float :=
      ⟨[⟨2000.0, 15.0, 60.0, 2⟩, ⟨1000.0, 12.0, 30.0, 1⟩, ⟨2000.0, 9.0, 6.0, 3⟩], [500.0]⟩
    let short : ResultTable Float := ⟨[⟨3000.0, 7.0, 7.0, 1⟩, ⟨2000.000001, 1.0, 2.0, 1⟩,
      ⟨2000.0, 5.0, 5.0, 1⟩, ⟨1000.0, 2.0, 10.0, 1⟩], [1000.0]⟩
    (∃ t, measured.correctedBy short = .ok t ∧ t.entries.map (·.passes) = [2, 1, 3] ∧
      t.skipped = [500.0] ∧ measured.correctedBy ⟨short.entries.tail, []⟩ = .ok t) ∧
      SameFrequency (0.0 : Float) 0.0 := by
  intro measured short
  obtain ⟨hok, hreduces, -, hcongr, hwithin⟩ := correctedBy_all_or_first_missing measured short
  have hcovers : ∀ e ∈ measured.entries, short.Covers e.frequency := by
    simp only [measured, List.forall_mem_cons]
    exact ⟨⟨⟨2000.000001, 1.0, 2.0, 1⟩, by simp [short], by decide +kernel⟩,
      ⟨⟨1000.0, 2.0, 10.0, 1⟩, by simp [short], by decide +kernel⟩,
      ⟨⟨2000.0, 5.0, 5.0, 1⟩, by simp [short], by decide +kernel⟩, by simp⟩
  have hirrelevant : relevant ⟨short.entries.tail, []⟩ measured = short.relevant measured :=
    (List.filter_cons_of_neg (by decide +kernel)).symm
  obtain ⟨t, ht⟩ := hok.2 hcovers
  have hreduced := hreduces t ht
  refine ⟨⟨t, ht, hreduced.passes_entries, hreduced.skipped_eq, ?_⟩,
    (hwithin 0.0 0.0 0 0 value_zero value_zero).1 (by norm_num)⟩
  rw [hcongr _ hirrelevant, ht]

end ResultTable

end ImpedanceBench

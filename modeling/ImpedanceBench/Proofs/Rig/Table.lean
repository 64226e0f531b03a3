import Mathlib.Data.List.Nodup
import ImpedanceBench.Proofs.Rig.Measured

/-!
The table of a sweep that has been accepted. It lists every frequency of the sweep once, with a
result or as skipped, and both lists ascend, so that each result could have been entered into the
table at once, above the last one.
-/

namespace ImpedanceBench

namespace ResultTable

/-- Visits to ascending frequencies, each with a result of its own frequency or none. -/
structure Orderly (visits : List (Float × Option (FrequencyResult Float))) : Prop where
  ascending : (visits.map Prod.fst).Pairwise (· < ·)
  own : ∀ visit ∈ visits, ∀ result ∈ visit.2, result.frequency = visit.1

variable {visits : List (Float × Option (FrequencyResult Float))}

lemma Orderly.tail {visit : Float × Option (FrequencyResult Float)}
    (h : Orderly (visit :: visits)) : Orderly visits :=
  ⟨(List.pairwise_cons.1 h.ascending).2, fun v hv => h.own v (by simp [hv])⟩

lemma Orderly.frequency_entries (h : Orderly visits) :
    (ofVisits visits).entries.map (·.frequency) =
      (visits.filter (·.2.isSome)).map Prod.fst := by
  induction visits with
  | nil => rfl
  | cons visit visits ih =>
    have hrest := ih h.tail
    obtain ⟨f, _ | result⟩ := visit
    · simpa [ofVisits] using hrest
    · have hf : result.frequency = f := h.own (f, some result) (by simp) result rfl
      simpa [ofVisits, hf] using hrest

namespace Orderly

lemma entries_ascending (h : Orderly visits) :
    ((ofVisits visits).entries.map (·.frequency)).Pairwise (· < ·) := by
  rw [h.frequency_entries]
  exact h.ascending.sublist (List.filter_sublist.map _)

lemma skipped_ascending (h : Orderly visits) : (ofVisits visits).skipped.Pairwise (· < ·) :=
  h.ascending.sublist (List.filter_sublist.map _)

/-- The two lists, merged, are the visited frequencies. -/
lemma merge (h : Orderly visits) : List.merge ((ofVisits visits).entries.map (·.frequency))
    (ofVisits visits).skipped (fun x y => decide (x ≤ y)) = visits.map Prod.fst := by
  rw [h.frequency_entries]
  unfold ofVisits
  dsimp only
  induction visits with
  | nil => simp
  | cons visit visits ih =>
    have hrest := ih h.tail
    have hbelow := (List.pairwise_cons.1 h.ascending).1
    have hmem {p : Float × Option (FrequencyResult Float) → Bool} {x : Float}
        (hx : x ∈ (visits.filter p).map Prod.fst) : visit.1 < x :=
      hbelow x ((List.filter_sublist.map _).mem hx)
    obtain ⟨f, _ | result⟩ := visit
    · cases hE : (visits.filter (·.2.isSome)).map Prod.fst with
      | nil => simpa [hE] using hrest
      | cons x xs =>
        have hx : ¬ x ≤ f := Double.not_le_of_lt (hmem (hE ▸ List.mem_cons_self))
        simpa [hE, hx] using hrest
    · cases hS : (visits.filter (·.2.isNone)).map Prod.fst with
      | nil => simpa [hS] using hrest
      | cons x xs =>
        have hx : f ≤ x := Double.le_of_lt (hmem (hS ▸ List.mem_cons_self))
        simpa [hS, hx] using hrest

lemma nodup (h : Orderly visits) : (visits.map Prod.fst).Nodup :=
  h.ascending.imp Double.ne_of_lt

lemma disjoint (h : Orderly visits) :
    ((ofVisits visits).entries.map (·.frequency)).Disjoint (ofVisits visits).skipped := by
  have hperm : (visits.map Prod.fst).Perm
      ((ofVisits visits).entries.map (·.frequency) ++ (ofVisits visits).skipped) :=
    h.merge ▸ List.merge_perm_append _
  exact List.disjoint_of_nodup_append (hperm.nodup_iff.1 h.nodup)

/-- A frequency is skipped when its own visit is without a result. -/
lemma mem_skipped_iff (h : Orderly visits) {i : ℕ} {f : Float}
    {result : Option (FrequencyResult Float)} (hi : visits[i]? = some (f, result)) :
    f ∈ (ofVisits visits).skipped ↔ result = none := by
  have hvisit : (f, result) ∈ visits := List.mem_of_getElem? hi
  constructor
  · intro hf
    obtain ⟨⟨f', v⟩, hv, rfl⟩ := List.mem_map.1 hf
    obtain ⟨hv, hnone⟩ := List.mem_filter.1 hv
    have heq := List.inj_on_of_nodup_map h.nodup hv hvisit rfl
    cases heq
    simpa using hnone
  · rintro rfl
    exact List.mem_map.2 ⟨_, List.mem_filter.2 ⟨hvisit, rfl⟩, rfl⟩

end Orderly

end ResultTable

namespace Rig

variable {σ : Type} (rig : Rig σ)

end Rig

/-- The table of a sweep at whose points these traces were acquired. -/
structure ValidatedSweep.Tabulates (sweep : ValidatedSweep Float)
    (tss : List (List (Trace Float))) (table : ResultTable Float) : Prop where
  entries_ascending : (table.entries.map (·.frequency)).Pairwise (· < ·)
  skipped_ascending : table.skipped.Pairwise (· < ·)
  disjoint : (table.entries.map (·.frequency)).Disjoint table.skipped
  merge : List.merge (table.entries.map (·.frequency)) table.skipped (fun x y => decide (x ≤ y)) =
    sweep.frequencies
  nodup : sweep.frequencies.Nodup
  passes : ∀ e ∈ table.entries, 1 ≤ e.passes.toNat ∧ e.passes.toNat ≤ sweep.passesPerPoint.toNat
  skipped_iff : ∀ (i : ℕ) f, sweep.frequencies[i]? = some f →
    (f ∈ table.skipped ↔ tss[i]? = some [])
  complete : sweep.config.timeoutPolicy = .abortSweep → table.skipped = [] ∧
    ∀ e ∈ table.entries, e.passes.toNat = sweep.passesPerPoint.toNat

lemma ValidatedSweep.Sound.orderly {sweep : ValidatedSweep Float} (hsweep : sweep.Sound)
    {tss : List (List (Trace Float))} {visits : List (Float × Option (FrequencyResult Float))}
    (hfst : visits.map Prod.fst = sweep.frequencies)
    (hmeasured : sweep.MeasuredAll tss visits) : ResultTable.Orderly visits :=
  ⟨hfst ▸ hsweep.ascending, fun _ hvisit => (hmeasured.of_mem hvisit).choose_spec.own⟩

/-- Points that were each measured make a table. -/
lemma ValidatedSweep.Sound.tabulates {sweep : ValidatedSweep Float} (hsweep : sweep.Sound)
    {tss : List (List (Trace Float))} {visits : List (Float × Option (FrequencyResult Float))}
    (hfst : visits.map Prod.fst = sweep.frequencies)
    (hmeasured : sweep.MeasuredAll tss visits) : sweep.Tabulates tss (.ofVisits visits) := by
  have horderly := hsweep.orderly hfst hmeasured
  have hentries : ∀ e ∈ (ResultTable.ofVisits visits).entries, ∃ f ts v,
      sweep.Measured f ts v ∧ e ∈ v := by
    intro e he
    obtain ⟨visit, hvisit, hev⟩ := List.mem_filterMap.1 he
    obtain ⟨ts, hts⟩ := hmeasured.of_mem hvisit
    exact ⟨_, ts, _, hts, hev⟩
  refine ⟨horderly.entries_ascending, horderly.skipped_ascending, horderly.disjoint,
    hfst ▸ horderly.merge, hfst ▸ horderly.nodup, ?passes, ?skipped, ?complete⟩
  case passes =>
    intro e he
    obtain ⟨f, ts, v, hts, hev⟩ := hentries e he
    rw [hts.passes e hev]
    refine ⟨?_, hts.length_le⟩
    rw [Nat.one_le_iff_ne_zero, Ne, List.length_eq_zero_iff, ← hts.eq_none_iff]
    rintro rfl
    cases hev
  case skipped =>
    intro i f hi
    rw [← hfst, List.getElem?_map, Option.map_eq_some_iff] at hi
    obtain ⟨⟨f, v⟩, hvisit, rfl⟩ := hi
    obtain ⟨ts, hi, hts⟩ := hmeasured.of_getElem? hvisit
    rw [horderly.mem_skipped_iff hvisit, hts.eq_none_iff, hi, Option.some_inj]
  case complete =>
    intro habort
    have hlen {f ts v} (h : sweep.Measured f ts v) : ts.length = sweep.passesPerPoint.toNat :=
      h.length_eq habort
    refine ⟨?_, fun e he => ?_⟩
    · rw [ResultTable.ofVisits, List.map_eq_nil_iff, List.filter_eq_nil_iff]
      intro visit hvisit hnone
      obtain ⟨ts, hts⟩ := hmeasured.of_mem hvisit
      have hpasses := hsweep.passes
      rw [← hlen hts, hts.eq_none_iff.1 (by simpa using hnone)] at hpasses
      simp at hpasses
    · obtain ⟨f, ts, v, hts, hev⟩ := hentries e he
      rw [hts.passes e hev, hlen hts]

namespace Rig

end Rig

end ImpedanceBench

import ImpedanceBench.Proofs.Double.Sign
import ImpedanceBench.Proofs.Rig.Table

/-!
Correction by a baseline. The baseline's entry for a frequency is looked up within a tolerance, and
the first one found counts. That is the entry of this very frequency as long as no two frequencies
of the sweep are within the tolerance of each other. A sweep that has been accepted may be finer
than that, and then an entry is taken for its neighbour.
-/

namespace ImpedanceBench

namespace ResultTable

/-- The entries are at frequencies of the sweep, in their order. -/
def Along (table : ResultTable Float) (sweep : ValidatedSweep Float) : Prop :=
  (table.entries.map (·.frequency)).Sublist sweep.frequencies

/-- Each entry is corrected by the entry of the baseline that belongs to it. The correction fails
at the first entry to which none belongs. -/
structure Corrects (measured short : ResultTable Float)
    (belongs : FrequencyResult Float → FrequencyResult Float → Prop) : Prop where
  ok : ∀ t, measured.correctedBy short = .ok t ↔ t.skipped = measured.skipped ∧
    List.Forall₂ (fun e e' => ∃ b ∈ short.entries, belongs e b ∧ e' = e.less b)
      measured.entries t.entries
  error : ∀ failure, measured.correctedBy short = .error failure ↔
    ∃ before e after, measured.entries = before ++ e :: after ∧
      (∀ d ∈ before, ∃ b ∈ short.entries, belongs d b) ∧
      (∀ b ∈ short.entries, ¬ belongs e b) ∧ failure = .missingCalibrationPoint e.frequency

/-- The entry is the lowest one within the tolerance of the other's frequency. -/
def LowestWithin (table : ResultTable Float) (frequency : Float) (b : FrequencyResult Float) :
    Prop :=
  SameFrequency frequency b.frequency ∧
    ∀ d ∈ table.entries, SameFrequency frequency d.frequency → b.frequency ≤ d.frequency

section

variable {measured short : ResultTable Float}
  {belongs : FrequencyResult Float → FrequencyResult Float → Prop}

lemma correctedBy_eq : measured.correctedBy short =
    (measured.entries.mapM short.correct).map fun entries => { measured with entries } := by
  unfold correctedBy
  cases measured.entries.mapM short.correct <;> rfl

lemma correct_eq_ok_iff {e e' : FrequencyResult Float} :
    short.correct e = .ok e' ↔ ∃ b, short.at? e.frequency = some b ∧ e' = e.less b := by
  unfold correct
  cases short.at? e.frequency <;> simp [eq_comm]

lemma correct_eq_error_iff {e : FrequencyResult Float} {failure : Failure Float} :
    short.correct e = .error failure ↔
      short.at? e.frequency = none ∧ failure = .missingCalibrationPoint e.frequency := by
  unfold correct
  cases short.at? e.frequency <;> simp [eq_comm]

/-- A correction is determined by what the lookups find. -/
lemma corrects_of_at? (h : ∀ e ∈ measured.entries, ∀ b,
    short.at? e.frequency = some b ↔ b ∈ short.entries ∧ belongs e b) :
    measured.Corrects short belongs := by
  have hok : ∀ e ∈ measured.entries, ∀ e',
      short.correct e = .ok e' ↔ ∃ b ∈ short.entries, belongs e b ∧ e' = e.less b := by
    intro e he e'
    simp only [correct_eq_ok_iff, h e he, and_assoc]
  have herror : ∀ e ∈ measured.entries, ∀ failure, short.correct e = .error failure ↔
      (∀ b ∈ short.entries, ¬ belongs e b) ∧ failure = .missingCalibrationPoint e.frequency := by
    intro e he failure
    simp only [correct_eq_error_iff, Option.eq_none_iff_forall_ne_some, ne_eq, h e he, not_and]
  refine ⟨fun t => ?_, fun failure => ?_⟩
  · have hlist : measured.entries.mapM short.correct = .ok t.entries ↔
        List.Forall₂ (fun e e' => ∃ b ∈ short.entries, belongs e b ∧ e' = e.less b)
          measured.entries t.entries := by
      rw [mapM_eq_ok_iff]
      constructor <;> intro hall <;>
        refine ((List.forall₂_and_left _ _).2 ⟨fun e he => he, hall⟩).imp fun e e' he => ?_
      · exact (hok e he.1 e').1 he.2
      · exact (hok e he.1 e').2 he.2
    obtain ⟨entries, skipped⟩ := t
    rw [← hlist, correctedBy_eq]
    cases measured.entries.mapM short.correct <;> simp [Except.map, and_comm, eq_comm]
  · have hlist : measured.correctedBy short = .error failure ↔
        measured.entries.mapM short.correct = .error failure := by
      rw [correctedBy_eq]
      cases measured.entries.mapM short.correct <;> simp [Except.map]
    rw [hlist, mapM_eq_error_iff]
    refine exists_congr fun before => exists_congr fun e => exists_congr fun after => ?_
    refine and_congr_right fun hsplit => ?_
    have hmem : ∀ d ∈ before, d ∈ measured.entries := fun d hd => by simp [hsplit, hd]
    refine and_congr (forall₂_congr fun d hd => ?_) (herror e (by simp [hsplit]) failure)
    simp [hok d (hmem d hd)]

end

/-- A positive number counts as the same as itself, however small the tolerance is. -/
lemma sameFrequency_self {f : Float} {m : ℕ} {e : ℤ} {h : 0 < m}
    (hf : f.toModel.unpack = .finite .positive m e h) : SameFrequency f f := by
  have hsign : Double.sign? f.toModel.unpack = some .positive := by rw [hf]; rfl
  have hzero := Double.unpack_sub_self hf
  have hdistance : (f - f).abs = f - f := Double.abs_eq_self (by rw [hzero]; rfl)
  have hscale : ∃ m e h, (Scalar.atLeast (1.0 : Float) f).toModel.unpack =
      .finite .positive m e h := by
    unfold Scalar.atLeast
    split
    · exact ⟨m, e, h, hf⟩
    · exact ⟨_, _, by decide, rfl⟩
  obtain ⟨m₁, e₁, h₁, hscale⟩ := hscale
  have htolerance : ∃ m e h, (1e-9 : Float).toModel.unpack = .finite .positive m e h :=
    ⟨_, _, by decide, rfl⟩
  obtain ⟨m₂, e₂, h₂, htolerance⟩ := htolerance
  change (f - f).abs ≤ Scalar.atLeast 1.0 f.abs * 1e-9
  rw [hdistance, Double.abs_eq_self hsign]
  exact Double.le_of_unpack_eq_zero hzero (Double.sign?_mul hscale htolerance)

end ResultTable

namespace ValidatedSweep

/-- No two frequencies of the sweep count as the same. -/
def Apart (sweep : ValidatedSweep Float) : Prop :=
  ∀ f ∈ sweep.frequencies, ∀ g ∈ sweep.frequencies, ResultTable.SameFrequency f g → g = f

end ValidatedSweep

section

variable {sweep : ValidatedSweep Float} {table : ResultTable Float}

namespace ResultTable.Along

lemma ascending (h : table.Along sweep) (valid : sweep.Accepted) :
    table.entries.Pairwise fun e d => e.frequency < d.frequency :=
  List.pairwise_map.1 (valid.sound.ascending.sublist h)

lemma mem (h : table.Along sweep) {e : FrequencyResult Float} (he : e ∈ table.entries) :
    e.frequency ∈ sweep.frequencies :=
  List.Sublist.subset h (List.mem_map_of_mem he)

lemma le_self (h : table.Along sweep) (valid : sweep.Accepted) {e : FrequencyResult Float}
    (he : e ∈ table.entries) : e.frequency ≤ e.frequency :=
  let ⟨_, _, _, hunpack⟩ := valid.unpack (h.mem he)
  Double.le_self_of_unpack hunpack

lemma sameFrequency_self (h : table.Along sweep) (valid : sweep.Accepted)
    {e : FrequencyResult Float} (he : e ∈ table.entries) :
    SameFrequency e.frequency e.frequency :=
  let ⟨_, _, _, hunpack⟩ := valid.unpack (h.mem he)
  ResultTable.sameFrequency_self hunpack

/-- A lookup finds the lowest entry within the tolerance. -/
lemma at?_eq_some_iff (h : table.Along sweep) (valid : sweep.Accepted) {f : Float}
    {b : FrequencyResult Float} :
    table.at? f = some b ↔ b ∈ table.entries ∧ table.LowestWithin f b := by
  have hasc := h.ascending valid
  unfold at?
  rw [List.find?_eq_some_iff_append]
  constructor
  · rintro ⟨hsame, lower, higher, hsplit, hlower⟩
    have hb : b ∈ table.entries := by simp [hsplit]
    refine ⟨hb, of_decide_eq_true hsame, fun d hd hwithin => ?_⟩
    rw [hsplit] at hd hasc
    rcases List.mem_append.1 hd with hd | hd
    · exact absurd hwithin (by simpa using hlower d hd)
    rcases List.mem_cons.1 hd with rfl | hd
    · exact h.le_self valid hb
    · exact Double.le_of_lt ((List.pairwise_cons.1 (List.pairwise_append.1 hasc).2.1).1 d hd)
  · rintro ⟨hb, hsame, hlowest⟩
    obtain ⟨lower, higher, hsplit⟩ := List.append_of_mem hb
    refine ⟨decide_eq_true hsame, lower, higher, hsplit, fun d hd => ?_⟩
    have hbelow : d.frequency < b.frequency := by
      rw [hsplit] at hasc
      exact (List.pairwise_append.1 hasc).2.2 d hd b (by simp)
    have hnot : ¬ SameFrequency f d.frequency := fun hwithin =>
      Double.not_le_of_lt hbelow (hlowest d (by simp [hsplit, hd]) hwithin)
    simpa using hnot

lemma lowestWithin_iff (h : table.Along sweep) (valid : sweep.Accepted) (apart : sweep.Apart)
    {f : Float} (hf : f ∈ sweep.frequencies) {b : FrequencyResult Float} (hb : b ∈ table.entries) :
    table.LowestWithin f b ↔ b.frequency = f := by
  constructor
  · exact fun hlowest => apart f hf b.frequency (h.mem hb) hlowest.1
  · rintro rfl
    refine ⟨h.sameFrequency_self valid hb, fun d hd hwithin => ?_⟩
    rw [apart _ hf _ (h.mem hd) hwithin]
    exact h.le_self valid hb

end ResultTable.Along

/-- The results of a sweep are entered in the order of its frequencies. -/
lemma Sweeps.along (hsweep : sweep.Sound) {initialized c : Bool} {es : List Event}
    (h : Sweeps sweep initialized c es (.ok table)) : table.Along sweep := by
  obtain ⟨visits, rfl, hfst, hmeasured, -⟩ := h.measured
  rw [ResultTable.Along, (hsweep.orderly hfst hmeasured).frequency_entries, ← hfst]
  exact List.filter_sublist.map _

/-- A sweep that does not skip has a result at each of its frequencies. -/
lemma Sweeps.frequency_entries (hsweep : sweep.Sound)
    (abort : sweep.config.timeoutPolicy = .abortSweep) {initialized c : Bool} {es : List Event}
    (h : Sweeps sweep initialized c es (.ok table)) :
    table.entries.map (·.frequency) = sweep.frequencies := by
  obtain ⟨visits, rfl, hfst, hmeasured, -⟩ := h.measured
  have htable := hsweep.tabulates hfst hmeasured
  have hmerge := htable.merge
  rwa [(htable.complete abort).1, List.merge_right] at hmerge

lemma Rig.runSweep_along {σ : Type} (rig : Rig σ) (valid : sweep.Accepted) {s : Session σ}
    (h : ((rig.runSweep sweep).run.run s).1 = .ok table) : table.Along sweep := by
  obtain ⟨es, -, hes⟩ := rig.runSweep_sweeps sweep s
  rw [h] at hes
  exact hes.along valid.sound

lemma Rig.runCalibration_along {σ : Type} (rig : Rig σ) (valid : sweep.Accepted)
    {agrees : String → Bool} {s : Session σ}
    (h : ((rig.runCalibration agrees sweep).run.run s).1 = .ok table) : table.Along sweep := by
  obtain ⟨-, s₁, -, h⟩ := parts_of_bind_eq_ok h
  split at h
  · exact rig.runSweep_along valid h
  · cases h

/-- The correction of a table along the sweep. -/
lemma ResultTable.Along.corrects {measured short : ResultTable Float}
    (hshort : short.Along sweep) (valid : sweep.Accepted) :
    measured.Corrects short fun e b => short.LowestWithin e.frequency b :=
  corrects_of_at? fun _ _ _ => hshort.at?_eq_some_iff valid

namespace ValidatedSweep.Apart

variable (apart : sweep.Apart) (valid : sweep.Accepted)

include apart valid

lemma at?_eq_some_iff (h : table.Along sweep) {f : Float} (hf : f ∈ sweep.frequencies)
    {b : FrequencyResult Float} : table.at? f = some b ↔ b ∈ table.entries ∧ b.frequency = f := by
  rw [h.at?_eq_some_iff valid]
  exact and_congr_right fun hb => h.lowestWithin_iff valid apart hf hb

lemma corrects {measured short : ResultTable Float} (hmeasured : measured.Along sweep)
    (hshort : short.Along sweep) : measured.Corrects short fun e b => b.frequency = e.frequency :=
  ResultTable.corrects_of_at? fun _ he _ => apart.at?_eq_some_iff valid hshort (hmeasured.mem he)

end ValidatedSweep.Apart

/-- A table with a single result, of no ohms. -/
def ResultTable.single (f : Float) : ResultTable Float := ⟨[⟨f, 0.0, 0.0, 1⟩], []⟩

lemma ResultTable.along_single {f : Float} (hf : f ∈ sweep.frequencies) :
    (single f).Along sweep := List.singleton_sublist.2 hf

lemma ResultTable.correctedBy_single {f g : Float} (h : SameFrequency f g) :
    ∃ t, (single f).correctedBy (single g) = .ok t := by
  have hfound : (single g).at? f = some ⟨g, 0.0, 0.0, 1⟩ := by simp [single, at?, h]
  have hcorrect : (single g).correct ⟨f, 0.0, 0.0, 1⟩ =
      .ok (FrequencyResult.less ⟨f, 0.0, 0.0, 1⟩ ⟨g, 0.0, 0.0, 1⟩) :=
    correct_eq_ok_iff.2 ⟨_, hfound, rfl⟩
  have hlist : (single f).entries.mapM (single g).correct = .ok [_] :=
    mapM_eq_ok_iff.2 (.cons hcorrect .nil)
  exact ⟨_, by rw [correctedBy_eq, hlist]; rfl⟩

/-- Of two frequencies that count as the same, a baseline of the one corrects a result of the
other. -/
lemma ValidatedSweep.apart_of_corrects
    (h : ∀ measured short : ResultTable Float, measured.Along sweep → short.Along sweep →
      measured.Corrects short fun e b => b.frequency = e.frequency) : sweep.Apart := by
  intro f hf g hg hsame
  obtain ⟨t, ht⟩ := ResultTable.correctedBy_single hsame
  have hcorrects := h _ _ (ResultTable.along_single hf) (ResultTable.along_single hg)
  obtain ⟨-, hall⟩ := (hcorrects.ok t).1 ht
  obtain ⟨e', rest, ⟨b, hb, hown, -⟩, -, -⟩ := List.forall₂_cons_left_iff.1 hall
  rw [List.mem_singleton.1 hb] at hown
  exact hown

/-- A result is found under its own frequency when no lower one is within the tolerance. -/
lemma ResultTable.Along.at?_self_iff (h : table.Along sweep) (valid : sweep.Accepted)
    {e : FrequencyResult Float} (he : e ∈ table.entries) :
    table.at? e.frequency = some e ↔
      ∀ d ∈ table.entries, d.frequency < e.frequency → ¬ SameFrequency e.frequency d.frequency := by
  rw [h.at?_eq_some_iff valid, and_iff_right he, LowestWithin,
    and_iff_right (h.sameFrequency_self valid he)]
  refine forall₂_congr fun d hd => ?_
  constructor
  · exact fun hle hlt hwithin => Double.not_le_of_lt hlt (hle hwithin)
  · intro hnot hwithin
    exact Double.le_of_not_lt (h.le_self valid he) (h.le_self valid hd) fun hlt => hnot hlt hwithin

end

/-- **A correction is exact where the sweep is coarse enough.** Every table of a sweep or of its
calibration lists frequencies of the sweep, and it is corrected by the lowest result of the baseline
within the tolerance. That this is always the result of the very same frequency, and that a
frequency the baseline has not measured is always reported, holds for exactly those sweeps of which
no two frequencies count as the same; then a lookup also finds each result under its frequency. -/
theorem corrected_by_own_frequency {sweep : ValidatedSweep Float} (valid : sweep.Accepted) :
    (∀ {σ : Type} (rig : Rig σ) (s : Session σ) (table : ResultTable Float),
      (((rig.runSweep sweep).run.run s).1 = .ok table → table.Along sweep) ∧
      ∀ agrees, ((rig.runCalibration agrees sweep).run.run s).1 = .ok table →
        table.Along sweep) ∧
    (∀ measured short : ResultTable Float, short.Along sweep →
      measured.Corrects short fun e b => short.LowestWithin e.frequency b) ∧
    (sweep.Apart ↔ ∀ measured short : ResultTable Float, measured.Along sweep →
      short.Along sweep → measured.Corrects short fun e b => b.frequency = e.frequency) ∧
    ∀ table : ResultTable Float, table.Along sweep → ∀ e ∈ table.entries,
      (table.at? e.frequency = some e ↔ ∀ d ∈ table.entries, d.frequency < e.frequency →
        ¬ ResultTable.SameFrequency e.frequency d.frequency) ∧
      (sweep.Apart → table.at? e.frequency = some e) := by
  refine ⟨fun rig s table => ⟨rig.runSweep_along valid, fun _ => rig.runCalibration_along valid⟩,
    fun measured short hshort => hshort.corrects valid,
    ⟨fun apart measured short => apart.corrects valid, ValidatedSweep.apart_of_corrects⟩,
    fun table h e he => ⟨h.at?_self_iff valid he, fun apart => ?_⟩⟩
  exact (apart.at?_eq_some_iff valid h (h.mem he)).2 ⟨he, rfl⟩

lemma ValidatedSweep.twoPoints_apart : twoPoints.Apart := by
  intro f hf g hg hsame
  simp only [twoPoints, List.mem_cons, List.not_mem_nil, or_false] at hf hg
  rcases hf with rfl | rfl <;> rcases hg with rfl | rfl
  · rfl
  · revert hsame
    decide +kernel
  · revert hsame
    decide +kernel
  · rfl

/-- A baseline without the second point of a sweep does not correct the sweep. -/
theorem corrected_by_own_frequency_missing :
    let measured : ResultTable Float := ⟨[⟨1000.0, 12.0, 30.0, 1⟩, ⟨2000.0, 15.0, 60.0, 1⟩], []⟩
    let short : ResultTable Float := ⟨[⟨1000.0, 2.0, 10.0, 1⟩], [2000.0]⟩
    measured.correctedBy short = .error (.missingCalibrationPoint 2000.0) ∧
      short.correctedBy measured = .ok ⟨[⟨1000.0, -10.0, -20.0, 1⟩], [2000.0]⟩ ∧
      measured.at? 2000.0 = some ⟨2000.0, 15.0, 60.0, 1⟩ := by
  intro measured short
  obtain ⟨-, -, hexact, hlookup⟩ := corrected_by_own_frequency ValidatedSweep.twoPoints_accepted
  have hmeasured : measured.Along .twoPoints := List.Sublist.refl _
  have hshort : short.Along .twoPoints :=
    List.singleton_sublist.2 (by simp [ValidatedSweep.twoPoints])
  have hcorrects := hexact.1 ValidatedSweep.twoPoints_apart
  refine ⟨?missing, ?found, ?lookup⟩
  case missing =>
    refine ((hcorrects _ _ hmeasured hshort).error _).2
      ⟨[_], ⟨2000.0, 15.0, 60.0, 1⟩, [], rfl, ?_, ?_, rfl⟩
    · simp [short]
    · simp only [short, List.mem_singleton, forall_eq]
      decide +kernel
  case found =>
    refine ((hcorrects _ _ hshort hmeasured).ok _).2 ⟨rfl, .cons ?_ .nil⟩
    exact ⟨⟨1000.0, 12.0, 30.0, 1⟩, by simp [measured], rfl, rfl⟩
  case lookup =>
    exact (hlookup _ hmeasured ⟨2000.0, 15.0, 60.0, 1⟩ (by simp [measured])).2
      ValidatedSweep.twoPoints_apart

/-- Two frequencies, just below and just above a threshold of the oscilloscope. -/
def ValidatedSweep.twins : ValidatedSweep Float where
  config := { SweepConfig.standard with
    start := 2499.999999
    stop := 2500.000001
    step := 1.5e-6
    acquisitionSize := 300
    averagingCount := 1
    integration := .signed
    retry := ⟨1, 0, none⟩ }
  mode := .frequency
  profile := { HardwareProfile.standard with bufferLength := 1021, adcMaxSamples := 300 }
  frequencies := [2499.999999, 2500.0000005]
  passesPerPoint := 1

namespace ValidatedSweep

lemma twins_accepted : twins.Accepted := ⟨twins.config, twins.profile, [], rfl⟩

lemma twins_same : ResultTable.SameFrequency (2500.0000005 : Float) 2499.999999 := by
  decide +kernel

end ValidatedSweep

/-- It is accepted, and whenever it is measured, the second result is not found under its own
frequency. A table of it that is corrected by itself does not become zero. -/
theorem twins_taken_for_each_other : ValidatedSweep.twins.Accepted ∧
    (∀ {σ : Type} (rig : Rig σ) (s : Session σ) (table : ResultTable Float),
      ((rig.runSweep .twins).run.run s).1 = .ok table →
        ∃ e ∈ table.entries, table.at? e.frequency ≠ some e) ∧
    let table : ResultTable Float :=
      ⟨[⟨2499.999999, 3.0, 306.0, 1⟩, ⟨2500.0000005, -174.0, 416.0, 1⟩], []⟩
    table.Along .twins ∧
      table.at? 2500.0000005 = some ⟨2499.999999, 3.0, 306.0, 1⟩ ∧
      table.correctedBy table =
        .ok ⟨[⟨2499.999999, 0.0, 0.0, 1⟩, ⟨2500.0000005, -177.0, 110.0, 1⟩], []⟩ := by
  refine ⟨ValidatedSweep.twins_accepted, fun rig s table hrun => ?_, .refl _, rfl, rfl⟩
  obtain ⟨es, -, hes⟩ := rig.runSweep_sweeps .twins s
  rw [hrun] at hes
  have hfrequencies := hes.frequency_entries ValidatedSweep.twins_accepted.sound rfl
  obtain ⟨entries, skipped⟩ := table
  obtain ⟨e, rest, rfl, he, hrest⟩ := List.map_eq_cons_iff.1 hfrequencies
  obtain ⟨d, rest, rfl, hd, -⟩ := List.map_eq_cons_iff.1 hrest
  refine ⟨d, by simp, fun hfound => ?_⟩
  have hsame : ResultTable.SameFrequency d.frequency e.frequency := by
    rw [he, hd]
    exact ValidatedSweep.twins_same
  simp only [ResultTable.at?, List.find?_cons, hsame, decide_true, Option.some_inj] at hfound
  rw [← hfound, he] at hd
  exact absurd hd (by decide +kernel)

end ImpedanceBench

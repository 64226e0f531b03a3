import ImpedanceBench.Proofs.Json.Record
import ImpedanceBench.Records

/-!
The library's records through their JSON texts: what is written of settings, signals and results is
read back as it was.
-/

namespace ImpedanceBench

open Json (Codec Record)

lemma Shape.codec_returns (s : Shape) : Shape.codec.Returns s s :=
  Codec.choice_returns (by cases s <;> rfl)

lemma Channel.codec_returns (c : Channel) : Channel.codec.Returns c c :=
  Codec.choice_returns (by cases c <;> rfl)

lemma TimeoutPolicy.codec_returns (p : TimeoutPolicy) : TimeoutPolicy.codec.Returns p p :=
  Codec.choice_returns (by cases p <;> rfl)

lemma IntegrationRule.codec_returns (i : IntegrationRule) : IntegrationRule.codec.Returns i i :=
  Codec.choice_returns (by cases i <;> rfl)

section

variable {α : Type}

def SquareTransition.numbers (t : SquareTransition α) : List α :=
  [t.samplesAtReference, t.referenceFrequency, t.fallPosition, t.risePosition]

def HardwareProfile.numbers (p : HardwareProfile α) : List α :=
  [p.dacRate, p.dacCountsPerVolt, p.adcRate, p.adcFullScale, p.maxFrequency, p.maxAmplitude] ++
    p.squareTransition.numbers

def SweepConfig.numbers (c : SweepConfig α) : List α :=
  [c.start, c.stop, c.step, c.amplitude, c.shuntOhms, c.dcBias]

def LoadModel.numbers (l : LoadModel α) : List α :=
  l.resistance :: (l.inductance.toList ++ l.capacitance.toList)

def SignalSpec.numbers (s : SignalSpec α) : List α := [s.amplitude, s.start, s.stop]

def ImpedancePoint.numbers (p : ImpedancePoint α) : List α :=
  [p.frequency, p.realOhms, p.imagOhms, p.magnitudeOhms, p.phase]

def FrequencyResult.numbers (r : FrequencyResult α) : List α :=
  [r.frequency, r.meanReal, r.meanImag]

def ResultTable.numbers (t : ResultTable α) : List α :=
  t.entries.flatMap (·.numbers) ++ t.skipped

end

open Json.Codec

lemma SquareTransition.record_returns {t : SquareTransition Float}
    (h : ∀ x ∈ t.numbers, Json.ReadsBack x) : SquareTransition.record.codec.Returns t t := by
  obtain ⟨samples, reference, fall, rise⟩ := by simpa [numbers] using h
  exact Record.returns (by decide)
    (.cons (real_returns samples).field <|
      .cons (real_returns reference).field <|
      .cons (int64_returns _).field <|
      .cons (int64_returns _).field <|
      .cons (real_returns fall).field <|
      .cons (real_returns rise).field .nil) rfl

/-- The decimation bands are not written. -/
lemma HardwareProfile.record_returns {p : HardwareProfile Float}
    (h : ∀ x ∈ p.numbers, Json.ReadsBack x) :
    HardwareProfile.record.codec.Returns p { p with bands := DecimationBand.standard } := by
  obtain ⟨own, transition⟩ := List.forall_mem_append.mp h
  obtain ⟨dacRate, counts, adcRate, fullScale, frequency, amplitude⟩ := by simpa using own
  exact Record.returns (by decide)
    (.cons (real_returns dacRate).field <|
      .cons (uint64_returns _).field <|
      .cons (real_returns counts).field <|
      .cons (uint32_returns _).field <|
      .cons (int32_returns _).field <|
      .cons (int32_returns _).field <|
      .cons (int32_returns _).field <|
      .cons (SquareTransition.record_returns transition).field <|
      .cons (real_returns adcRate).field <|
      .cons (uint32_returns _).field <|
      .cons (real_returns fullScale).field <|
      .cons (uint64_returns _).field <|
      .cons (real_returns frequency).field <|
      .cons (real_returns amplitude).field <|
      .cons (uint32_returns _).field <|
      .cons (uint32_returns _).field <|
      .cons (uint32_returns _).field <|
      .cons (uint64_returns _).field .nil) rfl

lemma RetryPolicy.record_returns (p : RetryPolicy) : RetryPolicy.record.codec.Returns p p :=
  Record.returns (by decide)
    (.cons (uint32_returns _).field <|
      .cons (uint64_returns _).field <|
      .cons (optional_returns (fun w _ => uint64_returns w) rfl).field .nil) rfl

lemma SweepConfig.record_returns {c : SweepConfig Float}
    (h : ∀ x ∈ c.numbers, Json.ReadsBack x) : SweepConfig.record.codec.Returns c c := by
  obtain ⟨start, stop, step, amplitude, shunt, bias⟩ := by simpa [numbers] using h
  exact Record.returns (by decide)
    (.cons (real_returns start).field <|
      .cons (real_returns stop).field <|
      .cons (real_returns step).field <|
      .cons (real_returns amplitude).field <|
      .cons (uint64_returns _).field <|
      .cons (optional_returns (fun w _ => uint32_returns w) rfl).field <|
      .cons (uint32_returns _).field <|
      .cons (uint32_returns _).field <|
      .cons (uint32_returns _).field <|
      .cons (real_returns shunt).field <|
      .cons (real_returns bias).field <|
      .cons (Channel.codec_returns _).field <|
      .cons (bool_returns _).field <|
      .cons (bool_returns _).field <|
      .cons (bool_returns _).field <|
      .cons (RetryPolicy.record_returns _).field <|
      .cons (TimeoutPolicy.codec_returns _).field <|
      .cons (IntegrationRule.codec_returns _).field .nil) rfl

lemma LoadModel.record_returns {l : LoadModel Float} (h : ∀ x ∈ l.numbers, Json.ReadsBack x) :
    LoadModel.record.codec.Returns l l := by
  obtain ⟨resistance, parts⟩ := List.forall_mem_cons.mp h
  obtain ⟨inductance, capacitance⟩ := List.forall_mem_append.mp parts
  exact Record.returns (by decide)
    (.cons (real_returns resistance).field <|
      .cons (optional_returns
        (fun x hx => real_returns (inductance x (Option.mem_toList.mpr hx))) rfl).field <|
      .cons (optional_returns
        (fun x hx => real_returns (capacitance x (Option.mem_toList.mpr hx))) rfl).field .nil) rfl

lemma SignalSpec.record_returns {s : SignalSpec Float} (h : ∀ x ∈ s.numbers, Json.ReadsBack x) :
    SignalSpec.record.codec.Returns s s := by
  obtain ⟨amplitude, start, stop⟩ := by simpa [numbers] using h
  exact Record.returns (by decide)
    (.cons (Shape.codec_returns _).field <|
      .cons (real_returns amplitude).field <|
      .cons (real_returns start).field <|
      .cons (real_returns stop).field .nil) rfl

lemma ImpedancePoint.record_returns {p : ImpedancePoint Float}
    (h : ∀ x ∈ p.numbers, Json.ReadsBack x) : ImpedancePoint.record.codec.Returns p p := by
  obtain ⟨frequency, re, im, magnitude, phase⟩ := by simpa [numbers] using h
  exact Record.returns (by decide)
    (.cons (real_returns frequency).field <|
      .cons (real_returns re).field <|
      .cons (real_returns im).field <|
      .cons (real_returns magnitude).field <|
      .cons (real_returns phase).field .nil) rfl

lemma FrequencyResult.record_returns {r : FrequencyResult Float}
    (h : ∀ x ∈ r.numbers, Json.ReadsBack x) : FrequencyResult.record.codec.Returns r r := by
  obtain ⟨frequency, re, im⟩ := by simpa [numbers] using h
  exact Record.returns (by decide)
    (.cons (real_returns frequency).field <|
      .cons (real_returns re).field <|
      .cons (real_returns im).field <|
      .cons (uint64_returns _).field .nil) rfl

lemma ResultTable.record_returns {t : ResultTable Float}
    (h : ∀ x ∈ t.numbers, Json.ReadsBack x) : ResultTable.record.codec.Returns t t := by
  obtain ⟨entries, skipped⟩ := List.forall_mem_append.mp h
  have entry (r) (hr : r ∈ t.entries) : FrequencyResult.record.codec.Returns r r :=
    FrequencyResult.record_returns fun x hx => entries x (List.mem_flatMap.mpr ⟨r, hr, hx⟩)
  exact Record.returns (by decide)
    (.cons (list_returns entry).field <|
      .cons (list_returns fun x hx => real_returns (skipped x hx)).field .nil) rfl

/-- Finite numbers, each of which is read from its text as the same double. Not every double is:
reading rounds more than once. -/
structure Json.Writable (numbers : List Float) : Prop where
  finite : ∀ x ∈ numbers, x.isFinite
  readsBack : ∀ x ∈ numbers, x.isFinite → ReadsBack x

lemma Json.writable_iff {numbers : List Float} :
    Writable numbers ↔ ∀ x ∈ numbers, ReadsBack x where
  mp h x hx := h.readsBack x hx (h.finite x hx)
  mpr h := ⟨fun x hx => (h x hx).isFinite, fun x hx _ => h x hx⟩

open Json (Writable writable_iff)

/-- Every record is read from its text as it was written, a profile with the standard bands. -/
theorem records_throughText :
    (∀ c : SweepConfig Float, Writable c.numbers → SweepConfig.record.throughText c = some c) ∧
    (∀ p : RetryPolicy, RetryPolicy.record.throughText p = some p) ∧
    (∀ l : LoadModel Float, Writable l.numbers → LoadModel.record.throughText l = some l) ∧
    (∀ s : SignalSpec Float, Writable s.numbers → SignalSpec.record.throughText s = some s) ∧
    (∀ p : ImpedancePoint Float,
      Writable p.numbers → ImpedancePoint.record.throughText p = some p) ∧
    (∀ r : FrequencyResult Float,
      Writable r.numbers → FrequencyResult.record.throughText r = some r) ∧
    (∀ t : ResultTable Float, Writable t.numbers → ResultTable.record.throughText t = some t) ∧
    (∀ p : HardwareProfile Float, Writable p.numbers →
      HardwareProfile.record.throughText p = some { p with bands := DecimationBand.standard }) :=
  ⟨fun _ h => Record.throughText_eq (SweepConfig.record_returns (writable_iff.mp h)),
    fun p => Record.throughText_eq (RetryPolicy.record_returns p),
    fun _ h => Record.throughText_eq (LoadModel.record_returns (writable_iff.mp h)),
    fun _ h => Record.throughText_eq (SignalSpec.record_returns (writable_iff.mp h)),
    fun _ h => Record.throughText_eq (ImpedancePoint.record_returns (writable_iff.mp h)),
    fun _ h => Record.throughText_eq (FrequencyResult.record_returns (writable_iff.mp h)),
    fun _ h => Record.throughText_eq (ResultTable.record_returns (writable_iff.mp h)),
    fun _ h => Record.throughText_eq (HardwareProfile.record_returns (writable_iff.mp h))⟩

/-- Settings and a table with a negative zero, the greatest integers and every kind of field. -/
theorem records_throughText_extremes :
    let settings : SweepConfig Float := { SweepConfig.standard with
      dcBias := -0.0
      acquisitionSize := 18446744073709551615
      decimationHint := some 8
      channel := .b
      retry := ⟨4294967295, 0, some 18446744073709551615⟩ }
    let table : ResultTable Float := ⟨[⟨1000.0, -1.25, 3e-7, 3⟩], [2.5e5]⟩
    let profile : HardwareProfile Float := { HardwareProfile.standard with
      dacOffset := -2147483648
      bands := [] }
    SweepConfig.record.throughText settings = some settings ∧
      ResultTable.record.throughText table = some table ∧
      HardwareProfile.record.throughText profile =
        some { profile with bands := DecimationBand.standard } := by
  intro settings table profile
  refine ⟨records_throughText.1 settings (writable_iff.mpr ?_),
    records_throughText.2.2.2.2.2.2.1 table (writable_iff.mpr ?_),
    records_throughText.2.2.2.2.2.2.2 profile (writable_iff.mpr ?_)⟩
  · simp only [SweepConfig.numbers, settings, List.forall_mem_cons]
    exact ⟨rfl, rfl, rfl, rfl, rfl, rfl, by simp⟩
  · simp only [ResultTable.numbers, FrequencyResult.numbers, table, List.flatMap_cons,
      List.flatMap_nil, List.append_nil, List.cons_append, List.nil_append, List.forall_mem_cons]
    exact ⟨rfl, rfl, rfl, rfl, by simp⟩
  · simp only [HardwareProfile.numbers, SquareTransition.numbers, profile,
      HardwareProfile.standard, SquareTransition.standard, List.cons_append, List.nil_append,
      List.forall_mem_cons]
    exact ⟨rfl, rfl, rfl, rfl, rfl, rfl, rfl, rfl, rfl, rfl, by simp⟩

end ImpedanceBench

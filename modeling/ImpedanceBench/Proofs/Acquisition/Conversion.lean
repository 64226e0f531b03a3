import Mathlib.Algebra.Order.Archimedean.Real.Basic
import ImpedanceBench.Proofs.Acquisition.Overlap
import ImpedanceBench.Proofs.Exact.Reals

/-!
From the counts of the two probes to the load's voltage and current. All channels of a trace are
checked before a sample is read, so that a trace is refused for one of two reasons or every access
is in range. What the probes show is kept: the voltage across the load and the voltage across the
shunt add up to the one before the load.
-/

namespace ImpedanceBench

namespace Trace

variable {α : Type} {t : Trace α}

/-- All channels have one length, those without a probe too. -/
def Rectangular (t : Trace α) : Prop :=
  ∀ c ∈ t.channels, ∀ d ∈ t.channels, c.length = d.length

lemma Rectangular.samplesPerChannel (h : t.Rectangular) {c : List α} (hc : c ∈ t.channels) :
    t.samplesPerChannel = some c.length := by
  obtain ⟨channels⟩ := t
  cases channels with
  | nil => cases hc
  | cons d rest => exact congrArg some (h d (by simp) c hc)

/-- The channels are compared with the first one. -/
lemma any_length_ne_iff : (t.channels.any fun c => c.length != t.samplesPerChannel.getD 0) = true ↔
    ¬ t.Rectangular := by
  rw [List.any_eq_true]
  constructor
  · rintro ⟨c, hc, hne⟩ h
    rw [h.samplesPerChannel hc] at hne
    simp at hne
  · intro h
    unfold Rectangular at h
    push Not at h
    obtain ⟨c, hc, d, hd, hne⟩ := h
    by_cases hfirst : c.length = t.samplesPerChannel.getD 0
    · exact ⟨d, hd, by simpa [← hfirst] using hne.symm⟩
    · exact ⟨c, hc, by simpa using hfirst⟩

variable {n : ℕ}

lemma validate_of_lt (h : t.channels.length < n) :
    t.validate n = .error (.channelMismatch n t.channels.length) := if_pos h

lemma validate_of_not_rectangular (hn : n ≤ t.channels.length) (h : ¬ t.Rectangular) :
    t.validate n = .error .raggedTrace := by
  unfold validate
  rw [if_neg (not_lt.2 hn), if_pos (any_length_ne_iff.2 h)]

lemma validate_of_rectangular (hn : n ≤ t.channels.length) (h : t.Rectangular) :
    t.validate n = .ok () := by
  unfold validate
  rw [if_neg (not_lt.2 hn), if_neg fun hany => any_length_ne_iff.1 hany h]

end Trace

namespace LoadTraces

section Channels

variable {α : Type} {t : Trace α} {scale : FixtureScale α}

/-- The number of channels without which the probes are not in a trace. -/
def needed (scale : FixtureScale α) : ℕ := max scale.excitation scale.shunt + 1

/-- The channels of the two probes, which have `n` samples like every other one. -/
structure Probed (t : Trace α) (scale : FixtureScale α) (n : ℕ) (excitation shunt : List α) :
    Prop where
  excitation_eq : t.channels[scale.excitation]? = some excitation
  shunt_eq : t.channels[scale.shunt]? = some shunt
  samples : t.samplesPerChannel = some n
  length_excitation : excitation.length = n
  length_shunt : shunt.length = n

lemma exists_probed (hn : needed scale ≤ t.channels.length) (h : t.Rectangular) :
    ∃ n excitation shunt, Probed t scale n excitation shunt := by
  unfold needed at hn
  have hexcitation : scale.excitation < t.channels.length := by omega
  have hshunt : scale.shunt < t.channels.length := by omega
  exact ⟨_, _, _, List.getElem?_eq_getElem hexcitation, List.getElem?_eq_getElem hshunt,
    h.samplesPerChannel (List.getElem_mem hexcitation), rfl,
    h _ (List.getElem_mem hshunt) _ (List.getElem_mem hexcitation)⟩

/-- What the check of a trace finds. -/
inductive Checked (t : Trace α) (scale : FixtureScale α) : Except (Failure α) Unit → Prop
  | mismatch (hn : t.channels.length < needed scale) :
      Checked t scale (.error (.channelMismatch (needed scale) t.channels.length))
  | ragged (hn : needed scale ≤ t.channels.length) (h : ¬ t.Rectangular) :
      Checked t scale (.error .raggedTrace)
  | probed (hn : needed scale ≤ t.channels.length) (h : t.Rectangular) (n : ℕ)
      (excitation shunt : List α) (probed : Probed t scale n excitation shunt) :
      Checked t scale (.ok ())

lemma checked_validate (t : Trace α) (scale : FixtureScale α) :
    Checked t scale (t.validate (needed scale)) := by
  by_cases hn : t.channels.length < needed scale
  · rw [Trace.validate_of_lt hn]
    exact .mismatch hn
  rw [not_lt] at hn
  by_cases h : t.Rectangular
  · obtain ⟨n, excitation, shunt, probed⟩ := exists_probed hn h
    rw [Trace.validate_of_rectangular hn h]
    exact .probed hn h n excitation shunt probed
  · rw [Trace.validate_of_not_rectangular hn h]
    exact .ragged hn h

namespace Probed

variable {n : ℕ} {excitation shunt : List α}

lemma channel_excitation (h : Probed t scale n excitation shunt) :
    t.channel scale.excitation = excitation := by
  rw [Trace.channel, h.excitation_eq, Option.getD_some]

lemma channel_shunt (h : Probed t scale n excitation shunt) : t.channel scale.shunt = shunt := by
  rw [Trace.channel, h.shunt_eq, Option.getD_some]

end Probed

end Channels

section Pairs

variable {α : Type} [Scalar α]

/-- The voltages at both probes, the one before the load first, where both have a sample. -/
def probeVolts (voltsPerCount : α) (excitation shunt : List α) : List (α × α) :=
  (excitation.zip shunt).map fun counts => (counts.1 * voltsPerCount, counts.2 * voltsPerCount)

/-- The load's traces from the voltages at both probes. -/
def ofVolts (shuntOhms : α) (volts : List (α × α)) : LoadTraces α :=
  ⟨volts.map fun v => v.1 - v.2, volts.map fun v => v.2 / shuntOhms⟩

variable {voltsPerCount shuntOhms : α} {excitation shunt : List α}

/-- With no sample of the shunt without one before the load, the current is read from the shunt
alone. -/
lemma ofVolts_probeVolts (h : shunt.length ≤ excitation.length) :
    ofVolts shuntOhms (probeVolts voltsPerCount excitation shunt) =
      ⟨List.zipWith (· - ·) (excitation.map (· * voltsPerCount)) (shunt.map (· * voltsPerCount)),
        (shunt.map (· * voltsPerCount)).map (· / shuntOhms)⟩ := by
  unfold ofVolts probeVolts
  congr 1
  · rw [List.zipWith_map, List.map_map, List.map_zip_eq_zipWith]
    rfl
  · conv_rhs => rw [← List.map_snd_zip h]
    simp [Function.comp_def]

lemma getElem?_probeVolts {k : ℕ} {e s : α} (he : excitation[k]? = some e)
    (hs : shunt[k]? = some s) : (probeVolts voltsPerCount excitation shunt)[k]? =
      some (e * voltsPerCount, s * voltsPerCount) := by
  have hcounts : (excitation.zip shunt)[k]? = some (e, s) :=
    List.getElem?_zip_eq_some.2 ⟨he, hs⟩
  rw [probeVolts, List.getElem?_map, hcounts, Option.map_some]

end Pairs

section Conversion

variable {α : Type} [Scalar α]

/-- The conversion with every access checked. There is none where the number of channels needed
does not fit in a word, a channel is missing, or it is shorter than what is taken from it. -/
def ofTrace? (t : Trace α) (scale : FixtureScale α) (requested : ℕ) :
    Option (Except (Failure α) (LoadTraces α)) := do
  guard (needed scale < 2 ^ 64)
  match t.validate (needed scale) with
  | .error failure => return .error failure
  | .ok () =>
    let n := min requested (t.samplesPerChannel.getD 0)
    let excitation ← LockIn.slice? (← t.channels[scale.excitation]?) n
    let shunt ← LockIn.slice? (← t.channels[scale.shunt]?) n
    return .ok (ofVolts scale.shuntOhms (probeVolts scale.voltsPerCount excitation shunt))

/-- What a conversion gives, by the channels that there are. -/
structure Converts (t : Trace α) (scale : FixtureScale α) (requested : ℕ)
    (outcome : Except (Failure α) (LoadTraces α)) : Prop where
  mismatch : ∀ expected actual, outcome = .error (.channelMismatch expected actual) ↔
    t.channels.length < needed scale ∧ expected = needed scale ∧ actual = t.channels.length
  ragged : outcome = .error .raggedTrace ↔ needed scale ≤ t.channels.length ∧ ¬ t.Rectangular
  converted : (∃ traces, outcome = .ok traces) ↔
    needed scale ≤ t.channels.length ∧ t.Rectangular
  lengths : ∀ traces, outcome = .ok traces → ∃ n, t.samplesPerChannel = some n ∧
    traces.voltage.length = min requested n ∧ traces.current.length = min requested n

variable {t : Trace α} {scale : FixtureScale α} {requested : ℕ}

lemma ofTrace_of_error {failure : Failure α} (h : t.validate (needed scale) = .error failure) :
    ofTrace t scale requested = .error failure := by
  unfold ofTrace
  unfold needed at h
  rw [h]
  rfl

lemma ofTrace?_of_error (hword : needed scale < 2 ^ 64) {failure : Failure α}
    (h : t.validate (needed scale) = .error failure) :
    ofTrace? t scale requested = some (.error failure) := by
  unfold ofTrace?
  simp only [guard, hword, if_true, h]
  rfl

/-- The traces of the samples taken from the channels of the two probes. -/
def ofCounts (scale : FixtureScale α) (requested : ℕ) (excitation shunt : List α) : LoadTraces α :=
  ofVolts scale.shuntOhms
    (probeVolts scale.voltsPerCount (excitation.take requested) (shunt.take requested))

namespace Probed

variable {n : ℕ} {excitation shunt : List α}

lemma ofTrace (h : Probed t scale n excitation shunt)
    (hvalid : t.validate (needed scale) = .ok ()) :
    ofTrace t scale requested = .ok (ofCounts scale requested excitation shunt) := by
  have hlength : (shunt.take requested).length ≤ (excitation.take requested).length := by
    rw [List.length_take, List.length_take, h.length_excitation, h.length_shunt]
  unfold needed at hvalid
  rw [ofCounts, ofVolts_probeVolts hlength, LoadTraces.ofTrace, hvalid, h.channel_excitation,
    h.channel_shunt]
  rfl

/-- Both slices are in range. -/
lemma ofTrace? (h : Probed t scale n excitation shunt) (hword : needed scale < 2 ^ 64)
    (hvalid : t.validate (needed scale) = .ok ()) :
    LoadTraces.ofTrace? t scale requested =
      some (.ok (ofCounts scale requested excitation shunt)) := by
  have hcut {xs : List α} (hlength : xs.length = n) :
      LockIn.slice? xs (min requested n) = some (xs.take requested) := by
    rw [LockIn.slice?_eq (by omega), ← hlength, ← List.take_eq_take_min]
  unfold LoadTraces.ofTrace?
  simp only [guard, hword, if_true, hvalid, h.excitation_eq, h.shunt_eq, h.samples,
    Option.getD_some, hcut h.length_excitation, hcut h.length_shunt, Option.bind_eq_bind,
    Option.bind_some]
  rfl

lemma length_ofCounts (h : Probed t scale n excitation shunt) :
    (ofCounts scale requested excitation shunt).voltage.length = min requested n ∧
      (ofCounts scale requested excitation shunt).current.length = min requested n := by
  simp [ofCounts, ofVolts, probeVolts, h.length_excitation, h.length_shunt]

end Probed

variable (t scale requested)

lemma converts_ofTrace : Converts t scale requested (ofTrace t scale requested) := by
  have hchecked := checked_validate t scale
  generalize hvalid : t.validate (needed scale) = outcome at hchecked
  cases hchecked with
  | mismatch hn =>
    rw [ofTrace_of_error hvalid]
    constructor
    case mismatch => simp [hn, eq_comm]
    case ragged => simp [hn]
    case converted => simp [hn]
    case lengths => simp
  | ragged hn h =>
    rw [ofTrace_of_error hvalid]
    constructor
    case mismatch => simp [hn]
    case ragged => simp [hn, h]
    case converted => simp [h]
    case lengths => simp
  | probed hn h n excitation shunt probed =>
    rw [probed.ofTrace hvalid]
    constructor
    case mismatch => simp [hn]
    case ragged => simp [h]
    case converted => simp [hn, h]
    case lengths =>
      rintro _ ⟨⟩
      exact ⟨n, probed.samples, probed.length_ofCounts⟩

lemma ofTrace?_eq (hword : needed scale < 2 ^ 64) :
    ofTrace? t scale requested = some (ofTrace t scale requested) := by
  have hchecked := checked_validate t scale
  generalize hvalid : t.validate (needed scale) = outcome at hchecked
  cases hchecked with
  | mismatch => rw [ofTrace?_of_error hword hvalid, ofTrace_of_error hvalid]
  | ragged => rw [ofTrace?_of_error hword hvalid, ofTrace_of_error hvalid]
  | probed hn h n excitation shunt probed => rw [probed.ofTrace? hword hvalid, probed.ofTrace hvalid]

end Conversion

section Exact

variable {t : Trace ℝ} {scale : FixtureScale ℝ}

/-- The voltage `u` and the current `i` are the ones for which the probes show sample `k`: the drop
across the shunt is its probe's, and with the drop across the load it is the other probe's. -/
structure Shows (t : Trace ℝ) (scale : FixtureScale ℝ) (k : ℕ) (u i : ℝ) : Prop where
  excitation : ∃ count, (t.channel scale.excitation)[k]? = some count ∧
    u + scale.shuntOhms * i = count * scale.voltsPerCount
  shunt : ∃ count, (t.channel scale.shunt)[k]? = some count ∧
    scale.shuntOhms * i = count * scale.voltsPerCount

lemma Probed.shows {n requested : ℕ} {excitation shunt : List ℝ}
    (h : Probed t scale n excitation shunt) (hohms : 0 < scale.shuntOhms) {k : ℕ}
    (hk : k < min requested n) :
    ∃ u i, (ofCounts scale requested excitation shunt).voltage[k]? = some u ∧
      (ofCounts scale requested excitation shunt).current[k]? = some i ∧ Shows t scale k u i := by
  have hsample {xs : List ℝ} (hlength : xs.length = n) :
      ∃ x, xs[k]? = some x ∧ (xs.take requested)[k]? = some x := by
    have hx : k < xs.length := by omega
    exact ⟨xs[k], List.getElem?_eq_getElem hx,
      (List.getElem?_take_of_lt (by omega)).trans (List.getElem?_eq_getElem hx)⟩
  obtain ⟨e, he, hetake⟩ := hsample h.length_excitation
  obtain ⟨s, hs, hstake⟩ := hsample h.length_shunt
  have hvolts : (probeVolts scale.voltsPerCount (excitation.take requested)
      (shunt.take requested))[k]? = some (e * scale.voltsPerCount, s * scale.voltsPerCount) :=
    getElem?_probeVolts hetake hstake
  have hdrop : scale.shuntOhms * (s * scale.voltsPerCount / scale.shuntOhms) =
      s * scale.voltsPerCount := mul_div_cancel₀ _ hohms.ne'
  refine ⟨e * scale.voltsPerCount - s * scale.voltsPerCount,
    s * scale.voltsPerCount / scale.shuntOhms, ?_, ?_, ⟨e, ?_, ?_⟩, ⟨s, ?_, ?_⟩⟩
  · rw [ofCounts, ofVolts, List.getElem?_map, hvolts, Option.map_some]
  · rw [ofCounts, ofVolts, List.getElem?_map, hvolts, Option.map_some]
  · rw [h.channel_excitation, he]
  · rw [hdrop, sub_add_cancel]
  · rw [h.channel_shunt, hs]
  · exact hdrop

end Exact

/-- The conversion in any arithmetic, its accesses for probes whose channels can be counted in a
word, and what the samples mean in exact arithmetic. -/
theorem ofTrace_converts :
    (∀ (α : Type) [Scalar α] (t : Trace α) (scale : FixtureScale α) (requested : ℕ),
      Converts t scale requested (ofTrace t scale requested) ∧
        (scale.excitation < 2 ^ 64 - 1 → scale.shunt < 2 ^ 64 - 1 →
          ofTrace? t scale requested = some (ofTrace t scale requested))) ∧
      ∀ (t : Trace ℝ) (scale : FixtureScale ℝ) (requested : ℕ) (traces : LoadTraces ℝ),
        0 < scale.shuntOhms → ofTrace t scale requested = .ok traces →
          ∀ k < traces.voltage.length, ∃ u i, traces.voltage[k]? = some u ∧
            traces.current[k]? = some i ∧ Shows t scale k u i := by
  constructor
  · intro α _ t scale requested
    refine ⟨converts_ofTrace t scale requested, fun hexcitation hshunt => ?_⟩
    have hword : needed scale < 2 ^ 64 := by
      unfold needed
      omega
    exact ofTrace?_eq t scale requested hword
  · intro t scale requested traces hohms hrun k hk
    obtain ⟨hn, hrectangular⟩ :=
      (converts_ofTrace t scale requested).converted.1 ⟨traces, hrun⟩
    obtain ⟨n, excitation, shunt, h⟩ := exists_probed hn hrectangular
    rw [h.ofTrace (Trace.validate_of_rectangular hn hrectangular), Except.ok.injEq] at hrun
    subst hrun
    rw [h.length_ofCounts.1] at hk
    exact h.shows hohms hk

/-- Both probes are on the second of two channels, and more is requested than there is. -/
theorem ofTrace_converts_one_channel : ∃ traces : LoadTraces ℝ,
    ofTrace? ⟨[[6, 2], [3, 4]]⟩ ⟨1, 1, 1 / 2, 10⟩ 5 = some (.ok traces) ∧
      traces.voltage.length = 2 ∧ ∃ u i, traces.voltage[1]? = some u ∧
        traces.current[1]? = some i ∧ Shows ⟨[[6, 2], [3, 4]]⟩ ⟨1, 1, 1 / 2, 10⟩ 1 u i := by
  obtain ⟨hconverts, hchecked⟩ :=
    ofTrace_converts.1 ℝ ⟨[[6, 2], [3, 4]]⟩ ⟨1, 1, 1 / 2, 10⟩ 5
  obtain ⟨traces, hrun⟩ := hconverts.converted.2
    ⟨by decide, by simp [Trace.Rectangular]⟩
  obtain ⟨n, hn, hlength, -⟩ := hconverts.lengths traces hrun
  have htwo : traces.voltage.length = 2 := by
    simp [Trace.samplesPerChannel] at hn
    omega
  refine ⟨traces, ?_, htwo, ?_⟩
  · rw [hchecked (by norm_num) (by norm_num), hrun]
  · exact ofTrace_converts.2 _ _ 5 traces (by norm_num) hrun 1 (by omega)

end LoadTraces

end ImpedanceBench

import ImpedanceBench.Bench.Operation
import ImpedanceBench.Proofs.Bench.Samples
import ImpedanceBench.Proofs.Bench.Simulated

/-!
The simulated bench over all that can happen to it. No operation changes the profile, the generator
takes only buffers of the length of its memory, and the noise is what it was set to. From these
three the shape of every trace follows, and its samples from the scales at the poll.
-/

namespace ImpedanceBench.SimulatedBench

open Double

variable {p : HardwareProfile Float} {b : SimulatedBench} {os : List Operation}

/-! What operations keep, and what they count. -/

/-- A memory that was taken has the length that the profile says. -/
def GeneratorFits (p : HardwareProfile Float) (g : GeneratorChannel) : Prop :=
  ∀ memory, g.memory = some memory → memory.size = p.bufferLength.toNat

/-- What holds of a bench for as long as it exists. -/
structure Sound (p : HardwareProfile Float) (b : SimulatedBench) : Prop where
  profile : b.profile = p
  channelA : GeneratorFits p b.channelA
  channelB : GeneratorFits p b.channelB
  noise : b.noise.Bounded

namespace Sound

lemma make (p : HardwareProfile Float) (load : LoadModel Float) (shuntOhms : Float) :
    Sound p (make p load shuntOhms) :=
  ⟨rfl, nofun, nofun, Noise.silent_bounded⟩

lemma channel (h : Sound p b) : ∀ channel, GeneratorFits p (b.channel channel)
  | .a => h.channelA
  | .b => h.channelB

lemma setChannel (h : Sound p b) {g : GeneratorChannel} (hg : GeneratorFits p g) :
    ∀ channel, Sound p (b.setChannel g channel)
  | .a => ⟨h.profile, hg, h.channelB, h.noise⟩
  | .b => ⟨h.profile, h.channelA, hg, h.noise⟩

lemma perform (h : Sound p b) (c : Command) : Sound p (b.perform c).2 := by
  cases c with
  | configureOutput channel words =>
    exact h.setChannel (g := { b.channel channel with words := some words }) (h.channel channel) _
  | loadOutput channel memory =>
    unfold SimulatedBench.perform
    dsimp only
    split
    · exact h
    · rename_i hsize
      have hfits : GeneratorFits p { b.channel channel with memory := some memory } := by
        intro m hm
        cases hm
        simpa [h.profile] using hsize
      obtain ⟨hprofile, ha, hb, hnoise⟩ := h.setChannel hfits channel
      exact ⟨hprofile, ha, hb, hnoise⟩
  | _ => exact ⟨h.profile, h.channelA, h.channelB, h.noise⟩

lemma acquired (h : Sound p b) : Sound p b.acquired := by
  refine ⟨h.profile, h.channelA, h.channelB, ?_⟩
  unfold SimulatedBench.acquired
  dsimp only
  split
  · exact h.noise.drop _
  · exact h.noise

lemma operate (h : Sound p b) {o : Operation} (noise : ∀ n, o = .setNoise n → n.Bounded) :
    Sound p (b.operate o).2 := by
  cases o with
  | command c => exact h.perform c
  | poll =>
    change Sound p b.poll.2
    obtain ⟨_, heq⟩ | ⟨_, heq⟩ | ⟨_, heq⟩ := b.poll_cases <;> rw [heq]
    · exact h
    · exact ⟨h.profile, h.channelA, h.channelB, h.noise⟩
    · exact h.acquired
  | setNoise n => exact ⟨h.profile, h.channelA, h.channelB, noise n rfl⟩
  | _ => exact ⟨h.profile, h.channelA, h.channelB, h.noise⟩

lemma run (h : Sound p b) (noise : ∀ n, .setNoise n ∈ os → n.Bounded) : Sound p (b.run os).2 := by
  induction os generalizing b with
  | nil => exact h
  | cons o os ih =>
    refine ih (h.operate fun n hn => noise n ?_) fun n hn => noise n (List.mem_cons_of_mem _ hn)
    rw [hn]
    exact List.mem_cons_self

/-- What is played has the length that the profile says. -/
lemma size_eq (h : Sound p b) {words : GeneratorWords} {memory : Array Int32}
    (hplaying : b.playing = some (words, memory)) : memory.size = p.bufferLength.toNat := by
  unfold playing at hplaying
  simp only [Option.bind_eq_bind, Option.bind_eq_some_iff] at hplaying
  obtain ⟨channel, -, _, -, m, hm, heq⟩ := hplaying
  cases heq
  exact h.channel channel _ hm

end Sound

lemma acquisitions_operate (b : SimulatedBench) (o : Operation) :
    (b.operate o).2.acquisitions = b.acquisitions + (b.operate o).1.toList.length := by
  cases o with
  | command c =>
    obtain ⟨-, _, _, _, _, heq⟩ := b.perform_cases c
    change (b.perform c).2.acquisitions = _
    rw [heq]
    rfl
  | poll =>
    change b.poll.2.acquisitions = b.acquisitions + b.poll.1.outcome.toOption.join.toList.length
    obtain ⟨_, heq⟩ | ⟨_, heq⟩ | ⟨_, heq⟩ := b.poll_cases <;> rw [heq] <;> rfl
  | _ => rfl

/-- The counter counts the traces. -/
lemma acquisitions_run (b : SimulatedBench) (os : List Operation) :
    (b.run os).2.acquisitions = b.acquisitions + (b.run os).1.length := by
  induction os generalizing b with
  | nil => rfl
  | cons o os ih =>
    change ((b.operate o).2.run os).2.acquisitions =
      b.acquisitions + ((b.operate o).1.toList ++ ((b.operate o).2.run os).1).length
    rw [ih, acquisitions_operate, List.length_append, Nat.add_assoc]

/-! What a poll shows. -/

/-- How much of the voltage falls on the shunt. -/
def ratio (b : SimulatedBench) (words : GeneratorWords) (memory : Array Int32) : Float :=
  (b.load.divider b.shuntOhms (replayFrequency b.profile words memory.size)).norm

/-- The volts that the generator puts out for the shunt's sample number `k`. -/
def shuntVolts (b : SimulatedBench) (settings : AcquisitionSettings) (words : GeneratorWords)
    (memory : Array Int32) (k : ℕ) : Float :=
  let p := b.profile
  let h := b.load.divider b.shuntOhms (replayFrequency p words memory.size)
  voltsAt p memory (1.0 / (2.0 * p.dacCountsPerVolt))
    (Scalar.ofNat k * (Scalar.ofNat settings.factor.toNat / p.adcRate) *
      (p.dacRate * Scalar.ofNat words.stepIncrement.toNat / 65536.0) +
      h.arg / (2.0 * Scalar.pi) * Scalar.ofNat memory.size)

/-- The divider passes nothing, and the voltage is too large for a double. -/
def Indefinite (b : SimulatedBench) (k : ℕ) : Prop :=
  ∃ settings words memory, b.settings = some settings ∧ b.playing = some (words, memory) ∧
    value? (b.ratio words memory) = some 0 ∧ Infinite (b.shuntVolts settings words memory k)

/-- The scales of the bench are numbers. -/
structure Measurable (b : SimulatedBench) : Prop where
  ratio : ∀ words memory, b.playing = some (words, memory) → (b.ratio words memory).isFinite = true
  dac : (1.0 / (2.0 * b.profile.dacCountsPerVolt)).isFinite = true
  adc : (b.profile.voltsPerCount b.dcBias).isFinite = true
  adc_ne_zero : value? (b.profile.voltsPerCount b.dcBias) ≠ some 0

/-- Two channels as long as the profile says. All their samples are counts of the converter, but for
those of the shunt whose voltage is undefined. -/
structure Shows (b : SimulatedBench) (t : Trace Float) : Prop where
  two : t.channels.length = 2
  length : ∀ c ∈ t.channels, c.length = b.profile.adcMaxSamples.toNat
  excitation : ∀ x ∈ t.channel 0, IsCount b.profile.adcBits.toNat x
  shunt : ∀ k x, (t.channel 1)[k]? = some x →
    (b.Indefinite k → Undefined x) ∧ (¬ b.Indefinite k → IsCount b.profile.adcBits.toNat x)

lemma exists_render_of_poll {t : Trace Float} (h : (b.operate .poll).1 = some t) :
    ∃ settings, b.settings = some settings ∧ b.render settings = t := by
  change b.poll.1.outcome.toOption.join = some t at h
  unfold poll at h
  split at h
  · cases h
  · rename_i settings hsettings
    split at h
    · cases h
    split at h
    · cases h
    · exact ⟨settings, hsettings, Option.some.inj h⟩

lemma shows_silence (b : SimulatedBench) (h : b.playing = none) : Shows b b.silence := by
  have hzero {x : Float} {n : ℕ} (hx : x ∈ List.replicate n (0.0 : Float)) :
      IsCount b.profile.adcBits.toNat x := by
    rw [List.eq_of_mem_replicate hx]
    exact isCount_zero _
  refine ⟨rfl, fun c hc => ?_, fun x hx => hzero hx, fun k x hx => ⟨?_, fun _ => ?_⟩⟩
  · rw [List.eq_of_mem_replicate hc, List.length_replicate]
  · rintro ⟨_, _, _, -, hplaying, -⟩
    rw [h] at hplaying
    cases hplaying
  · exact hzero (List.mem_of_getElem? hx)

section Replay

variable {settings : AcquisitionSettings} {words : GeneratorWords} {memory : Array Int32}

/-- A finite scale gives a voltage or an infinite one. -/
lemma Measurable.volts (hm : b.Measurable) (memory : Array Int32) (position : Float) :
    ¬ Undefined
      (voltsAt b.profile memory (1.0 / (2.0 * b.profile.dacCountsPerVolt)) position) := by
  obtain ⟨c, hc⟩ := exists_value_of_isFinite hm.dac
  exact not_undefined_voltsAt hc b.profile memory position

lemma Measurable.isCount (hm : b.Measurable) (valid : b.profile.validate = .ok ())
    (noise : b.noise.Bounded) {volts : Float} (hvolts : ¬ Undefined volts) (k : ℕ) :
    IsCount b.profile.adcBits.toNat
      ((ScopeScale.ofProfile b.profile b.dcBias).count volts (b.noise.deviation k)) := by
  obtain ⟨a, ha⟩ := exists_value_of_isFinite hm.adc
  obtain ⟨d, hd⟩ := noise.exists_deviation k
  have hne : a ≠ 0 := fun h => hm.adc_ne_zero (by rw [ha, h])
  exact ScopeScale.isCount_count valid (not_undefined_add (not_undefined_div hvolts ha hne) hd)

lemma Measurable.indefinite_iff (hm : b.Measurable) (hsettings : b.settings = some settings)
    (hplaying : b.playing = some (words, memory)) (k : ℕ) : b.Indefinite k ↔
      Undefined (b.ratio words memory * b.shuntVolts settings words memory k) := by
  obtain ⟨r, hr⟩ := exists_value_of_isFinite (hm.ratio words memory hplaying)
  have hvolts : ¬ Undefined (b.shuntVolts settings words memory k) := hm.volts _ _
  rw [undefined_mul_iff hr hvolts]
  constructor
  · rintro ⟨settings', words', memory', hs, hp, hzero, hlarge⟩
    obtain rfl := Option.some.inj (hs.symm.trans hsettings)
    obtain ⟨rfl, rfl⟩ := Prod.mk.inj (Option.some.inj (hp.symm.trans hplaying))
    exact ⟨Option.some.inj (hr.symm.trans hzero), hlarge⟩
  · rintro ⟨rfl, hlarge⟩
    exact ⟨settings, words, memory, hsettings, hplaying, hr, hlarge⟩

lemma mem_excitation {x : Float} (h : x ∈ (b.replay settings words memory).channel 0) :
    ∃ position k, x = (ScopeScale.ofProfile b.profile b.dcBias).count
      (voltsAt b.profile memory (1.0 / (2.0 * b.profile.dacCountsPerVolt)) position)
      (b.noise.deviation k) := by
  obtain ⟨k, -, rfl⟩ := List.mem_map.1 h
  exact ⟨_, _, rfl⟩

lemma getElem?_shunt {k : ℕ} {x : Float}
    (h : ((b.replay settings words memory).channel 1)[k]? = some x) :
    x = (ScopeScale.ofProfile b.profile b.dcBias).count
      (b.ratio words memory * b.shuntVolts settings words memory k)
      (b.noise.deviation (2 * k + 1)) := by
  change ((List.range b.profile.adcMaxSamples.toNat).map _)[k]? = some x at h
  rw [List.getElem?_map, Option.map_eq_some_iff] at h
  obtain ⟨i, hi, rfl⟩ := h
  obtain ⟨hlt, rfl⟩ := List.getElem?_eq_some_iff.1 hi
  rw [List.getElem_range]
  rfl

lemma shows_replay (hm : b.Measurable) (valid : b.profile.validate = .ok ())
    (noise : b.noise.Bounded) (hsettings : b.settings = some settings)
    (hplaying : b.playing = some (words, memory)) : Shows b (b.replay settings words memory) := by
  refine ⟨rfl, fun c hc => ?_, fun x hx => ?_, fun k x hx => ?_⟩
  · simp only [replay, List.mem_cons, List.not_mem_nil, or_false] at hc
    rcases hc with rfl | rfl <;> rw [List.length_map, List.length_range]
  · obtain ⟨position, k, rfl⟩ := mem_excitation hx
    exact hm.isCount valid noise (hm.volts _ _) k
  · obtain rfl := getElem?_shunt hx
    rw [hm.indefinite_iff hsettings hplaying]
    exact ⟨fun h => ScopeScale.undefined_count h _ _, fun h => hm.isCount valid noise h _⟩

end Replay

/-- After a history the counter is right, the memory that is played is read in range, also where
the position is infinite or undefined, and the next poll shows counts if it is triggered. -/
structure ShowsCounts (start : SimulatedBench) (os : List Operation) : Prop where
  counted : (start.run os).2.acquisitions = (start.run os).1.length
  reads : ∀ words memory, (start.run os).2.playing = some (words, memory) →
    ∀ position, Reads memory position
  shows : (start.run os).2.Measurable → ∀ t, ((start.run os).2.operate .poll).1 = some t →
    Shows (start.run os).2 t

/-- **Acquisitions are well formed.** Whatever happened to a bench with an accepted profile, a poll
that is triggered shows two channels of whole counts in the range of the converter, none of which
loses anything in single precision. Only where the divider passes nothing of a voltage that is too
large for a double is the sample of the shunt undefined. -/
theorem showsCounts_run (valid : p.validate = .ok ()) (load : LoadModel Float) (shuntOhms : Float)
    (noise : ∀ n, .setNoise n ∈ os → n.Bounded) :
    ShowsCounts (make p load shuntOhms) os := by
  have hsound := (Sound.make p load shuntOhms).run noise
  have hvalid : ((make p load shuntOhms).run os).2.profile.validate = .ok () := by
    rw [hsound.profile]
    exact valid
  refine ⟨?_, fun words memory hplaying => ?_, fun hm t ht => ?_⟩
  · rw [acquisitions_run]
    exact Nat.zero_add _
  · have hsize := hsound.size_eq hplaying
    have hbounds := HardwareProfile.bufferLength_bounds valid
    exact reads (by omega) (by omega)
  · obtain ⟨settings, hsettings, rfl⟩ := exists_render_of_poll ht
    unfold render
    split
    · rename_i words memory hplaying
      exact shows_replay hm hvalid hsound.noise hsettings hplaying
    · exact shows_silence _ ‹_›

/-- A memory of two samples, replayed at half of the clock. -/
def shortProfile : HardwareProfile Float :=
  { HardwareProfile.standard with bufferLength := 2, adcMaxSamples := 4 }

def armed (memory : Array Int32) : List Operation :=
  [.command (.configureOutput .a ⟨0, 65536, 32768⟩), .command (.loadOutput .a memory),
    .command (.enableOutput 1), .command (.configureScope ⟨0, 1, false, false⟩)]

/-- A square wave of one volt, with noise. -/
def noisy : List Operation := .setNoise (.seeded 2.5 7) :: armed #[4000, 12384]

lemma noisy_bounded : ∀ n, .setNoise n ∈ noisy → n.Bounded := by
  intro n hn
  obtain rfl : n = .seeded 2.5 7 := by simpa [noisy, armed] using hn
  exact Noise.seeded_bounded rfl 7

def noisyBench : SimulatedBench := ((make shortProfile (.resistor 4700.0) 8200.0).run noisy).2

lemma measurable_noisyBench : noisyBench.Measurable := by
  have hplaying : noisyBench.playing = some (⟨0, 65536, 32768⟩, #[4000, 12384]) := rfl
  refine ⟨fun words memory h => ?_, by decide +kernel, by decide +kernel,
    value_ne_zero_of_unpack rfl⟩
  cases hplaying.symm.trans h
  decide +kernel

theorem showsCounts_run_noisy : shortProfile.validate = .ok () ∧
    (∀ n, .setNoise n ∈ noisy → n.Bounded) ∧ noisyBench.Measurable ∧
    ∃ t, (noisyBench.operate .poll).1 = some t ∧ Shows noisyBench t :=
  ⟨rfl, noisy_bounded, measurable_noisyBench, _, rfl,
    (showsCounts_run rfl (.resistor 4700.0) 8200.0 noisy_bounded).shows measurable_noisyBench _ rfl⟩

/-- One count of this generator is `5e306` volts. -/
def faintProfile : HardwareProfile Float := { shortProfile with dacCountsPerVolt := 1e-307 }

def faintBench : SimulatedBench :=
  ((make faintProfile (.resistor 4700.0) 0.0).run (armed #[8000, 8384])).2

lemma faintProfile_valid : faintProfile.validate = .ok () := by
  have hnone : faintProfile.defect? = none := by decide +kernel
  rw [HardwareProfile.validate, hnone]

lemma playing_faintBench : faintBench.playing = some (⟨0, 65536, 32768⟩, #[8000, 8384]) := rfl

lemma measurable_faintBench : faintBench.Measurable := by
  refine ⟨fun words memory h => ?_, by decide +kernel, by decide +kernel,
    value_ne_zero_of_unpack rfl⟩
  cases playing_faintBench.symm.trans h
  decide +kernel

lemma infinite_voltsAt_faint (position : Float) :
    Infinite (voltsAt faintProfile #[8000, 8384] (1.0 / (2.0 * faintProfile.dacCountsPerVolt))
      position) := by
  have hsize : 0 < (#[8000, 8384] : Array Int32).size := by decide
  obtain h | h : storedAt #[8000, 8384] position = 8000 ∨
      storedAt #[8000, 8384] position = 8384 := by
    simpa using storedAt_mem hsize position
  all_goals
    rw [voltsAt, h]
    exact infinite_of_isInf (by decide +kernel)

lemma indefinite_faintBench (k : ℕ) : faintBench.Indefinite k := by
  refine ⟨_, _, _, rfl, playing_faintBench, ?_, infinite_voltsAt_faint _⟩
  rw [show faintBench.ratio ⟨0, 65536, 32768⟩ #[8000, 8384] = 0.0 by decide +kernel]
  exact value_zero

/-- Finite scales are not enough: without a shunt the divider is zero, and of a voltage beyond the
doubles that is no number. -/
theorem not_forall_isCount : ¬ ∀ (p : HardwareProfile Float) (load : LoadModel Float)
    (shuntOhms : Float) (os : List Operation), p.validate = .ok () →
    (∀ n, .setNoise n ∈ os → n.Bounded) → ((make p load shuntOhms).run os).2.Measurable →
    ∀ t, (((make p load shuntOhms).run os).2.operate .poll).1 = some t →
      ∀ c ∈ t.channels, ∀ x ∈ c, IsCount p.adcBits.toNat x := by
  intro h
  have hcounts := h faintProfile (.resistor 4700.0) 0.0 (armed #[8000, 8384]) faintProfile_valid
    (by simp [armed]) measurable_faintBench _ rfl
  have hshows : Shows faintBench (faintBench.replay ⟨0, 1, false, false⟩ ⟨0, 65536, 32768⟩
      #[8000, 8384]) :=
    shows_replay measurable_faintBench faintProfile_valid Noise.silent_bounded rfl
      playing_faintBench
  have hundefined := (hshows.shunt 0 _ rfl).1 (indefinite_faintBench 0)
  exact not_isCount_of_undefined hundefined
    (hcounts _ (List.mem_cons_of_mem _ List.mem_cons_self) _ List.mem_cons_self)

end ImpedanceBench.SimulatedBench

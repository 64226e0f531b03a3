import ImpedanceBench.Bench.Simulated
import ImpedanceBench.Proofs.Rig.Measured

/-!
The simulated bench over a history: what no call changes, what its counters count, and what it
shows once a point has been set up.
-/

namespace ImpedanceBench

open History

/-- The generator has taken a buffer into its memory. -/
def Event.reloads : Event → Bool
  | .command (.loadOutput ..) reply => reply.outcome.isOk
  | _ => false

namespace SimulatedBench

lemma rig_perform (c : Command) (b : SimulatedBench) : rig.perform c b =
    ({ (b.perform c).1 with elapsed := b.timing.ahead 0 }, (b.perform c).2.tick) := rfl

lemma rig_poll (b : SimulatedBench) :
    rig.poll b = ({ b.poll.1 with elapsed := b.timing.ahead 0 }, b.poll.2.tick) := rfl

/-! What one call can do. -/

/-- A command changes what the generator holds and how the oscilloscope is set, and it counts a
buffer that was taken. -/
lemma perform_cases (b : SimulatedBench) (c : Command) : (b.perform c).1.cancels = false ∧
    ∃ a d mask settings, (b.perform c).2 =
      { b with
        channelA := a
        channelB := d
        enabled := mask
        settings := settings
        reloads := b.reloads + if (Event.command c (b.perform c).1).reloads then 1 else 0 } := by
  cases c with
  | configureOutput channel => cases channel <;> exact ⟨rfl, _, _, _, _, rfl⟩
  | loadOutput channel memory =>
    by_cases hsize : memory.size != b.profile.bufferLength.toNat
    · simp only [perform, hsize, if_true]
      exact ⟨rfl, _, _, _, _, rfl⟩
    · simp only [perform, hsize, if_false, Bool.false_eq_true]
      cases channel <;> exact ⟨rfl, _, _, _, _, rfl⟩
  | initOutput | initScope =>
    refine ⟨?_, _, _, _, _, rfl⟩
    simp only [perform, initReply]
    split <;> rfl
  | _ => exact ⟨rfl, _, _, _, _, rfl⟩

/-- A poll fails, or it counts down, or it acquires. -/
lemma poll_cases (b : SimulatedBench) : (∃ e, b.poll = (.failed e, b)) ∨
    (∃ k, b.poll = (.done none, { b with pendingPolls := k })) ∨
      ∃ t, b.poll = (.done (some t), b.acquired) := by
  unfold poll
  split
  · exact .inl ⟨_, rfl⟩
  split
  · exact .inr (.inl ⟨_, rfl⟩)
  split
  · exact .inr (.inl ⟨_, rfl⟩)
  · exact .inr (.inr ⟨_, rfl⟩)

/-- The benches are built alike. They may differ in what the generator was given, how the
oscilloscope is set, the polls before the next trigger, the time of the calls, and the counters. -/
structure Wired (b₁ b₂ : SimulatedBench) : Prop where
  profile : b₁.profile = b₂.profile
  load : b₁.load = b₂.load
  shuntOhms : b₁.shuntOhms = b₂.shuntOhms
  dcBias : b₁.dcBias = b₂.dcBias
  notReadyPolls : b₁.notReadyPolls = b₂.notReadyPolls
  neverTriggers : b₁.neverTriggers = b₂.neverTriggers
  failsInit : b₁.failsInit = b₂.failsInit
  noisy : b₁.noise.active = b₂.noise.active

namespace Wired

variable {b b' b₁ b₂ b₃ : SimulatedBench}

lemma refl (b : SimulatedBench) : Wired b b := by constructor <;> rfl

lemma symm (h : Wired b₁ b₂) : Wired b₂ b₁ :=
  ⟨h.1.symm, h.2.symm, h.3.symm, h.4.symm, h.5.symm, h.6.symm, h.7.symm, h.8.symm⟩

lemma trans (h : Wired b₁ b₂) (h' : Wired b₂ b₃) : Wired b₁ b₃ :=
  ⟨h.1.trans h'.1, h.2.trans h'.2, h.3.trans h'.3, h.4.trans h'.4, h.5.trans h'.5, h.6.trans h'.6,
    h.7.trans h'.7, h.8.trans h'.8⟩

lemma perform (b : SimulatedBench) (c : Command) : Wired b (rig.perform c b).2 := by
  obtain ⟨-, _, _, _, _, heq⟩ := b.perform_cases c
  rw [rig_perform, heq]
  constructor <;> rfl

lemma poll (b : SimulatedBench) : Wired b (rig.poll b).2 := by
  obtain ⟨_, heq⟩ | ⟨_, heq⟩ | ⟨_, heq⟩ := b.poll_cases <;> rw [rig_poll, heq]
  · constructor <;> rfl
  · constructor <;> rfl
  · refine ⟨rfl, rfl, rfl, rfl, rfl, rfl, rfl, ?_⟩
    unfold acquired
    dsimp only
    split <;> rfl

/-- No call rebuilds the bench. -/
lemma of_plays {es : List Event} (h : rig.Plays b es b') : Wired b b' :=
  h.induction (P := fun b _ b' => Wired b b') refl (fun b c _ _ ih => (perform b c).trans ih)
    fun b _ _ ih => (poll b).trans ih

end Wired

variable {b b' : SimulatedBench} {es : List Event}

lemma cancels_of_plays (h : rig.Plays b es b') : cancels es = false := by
  refine h.induction (P := fun _ es _ => cancels es = false) (fun _ => rfl) (fun b c _ _ ih => ?_)
    fun b _ _ ih => ?_
  · rw [cancels_cons, ih, Bool.or_false]
    exact (b.perform_cases c).1
  · rw [cancels_cons, ih, Bool.or_false, rig_poll]
    obtain ⟨_, heq⟩ | ⟨_, heq⟩ | ⟨_, heq⟩ := b.poll_cases <;> rw [heq] <;> rfl

/-- The first counter counts the traces. -/
lemma acquisitions_of_plays (h : rig.Plays b es b') :
    b'.acquisitions = b.acquisitions + (traces es).length := by
  refine h.induction (P := fun b es b' => b'.acquisitions = b.acquisitions + (traces es).length)
    (fun _ => rfl) (fun b c es b' ih => ?_) fun b es b' ih => ?_
  · obtain ⟨-, _, _, _, _, heq⟩ := b.perform_cases c
    rw [ih, rig_perform, heq]
    rfl
  · rw [ih, traces_poll, rig_poll]
    obtain ⟨_, heq⟩ | ⟨_, heq⟩ | ⟨_, heq⟩ := b.poll_cases <;> rw [heq]
    · rfl
    · rfl
    · simp [Reply.done, Except.toOption, acquired, tick]
      omega

/-- The second one counts the buffers that were taken. -/
lemma reloads_of_plays (h : rig.Plays b es b') :
    b'.reloads = b.reloads + es.countP Event.reloads := by
  refine h.induction (P := fun b es b' => b'.reloads = b.reloads + es.countP Event.reloads)
    (fun _ => rfl) (fun b c es b' ih => ?_) fun b es b' ih => ?_
  · obtain ⟨-, _, _, _, _, heq⟩ := b.perform_cases c
    have hevent : (Event.command c (rig.perform c b).1).reloads =
        (Event.command c (b.perform c).1).reloads := by cases c <;> rfl
    rw [ih, List.countP_cons, hevent, rig_perform, heq]
    dsimp only [tick]
    omega
  · rw [ih, List.countP_cons, rig_poll]
    obtain ⟨_, heq⟩ | ⟨_, heq⟩ | ⟨_, heq⟩ := b.poll_cases <;> rw [heq] <;> rfl

/-! A point that has been set up. -/

/-- The generator replays this memory, and the oscilloscope has these settings. -/
structure Tuned (b : SimulatedBench) (words : GeneratorWords) (memory : Array Int32)
    (settings : AcquisitionSettings) : Prop where
  playing : b.playing = some (words, memory)
  settings : b.settings = some settings

variable {words : GeneratorWords} {memory : Array Int32} {settings : AcquisitionSettings}

/-- Of the outputs only the enabled one counts. -/
lemma playing_of_enabled {channel : Channel} (h : b.enabled = channel.mask)
    (hwords : (b.channel channel).words = some words)
    (hmemory : (b.channel channel).memory = some memory) : b.playing = some (words, memory) := by
  have hfirst : Channel.all.find? (fun c => channel.mask &&& c.mask != 0) = some channel := by
    cases channel <;> decide
  simp [playing, h, hfirst, hwords, hmemory]

namespace Tuned

/-- The second probe is as it is, whatever was in the other channel and in this one before. -/
lemma of_setUp {sweep : ValidatedSweep Float} {f : Float} {plan : AcquisitionPlan Float}
    (h : Performs (sweep.setUp f plan) es (.ok ())) (hes : rig.Plays b es b') :
    let waveform := Waveform.synthesize sweep.profile (.sine sweep.config.amplitude f)
    Tuned b' waveform.words waveform.memory
      (plan.settings sweep.config.equalization sweep.config.shaping) := by
  intro waveform
  obtain ⟨_, _, rfl, -, h⟩ := h.cons_ok
  obtain ⟨_, _, rfl, hload, h⟩ := h.cons_ok
  obtain ⟨_, _, rfl, -, h⟩ := h.cons_ok
  obtain ⟨_, _, rfl, -, h⟩ := h.cons_ok
  obtain rfl := h.nil_ok
  obtain ⟨b₁, h₁, b₂, h₂, b₃, h₃, b₄, h₄, rfl⟩ := hes
  cases h₁
  rw [rig_perform, perform] at h₂
  split at h₂
  · cases h₂
    cases hload
  cases h₂
  cases h₃
  cases h₄
  refine ⟨playing_of_enabled rfl ?_ ?_, rfl⟩ <;> cases sweep.config.channel <;> rfl

lemma poll_eq (h : Tuned b words memory settings) : b.poll =
    if b.neverTriggers then (.done none, b)
    else if 0 < b.pendingPolls then (.done none, { b with pendingPolls := b.pendingPolls - 1 })
    else (.done (some (b.replay settings words memory)), b.acquired) := by
  simp [poll, h.settings, render, h.playing]

/-- Polls leave it so. -/
lemma poll (h : Tuned b words memory settings) : Tuned (rig.poll b).2 words memory settings := by
  obtain ⟨_, heq⟩ | ⟨_, heq⟩ | ⟨_, heq⟩ := b.poll_cases <;> rw [rig_poll, heq] <;> exact ⟨h.1, h.2⟩

end Tuned

end SimulatedBench

end ImpedanceBench

import ImpedanceBench.Proofs.Bench.Simulated
import ImpedanceBench.Proofs.Rig.Determinism
import ImpedanceBench.Proofs.Rig.Timeless

/-!
What the simulated bench did before a sweep has no part in it. A point sets up all that its traces
depend on before the first poll, so benches that are built alike answer its calls alike, and the
sweep is determined by the answers. The time that the calls take has a part only where a deadline is
waited for: then it must be the same on both benches.
-/

namespace ImpedanceBench

open History

namespace SimulatedBench

variable {b b' b₁ b₁' b₂ b₂' : SimulatedBench} {words : GeneratorWords} {memory : Array Int32}
  {settings : AcquisitionSettings} {es : List Event}

/-- Benches without noise that are built alike and are triggered after equally many polls. -/
structure Alike (b₁ b₂ : SimulatedBench) : Prop extends Wired b₁ b₂ where
  pendingPolls : b₁.pendingPolls = b₂.pendingPolls
  silent : b₁.noise.active = false

/-- The same where the calls to come take equally long. -/
structure Synchronous (b₁ b₂ : SimulatedBench) : Prop extends Alike b₁ b₂ where
  timing : b₁.timing.ahead = b₂.timing.ahead

/-- What a replay shows comes from the wiring, from the memory and from the settings alone. -/
lemma Wired.replay_eq (h : Wired b₁ b₂) (silent : b₁.noise.active = false) :
    b₁.replay = b₂.replay := by
  have silent₂ : b₂.noise.active = false := h.noisy ▸ silent
  have hdeviation (k : ℕ) : b₁.noise.deviation k = b₂.noise.deviation k := by
    simp [Noise.deviation, silent, silent₂]
  funext settings words memory
  simp only [replay, h.profile, h.load, h.shuntOhms, h.dcBias, hdeviation]

lemma ahead_tick (h : b₁.timing.ahead = b₂.timing.ahead) :
    b₁.tick.timing.ahead = b₂.tick.timing.ahead := by
  have hnext (b : SimulatedBench) (k : ℕ) : b.tick.timing.ahead k = b.timing.ahead (k + 1) :=
    congrArg b.timing.takes (by simp only [tick]; omega)
  funext k
  rw [hnext, hnext, h]

/-! The same calls are answered alike. -/

namespace Synchronous

lemma perform (h : Synchronous b₁ b₂) (c : Command) :
    (rig.perform c b₁).1 = (rig.perform c b₂).1 ∧
      Synchronous (rig.perform c b₁).2 (rig.perform c b₂).2 := by
  have hwired₁ := Wired.perform b₁ c
  have hwired₂ := Wired.perform b₂ c
  obtain ⟨-, _, _, _, _, heq₁⟩ := b₁.perform_cases c
  obtain ⟨-, _, _, _, _, heq₂⟩ := b₂.perform_cases c
  refine ⟨?reply, ⟨(hwired₁.symm.trans h.toWired).trans hwired₂, ?pending,
    hwired₁.noisy.symm.trans h.silent⟩, ?timing⟩
  case reply =>
    rw [rig_perform, rig_perform, h.timing]
    cases c with
    | initOutput | initScope => simp only [SimulatedBench.perform, initReply, h.failsInit]
    | loadOutput =>
      simp only [SimulatedBench.perform, h.profile]
      split <;> rfl
    | _ => rfl
  case pending =>
    rw [rig_perform, rig_perform, heq₁, heq₂]
    exact h.pendingPolls
  case timing =>
    rw [rig_perform, rig_perform, heq₁, heq₂]
    exact ahead_tick h.timing

/-- Polls are answered alike once both benches have been set up for the same point. -/
lemma poll (h : Synchronous b₁ b₂) (h₁ : Tuned b₁ words memory settings)
    (h₂ : Tuned b₂ words memory settings) :
    (rig.poll b₁).1 = (rig.poll b₂).1 ∧ Synchronous (rig.poll b₁).2 (rig.poll b₂).2 := by
  have hwired₁ := Wired.poll b₁
  have hwired₂ := Wired.poll b₂
  have hpoll₁ := h₁.poll_eq
  have hpoll₂ := h₂.poll_eq
  rw [h.neverTriggers, h.pendingPolls, h.replay_eq h.silent] at hpoll₁
  refine ⟨?reply, ⟨(hwired₁.symm.trans h.toWired).trans hwired₂, ?pending,
    hwired₁.noisy.symm.trans h.silent⟩, ?timing⟩
  case reply =>
    rw [rig_poll, rig_poll, hpoll₁, hpoll₂, h.timing]
    split
    · rfl
    split <;> rfl
  case pending =>
    rw [rig_poll, rig_poll, hpoll₁, hpoll₂]
    split
    · exact h.pendingPolls
    split
    · rfl
    · exact h.notReadyPolls
  case timing =>
    rw [rig_poll, rig_poll, hpoll₁, hpoll₂]
    split
    · exact ahead_tick h.timing
    split <;> exact ahead_tick h.timing

lemma plays_commands (h : Synchronous b₁ b₂) (hes : rig.Plays b₁ es b₁')
    (commands : ∀ e ∈ es, ∃ c reply, e = .command c reply) :
    ∃ b₂', rig.Plays b₂ es b₂' ∧ Synchronous b₁' b₂' := by
  refine hes.induction_commands (P := fun b₁ es b₁' => ∀ b₂, Synchronous b₁ b₂ →
    ∃ b₂', rig.Plays b₂ es b₂' ∧ Synchronous b₁' b₂') ?nil ?command commands b₂ h
  case nil => exact fun b₁ b₂ h => ⟨b₂, rfl, h⟩
  case command =>
    intro b₁ c es b₁' ih b₂ h
    obtain ⟨hreply, hnext⟩ := h.perform c
    obtain ⟨b₂', hrest, hlast⟩ := ih _ hnext
    exact ⟨b₂', ⟨(rig.perform c b₂).2, Prod.ext hreply.symm rfl, hrest⟩, hlast⟩

lemma plays_polls (h : Synchronous b₁ b₂) (h₁ : Tuned b₁ words memory settings)
    (h₂ : Tuned b₂ words memory settings) (hes : rig.Plays b₁ es b₁')
    (polls : ∀ e ∈ es, e.call = .poll) : ∃ b₂', rig.Plays b₂ es b₂' ∧ Synchronous b₁' b₂' := by
  refine hes.induction_polls (P := fun b₁ es b₁' => ∀ b₂, Synchronous b₁ b₂ →
    Tuned b₁ words memory settings → Tuned b₂ words memory settings →
      ∃ b₂', rig.Plays b₂ es b₂' ∧ Synchronous b₁' b₂') ?nil ?poll polls b₂ h h₁ h₂
  case nil => exact fun b₁ b₂ h _ _ => ⟨b₂, rfl, h⟩
  case poll =>
    intro b₁ es b₁' ih b₂ h h₁ h₂
    obtain ⟨hreply, hnext⟩ := h.poll h₁ h₂
    obtain ⟨b₂', hrest, hlast⟩ := ih _ hnext h₁.poll h₂.poll
    exact ⟨b₂', ⟨(rig.poll b₂).2, Prod.ext hreply.symm rfl, hrest⟩, hlast⟩

variable {sweep : ValidatedSweep Float} {c : Bool}

/-- A point that one bench can play, the other one can play as well. -/
lemma plays_measure {f : Float} {r : Except (Failure Float) (Option (FrequencyResult Float))}
    (h : Synchronous b₁ b₂) (hmeasures : Measures sweep f c es r) (hes : rig.Plays b₁ es b₁') :
    ∃ b₂', rig.Plays b₂ es b₂' ∧ Synchronous b₁' b₂' := by
  cases hmeasures with
  | unplanned _ hdrive => exact h.plays_commands hes hdrive.commands
  | notSetUp _ hset => exact h.plays_commands hes hset.commands
  | passed _ hset hpasses =>
    -- The set-up is answered alike whatever the benches hold, and after it they hold the same.
    obtain ⟨d₁, hsetup₁, hpolls₁⟩ := hes.of_append
    obtain ⟨d₂, hsetup₂, halike⟩ := h.plays_commands hsetup₁ hset.commands
    have htuned₁ := Tuned.of_setUp hset hsetup₁
    have htuned₂ := Tuned.of_setUp hset hsetup₂
    obtain ⟨b₂', hpolls₂, hlast⟩ := halike.plays_polls htuned₁ htuned₂ hpolls₁ hpasses.calls
    exact ⟨b₂', hsetup₂.append hpolls₂, hlast⟩

lemma plays_visits {frequencies : List Float}
    {r : Except (Failure Float) (List (Float × Option (FrequencyResult Float)))}
    (h : Synchronous b₁ b₂) (hvisits : Visits sweep frequencies c es r)
    (hes : rig.Plays b₁ es b₁') : ∃ b₂', rig.Plays b₂ es b₂' ∧ Synchronous b₁' b₂' := by
  induction hvisits generalizing b₁ b₂ with
  | done | cancelled => exact ⟨b₂, rfl, hes ▸ h⟩
  | stopped hmeasures => exact h.plays_measure hmeasures hes
  | visited hmeasures _ ih =>
    obtain ⟨d₁, hfirst₁, hrest₁⟩ := hes.of_append
    obtain ⟨d₂, hfirst₂, halike⟩ := h.plays_measure hmeasures hfirst₁
    obtain ⟨b₂', hrest₂, hlast⟩ := ih halike hrest₁
    exact ⟨b₂', hfirst₂.append hrest₂, hlast⟩

lemma plays_sweep {initialized : Bool} {r : Except (Failure Float) (ResultTable Float)}
    (h : Synchronous b₁ b₂) (hsweep : Sweeps sweep initialized c es r) (hes : rig.Plays b₁ es b₁') :
    ∃ b₂', rig.Plays b₂ es b₂' ∧ Synchronous b₁' b₂' := by
  cases hsweep with
  | notReady hinit => exact h.plays_commands hes hinit.commands
  | ready hvisits => exact h.plays_visits hvisits hes
  | fresh hinit hvisits =>
    obtain ⟨d₁, hinit₁, hrest₁⟩ := hes.of_append
    obtain ⟨d₂, hinit₂, halike⟩ := h.plays_commands hinit₁ hinit.commands
    obtain ⟨b₂', hrest₂, hlast⟩ := halike.plays_visits hvisits hrest₁
    exact ⟨b₂', hinit₂.append hrest₂, hlast⟩

/-- So a sweep has the same history on both. -/
lemma sweep_unique {es₁ es₂ : List Event} {initialized : Bool}
    {r₁ r₂ : Except (Failure Float) (ResultTable Float)} (h : Synchronous b₁ b₂)
    (h₁ : Sweeps sweep initialized c es₁ r₁) (h₂ : Sweeps sweep initialized c es₂ r₂)
    (hes₁ : rig.Plays b₁ es₁ b₁') (hes₂ : rig.Plays b₂ es₂ b₂') : es₁ = es₂ ∧ r₁ = r₂ := by
  obtain ⟨_, hes, -⟩ := h.plays_sweep h₁ hes₁
  exact h₁.unique h₂ (hes.coherent hes₂)

end Synchronous

/-! Where the time does not matter. -/

/-- The same bench with another time for its calls. -/
def retimed (b : SimulatedBench) (timing : Timing) : SimulatedBench := { b with timing }

lemma perform_retimed (b : SimulatedBench) (t : Timing) (c : Command) :
    (b.retimed t).perform c = ((b.perform c).1, (b.perform c).2.retimed t) := by
  cases c with
  | configureOutput channel => cases channel <;> rfl
  | loadOutput channel memory =>
    have hprofile : (b.retimed t).profile = b.profile := rfl
    by_cases hsize : memory.size != b.profile.bufferLength.toNat
    · simp only [perform, hprofile, hsize, if_true]
    · simp only [perform, hprofile, hsize, if_false, Bool.false_eq_true]
      cases channel <;> rfl
  | _ => rfl

lemma poll_retimed (b : SimulatedBench) (t : Timing) :
    (b.retimed t).poll = (b.poll.1, b.poll.2.retimed t) := by
  have hsettings : (b.retimed t).settings = b.settings := rfl
  have htriggers : (b.retimed t).neverTriggers = b.neverTriggers := rfl
  have hpending : (b.retimed t).pendingPolls = b.pendingPolls := rfl
  simp only [poll, hsettings, htriggers, hpending]
  cases b.settings with
  | none => rfl
  | some settings =>
    dsimp only
    split
    · rfl
    split <;> rfl

/-- Apart from the times, the replies are those of a bench whose calls take none. -/
lemma plays_timeless (h : rig.Plays b es b') (n : ℕ) :
    ∃ n', rig.Plays (b.retimed ⟨n, fun _ => 0⟩) (timeless es) (b'.retimed ⟨n', fun _ => 0⟩) := by
  refine h.induction (P := fun b es b' => ∀ n, ∃ n',
    rig.Plays (b.retimed ⟨n, fun _ => 0⟩) (timeless es) (b'.retimed ⟨n', fun _ => 0⟩))
    ?nil ?command ?poll n
  case nil => exact fun _ n => ⟨n, rfl⟩
  case command =>
    intro b c es b' ih n
    obtain ⟨n', hrest⟩ := ih (n + 1)
    refine ⟨n', _, ?_, hrest⟩
    rw [rig_perform, perform_retimed]
    rfl
  case poll =>
    intro b es b' ih n
    obtain ⟨n', hrest⟩ := ih (n + 1)
    refine ⟨n', _, ?_, hrest⟩
    rw [rig_poll, poll_retimed]
    rfl

/-- Every poll is triggered. -/
structure Eager (b : SimulatedBench) : Prop where
  triggers : b.neverTriggers = false
  notReady : b.notReadyPolls = 0
  pending : b.pendingPolls = 0

namespace Eager

lemma perform (h : Eager b) (c : Command) : Eager (rig.perform c b).2 := by
  obtain ⟨-, _, _, _, _, heq⟩ := b.perform_cases c
  rw [rig_perform, heq]
  exact ⟨h.triggers, h.notReady, h.pending⟩

lemma poll (h : Eager b) : b.poll.1.outcome ≠ .ok none ∧ Eager b.poll.2 := by
  unfold SimulatedBench.poll
  split
  · exact ⟨by simp [Reply.failed], h⟩
  · rw [if_neg (by simp [h.triggers]), if_neg (by simp [h.pending])]
    exact ⟨by simp [Reply.done], h.triggers, h.notReady, h.notReady⟩

lemma unhurried (h : Eager b) (hes : rig.Plays b es b') (policy : RetryPolicy) :
    Unhurried policy es := by
  refine hes.induction (P := fun b es _ => Eager b → Unhurried policy es) ?nil ?command ?poll h
  case nil => simp [Unhurried]
  case command =>
    intro b c es _ ih h reply hreply
    exact ih (h.perform c) reply (List.mem_of_ne_of_mem (by simp) hreply)
  case poll =>
    intro b es _ ih h reply hreply ho
    obtain ⟨hfull, hnext⟩ := h.poll
    rcases List.mem_cons.1 hreply with hfirst | hrest
    · cases hfirst
      exact absurd ho hfull
    · exact ih ⟨hnext.triggers, hnext.notReady, hnext.pending⟩ reply hrest ho

end Eager

/-- In unhurried histories of a sweep only the times can differ. -/
lemma Alike.sweep_unique {sweep : ValidatedSweep Float} {initialized c : Bool}
    {es₁ es₂ : List Event} {r₁ r₂ : Except (Failure Float) (ResultTable Float)} (h : Alike b₁ b₂)
    (h₁ : Sweeps sweep initialized c es₁ r₁) (h₂ : Sweeps sweep initialized c es₂ r₂)
    (hes₁ : rig.Plays b₁ es₁ b₁') (hes₂ : rig.Plays b₂ es₂ b₂')
    (unhurried₁ : Unhurried sweep.config.retry es₁)
    (unhurried₂ : Unhurried sweep.config.retry es₂) : timeless es₁ = timeless es₂ ∧ r₁ = r₂ := by
  have hsynchronous : Synchronous (b₁.retimed ⟨0, fun _ => 0⟩) (b₂.retimed ⟨0, fun _ => 0⟩) :=
    ⟨⟨⟨h.1.1, h.1.2, h.1.3, h.1.4, h.1.5, h.1.6, h.1.7, h.1.8⟩, h.pendingPolls, h.silent⟩, rfl⟩
  obtain ⟨_, hes₁⟩ := plays_timeless hes₁ 0
  obtain ⟨_, hes₂⟩ := plays_timeless hes₂ 0
  exact hsynchronous.sweep_unique (h₁.timeless unhurried₁) (h₂.timeless unhurried₂) hes₁ hes₂

@[simp] lemma countP_reloads_timeless (es : List Event) :
    (timeless es).countP Event.reloads = es.countP Event.reloads := by
  have hevent (e : Event) : e.timeless.reloads = e.reloads := by
    rcases e with ⟨c, _⟩ | _
    · cases c <;> rfl
    · rfl
  simp [timeless, List.countP_map, Function.comp_def, hevent]

end SimulatedBench

/-! What the traces of a point show. -/

/-- The trace shows a replay of the sine of this very point, sampled as planned for it. -/
def ValidatedSweep.Shows (sweep : ValidatedSweep Float) (b : SimulatedBench) (f : Float)
    (t : Trace Float) : Prop :=
  let waveform := Waveform.synthesize sweep.profile (.sine sweep.config.amplitude f)
  ∃ plan, sweep.plan f = .ok plan ∧
    t = b.replay (plan.settings sweep.config.equalization sweep.config.shaping) waveform.words
      waveform.memory

section

open SimulatedBench

variable {b b' : SimulatedBench} {sweep : ValidatedSweep Float} {c : Bool} {es : List Event}

lemma SimulatedBench.Tuned.traces {words : GeneratorWords} {memory : Array Int32}
    {settings : AcquisitionSettings} (h : Tuned b words memory settings)
    (silent : b.noise.active = false) (hes : rig.Plays b es b')
    (polls : ∀ e ∈ es, e.call = .poll) : ∀ t ∈ traces es, t = b.replay settings words memory := by
  refine hes.induction_polls (P := fun b es _ => Tuned b words memory settings →
    b.noise.active = false → ∀ t ∈ History.traces es, t = b.replay settings words memory)
    ?nil ?poll polls h silent
  case nil => simp
  case poll =>
    intro b es b' ih h silent t ht
    have hwired := Wired.poll b
    rw [traces_poll, List.mem_append] at ht
    rcases ht with ht | ht
    · rw [rig_poll, h.poll_eq] at ht
      split at ht
      · simp [Reply.done, Except.toOption] at ht
      split at ht
      · simp [Reply.done, Except.toOption] at ht
      · simpa [Reply.done, Except.toOption] using ht
    · rw [hwired.replay_eq silent]
      exact ih h.poll (hwired.noisy.symm.trans silent) t ht

lemma Measures.shows {f : Float} {r : Except (Failure Float) (Option (FrequencyResult Float))}
    (h : Measures sweep f c es r) (hes : rig.Plays b es b') (silent : b.noise.active = false) :
    ∀ t ∈ traces es, sweep.Shows b f t := by
  intro t ht
  cases h with
  | unplanned _ hdrive => simp [hdrive.traces] at ht
  | notSetUp _ hset => simp [hset.traces] at ht
  | passed hplan hset hpasses =>
    obtain ⟨b₁, hsetup, hpolls⟩ := hes.of_append
    have hwired := Wired.of_plays hsetup
    rw [traces_append, hset.traces, List.nil_append] at ht
    have hshown := (Tuned.of_setUp hset hsetup).traces (hwired.noisy.symm.trans silent) hpolls
      hpasses.calls t ht
    exact ⟨_, hplan, by rw [hshown, hwired.replay_eq silent]⟩

/-- No trace is from before its point, from the other channel or at an earlier decimation. -/
lemma Visits.shows {frequencies : List Float}
    {r : Except (Failure Float) (List (Float × Option (FrequencyResult Float)))}
    (h : Visits sweep frequencies c es r) (hes : rig.Plays b es b')
    (silent : b.noise.active = false) :
    (tracesByPoint es).flatten = traces es ∧ ∀ (j : ℕ) ts, (tracesByPoint es)[j]? = some ts →
      ∃ f, frequencies[j]? = some f ∧ ∀ t ∈ ts, sweep.Shows b f t := by
  obtain ⟨-, hflat, hparts⟩ := h.points
  refine ⟨?_, fun j ts hj => ?_⟩
  · have htraces := congrArg traces hflat
    rwa [traces, List.filterMap_flatten] at htraces
  · rw [tracesByPoint, List.getElem?_map, Option.map_eq_some_iff] at hj
    obtain ⟨part, hj, rfl⟩ := hj
    obtain ⟨f, c, r, hf, hmeasures⟩ := hparts j part hj
    obtain ⟨before, after, hsplit⟩ := List.append_of_mem (List.mem_of_getElem? hj)
    rw [← hflat, hsplit, List.flatten_append, List.flatten_cons] at hes
    obtain ⟨b₁, hbefore, hes⟩ := hes.of_append
    obtain ⟨b₂, hpart, -⟩ := hes.of_append
    have hwired := Wired.of_plays hbefore
    refine ⟨f, hf, fun t ht => ?_⟩
    obtain ⟨plan, hplan, hshown⟩ := hmeasures.shows hpart (hwired.noisy.symm.trans silent) t ht
    exact ⟨plan, hplan, by rw [hshown, hwired.replay_eq silent]⟩

lemma Sweeps.shows {initialized : Bool} {r : Except (Failure Float) (ResultTable Float)}
    (h : Sweeps sweep initialized c es r) (hes : rig.Plays b es b')
    (silent : b.noise.active = false) :
    (tracesByPoint es).flatten = traces es ∧ ∀ (j : ℕ) ts, (tracesByPoint es)[j]? = some ts →
      ∃ f, sweep.frequencies[j]? = some f ∧ ∀ t ∈ ts, sweep.Shows b f t := by
  cases h with
  | notReady hinit =>
    have hpoints : tracesByPoint es = [] := by
      have hclosed := points_append_of_closed hinit.closed_of_init []
      rw [List.append_nil] at hclosed
      simp [tracesByPoint, hclosed, points]
    simp [hpoints, hinit.traces]
  | ready hvisits => exact hvisits.shows hes silent
  | @fresh _ es fs r hinit hvisits =>
    obtain ⟨b₁, hfirst, hrest⟩ := hes.of_append
    have hwired := Wired.of_plays hfirst
    have hpoints : tracesByPoint (es ++ fs) = tracesByPoint fs := by
      simp [tracesByPoint, points_append_of_closed hinit.closed_of_init]
    obtain ⟨hflat, hshown⟩ := hvisits.shows hrest (hwired.noisy.symm.trans silent)
    rw [hpoints, traces_append, hinit.traces, List.nil_append]
    refine ⟨hflat, fun j ts hj => ?_⟩
    obtain ⟨f, hf, hts⟩ := hshown j ts hj
    refine ⟨f, hf, fun t ht => ?_⟩
    obtain ⟨plan, hplan, ht⟩ := hts t ht
    exact ⟨plan, hplan, by rw [ht, hwired.replay_eq silent]⟩

end

namespace SimulatedBench

/-- **A sweep does not depend on what the bench did before.** On benches without noise that are
built alike and are triggered after equally many polls, it makes the same calls, ends alike and
adds as much to the counters, whatever the generator's channels and the oscilloscope were left at.
The calls may take any time, and another one on each bench unless the sweep waits for a deadline and
polls in vain; then the clock must be the same for both. Every trace shows the sine of its own
point, on the channel of the sweep and at the decimation planned for that point. -/
theorem runSweep_forgets (sweep : ValidatedSweep Float) {s₁ s₂ : Session SimulatedBench}
    (alike : Alike s₁.devices s₂.devices) (initialized : s₁.initialized = s₂.initialized)
    (cancelled : s₁.cancelled = s₂.cancelled)
    (clock : s₁.devices.timing.ahead = s₂.devices.timing.ahead ∨ sweep.config.retry.Timeless ∨
      Eager s₁.devices) :
    ∃ es, (∀ s ∈ [s₁, s₂],
        (∃ es', timeless es' = es ∧ rig.Evolves s es' ((rig.runSweep sweep).run.run s).2) ∧
        ((rig.runSweep sweep).run.run s).2.devices.acquisitions =
          s.devices.acquisitions + (traces es).length ∧
        ((rig.runSweep sweep).run.run s).2.devices.reloads =
          s.devices.reloads + es.countP Event.reloads) ∧
      ((rig.runSweep sweep).run.run s₁).1 = ((rig.runSweep sweep).run.run s₂).1 ∧
      (tracesByPoint es).flatten = traces es ∧
      ∀ (j : ℕ) ts, (tracesByPoint es)[j]? = some ts →
        ∃ f, sweep.frequencies[j]? = some f ∧ ∀ t ∈ ts, sweep.Shows s₁.devices f t := by
  obtain ⟨es₁, hes₁, hsweep₁⟩ := rig.runSweep_sweeps sweep s₁
  obtain ⟨es₂, hes₂, hsweep₂⟩ := rig.runSweep_sweeps sweep s₂
  have hshown := hsweep₁.shows hes₁.plays alike.silent
  rw [← initialized, ← cancelled] at hsweep₂
  obtain ⟨hsame, hresult⟩ : timeless es₁ = timeless es₂ ∧
      ((rig.runSweep sweep).run.run s₁).1 = ((rig.runSweep sweep).run.run s₂).1 := by
    rcases clock with hclock | htimeless | heager
    · have hsynchronous : Synchronous s₁.devices s₂.devices := ⟨alike, hclock⟩
      obtain ⟨rfl, hresult⟩ := hsynchronous.sweep_unique hsweep₁ hsweep₂ hes₁.plays hes₂.plays
      exact ⟨rfl, hresult⟩
    · exact alike.sweep_unique hsweep₁ hsweep₂ hes₁.plays hes₂.plays (fun _ _ _ => htimeless)
        fun _ _ _ => htimeless
    · have heager₂ : Eager s₂.devices := ⟨alike.neverTriggers ▸ heager.triggers,
        alike.notReadyPolls ▸ heager.notReady, alike.pendingPolls ▸ heager.pending⟩
      exact alike.sweep_unique hsweep₁ hsweep₂ hes₁.plays hes₂.plays
        (heager.unhurried hes₁.plays _) (heager₂.unhurried hes₂.plays _)
  have hcounts {s : Session SimulatedBench} {es : List Event}
      (hes : rig.Evolves s es ((rig.runSweep sweep).run.run s).2) :
      (∃ es', timeless es' = timeless es ∧
          rig.Evolves s es' ((rig.runSweep sweep).run.run s).2) ∧
        ((rig.runSweep sweep).run.run s).2.devices.acquisitions =
          s.devices.acquisitions + (traces (timeless es)).length ∧
        ((rig.runSweep sweep).run.run s).2.devices.reloads =
          s.devices.reloads + (timeless es).countP Event.reloads := by
    rw [traces_timeless, countP_reloads_timeless]
    exact ⟨⟨es, rfl, hes⟩, acquisitions_of_plays hes.plays, reloads_of_plays hes.plays⟩
  refine ⟨timeless es₁, ?_, hresult, by simpa using hshown⟩
  simp only [List.forall_mem_cons, List.not_mem_nil, false_implies, implies_true, and_true]
  exact ⟨hcounts hes₁, hsame ▸ hcounts hes₂⟩

/-- A bench that makes empty polls, each call a little slower than the one before. -/
def slowing : SimulatedBench :=
  { make .standard (.resistor 47.0) 10.0 with
    notReadyPolls := 3
    pendingPolls := 3
    timing := ⟨0, fun k => 20 * k⟩ }

/-- The same with both of its outputs still running and its oscilloscope set for something else. -/
def leftRunning : SimulatedBench :=
  { slowing with
    timing := ⟨40, fun k => 20 * (k - 40)⟩
    channelA := ⟨some ⟨0, 0, 1⟩, some #[1, 2, 3]⟩
    channelB := ⟨some ⟨0, 0, 5⟩, some #[4]⟩
    enabled := 3
    settings := some ⟨5, 64, true, true⟩
    acquisitions := 12
    reloads := 3 }

/-- It plays the first of them, and a sweep does not notice. -/
theorem runSweep_forgets_leftRunning :
    leftRunning.playing = some (⟨0, 0, 1⟩, #[1, 2, 3]) ∧
      ((rig.runSweep .twoPoints).run.run (.start leftRunning)).1 =
        ((rig.runSweep .twoPoints).run.run (.start slowing)).1 := by
  have alike : Alike leftRunning slowing := ⟨by constructor <;> rfl, rfl, rfl⟩
  have clock : leftRunning.timing.ahead = slowing.timing.ahead := by
    funext k
    simp [leftRunning, slowing, Timing.ahead]
  obtain ⟨-, -, hresult, -⟩ :=
    @runSweep_forgets .twoPoints (.start leftRunning) (.start slowing) alike rfl rfl (.inl clock)
  exact ⟨rfl, hresult⟩

end SimulatedBench

end ImpedanceBench

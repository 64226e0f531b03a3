import Mathlib.Logic.Relation
import ImpedanceBench.Proofs.Rig.Measured
import ImpedanceBench.Proofs.Rig.LastPoll

/-!
Cancellation takes effect at the next poll at the latest. No poll is made once the token is set, in
this run or in a later one, and a run that is cancelled during a poll makes no further call; unless
that poll decides how the run ends, the run is reported as cancelled.
-/

namespace ImpedanceBench

open History Progress

/-- Each poll is made before the token is set. -/
def History.Prompt : Bool → List Event → Prop
  | _, [] => True
  | c, .command _ reply :: es => Prompt (c || reply.cancels) es
  | c, .poll reply :: es => c = false ∧ Prompt reply.cancels es

namespace History

variable {c : Bool} {es fs : List Event}

lemma prompt_append : Prompt c (es ++ fs) ↔ Prompt c es ∧ Prompt (c || cancels es) fs := by
  induction es generalizing c with
  | nil => simp [Prompt]
  | cons e es ih =>
    cases e with
    | command _ reply => simp [Prompt, ih, Event.cancels, Bool.or_assoc]
    | poll reply =>
      simp only [List.cons_append, Prompt, ih, cancels_cons, Event.cancels, and_assoc]
      refine and_congr_right fun hc => ?_
      rw [hc, Bool.false_or]

lemma prompt_of_commands (h : ∀ e ∈ es, ∃ d reply, e = .command d reply) : Prompt c es := by
  induction es generalizing c with
  | nil => trivial
  | cons e es ih =>
    obtain ⟨d, reply, rfl⟩ := h e (by simp)
    exact ih fun x hx => h x (by simp [hx])

lemma Prompt.unset {pre post : List Event} {reply : Reply (Option (Trace Float))}
    (h : Prompt c (pre ++ .poll reply :: post)) : c = false ∧ cancels pre = false := by
  have hpoll := (prompt_append.1 h).2.1
  rwa [Bool.or_eq_false_iff] at hpoll

lemma Prompt.no_poll (h : Prompt true es) : ∀ e ∈ es, e.call ≠ .poll := by
  intro e he
  obtain ⟨pre, post, rfl⟩ := List.append_of_mem he
  cases e with
  | command => exact nofun
  | poll reply => exact absurd h.unset.1 (by simp)

end History

section

variable {policy : RetryPolicy} {sweep : ValidatedSweep Float} {f : Float} {es : List Event}
  {c : Bool}

lemma Acquires.prompt {made elapsed : ℕ} {r : Except (Failure Float) (Trace Float)}
    (h : Acquires policy f made elapsed c es r) : Prompt c es := by
  induction h with
  | cancelled => trivial
  | failed | triggered | gaveUp => exact ⟨rfl, trivial⟩
  | again _ _ _ ih => exact ⟨rfl, ih⟩

lemma Passes.prompt {reading : Rig.Reading} {left : ℕ}
    {r : Except (Failure Float) (List (ImpedancePoint Float))}
    (h : Passes sweep reading left c es r) : Prompt c es := by
  induction h with
  | done | cancelled => trivial
  | stopped h | unread h => exact h.prompt
  | leftOut h _ _ ih | read h _ _ ih => exact prompt_append.2 ⟨h.prompt, by simpa using ih⟩

lemma Measures.prompt {r : Except (Failure Float) (Option (FrequencyResult Float))}
    (h : Measures sweep f c es r) : Prompt c es := by
  cases h with
  | unplanned _ h | notSetUp _ h => exact prompt_of_commands h.commands
  | passed _ h rest => exact prompt_append.2 ⟨prompt_of_commands h.commands, rest.prompt⟩

lemma Visits.prompt {frequencies : List Float}
    {r : Except (Failure Float) (List (Float × Option (FrequencyResult Float)))}
    (h : Visits sweep frequencies c es r) : Prompt c es := by
  induction h with
  | done | cancelled => trivial
  | stopped h => exact h.prompt
  | visited h _ ih => exact prompt_append.2 ⟨h.prompt, by simpa using ih⟩

/-- Once the token is set, there is no poll. -/
lemma Sweeps.prompt {initialized : Bool} {r : Except (Failure Float) (ResultTable Float)}
    (h : Sweeps sweep initialized c es r) : Prompt c es := by
  cases h with
  | notReady h => exact prompt_of_commands h.commands
  | fresh h rest => exact prompt_append.2 ⟨prompt_of_commands h.commands, rest.prompt⟩
  | ready h => exact h.prompt

/-- A sweep whose token is already set does no more than to initialize the devices. -/
lemma Sweeps.of_set {initialized : Bool} {es : List Event}
    {r : Except (Failure Float) (ResultTable Float)} (h : Sweeps sweep initialized true es r)
    (hsweep : sweep.frequencies ≠ []) :
    es.map Event.call <+: (if initialized then [] else
      [.command .initOutput, .command .initScope]) ∧
      (r = .error .cancelled ∧ (∀ e ∈ es, e.failure? = none) ∨ ∃ pre c reply e,
        es = pre ++ [.command c reply] ∧ reply.outcome = .error e ∧ r = .error (c.report e)) := by
  have hvisits {es : List Event}
      {r : Except (Failure Float) (List (Float × Option (FrequencyResult Float)))}
      (h : Visits sweep sweep.frequencies true es r) :
      es = [] ∧ r = .error .cancelled := by
    generalize sweep.frequencies = frequencies at h hsweep
    cases h with
    | done => exact absurd rfl hsweep
    | cancelled => exact ⟨rfl, rfl⟩
  cases h with
  | ready h =>
    obtain ⟨rfl, rfl⟩ := hvisits h
    exact ⟨by simp, .inl ⟨rfl, by simp⟩⟩
  | notReady h =>
    obtain ⟨hok, -⟩ | ⟨pre, c, reply, e, hes, -, he, hr⟩ := h.failures
    · cases hok
    · exact ⟨h.calls_prefix, .inr ⟨pre, c, reply, e, hes, he, by rw [Except.error.inj hr]⟩⟩
  | fresh h rest =>
    obtain ⟨rfl, rfl⟩ := hvisits rest
    obtain ⟨-, hes⟩ | ⟨_, _, _, _, -, -, -, hr⟩ := h.failures
    · exact ⟨by simpa using h.calls_prefix, .inl ⟨rfl, by simpa using hes⟩⟩
    · cases hr

end

/-- How a sweep heeds the token: which is set or not at the start, and may be set in any call. -/
structure ValidatedSweep.Heeds (sweep : ValidatedSweep Float) (initialized cancelled : Bool)
    (es : List Event) (r : Except (Failure Float) (ResultTable Float)) : Prop where
  /-- Polls are made only before the token is set. -/
  polls : ∀ pre reply post, es = pre ++ .poll reply :: post →
    cancelled = false ∧ History.cancels pre = false
  /-- A poll during which it is set is the last call, and decides the outcome or is cancelled. -/
  last : ∀ pre reply post, es = pre ++ .poll reply :: post → reply.cancels = true →
    post = [] ∧ ∃ f,
      sweep.frequencies[(Progress.after sweep.config.retry pre).point - 1]? = some f ∧
      Verdict (sweep.Fatal f (Progress.after sweep.config.retry pre) reply)
        ((Progress.after sweep.config.retry es).Complete sweep sweep.frequencies.length) r
  /-- If it is set before the run, the devices are initialized at most. -/
  first : cancelled = true → es.map Event.call <+: (if initialized then [] else
      [.command .initOutput, .command .initScope]) ∧
    (r = .error .cancelled ∧ (∀ e ∈ es, e.failure? = none) ∨ ∃ pre c reply e,
      es = pre ++ [.command c reply] ∧ reply.outcome = .error e ∧ r = .error (c.report e))

namespace Rig

variable {σ : Type}

/-- What may happen to a session: one of its operations, the token is set, or the devices are
changed. -/
inductive Step (rig : Rig σ) : Session σ → Session σ → Prop
  | init (s) : Step rig s (rig.init.run.run s).2
  | sweep (sweep) (s) : Step rig s ((rig.runSweep sweep).run.run s).2
  | calibration (agrees sweep) (s) : Step rig s ((rig.runCalibration agrees sweep).run.run s).2
  | cancel (s) : Step rig s { s with cancelled := true }
  | devices (s) (d : σ) : Step rig s { s with devices := d }

/-- Between the two sessions no poll was made, and the token is still set. -/
def NoMorePolls (s s' : Session σ) : Prop :=
  s'.cancelled = true ∧ ∃ calls, s'.calls = calls ++ s.calls ∧ .poll ∉ calls

lemma Evolves.noMorePolls {rig : Rig σ} {s s' : Session σ} {es : List Event}
    (h : rig.Evolves s es s') (hs : s.cancelled = true) (hes : Prompt true es) :
    NoMorePolls s s' := by
  refine ⟨by simp [h.cancelled, hs], _, h.calls, ?_⟩
  simpa using hes.no_poll

lemma Step.noMorePolls {rig : Rig σ} {s s' : Session σ} (h : rig.Step s s')
    (hs : s.cancelled = true) : NoMorePolls s s' := by
  have hsweep (sweep : ValidatedSweep Float) {s : Session σ} (hs : s.cancelled = true) :
      NoMorePolls s ((rig.runSweep sweep).run.run s).2 := by
    obtain ⟨es, hes, h⟩ := rig.runSweep_sweeps sweep s
    rw [hs] at h
    exact hes.noMorePolls hs h.prompt
  cases h with
  | init =>
    obtain ⟨es, hes, h⟩ := rig.gives_init s
    exact hes.noMorePolls hs (prompt_of_commands h.commands)
  | sweep sweep => exact hsweep sweep hs
  | calibration agrees sweep =>
    rw [rig.run_runCalibration]
    split
    · exact hsweep sweep hs
    · exact ⟨hs, [], rfl, by simp⟩
  | cancel => exact ⟨rfl, [], rfl, by simp⟩
  | devices => exact ⟨hs, [], rfl, by simp⟩

lemma noMorePolls_of_steps {rig : Rig σ} {s s' : Session σ}
    (h : Relation.ReflTransGen rig.Step s s') (hs : s.cancelled = true) : NoMorePolls s s' := by
  induction h with
  | refl => exact ⟨hs, [], rfl, by simp⟩
  | tail _ hstep ih =>
    obtain ⟨hset, calls, hcalls, hpolls⟩ := ih
    obtain ⟨hset', calls', hcalls', hpolls'⟩ := hstep.noMorePolls hset
    exact ⟨hset', calls' ++ calls, by rw [hcalls', hcalls, List.append_assoc],
      by simp [hpolls, hpolls']⟩

/-- **Cancellation is prompt and lasts.** A sweep heeds the token, and once it is set there is not a
single poll, whatever is done with the session later. -/
theorem runSweep_cancellation (rig : Rig σ) {sweep : ValidatedSweep Float} (valid : sweep.Accepted)
    (s : Session σ) :
    (∃ es, rig.Evolves s es ((rig.runSweep sweep).run.run s).2 ∧
      sweep.Heeds s.initialized s.cancelled es ((rig.runSweep sweep).run.run s).1) ∧
      ∀ s₁ s₂ : Session σ, s₁.cancelled = true → Relation.ReflTransGen rig.Step s₁ s₂ →
        NoMorePolls s₁ s₂ := by
  refine ⟨?_, fun s₁ s₂ hs h => noMorePolls_of_steps h hs⟩
  obtain ⟨es, hes, h⟩ := rig.runSweep_sweeps sweep s
  refine ⟨es, hes, ?polls, ?last, ?first⟩
  case polls =>
    rintro pre reply post rfl
    exact h.prompt.unset
  case last =>
    rintro pre reply post rfl hreply
    obtain ⟨rfl, f, hf, hverdict⟩ := h.of_cancels rfl hreply rfl
    exact ⟨rfl, f, hf, by simpa [Progress.after] using hverdict⟩
  case first =>
    intro hset
    rw [hset] at h
    exact h.of_set valid.sound.nonempty

/-- A token that is set during the first poll ends the run there, and another run makes no poll. -/
theorem runSweep_cancellation_first_poll :
    let start : Session Script := .start ⟨[⟨.ok none, true, 0⟩], fun _ => none⟩
    ∃ es s', (Script.rig.runSweep .twoPoints).run.run start = (.error .cancelled, s') ∧
      s'.calls.length = 7 ∧ Script.rig.Evolves start es s' ∧
      ValidatedSweep.twoPoints.Heeds false false es (.error .cancelled) ∧
      NoMorePolls s' ((Script.rig.runSweep .twoPoints).run.run s').2 := by
  intro start
  have houtcome : ((Script.rig.runSweep .twoPoints).run.run start).1 matches .error .cancelled := by
    decide +kernel
  have hstate : ((Script.rig.runSweep .twoPoints).run.run start).2.cancelled = true ∧
      ((Script.rig.runSweep .twoPoints).run.run start).2.calls.length = 7 := by decide +kernel
  obtain ⟨⟨es, hes, h⟩, hlater⟩ :=
    runSweep_cancellation Script.rig ValidatedSweep.twoPoints_accepted start
  rcases hrun : (Script.rig.runSweep .twoPoints).run.run start with ⟨r, s'⟩
  rw [hrun] at houtcome hstate hes h
  split at houtcome
  · rename_i hr
    obtain rfl : r = .error .cancelled := hr
    exact ⟨es, s', rfl, hstate.2, hes, h, hlater _ _ hstate.1 (.single (.sweep _ _))⟩
  · cases houtcome

end Rig

end ImpedanceBench

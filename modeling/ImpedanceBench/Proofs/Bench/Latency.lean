import ImpedanceBench.Proofs.Bench.Simulated
import ImpedanceBench.Proofs.Rig.Budget
import ImpedanceBench.Proofs.Rig.Determinism
import ImpedanceBench.Proofs.Rig.Progress

/-!
A slow trigger against the budget of an acquisition. The bench counts the empty polls before a
trigger through all the passes, a pass counts its own polls from the start: so every so many passes
one gets a trace, whatever the point to which it belongs.
-/

namespace ImpedanceBench

open History Progress

/-- Two channels of one length. -/
def Trace.Paired (t : Trace Float) : Prop :=
  ∃ excitation shunt : List Float, t.channels = [excitation, shunt] ∧
    shunt.length = excitation.length

/-- Of such a trace only the current may be missing. -/
lemma Rig.Reading.point_of_paired {reading : Rig.Reading} {t : Trace Float} (h : t.Paired)
    (hscale : ∃ volts ohms, reading.scale = .standard volts ohms) :
    (∃ p, reading.point t = .ok p) ∨ reading.point t = .error (.noCurrent reading.frequency) := by
  obtain ⟨excitation, shunt, hchannels, hlength⟩ := h
  obtain ⟨volts, ohms, hscale⟩ := hscale
  have hvalid : t.validate (max reading.scale.excitation reading.scale.shunt + 1) = .ok () := by
    simp [Trace.validate, hscale, FixtureScale.standard, hchannels, Trace.samplesPerChannel,
      hlength]
  unfold Rig.Reading.point LoadTraces.ofTrace
  rw [hvalid]
  dsimp only [bind, Except.bind, pure, Except.pure]
  unfold ImpedancePoint.estimate
  split
  · exact .inl ⟨_, rfl⟩
  · exact .inr rfl

namespace SimulatedBench

variable {b b' : SimulatedBench} {es : List Event} {p k : ℕ} {words : GeneratorWords}
  {memory : Array Int32} {settings : AcquisitionSettings}

lemma paired_replay : (b.replay settings words memory).Paired := by
  refine ⟨_, _, rfl, ?_⟩
  rw [List.length_map, List.length_map]

/-- A bench that makes `p` empty polls before each trigger, and `k` before the next. -/
structure Waits (b : SimulatedBench) (p k : ℕ) : Prop where
  triggers : b.neverTriggers = false
  notReady : b.notReadyPolls.toNat = p
  pending : b.pendingPolls.toNat = k

/-- A poll is triggered, or one fewer is to come. -/
lemma Waits.poll (h : Waits b p k) (tuned : Tuned b words memory settings) :
    (k = 0 ∧ b.poll.1 = .done (some (b.replay settings words memory)) ∧ Waits b.poll.2 p p) ∨
      ∃ k', k = k' + 1 ∧ b.poll.1 = .done none ∧ Waits b.poll.2 p k' := by
  have hpoll := tuned.poll_eq
  rw [if_neg (by simp [h.triggers])] at hpoll
  by_cases hpending : 0 < b.pendingPolls
  · rw [if_pos hpending] at hpoll
    have hpositive : 0 < k := h.pending ▸ UInt32.lt_iff_toNat_lt.1 hpending
    refine .inr ⟨k - 1, by omega, by rw [hpoll], ?_⟩
    rw [hpoll]
    refine ⟨h.triggers, h.notReady, ?_⟩
    rw [UInt32.toNat_sub_of_le _ _ (UInt32.le_iff_toNat_le.2 (h.pending ▸ hpositive)), h.pending]
    rfl
  · rw [if_neg hpending] at hpoll
    have hzero : k = 0 := by
      have hle := UInt32.le_iff_toNat_le.1 (UInt32.not_lt.1 hpending)
      rw [h.pending] at hle
      exact Nat.le_zero.1 hle
    refine .inl ⟨hzero, by rw [hpoll], ?_⟩
    rw [hpoll]
    exact ⟨h.triggers, h.notReady, h.notReady⟩

lemma Waits.tick (h : Waits b p k) : Waits b.tick p k := ⟨h.triggers, h.notReady, h.pending⟩

/-- Commands leave the polls to come as they are. -/
lemma Waits.of_commands (h : Waits b p k) (hes : rig.Plays b es b')
    (commands : ∀ e ∈ es, ∃ c reply, e = .command c reply) : Waits b' p k := by
  refine hes.induction_commands (P := fun b _ b' => Waits b p k → Waits b' p k) (fun _ h => h)
    (fun b c es b' ih h => ih ?_) commands h
  obtain ⟨-, _, _, _, _, heq⟩ := b.perform_cases c
  rw [rig_perform, heq]
  exact ⟨h.triggers, h.notReady, h.pending⟩

/-- The poll that a history begins with. -/
lemma Waits.plays_poll (h : Waits b p k) (tuned : Tuned b words memory settings)
    {reply : Reply (Option (Trace Float))} (hes : rig.Plays b (.poll reply :: es) b') :
    ∃ b₁, rig.Plays b₁ es b' ∧ Tuned b₁ words memory settings ∧
      ((k = 0 ∧ (∃ t n, t.Paired ∧ reply = ⟨.ok (some t), false, n⟩) ∧ Waits b₁ p p) ∨
        ∃ k' n, k = k' + 1 ∧ reply = ⟨.ok none, false, n⟩ ∧ Waits b₁ p k') := by
  obtain ⟨b₁, hpoll, hrest⟩ := hes
  obtain ⟨rfl, rfl⟩ := Prod.mk.inj ((rig_poll b).symm.trans hpoll)
  refine ⟨_, hrest, tuned.poll, ?_⟩
  rcases h.poll tuned with ⟨hzero, hreply, hnext⟩ | ⟨k', hk, hreply, hnext⟩
  · exact .inl ⟨hzero, ⟨_, b.timing.ahead 0, paired_replay, by rw [hreply]; rfl⟩, hnext.tick⟩
  · exact .inr ⟨k', b.timing.ahead 0, hk, by rw [hreply]; rfl, hnext.tick⟩

/-- An acquisition gets a trace if no more empty polls are to come than it may make; otherwise it
makes as many as it may, and the rest is left for the next one. -/
lemma Waits.acquires (h : Waits b p k) (tuned : Tuned b words memory settings)
    {policy : RetryPolicy} {f : Float} {made elapsed : ℕ} {c : Bool}
    {r : Except (Failure Float) (Trace Float)} (hr : Acquires policy f made elapsed c es r)
    (hes : rig.Plays b es b') (going : c = false) (hmade : made < policy.budget)
    (patient : policy.deadline = none ∨ k = 0) :
    Tuned b' words memory settings ∧
      ((k < policy.budget - made ∧ (∃ t : Trace Float, t.Paired ∧ r = .ok t) ∧ Waits b' p p) ∨
        policy.budget - made ≤ k ∧ r = .error (.acquisitionTimeout f policy.budget) ∧
          Waits b' p (k - (policy.budget - made))) := by
  -- Each empty poll takes one from `k` and one from what is left of the budget.
  induction hr generalizing b k with
  | cancelled => cases going
  | failed ho =>
    obtain ⟨b₁, -, -, ⟨-, ⟨_, _, -, rfl⟩, -⟩ | ⟨_, _, -, rfl, -⟩⟩ := h.plays_poll tuned hes <;>
      cases ho
  | triggered ho =>
    obtain ⟨b₁, rfl, htuned, ⟨hzero, ⟨_, _, hpaired, rfl⟩, hnext⟩ | ⟨_, _, -, rfl, -⟩⟩ :=
      h.plays_poll tuned hes <;> cases ho
    exact ⟨htuned, .inl ⟨by omega, ⟨_, hpaired, rfl⟩, hnext⟩⟩
  | @gaveUp made elapsed reply ho spent =>
    obtain ⟨b₁, rfl, htuned, ⟨-, ⟨_, _, -, rfl⟩, -⟩ | ⟨k', _, rfl, rfl, hnext⟩⟩ :=
      h.plays_poll tuned hes
    · cases ho
    have hlast : made + 1 = policy.budget := by
      have hdeadline := patient.resolve_right (by simp)
      have hspent : policy.budget ≤ made + 1 := by
        simpa [RetryPolicy.exhausted, RetryPolicy.expired, hdeadline] using spent
      omega
    have hleft : policy.budget - made = 1 := by omega
    rw [hleft, hlast]
    exact ⟨htuned, .inr ⟨by omega, rfl, hnext⟩⟩
  | @again made elapsed reply es r ho more _ ih =>
    obtain ⟨b₁, hrest, htuned, ⟨-, ⟨_, _, -, rfl⟩, -⟩ | ⟨k', _, rfl, rfl, hnext⟩⟩ :=
      h.plays_poll tuned hes
    · cases ho
    have hdeadline := patient.resolve_right (by simp)
    have hmore : made + 1 < policy.budget := by
      simpa [RetryPolicy.exhausted, RetryPolicy.expired, hdeadline] using more
    obtain ⟨hlast, hcases⟩ := ih hnext htuned hrest rfl hmore (.inl hdeadline)
    have hleft : policy.budget - made = policy.budget - (made + 1) + 1 := by omega
    rw [hleft, Nat.add_lt_add_iff_right, Nat.add_le_add_iff_right, Nat.add_sub_add_right]
    exact ⟨hlast, hcases⟩

/-- The bench is about to begin pass number `i` of a run. -/
def Before (b : SimulatedBench) (policy : RetryPolicy) (p i : ℕ) : Prop :=
  Waits b p (policy.pendingAt p i)

lemma Before.acquires {policy : RetryPolicy} {i : ℕ} (h : Before b policy p i)
    (tuned : Tuned b words memory settings) {f : Float} {r : Except (Failure Float) (Trace Float)}
    (hr : Acquires policy f 0 0 false es r) (hes : rig.Plays b es b')
    (patient : policy.deadline = none ∨ p = 0) :
    Tuned b' words memory settings ∧ Before b' policy p (i + 1) ∧
      (((i + 1) % policy.period p = 0 ∧ ∃ t : Trace Float, t.Paired ∧ r = .ok t) ∨
        (i + 1) % policy.period p ≠ 0 ∧ r = .error (.acquisitionTimeout f policy.budget)) := by
  have hpatient : policy.deadline = none ∨ policy.pendingAt p i = 0 :=
    patient.imp_right fun hp => by simp [hp, RetryPolicy.pendingAt]
  obtain ⟨htuned, hcases⟩ := Waits.acquires h tuned hr hes rfl policy.budget_pos hpatient
  rw [Nat.sub_zero, RetryPolicy.pendingAt_lt_iff] at hcases
  refine ⟨htuned, ?_⟩
  rcases hcases with ⟨hnext, ht, hwaits⟩ | ⟨hle, hr, hwaits⟩
  · refine ⟨?_, .inl ⟨hnext, ht⟩⟩
    rwa [Before, policy.pendingAt_of_mod_eq_zero p hnext]
  · have hnext : (i + 1) % policy.period p ≠ 0 := fun hzero => by
      rw [← RetryPolicy.pendingAt_lt_iff] at hzero
      omega
    refine ⟨?_, .inr ⟨hnext, hr⟩⟩
    rwa [Before, policy.pendingAt_succ p hnext]

/-- From pass number `i` on there were `total` passes, and every so many got a trace, unless there
was no current at one of the frequencies. -/
def Scheduled {β : Type} (policy : RetryPolicy) (p i total : ℕ) (frequencies : List Float)
    (endings : List Bool) (b' : SimulatedBench) (r : Except (Failure Float) β) : Prop :=
  ∃ n ≤ total, endings = everyNth (policy.period p) i n ∧
    (((∃ x, r = .ok x) ∧ n = total ∧ Before b' policy p (i + total)) ∨
      ∃ f ∈ frequencies, r = .error (.noCurrent f))

namespace Scheduled

variable {α β : Type} {policy : RetryPolicy} {i m total : ℕ} {frequencies fs : List Float}
  {endings : List Bool} {r : Except (Failure Float) β}

lemma after (h : Scheduled policy p (i + m) total frequencies endings b' r) :
    Scheduled policy p i (m + total) frequencies (everyNth (policy.period p) i m ++ endings) b'
      r := by
  obtain ⟨n, hle, rfl, hr⟩ := h
  refine ⟨m + n, by omega, (everyNth_add _ i m n).symm, hr.imp_left ?_⟩
  rintro ⟨hok, rfl, hbefore⟩
  exact ⟨hok, rfl, by rwa [← Nat.add_assoc]⟩

lemma map (h : Scheduled policy p i total frequencies endings b' r) (g : β → α) :
    Scheduled policy p i total frequencies endings b' (r.map g) := by
  obtain ⟨n, hle, hendings, ⟨⟨x, rfl⟩, hrest⟩ | ⟨f, hf, rfl⟩⟩ := h
  · exact ⟨n, hle, hendings, .inl ⟨⟨g x, rfl⟩, hrest⟩⟩
  · exact ⟨n, hle, hendings, .inr ⟨f, hf, rfl⟩⟩

lemma mono (h : Scheduled policy p i total frequencies endings b' r) (hfs : frequencies ⊆ fs) :
    Scheduled policy p i total fs endings b' r := by
  obtain ⟨n, hle, hendings, hr⟩ := h
  exact ⟨n, hle, hendings, hr.imp_right fun ⟨f, hf, hr⟩ => ⟨f, hfs hf, hr⟩⟩

lemma acquired_iff (h : Scheduled policy p i total frequencies endings b' r) {j : ℕ}
    {acquired : Bool} (hj : endings[j]? = some acquired) :
    acquired = true ↔ (i + j + 1) % policy.period p = 0 := by
  obtain ⟨n, -, rfl, -⟩ := h
  rw [eq_of_getElem?_everyNth hj, beq_iff_eq]

end Scheduled

variable {sweep : ValidatedSweep Float} {i : ℕ}

/-- One pass: the bench is then about to begin the next one. -/
lemma Before.pass (h : Before b sweep.config.retry p i) (tuned : Tuned b words memory settings)
    {f : Float} {r : Except (Failure Float) (Trace Float)}
    (hr : Acquires sweep.config.retry f 0 0 false es r) (hes : rig.Plays b es b')
    (patient : sweep.config.retry.deadline = none ∨ p = 0) (point pass : ℕ) :
    Tuned b' words memory settings ∧ Before b' sweep.config.retry p (i + 1) ∧
      (⟨point, pass, 0, 0⟩ : Progress).endings sweep.config.retry es =
        everyNth (sweep.config.retry.period p) i 1 ∧
      (⟨point, pass, 0, 0⟩ : Progress).through sweep.config.retry es = ⟨point, pass + 1, 0, 0⟩ ∧
      ((∃ t : Trace Float, t.Paired ∧ r = .ok t) ∨
        (i + 1) % sweep.config.retry.period p ≠ 0 ∧
          r = .error (.acquisitionTimeout f sweep.config.retry.budget)) := by
  obtain ⟨htuned, hbefore, hcases⟩ := h.acquires tuned hr hes patient
  have hending := hr.endings (p := ⟨point, pass, 0, 0⟩) rfl (cancels_of_plays hes)
  have hthrough := hr.through (p := ⟨point, pass, 0, 0⟩)
  refine ⟨htuned, hbefore, ?_, ?_, hcases.imp_left fun ⟨_, ht⟩ => ht⟩
  · rcases hcases with ⟨hnext, t, -, rfl⟩ | ⟨hnext, rfl⟩
    · have hthis : everyNth (sweep.config.retry.period p) i 1 = [true] := by
        simp [everyNth, hnext]
      exact hending.trans hthis.symm
    · have hthis : everyNth (sweep.config.retry.period p) i 1 = [false] := by
        simp [everyNth, hnext]
      exact hending.trans hthis.symm
  · rcases hcases with ⟨-, t, -, rfl⟩ | ⟨-, rfl⟩ <;> exact hthrough.resolve_right (by simp)

/-- The passes of a point, when none of them ends the sweep for want of a trigger. -/
lemma Before.passes (h : Before b sweep.config.retry p i) (tuned : Tuned b words memory settings)
    {reading : Rig.Reading} (hscale : ∃ volts ohms, reading.scale = .standard volts ohms)
    {left : ℕ} {c : Bool} {r : Except (Failure Float) (List (ImpedancePoint Float))}
    (hr : Passes sweep reading left c es r) (hes : rig.Plays b es b') (going : c = false)
    (patient : sweep.config.retry.deadline = none ∨ p = 0)
    (lenient : sweep.config.timeoutPolicy = .skipPass ∨ sweep.config.retry.period p = 1)
    (point pass : ℕ) :
    Scheduled sweep.config.retry p i left [reading.frequency]
      ((⟨point, pass, 0, 0⟩ : Progress).endings sweep.config.retry es) b' r := by
  induction hr generalizing b i pass with
  | done => exact ⟨0, Nat.le_refl 0, rfl, .inl ⟨⟨_, rfl⟩, rfl, hes ▸ h⟩⟩
  | cancelled => cases going
  | stopped hacquires kept =>
    obtain ⟨-, -, -, -, ⟨_, -, hr⟩ | ⟨hnext, hr⟩⟩ := h.pass tuned hacquires hes patient point pass
    · cases hr
    · cases hr
      rcases lenient with hskip | hone
      · exact absurd ⟨hskip, _, _, rfl⟩ kept
      · exact absurd (by rw [hone, Nat.mod_one]) hnext
  | @leftOut left es e fs r hacquires _ _ ih =>
    obtain ⟨b₁, hfirst, hrest⟩ := hes.of_append
    obtain ⟨htuned, hbefore, hending, hthrough, -⟩ :=
      h.pass tuned hacquires hfirst patient point pass
    have hlast := ih hbefore htuned hrest (cancels_of_plays hfirst) (pass + 1)
    rw [endings_append, hending, hthrough, Nat.add_comm left 1]
    exact hlast.after
  | unread hacquires bad =>
    obtain ⟨-, -, hending, -, ⟨t, hpaired, hr⟩ | ⟨-, hr⟩⟩ :=
      h.pass tuned hacquires hes patient point pass
    · cases hr
      obtain ⟨_, hgood⟩ | hbad := Rig.Reading.point_of_paired hpaired hscale
      · cases bad.symm.trans hgood
      · cases bad.symm.trans hbad
        exact ⟨1, by omega, hending, .inr ⟨_, by simp, rfl⟩⟩
    · cases hr
  | @read left es t q fs r hacquires _ _ ih =>
    obtain ⟨b₁, hfirst, hrest⟩ := hes.of_append
    obtain ⟨htuned, hbefore, hending, hthrough, -⟩ :=
      h.pass tuned hacquires hfirst patient point pass
    have hlast := ih hbefore htuned hrest (cancels_of_plays hfirst) (pass + 1)
    rw [endings_append, hending, hthrough, Nat.add_comm left 1]
    exact hlast.after.map (q :: ·)

/-! The commands of a sweep are obeyed. -/

/-- Commands that every bench of this build obeys are all given. -/
lemma obeys {cs : List Command} {r : Except (Failure Float) Unit} (h : Performs cs es r)
    (hes : rig.Plays b es b')
    (hcs : ∀ c ∈ cs, ∀ b₁, Wired b b₁ → (b₁.perform c).1.outcome = .ok ()) : r = .ok () := by
  induction h generalizing b with
  | done => rfl
  | @failed c cs reply e ho =>
    obtain ⟨b₁, hstep, -⟩ := hes
    have hok : (rig.perform c b).1.outcome = .ok () := hcs c (by simp) b (.refl b)
    rw [hstep, ho] at hok
    cases hok
  | @succeeded c cs reply es r _ _ ih =>
    obtain ⟨b₁, hstep, hrest⟩ := hes
    have hwired := Wired.perform b c
    rw [hstep] at hwired
    exact ih hrest fun d hd b₂ h₂ => hcs d (by simp [hd]) b₂ (hwired.trans h₂)

lemma obeys_init {r : Except (Failure Float) Unit} (starts : b.failsInit = false)
    (h : Performs [.initOutput, .initScope] es r) (hes : rig.Plays b es b') : r = .ok () := by
  refine obeys h hes fun c hc b₁ hwired => ?_
  have hstarts : b₁.failsInit = false := hwired.failsInit ▸ starts
  simp only [List.mem_cons, List.not_mem_nil, or_false] at hc
  rcases hc with rfl | rfl <;> simp [perform, initReply, hstarts, Reply.done]

/-- The generator takes every buffer that is made for its own profile. -/
lemma obeys_setUp (profile : b.profile = sweep.profile) {f : Float} {plan : AcquisitionPlan Float}
    {r : Except (Failure Float) Unit} (h : Performs (sweep.setUp f plan) es r)
    (hes : rig.Plays b es b') : r = .ok () := by
  refine obeys h hes fun c hc b₁ hwired => ?_
  have hsize : (Waveform.synthesize sweep.profile
      (.sine sweep.config.amplitude f)).memory.size = b₁.profile.bufferLength.toNat := by
    simp [Waveform.synthesize, Waveform.signedSamples, ← hwired.profile, profile]
  simp only [ValidatedSweep.setUp, ValidatedSweep.drive, List.cons_append, List.nil_append,
    List.mem_cons, List.not_mem_nil, or_false] at hc
  rcases hc with rfl | rfl | rfl | rfl
  · rfl
  · simp [perform, hsize, Reply.done]
  · rfl
  · rfl

/-- What a sweep needs of the bench: its own profile, devices that start, and a trigger. -/
structure Steady (sweep : ValidatedSweep Float) (b : SimulatedBench) : Prop where
  profile : b.profile = sweep.profile
  starts : b.failsInit = false
  triggers : b.neverTriggers = false

lemma Steady.of_plays (h : Steady sweep b) (hes : rig.Plays b es b') : Steady sweep b' :=
  have hwired := Wired.of_plays hes
  ⟨hwired.profile ▸ h.profile, hwired.failsInit ▸ h.starts, hwired.neverTriggers ▸ h.triggers⟩

/-- A point has all of its passes. -/
lemma Before.measure (h : Before b sweep.config.retry p i) (steady : Steady sweep b) {f : Float}
    (planned : ∃ plan, sweep.plan f = .ok plan)
    {r : Except (Failure Float) (Option (FrequencyResult Float))}
    (hr : Measures sweep f false es r) (hes : rig.Plays b es b')
    (patient : sweep.config.retry.deadline = none ∨ p = 0)
    (lenient : sweep.config.timeoutPolicy = .skipPass ∨ sweep.config.retry.period p = 1)
    (progress : Progress) :
    Scheduled sweep.config.retry p i sweep.passesPerPoint.toNat [f]
      (progress.endings sweep.config.retry es) b' r := by
  obtain ⟨plan, hplan⟩ := planned
  cases hr with
  | unplanned bad => cases bad.symm.trans hplan
  | notSetUp _ hset => cases obeys_setUp steady.profile hset hes
  | passed _ hset hpasses =>
    obtain ⟨b₁, hsetup, hrest⟩ := hes.of_append
    have htuned := Tuned.of_setUp hset hsetup
    have hbefore : Before b₁ sweep.config.retry p i := Waits.of_commands h hsetup hset.commands
    have hscheduled := hbefore.passes htuned ⟨_, _, rfl⟩ hpasses hrest
      (by simp [cancels_of_plays hsetup]) patient lenient (progress.point + 1) 0
    rw [endings_append, hset.endings, hset.through_setUp, List.nil_append]
    exact hscheduled.map _

/-- The traces of the point at place `j`, when each has `passes` passes. -/
def share (q passes j : ℕ) : ℕ := (j + 1) * passes / q - j * passes / q

@[simp] lemma share_one (passes j : ℕ) : share 1 passes j = passes := by
  rw [share, Nat.div_one, Nat.div_one, Nat.succ_mul, Nat.add_sub_cancel_left]

/-- The points from place `j` on. -/
lemma Before.visits {frequencies : List Float} {j : ℕ}
    (h : Before b sweep.config.retry p (j * sweep.passesPerPoint.toNat))
    (steady : Steady sweep b) (planned : ∀ f ∈ frequencies, ∃ plan, sweep.plan f = .ok plan)
    {c : Bool} {r : Except (Failure Float) (List (Float × Option (FrequencyResult Float)))}
    (hr : Visits sweep frequencies c es r) (hes : rig.Plays b es b') (going : c = false)
    (patient : sweep.config.retry.deadline = none ∨ p = 0)
    (lenient : sweep.config.timeoutPolicy = .skipPass ∨ sweep.config.retry.period p = 1)
    (progress : Progress) :
    Scheduled sweep.config.retry p (j * sweep.passesPerPoint.toNat)
        (frequencies.length * sweep.passesPerPoint.toNat) frequencies
        (progress.endings sweep.config.retry es) b' r ∧
      ((∃ visits, r = .ok visits) → (tracesByPoint es).map List.length =
        (List.range' j frequencies.length).map
          (share (sweep.config.retry.period p) sweep.passesPerPoint.toNat)) := by
  -- The passes are numbered through the whole run: a point begins at a multiple of its passes,
  -- which need not be a multiple of the period.
  induction hr generalizing b j progress with
  | done => exact ⟨⟨0, Nat.zero_le _, rfl, .inl ⟨⟨_, rfl⟩, by simp, by simpa using hes ▸ h⟩⟩,
      fun _ => rfl⟩
  | cancelled => cases going
  | stopped hmeasures =>
    obtain ⟨n, hle, hendings, ⟨⟨_, hr⟩, -⟩ | ⟨f, hf, hr⟩⟩ := h.measure steady
      (planned _ (by simp)) hmeasures hes patient lenient progress
    · cases hr
    · cases hr
      obtain rfl := List.mem_singleton.1 hf
      refine ⟨⟨n, ?_, hendings, .inr ⟨_, by simp, rfl⟩⟩, by simp⟩
      rw [List.length_cons, Nat.succ_mul]
      omega
  | @visited f fs es v es' r hmeasures hvisits ih =>
    obtain ⟨b₁, hfirst, hrest⟩ := hes.of_append
    obtain ⟨n, -, hendings, ⟨-, rfl, hbefore⟩ | ⟨_, -, hr⟩⟩ := h.measure steady
      (planned _ (by simp)) hmeasures hfirst patient lenient progress
    · rw [← Nat.succ_mul] at hbefore
      obtain ⟨hscheduled, hcounts⟩ := ih hbefore (steady.of_plays hfirst)
        (fun g hg => planned g (by simp [hg])) hrest (cancels_of_plays hfirst)
        (progress.through sweep.config.retry es)
      rw [Nat.succ_mul] at hscheduled
      refine ⟨?_, fun ⟨visits, hok⟩ => ?_⟩
      · rw [endings_append, hendings, List.length_cons, Nat.succ_mul, Nat.add_comm (_ * _)]
        exact (hscheduled.after.map _).mono (by simp)
      · have hpoints : tracesByPoint (es ++ es') = traces es :: tracesByPoint es' := by
          obtain ⟨e, es, rfl, he, hclosed⟩ := hmeasures.opens
          simp [tracesByPoint, points_cons_append he hclosed hvisits.points.1]
        have htraces : (traces es).length =
            share (sweep.config.retry.period p) sweep.passesPerPoint.toNat j := by
          rw [← count_endings sweep.config.retry progress, hendings, count_everyNth, share,
            Nat.succ_mul]
        obtain ⟨visits', rfl⟩ : ∃ visits', r = .ok visits' := by
          rcases r with _ | visits'
          · cases hok
          · exact ⟨visits', rfl⟩
        rw [hpoints, List.map_cons, htraces, hcounts ⟨visits', rfl⟩, List.length_cons,
          List.range'_succ, List.map_cons]
    · cases hr

lemma Before.start (steady : Steady sweep b) (pending : b.pendingPolls = b.notReadyPolls) :
    Before b sweep.config.retry b.notReadyPolls.toNat 0 := by
  refine ⟨steady.triggers, rfl, ?_⟩
  rw [pending, sweep.config.retry.pendingAt_of_mod_eq_zero _ (Nat.zero_mod _)]

/-- A whole sweep whose timeouts only leave passes out, or which has none. -/
lemma Before.sweeps (h : Before b sweep.config.retry p 0) (steady : Steady sweep b)
    (sound : sweep.Sound) {initialized c : Bool} {r : Except (Failure Float) (ResultTable Float)}
    (hr : Sweeps sweep initialized c es r) (hes : rig.Plays b es b') (going : c = false)
    (patient : sweep.config.retry.deadline = none ∨ p = 0)
    (lenient : sweep.config.timeoutPolicy = .skipPass ∨ sweep.config.retry.period p = 1) :
    Scheduled sweep.config.retry p 0 (sweep.frequencies.length * sweep.passesPerPoint.toNat)
        sweep.frequencies (Progress.start.endings sweep.config.retry es) b' r ∧
      ((∃ table, r = .ok table) → (tracesByPoint es).map List.length =
        (List.range sweep.frequencies.length).map
          (share (sweep.config.retry.period p) sweep.passesPerPoint.toNat)) := by
  have hfirst : Before b sweep.config.retry p (0 * sweep.passesPerPoint.toNat) := by
    rwa [Nat.zero_mul]
  have ok_of_map {r : Except (Failure Float) (List (Float × Option (FrequencyResult Float)))}
      (hok : ∃ table, r.map ResultTable.ofVisits = .ok table) : ∃ visits, r = .ok visits := by
    rcases r with _ | visits
    · obtain ⟨_, hok⟩ := hok
      cases hok
    · exact ⟨visits, rfl⟩
  cases hr with
  | notReady hinit => cases obeys_init steady.starts hinit hes
  | ready hvisits =>
    obtain ⟨hscheduled, hcounts⟩ := hfirst.visits steady sound.plans hvisits hes going patient
      lenient .start
    rw [Nat.zero_mul] at hscheduled
    rw [List.range_eq_range']
    exact ⟨hscheduled.map _, fun hok => hcounts (ok_of_map hok)⟩
  | @fresh _ es fs r hinit hvisits =>
    obtain ⟨b₁, hstart, hrest⟩ := hes.of_append
    have hbefore : Before b₁ sweep.config.retry p (0 * sweep.passesPerPoint.toNat) :=
      Waits.of_commands hfirst hstart hinit.commands
    obtain ⟨hscheduled, hcounts⟩ := hbefore.visits (steady.of_plays hstart) sound.plans hvisits
      hrest (by simp [going, cancels_of_plays hstart]) patient lenient .start
    have hpoints : tracesByPoint (es ++ fs) = tracesByPoint fs := by
      simp [tracesByPoint, points_append_of_closed hinit.closed_of_init]
    rw [Nat.zero_mul] at hscheduled
    rw [endings_append, hinit.endings, hinit.through_init, List.nil_append, hpoints,
      List.range_eq_range']
    exact ⟨hscheduled.map _, fun hok => hcounts (ok_of_map hok)⟩

/-! Under the abort policy the first pass decides. -/

section

variable {f : Float} {c : Bool}

lemma Before.measure_aborts (h : Before b sweep.config.retry p 0) (steady : Steady sweep b)
    (planned : ∃ plan, sweep.plan f = .ok plan) (some : 1 ≤ sweep.passesPerPoint.toNat)
    {r : Except (Failure Float) (Option (FrequencyResult Float))}
    (hr : Measures sweep f false es r) (hes : rig.Plays b es b')
    (patient : sweep.config.retry.deadline = none)
    (abort : sweep.config.timeoutPolicy = .abortSweep) (late : sweep.config.retry.period p ≠ 1) :
    r = .error (.acquisitionTimeout f sweep.config.retry.budget) := by
  obtain ⟨plan, hplan⟩ := planned
  cases hr with
  | unplanned bad => cases bad.symm.trans hplan
  | notSetUp _ hset => cases obeys_setUp steady.profile hset hes
  | passed _ hset hpasses =>
    obtain ⟨b₁, hsetup, hrest⟩ := hes.of_append
    have htuned := Tuned.of_setUp hset hsetup
    have hbefore : Before b₁ sweep.config.retry p 0 := Waits.of_commands h hsetup hset.commands
    obtain ⟨left, hleft⟩ := Nat.exists_eq_add_of_le' some
    rw [hleft, cancels_of_plays hsetup] at hpasses
    obtain ⟨first, acquired, rest, rfl, hacquires, hnext⟩ := hpasses.of_unset
    obtain ⟨b₂, hpass, -⟩ := hrest.of_append
    obtain ⟨-, -, ⟨hzero, -⟩ | ⟨-, rfl⟩⟩ := hbefore.acquires htuned hacquires hpass (.inl patient)
    · exact absurd (Nat.dvd_one.1 (Nat.dvd_of_mod_eq_zero hzero)) late
    · obtain ⟨⟨hskip, -⟩, -⟩ | ⟨-, -, rfl⟩ := hnext
      · cases abort.symm.trans hskip
      · rfl

lemma Before.sweep_aborts (h : Before b sweep.config.retry p 0) (steady : Steady sweep b)
    (sound : sweep.Sound) {initialized : Bool} {r : Except (Failure Float) (ResultTable Float)}
    (hr : Sweeps sweep initialized c es r) (hes : rig.Plays b es b') (going : c = false)
    (patient : sweep.config.retry.deadline = none)
    (abort : sweep.config.timeoutPolicy = .abortSweep) (late : sweep.config.retry.period p ≠ 1) :
    ∃ f, sweep.frequencies.head? = some f ∧
      r = .error (.acquisitionTimeout f sweep.config.retry.budget) := by
  obtain ⟨f, rest, hfs⟩ := List.exists_cons_of_ne_nil sound.nonempty
  have hplan := sound.plans f (by simp [hfs])
  have hvisits {b b' es c r} (h : Before b sweep.config.retry p 0) (steady : Steady sweep b)
      (hr : Visits sweep sweep.frequencies c es r) (hes : rig.Plays b es b') (going : c = false) :
      r = .error (.acquisitionTimeout f sweep.config.retry.budget) := by
    rw [hfs] at hr
    cases hr with
    | cancelled => cases going
    | stopped hmeasures =>
      cases h.measure_aborts steady hplan sound.passes hmeasures hes patient abort late
      rfl
    | visited hmeasures =>
      obtain ⟨b₁, hfirst, -⟩ := hes.of_append
      cases h.measure_aborts steady hplan sound.passes hmeasures hfirst patient abort late
  refine ⟨f, by simp [hfs], ?_⟩
  cases hr with
  | notReady hinit => cases obeys_init steady.starts hinit hes
  | ready hr =>
    cases hvisits h steady hr hes going
    rfl
  | fresh hinit hr =>
    obtain ⟨b₁, hstart, hrest⟩ := hes.of_append
    have hbefore : Before b₁ sweep.config.retry p 0 := Waits.of_commands h hstart hinit.commands
    cases hvisits hbefore (steady.of_plays hstart) hr hrest
      (by simp [going, cancels_of_plays hstart])
    rfl

end

/-- The table that the schedule leads to. -/
lemma Before.table (h : Before b sweep.config.retry p 0) (steady : Steady sweep b)
    (sound : sweep.Sound) {initialized c : Bool} {table : ResultTable Float}
    (hr : Sweeps sweep initialized c es (.ok table)) (hes : rig.Plays b es b') (going : c = false)
    (patient : sweep.config.retry.deadline = none ∨ p = 0)
    (lenient : sweep.config.timeoutPolicy = .skipPass ∨ sweep.config.retry.period p = 1) :
    let shares := sweep.frequencies.zipIdx.map fun (f, j) =>
      (f, share (sweep.config.retry.period p) sweep.passesPerPoint.toNat j)
    table.entries.map (fun e => (e.frequency, e.passes.toNat)) = shares.filter (0 < ·.2) ∧
      table.skipped = (shares.filter (·.2 = 0)).map Prod.fst := by
  intro shares
  obtain ⟨-, hcounts⟩ := h.sweeps steady sound hr hes going patient lenient
  obtain ⟨visits, rfl, hfst, hmeasured, -⟩ := hr.measured
  have hshares : (visits.map Prod.fst).zip ((tracesByPoint es).map List.length) = shares := by
    rw [hcounts ⟨_, rfl⟩, hfst, List.zip_map_right]
    simp only [shares, List.zipIdx_eq_zip_range', List.range_eq_range']
    rfl
  exact hshares ▸ hmeasured.counts

/-- **The trigger's latency against the retry budget.** Let the bench make `p` empty polls before
each trigger, and a pass at most `budget` polls, with no deadline; let `q` be the rounded up
quotient of `p + 1` by the budget. When timeouts leave a pass out, exactly every `q`-th pass of the
run gets a trace, whatever the points they belong to, and this fixes the table. When a timeout ends
the sweep, it runs to its end exactly for `q = 1`, and otherwise the first pass uses up its budget.
Without current at some frequency the sweep ends there. -/
theorem runSweep_latency (valid : sweep.Accepted) {s : Session SimulatedBench}
    (steady : Steady sweep s.devices) (pending : s.devices.pendingPolls = s.devices.notReadyPolls)
    (untimed : sweep.config.retry.deadline = none) (going : s.cancelled = false) :
    let budget := max sweep.config.retry.maxAttempts.toNat 1
    let q := (s.devices.notReadyPolls.toNat + 1) ⌈/⌉ budget
    let passes := sweep.passesPerPoint.toNat
    let total := sweep.frequencies.length * passes
    let result := ((rig.runSweep sweep).run.run s).1
    let devices := ((rig.runSweep sweep).run.run s).2.devices
    let noCurrent := ∃ f ∈ sweep.frequencies, result = .error (.noCurrent f)
    (sweep.config.timeoutPolicy = .skipPass → ∃ es,
      rig.Evolves s es ((rig.runSweep sweep).run.run s).2 ∧
      (∀ (i : ℕ) acquired, (Progress.start.endings sweep.config.retry es)[i]? = some acquired →
        (acquired = true ↔ (i + 1) % q = 0)) ∧
      (noCurrent ∨ (Progress.start.endings sweep.config.retry es).length = total ∧
        devices.acquisitions = s.devices.acquisitions + total / q ∧
        ∃ table, result = .ok table ∧
          let shares := sweep.frequencies.zipIdx.map fun (f, j) =>
            (f, (j + 1) * passes / q - j * passes / q)
          table.entries.map (fun e => (e.frequency, e.passes.toNat)) = shares.filter (0 < ·.2) ∧
          table.skipped = (shares.filter (·.2 = 0)).map Prod.fst)) ∧
    (sweep.config.timeoutPolicy = .abortSweep →
      (q = 1 → noCurrent ∨ ∃ table, result = .ok table) ∧
      (q ≠ 1 → ∃ f, sweep.frequencies.head? = some f ∧
        result = .error (.acquisitionTimeout f budget))) := by
  intro budget q passes total result devices noCurrent
  obtain ⟨es, hes, hsweep⟩ := rig.runSweep_sweeps sweep s
  have hbefore := Before.start steady pending
  refine ⟨fun skip => ⟨es, hes, ?_⟩, fun abort => ⟨fun hone => ?_, fun hlate => ?_⟩⟩
  · obtain ⟨hscheduled, -⟩ := hbefore.sweeps steady valid.sound hsweep hes.plays going
      (.inl untimed) (.inl skip)
    refine ⟨fun i acquired hi => ?_, ?_⟩
    · have hiff := hscheduled.acquired_iff hi
      rwa [Nat.zero_add] at hiff
    obtain ⟨n, -, hendings, hresult⟩ := hscheduled
    rcases hresult with ⟨⟨table, hok⟩, rfl, -⟩ | hnone
    · have hcount := count_endings sweep.config.retry .start es
      rw [hendings, count_everyNth, Nat.zero_div, Nat.sub_zero, Nat.zero_add] at hcount
      refine .inr ⟨?_, ?_, table, hok, ?_⟩
      · rw [hendings, length_everyNth]
      · have hcounter := acquisitions_of_plays hes.plays
        rw [← hcount] at hcounter
        exact hcounter
      · rw [hok] at hsweep
        exact hbefore.table steady valid.sound hsweep hes.plays going (.inl untimed) (.inl skip)
    · exact .inl hnone
  · obtain ⟨⟨n, -, -, hresult⟩, -⟩ := hbefore.sweeps steady valid.sound hsweep hes.plays going
      (.inl untimed) (.inr hone)
    exact (hresult.imp_left And.left).symm
  · exact hbefore.sweep_aborts steady valid.sound hsweep hes.plays going untimed abort hlate

/-- A bench that makes as many empty polls before each trigger as a pass of two points may make. -/
def lateTrigger : SimulatedBench :=
  { make .standard (.resistor 47.0) 10.0 with notReadyPolls := 10, pendingPolls := 10 }

/-- The same points, but a timeout ends the sweep. -/
def strictPoints : ValidatedSweep Float :=
  { ValidatedSweep.twoPoints with
    config := { ValidatedSweep.twoPoints.config with timeoutPolicy := .abortSweep } }

/-- The trigger comes at the eleventh poll: of two passes of ten polls only the second one sees it,
and a sweep that is ended by the first one sees nothing. -/
theorem runSweep_latency_lateTrigger :
    ((∃ f ∈ [1000.0, 2000.0], ((rig.runSweep .twoPoints).run.run (.start lateTrigger)).1 =
        .error (.noCurrent f)) ∨
      ∃ table, ((rig.runSweep .twoPoints).run.run (.start lateTrigger)).1 = .ok table ∧
        table.entries.map (fun e => (e.frequency, e.passes.toNat)) = [(2000.0, 1)] ∧
        table.skipped = [1000.0]) ∧
    ((rig.runSweep strictPoints).run.run (.start lateTrigger)).1 =
      .error (.acquisitionTimeout 1000.0 10) := by
  have strict_accepted : strictPoints.Accepted := ⟨strictPoints.config, .standard, [], rfl⟩
  have hskip := (runSweep_latency ValidatedSweep.twoPoints_accepted (s := .start lateTrigger)
    ⟨rfl, rfl, rfl⟩ rfl rfl rfl).1 rfl
  have habort := (runSweep_latency strict_accepted (s := .start lateTrigger)
    ⟨rfl, rfl, rfl⟩ rfl rfl rfl).2 rfl
  obtain ⟨es, -, -, hresult⟩ := hskip
  obtain ⟨f, hf, herror⟩ := habort.2 (by decide)
  refine ⟨hresult.imp_right ?_, ?_⟩
  · rintro ⟨-, -, table, hok, hentries, hskipped⟩
    exact ⟨table, hok, hentries, hskipped⟩
  · cases hf
    exact herror

end SimulatedBench

end ImpedanceBench

import ImpedanceBench.Proofs.Rig.Evolution

/-!
How an acquisition, a point and a sweep can go, told by their events alone. Each relation has one
rule for each way in which its part of the run can go on or end, and the controller keeps to them
on every rig.
-/

namespace ImpedanceBench

/-- A failure of a command as a run reports it: the devices are named when they are initialized. -/
def Command.report : Command → Failure Float → Failure Float
  | .initOutput => Rig.initFailure "generator"
  | .initScope => Rig.initFailure "oscilloscope"
  | _ => id

namespace ValidatedSweep

/-- The commands that play the sine of a point. -/
def drive (sweep : ValidatedSweep Float) (frequency : Float) : List Command :=
  let waveform := Waveform.synthesize sweep.profile (.sine sweep.config.amplitude frequency)
  [.configureOutput sweep.config.channel waveform.words,
    .loadOutput sweep.config.channel waveform.memory,
    .enableOutput sweep.config.channel.mask]

/-- The commands before the first poll of a point. -/
def setUp (sweep : ValidatedSweep Float) (frequency : Float) (plan : AcquisitionPlan Float) :
    List Command :=
  sweep.drive frequency ++
    [.configureScope (plan.settings sweep.config.equalization sweep.config.shaping)]

def plan (sweep : ValidatedSweep Float) (frequency : Float) :
    Except (Failure Float) (AcquisitionPlan Float) :=
  AcquisitionPlan.ofProfile sweep.profile frequency sweep.config.minPeriods

/-- The impedance that a trace shows at a frequency, from as many samples as the plan asks for and
the settings allow. -/
def read (sweep : ValidatedSweep Float) (frequency : Float) (t : Trace Float) :
    Except (Failure Float) (ImpedancePoint Float) := do
  let plan ← sweep.plan frequency
  let requested := (min plan.sampleCount sweep.config.acquisitionSize).toNat
  let traces ← LoadTraces.ofTrace t
    (.standard (sweep.profile.voltsPerCount sweep.config.dcBias) sweep.config.shuntOhms) requested
  let lockIn := LockIn.make requested (2.0 * Scalar.pi * frequency) plan.samplePeriod
    sweep.config.integration
  ImpedancePoint.estimate frequency (lockIn.components traces.voltage)
    (lockIn.components traces.current)

lemma read_eq {sweep : ValidatedSweep Float} {frequency : Float} {plan : AcquisitionPlan Float}
    (h : sweep.plan frequency = .ok plan) (t : Trace Float) :
    sweep.read frequency t = (Rig.Reading.make sweep plan frequency).point t := by
  rw [read, h]
  rfl

/-- The failures that leave a pass out and let the sweep go on. -/
def Skips (sweep : ValidatedSweep Float) (e : Failure Float) : Prop :=
  sweep.config.timeoutPolicy = .skipPass ∧
    ∃ frequency attempts, e = .acquisitionTimeout frequency attempts

end ValidatedSweep

/-- Whether an acquisition is over after `made` empty polls and `elapsed` milliseconds. -/
def RetryPolicy.exhausted (policy : RetryPolicy) (made elapsed : Nat) : Bool :=
  policy.budget ≤ made || policy.expired elapsed

/-- Commands one after the other, up to the first that fails. -/
inductive Performs : List Command → List Event → Except (Failure Float) Unit → Prop
  | done : Performs [] [] (.ok ())
  | failed {c cs reply e} (h : reply.outcome = .error e) :
    Performs (c :: cs) [.command c reply] (.error (c.report e))
  | succeeded {c cs reply es r} (h : reply.outcome = .ok ()) (rest : Performs cs es r) :
    Performs (c :: cs) (.command c reply :: es) r

/-- An acquisition after `made` polls and `elapsed` milliseconds. -/
inductive Acquires (policy : RetryPolicy) (frequency : Float) :
    (made elapsed : Nat) → Bool → List Event → Except (Failure Float) (Trace Float) → Prop
  | cancelled {made elapsed} : Acquires policy frequency made elapsed true [] (.error .cancelled)
  | failed {made elapsed reply e} (h : reply.outcome = .error e) :
    Acquires policy frequency made elapsed false [.poll reply] (.error e)
  | triggered {made elapsed reply t} (h : reply.outcome = .ok (some t)) :
    Acquires policy frequency made elapsed false [.poll reply] (.ok t)
  | gaveUp {made elapsed reply} (h : reply.outcome = .ok none)
    (spent : policy.exhausted (made + 1) (elapsed + reply.elapsed) = true) :
    Acquires policy frequency made elapsed false [.poll reply]
      (.error (.acquisitionTimeout frequency (made + 1)))
  | again {made elapsed reply es r} (h : reply.outcome = .ok none)
    (more : policy.exhausted (made + 1) (elapsed + reply.elapsed) = false)
    (rest : Acquires policy frequency (made + 1)
      (elapsed + reply.elapsed + policy.delay.toNat) reply.cancels es r) :
    Acquires policy frequency made elapsed false (.poll reply :: es) r

/-- The last `left` passes at a point, with their impedances in order. -/
inductive Passes (sweep : ValidatedSweep Float) (reading : Rig.Reading) :
    (left : Nat) → Bool → List Event → Except (Failure Float) (List (ImpedancePoint Float)) → Prop
  | done {c} : Passes sweep reading 0 c [] (.ok [])
  | cancelled {left} : Passes sweep reading (left + 1) true [] (.error .cancelled)
  | stopped {left es e} (h : Acquires sweep.config.retry reading.frequency 0 0 false es (.error e))
    (kept : ¬ sweep.Skips e) : Passes sweep reading (left + 1) false es (.error e)
  | leftOut {left es e fs r}
    (h : Acquires sweep.config.retry reading.frequency 0 0 false es (.error e))
    (skipped : sweep.Skips e) (rest : Passes sweep reading left (History.cancels es) fs r) :
    Passes sweep reading (left + 1) false (es ++ fs) r
  | unread {left es t e}
    (h : Acquires sweep.config.retry reading.frequency 0 0 false es (.ok t))
    (bad : reading.point t = .error e) : Passes sweep reading (left + 1) false es (.error e)
  | read {left es t p fs r}
    (h : Acquires sweep.config.retry reading.frequency 0 0 false es (.ok t))
    (good : reading.point t = .ok p) (rest : Passes sweep reading left (History.cancels es) fs r) :
    Passes sweep reading (left + 1) false (es ++ fs) (r.map (p :: ·))

/-- The measurement at one frequency. -/
inductive Measures (sweep : ValidatedSweep Float) (frequency : Float) :
    Bool → List Event → Except (Failure Float) (Option (FrequencyResult Float)) → Prop
  | unplanned {c es r e} (bad : sweep.plan frequency = .error e)
    (h : Performs (sweep.drive frequency) es r) :
    Measures sweep frequency c es (r.bind fun _ => .error e)
  | notSetUp {c es e plan} (good : sweep.plan frequency = .ok plan)
    (h : Performs (sweep.setUp frequency plan) es (.error e)) :
    Measures sweep frequency c es (.error e)
  | passed {c es plan fs r} (good : sweep.plan frequency = .ok plan)
    (h : Performs (sweep.setUp frequency plan) es (.ok ()))
    (rest : Passes sweep (.make sweep plan frequency) sweep.passesPerPoint.toNat
      (c || History.cancels es) fs r) :
    Measures sweep frequency c (es ++ fs) (r.map (FrequencyResult.ofPoints frequency))

/-- The visits to the remaining frequencies. -/
inductive Visits (sweep : ValidatedSweep Float) : List Float → Bool → List Event →
    Except (Failure Float) (List (Float × Option (FrequencyResult Float))) → Prop
  | done {c} : Visits sweep [] c [] (.ok [])
  | cancelled {f fs} : Visits sweep (f :: fs) true [] (.error .cancelled)
  | stopped {f fs es e} (h : Measures sweep f false es (.error e)) :
    Visits sweep (f :: fs) false es (.error e)
  | visited {f fs es v es' r} (h : Measures sweep f false es (.ok v))
    (rest : Visits sweep fs (History.cancels es) es' r) :
    Visits sweep (f :: fs) false (es ++ es') (r.map ((f, v) :: ·))

/-- A sweep by a controller that has initialized its devices or not. -/
inductive Sweeps (sweep : ValidatedSweep Float) : (initialized : Bool) → Bool → List Event →
    Except (Failure Float) (ResultTable Float) → Prop
  | notReady {c es e} (h : Performs [.initOutput, .initScope] es (.error e)) :
    Sweeps sweep false c es (.error e)
  | fresh {c es fs r} (h : Performs [.initOutput, .initScope] es (.ok ()))
    (rest : Visits sweep sweep.frequencies (c || History.cancels es) fs r) :
    Sweeps sweep false c (es ++ fs) (r.map .ofVisits)
  | ready {c es r} (h : Visits sweep sweep.frequencies c es r) :
    Sweeps sweep true c es (r.map .ofVisits)

lemma Performs.cons_ok {c : Command} {cs : List Command} {es : List Event}
    (h : Performs (c :: cs) es (.ok ())) : ∃ reply es', es = .command c reply :: es' ∧
      reply.outcome = .ok () ∧ Performs cs es' (.ok ()) := by
  cases h with
  | succeeded ho rest => exact ⟨_, _, rfl, ho, rest⟩

lemma Performs.nil_ok {es : List Event} (h : Performs [] es (.ok ())) : es = [] := by
  cases h
  rfl

lemma Performs.commands {cs : List Command} {es : List Event} {r : Except (Failure Float) Unit}
    (h : Performs cs es r) : ∀ e ∈ es, ∃ c reply, e = .command c reply := by
  induction h with
  | done => simp
  | failed => simp
  | succeeded _ _ ih => simpa using ih

lemma Performs.no_poll {cs : List Command} {es pre post : List Event}
    {r : Except (Failure Float) Unit} {reply : Reply (Option (Trace Float))}
    (h : Performs cs es r) (hes : es = pre ++ .poll reply :: post) : False := by
  obtain ⟨_, _, hpoll⟩ := h.commands (.poll reply) (by simp [hes])
  cases hpoll

/-- The calls are the commands in their order, up to the last one made. -/
lemma Performs.calls_prefix {cs : List Command} {es : List Event}
    {r : Except (Failure Float) Unit} (h : Performs cs es r) :
    es.map Event.call <+: cs.map .command := by
  induction h with
  | done => simp
  | failed => simp [Event.call]
  | succeeded _ _ ih => simpa [Event.call] using ih

/-- No device has failed unless it was the last one called, and then that is the outcome. -/
lemma Performs.failures {cs : List Command} {es : List Event} {r : Except (Failure Float) Unit}
    (h : Performs cs es r) : r = .ok () ∧ (∀ e ∈ es, e.failure? = none) ∨
      ∃ pre c reply e, es = pre ++ [.command c reply] ∧ (∀ e ∈ pre, e.failure? = none) ∧
        reply.outcome = .error e ∧ r = .error (c.report e) := by
  induction h with
  | done => exact .inl ⟨rfl, by simp⟩
  | @failed c cs reply e h => exact .inr ⟨[], c, reply, e, rfl, by simp, h, rfl⟩
  | @succeeded c cs reply es r h _ ih =>
    have hnone : reply.failure? = none := Reply.failure?_of_ok h
    rcases ih with ⟨hr, hes⟩ | ⟨pre, d, reply', e, rfl, hpre, he, hr⟩
    · exact .inl ⟨hr, by simpa [hnone] using hes⟩
    · exact .inr ⟨.command c reply :: pre, d, reply', e, rfl, by simpa [hnone] using hpre, he, hr⟩

lemma Performs.append {cs ds : List Command} {es fs : List Event} {r : Except (Failure Float) Unit}
    (h : Performs cs es (.ok ())) (h' : Performs ds fs r) : Performs (cs ++ ds) (es ++ fs) r := by
  generalize hr : (Except.ok () : Except (Failure Float) Unit) = r₁ at h
  induction h with
  | done => exact h'
  | failed => cases hr
  | succeeded ho _ ih => exact .succeeded ho (ih hr)

lemma Performs.append_of_error {cs : List Command} {es : List Event} {e : Failure Float}
    (h : Performs cs es (.error e)) (ds : List Command) : Performs (cs ++ ds) es (.error e) := by
  generalize hr : (Except.error e : Except (Failure Float) Unit) = r at h
  induction h with
  | done => cases hr
  | failed ho => cases hr; exact .failed ho
  | succeeded ho _ ih => exact .succeeded ho (ih hr)

namespace Rig

variable {σ : Type} (rig : Rig σ)

lemma ensures_giveUp (frequency : Float) (made : ℕ) : rig.Ensures (giveUp frequency made)
    fun _ es r => es = [] ∧ r = .error (.acquisitionTimeout frequency made) :=
  .after ⟨(), .warn _⟩ fun _ => .throw _

/-- One poll of an acquisition, and what comes after an empty one. -/
lemma ensures_poll (policy : RetryPolicy) (frequency : Float) (made elapsed : ℕ)
    {next : ℕ → Run σ (Trace Float)}
    (hnext : ∀ took, rig.Ensures (next took) fun c es r => ∀ reply : Reply (Option (Trace Float)),
      reply.outcome = .ok none → reply.elapsed = took → c = reply.cancels →
        Acquires policy frequency made elapsed false (.poll reply :: es) r) :
    rig.Ensures (do
      Session.checkCancelled
      match ← rig.pollOnce with
      | (some trace, _) => return trace
      | (none, took) => next took) (Acquires policy frequency made elapsed) := by
  refine .guarded .cancelled (.polled (fun c reply e h _ => .failed h) fun x took => ?_)
  cases x with
  | some t =>
    refine (Ensures.pure t).mono ?_
    rintro _ _ _ ⟨rfl, rfl⟩ c reply h - - -
    exact .triggered h
  | none =>
    refine (hnext took).mono ?_
    rintro _ es r hes c reply h rfl rfl rfl
    exact hes reply h rfl (Bool.false_or _)

lemma ensures_attempt (policy : RetryPolicy) (frequency : Float) {left made : ℕ}
    (hleft : left + made + 1 = policy.budget) (elapsed : ℕ) :
    rig.Ensures (rig.attempt policy frequency left made elapsed)
      (Acquires policy frequency made elapsed) := by
  induction left generalizing made elapsed with
  | zero =>
    unfold attempt
    refine rig.ensures_poll policy frequency made elapsed fun took => ?_
    refine (rig.ensures_giveUp frequency (made + 1)).mono ?_
    rintro _ _ _ ⟨rfl, rfl⟩ reply h - -
    exact .gaveUp h (by simp [RetryPolicy.exhausted]; omega)
  | succ left ih =>
    unfold attempt
    refine rig.ensures_poll policy frequency made elapsed fun took => ?_
    dsimp only
    split
    · refine (rig.ensures_giveUp frequency (made + 1)).mono ?_
      rintro _ _ _ ⟨rfl, rfl⟩ reply h rfl -
      exact .gaveUp h (by simp [RetryPolicy.exhausted, *])
    · refine (ih (by omega) _).mono ?_
      rintro _ es r hacq reply h rfl rfl
      refine .again h ?_ hacq
      simp [RetryPolicy.exhausted, *]
      omega

lemma ensures_acquire (policy : RetryPolicy) (frequency : Float) :
    rig.Ensures (rig.acquire policy frequency) (Acquires policy frequency 0 0) := by
  have hbudget : 1 ≤ policy.budget := Nat.le_max_right _ _
  exact rig.ensures_attempt policy frequency (by omega) 0

/-- A pass ends with a trace, is left out, or ends the run. -/
lemma ensures_acquirePass (sweep : ValidatedSweep Float) (frequency : Float) (pass : ℕ) :
    rig.Ensures (rig.acquirePass sweep frequency pass) fun c es r =>
      (∃ t, Acquires sweep.config.retry frequency 0 0 c es (.ok t) ∧ r = .ok (some t)) ∨
        ∃ e, Acquires sweep.config.retry frequency 0 0 c es (.error e) ∧
          (sweep.Skips e ∧ r = .ok none ∨ ¬ sweep.Skips e ∧ r = .error e) := by
  unfold acquirePass
  have hacq := (rig.ensures_acquire sweep.config.retry frequency).map some
  refine (hacq.tryCatch (Q := fun e _ es r =>
    es = [] ∧ (sweep.Skips e ∧ r = .ok none ∨ ¬ sweep.Skips e ∧ r = .error e)) fun e => ?_).mono ?_
  · split
    · rename_i hpolicy
      refine (Ensures.after ⟨(), .warn _⟩ fun _ => .pure _).mono ?_
      rintro _ es r ⟨rfl, rfl⟩
      exact ⟨rfl, .inl ⟨⟨hpolicy, _, _, rfl⟩, rfl⟩⟩
    · rename_i hno
      refine (Ensures.throw _).mono ?_
      rintro _ es r ⟨rfl, rfl⟩
      refine ⟨rfl, .inr ⟨?_, rfl⟩⟩
      rintro ⟨hpolicy, f, n, rfl⟩
      exact hno _ _ rfl hpolicy
  · rintro c es r (⟨b, ⟨r', h, hr'⟩, rfl⟩ | ⟨e, es, fs, rfl, ⟨r', h, hr'⟩, rfl, hr⟩)
    · rcases r' with _ | t <;> cases hr'
      exact .inl ⟨t, h, rfl⟩
    · rcases r' with e | _ <;> cases hr'
      exact .inr ⟨e, by simpa using h, hr⟩

lemma ensures_passes (sweep : ValidatedSweep Float) (reading : Reading) (left pass : ℕ)
    (points : List (ImpedancePoint Float)) :
    rig.Ensures (rig.passes sweep reading left pass points) fun c es r =>
      ∃ r', Passes sweep reading left c es r' ∧ r = r'.map (points.reverse ++ ·) := by
  induction left generalizing pass points with
  | zero =>
    refine (Ensures.pure points.reverse).mono ?_
    rintro c _ _ ⟨rfl, rfl⟩
    exact ⟨.ok [], .done, by simp [Except.map]⟩
  | succ left ih =>
    unfold passes
    refine .guarded ⟨_, .cancelled, rfl⟩ (.bind (rig.ensures_acquirePass sweep _ pass) ?_ ?_)
    · rintro c es e (⟨t, -, hr⟩ | ⟨e', h, ⟨-, hr⟩ | ⟨hkept, hr⟩⟩) rfl <;> cases hr
      exact ⟨_, .stopped h hkept, rfl⟩
    · rintro (_ | t)
      · refine (ih (pass + 1) points).mono ?_
        rintro _ fs r ⟨r', hrest, rfl⟩ c es (⟨t, -, hr⟩ | ⟨e, h, ⟨hskip, -⟩ | ⟨-, hr⟩⟩) rfl rfl
        · cases hr
        · exact ⟨r', .leftOut h hskip (by simpa using hrest), rfl⟩
        · cases hr
      · refine .bind (.lift (reading.point t)) ?_ fun p => ?_
        · rintro _ fs e ⟨rfl, hbad⟩ c es (⟨_, h, hr⟩ | ⟨_, _, ⟨_, hr⟩ | ⟨_, hr⟩⟩) rfl rfl <;>
            cases hr
          exact ⟨_, by simpa using Passes.unread h hbad.symm, rfl⟩
        · refine (ih (pass + 1) (p :: points)).mono ?_
          rintro _ gs r ⟨r', hrest, rfl⟩ _ fs ⟨rfl, hgood⟩ rfl c es
            (⟨_, h, hr⟩ | ⟨_, _, ⟨_, hr⟩ | ⟨_, hr⟩⟩) rfl rfl <;> cases hr
          refine ⟨_, .read h hgood.symm (by simpa using hrest), ?_⟩
          cases r' <;> simp [Except.map]

/-- A computation that gives these commands. -/
def Gives (m : Run σ Unit) (cs : List Command) : Prop :=
  rig.Ensures m fun _ es r => Performs cs es r

variable {rig}

lemma Gives.append {m m' : Run σ Unit} {cs ds : List Command} (h : rig.Gives m cs)
    (h' : rig.Gives m' ds) : rig.Gives (m >>= fun _ => m') (cs ++ ds) :=
  .bind h (fun _ _ _ hes => hes.append_of_error ds) fun _ => .mono h' fun _ _ _ hfs _ _ hes _ =>
    hes.append hfs

lemma Gives.adapt (c : Command) {report : Failure Float → Failure Float} (hc : c.report = report) :
    rig.Gives (ExceptT.adapt report (rig.command c)) [c] := by
  refine .mono (.adapt (.command c) report) ?_
  rintro _ _ _ ⟨_, ⟨reply, rfl, rfl⟩, rfl⟩
  cases h : reply.outcome with
  | error e => exact hc ▸ .failed h
  | ok => exact .succeeded h .done

lemma Gives.command (c : Command) (hc : c.report = id) : rig.Gives (rig.command c) [c] := by
  refine .mono (.command c) ?_
  rintro _ _ _ ⟨reply, rfl, rfl⟩
  cases h : reply.outcome with
  | error e =>
    have hfailed : Performs [c] [.command c reply] (.error (c.report e)) := .failed h
    rwa [hc] at hfailed
  | ok => exact .succeeded h .done

variable (rig)

lemma gives_drive (sweep : ValidatedSweep Float) (frequency : Float) :
    rig.Gives (rig.drive sweep frequency) (sweep.drive frequency) :=
  .after ⟨(), .warnings _⟩ fun _ =>
    Gives.append (.command _ rfl) (Gives.append (.command _ rfl) (.command _ rfl))

/-- The passes of a point and their mean. -/
lemma ensures_mean (sweep : ValidatedSweep Float) (reading : Reading) (frequency : Float) :
    rig.Ensures (do
      let points ← rig.passes sweep reading sweep.passesPerPoint.toNat 0 []
      let result := FrequencyResult.ofPoints frequency points
      if result.isNone then Session.warn (.pointSkipped frequency)
      return result) fun c es r => ∃ r', Passes sweep reading sweep.passesPerPoint.toNat c es r' ∧
        r = r'.map (FrequencyResult.ofPoints frequency) := by
  refine .bind (rig.ensures_passes sweep reading _ 0 []) ?_ fun points => ?_
  · rintro c es e ⟨r', h, hr⟩
    rcases r' with e' | _ <;> cases hr
    exact ⟨_, h, rfl⟩
  · refine .mono (P := fun _ es r =>
      es = [] ∧ r = .ok (FrequencyResult.ofPoints frequency points)) ?_ ?_
    · dsimp only
      split
      · exact .after ⟨(), .warn _⟩ fun _ => .pure _
      · exact .pure _
    · rintro _ _ _ ⟨rfl, rfl⟩ c es ⟨r', h, hr⟩ rfl
      rcases r' with _ | points' <;> cases hr
      exact ⟨_, by simpa using h, by simp [Except.map]⟩

lemma ensures_measurePoint (sweep : ValidatedSweep Float) (frequency : Float) :
    rig.Ensures (rig.measurePoint sweep frequency) (Measures sweep frequency) := by
  unfold measurePoint
  change rig.Ensures (rig.drive sweep frequency >>= fun _ =>
    Session.lift (sweep.plan frequency) >>= fun plan => _) _
  cases hplan : sweep.plan frequency with
  | error e =>
    refine .bind (rig.gives_drive sweep frequency) (fun c es e' h => .unplanned hplan h) fun _ => ?_
    change rig.Ensures (throw e : Run σ _) _
    refine (Ensures.throw e).mono ?_
    rintro _ _ _ ⟨rfl, rfl⟩ c es h -
    simpa [Except.bind] using Measures.unplanned hplan h
  | ok plan =>
    change rig.Ensures (rig.drive sweep frequency >>= fun _ => rig.command (.configureScope
      (plan.settings sweep.config.equalization sweep.config.shaping)) >>= fun _ => _) _
    rw [← bind_assoc]
    refine .bind ((rig.gives_drive sweep frequency).append (.command _ rfl))
      (fun c es e h => .notSetUp hplan h) fun _ => (rig.ensures_mean sweep _ frequency).mono ?_
    rintro _ fs _ ⟨r', h, rfl⟩ c es hset rfl
    exact .passed hplan hset h

lemma ensures_visit (sweep : ValidatedSweep Float) (frequencies : List Float)
    (visits : List (Float × Option (FrequencyResult Float))) :
    rig.Ensures (rig.visit sweep frequencies visits) fun c es r =>
      ∃ r', Visits sweep frequencies c es r' ∧ r = r'.map (visits.reverse ++ ·) := by
  induction frequencies generalizing visits with
  | nil =>
    refine (Ensures.pure visits.reverse).mono ?_
    rintro c _ _ ⟨rfl, rfl⟩
    exact ⟨.ok [], .done, by simp [Except.map]⟩
  | cons f fs ih =>
    unfold visit
    refine .guarded ⟨_, .cancelled, rfl⟩ (.bind (rig.ensures_measurePoint sweep f) ?_ fun v => ?_)
    · rintro c es e h rfl
      exact ⟨_, .stopped h, rfl⟩
    · refine (ih ((f, v) :: visits)).mono ?_
      rintro _ es' _ ⟨r', hrest, rfl⟩ c es h rfl rfl
      refine ⟨_, .visited h (by simpa using hrest), ?_⟩
      cases r' <;> simp [Except.map]

lemma gives_init : rig.Gives rig.init [.initOutput, .initScope] := by
  refine Gives.append (.adapt _ rfl) (.mono (.bind (Gives.adapt .initScope rfl) (R := fun _ es r =>
    Performs [.initScope] es r) (fun _ _ _ h => h) fun _ => ?_) fun _ _ _ h => h)
  refine (Ensures.of_quiet (fun s => ⟨rfl, rfl, rfl⟩) (P := fun _ es r => es = [] ∧ r = .ok ())
    fun s => ⟨rfl, rfl⟩).mono ?_
  rintro _ _ _ ⟨rfl, rfl⟩ c es h -
  simpa using h

/-- The part of a sweep after the devices are initialized. -/
lemma ensures_table (sweep : ValidatedSweep Float) :
    rig.Ensures (do return ResultTable.ofVisits (← rig.visit sweep sweep.frequencies []))
      fun c es r => ∃ r', Visits sweep sweep.frequencies c es r' ∧ r = r'.map .ofVisits := by
  refine .bind (rig.ensures_visit sweep sweep.frequencies []) ?_ fun visits =>
    (Ensures.pure (ResultTable.ofVisits visits)).mono ?_
  · rintro c es e ⟨r', h, hr⟩
    rcases r' with _ | _ <;> cases hr
    exact ⟨_, h, rfl⟩
  · rintro _ _ _ ⟨rfl, rfl⟩ c es ⟨r', h, hr⟩ rfl
    rcases r' with _ | _ <;> cases hr
    exact ⟨_, by simpa using h, by simp [Except.map]⟩

/-- A sweep initializes the devices only if that is still to be done. -/
lemma run_runSweep (sweep : ValidatedSweep Float) (s : Session σ) :
    (rig.runSweep sweep).run.run s = (if s.initialized then
      (do return ResultTable.ofVisits (← rig.visit sweep sweep.frequencies [])) else
      rig.init >>= fun _ => (do
        return ResultTable.ofVisits (← rig.visit sweep sweep.frequencies [])) :
      Run σ _).run.run s := by
  rcases s with ⟨d, i, c, calls, ws, ps⟩
  cases i <;> rfl

/-- The question comes first, and a run only after it has been answered. -/
lemma run_runCalibration (agrees : String → Bool) (sweep : ValidatedSweep Float) (s : Session σ) :
    (rig.runCalibration agrees sweep).run.run s = if agrees calibrationPrompt then
        (rig.runSweep sweep).run.run { s with prompts := calibrationPrompt :: s.prompts }
      else (.error .calibrationDeclined, { s with prompts := calibrationPrompt :: s.prompts }) := by
  unfold runCalibration
  split <;> rfl

/-- **What a sweep does.** Its calls and its outcome on any rig are those of a sweep. -/
theorem runSweep_sweeps (sweep : ValidatedSweep Float) (s : Session σ) :
    ∃ es, rig.Evolves s es ((rig.runSweep sweep).run.run s).2 ∧
      Sweeps sweep s.initialized s.cancelled es ((rig.runSweep sweep).run.run s).1 := by
  rw [rig.run_runSweep]
  cases hi : s.initialized with
  | true =>
    obtain ⟨es, hes, r', h, hr⟩ := rig.ensures_table sweep s
    exact ⟨es, hes, hr ▸ .ready h⟩
  | false =>
    refine Ensures.bind rig.gives_init (R := Sweeps sweep false) (fun c es e h => .notReady h)
      (fun _ => (rig.ensures_table sweep).mono ?_) s
    rintro _ fs _ ⟨r', h, rfl⟩ c es hinit rfl
    exact .fresh hinit h

end Rig

end ImpedanceBench

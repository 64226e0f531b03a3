import ImpedanceBench.Proofs.Sweep.Accepted
import ImpedanceBench.Proofs.Rig.Conduct

/-!
Where failures come from. Validation fails for the settings alone, and the run of a sweep that has
been accepted never does: a failure of the settings comes out of it only if a device has returned
one.
-/

namespace ImpedanceBench

open History

/-- No device has returned a failure of the settings. -/
def History.Operational (es : List Event) : Prop :=
  ∀ e ∈ es, ∀ err ∈ e.failure?, err.isConfiguration = false

/-- Devices that never return a failure of the settings do not do so in a run. -/
lemma Rig.Plays.operational {σ : Type} {rig : Rig σ} {d d' : σ} {es : List Event}
    (hperform : ∀ c d, ∀ err ∈ (rig.perform c d).1.failure?, err.isConfiguration = false)
    (hpoll : ∀ d, ∀ err ∈ (rig.poll d).1.failure?, err.isConfiguration = false)
    (h : rig.Plays d es d') : Operational es := by
  induction es generalizing d with
  | nil => simp [Operational]
  | cons e es ih =>
    rcases e with ⟨c, reply⟩ | reply <;> obtain ⟨d₁, hreply, hrest⟩ := h <;>
      intro x hx err herr <;> rcases List.mem_cons.1 hx with rfl | hx
    · exact hperform c d err (by rw [hreply]; exact herr)
    · exact ih hrest x hx err herr
    · exact hpoll d err (by rw [hreply]; exact herr)
    · exact ih hrest x hx err herr

/-- The outcome of a run, after these events, is a failure of the settings only if a device has
returned one. -/
def History.Separates {β : Type} (es : List Event) (r : Except (Failure Float) β) : Prop :=
  Operational es → ∀ err, r = .error err → err.isConfiguration = false

namespace History.Separates

variable {β γ : Type} {es fs : List Event} {r : Except (Failure Float) β}

lemma ok (b : β) : Separates es (.ok b : Except (Failure Float) β) := nofun

lemma error {err : Failure Float} (h : Separates es (.error err : Except (Failure Float) β)) :
    Separates es (.error err : Except (Failure Float) γ) := by
  intro hes err' herr
  exact h hes err' (by rw [Except.error.inj herr])

lemma of_not_configuration {err : Failure Float} (h : err.isConfiguration = false) :
    Separates es (.error err : Except (Failure Float) β) := by
  rintro - _ ⟨⟩
  exact h

lemma map (h : Separates es r) (g : β → γ) : Separates es (r.map g) := by
  intro hes err herr
  rcases r with e | _ <;> cases herr
  exact h hes err rfl

/-- Earlier events take nothing away. -/
lemma append (h : Separates fs r) : Separates (es ++ fs) r := by
  intro hes err herr
  exact h (fun e he => hes e (List.mem_append_right es he)) err herr

lemma cons (h : Separates es r) (e : Event) : Separates (e :: es) r :=
  (h.append : Separates ([e] ++ es) r)

end History.Separates

/-- A device that cannot be initialized is reported as such, whatever it has returned. -/
lemma Command.isConfiguration_report {c : Command} {e : Failure Float}
    (h : e.isConfiguration = false) : (c.report e).isConfiguration = false := by
  cases c with
  | initOutput | initScope => cases e <;> rfl
  | _ => exact h

section

variable {sweep : ValidatedSweep Float} {f : Float} {c : Bool} {es : List Event}

lemma Performs.separates {cs : List Command} {r : Except (Failure Float) Unit}
    (h : Performs cs es r) : Separates es r := by
  induction h with
  | done => exact .ok ()
  | @failed c cs reply e h =>
    intro hes err herr
    cases herr
    exact Command.isConfiguration_report
      (hes (.command c reply) (by simp) e (by simp [Reply.failure?_of_error h]))
  | succeeded _ _ ih => exact ih.cons _

lemma Acquires.separates {policy : RetryPolicy} {made elapsed : ℕ}
    {r : Except (Failure Float) (Trace Float)} (h : Acquires policy f made elapsed c es r) :
    Separates es r := by
  induction h with
  | cancelled => exact .of_not_configuration rfl
  | @failed made elapsed reply e h =>
    intro hes err herr
    cases herr
    exact hes (.poll reply) (by simp) e (by simp [Reply.failure?_of_error h])
  | triggered => exact .ok _
  | gaveUp => exact .of_not_configuration rfl
  | again _ _ _ ih => exact ih.cons _

lemma Trace.isConfiguration_of_validate {t : Trace Float} {n : ℕ} {e : Failure Float}
    (h : t.validate n = .error e) : e.isConfiguration = false := by
  unfold Trace.validate at h
  split at h
  · cases h
    rfl
  split at h <;> cases h
  rfl

lemma ImpedancePoint.isConfiguration_of_estimate {frequency : Float}
    {voltage current : Components Float} {e : Failure Float}
    (h : estimate frequency voltage current = .error e) : e.isConfiguration = false := by
  unfold estimate at h
  split at h <;> cases h
  rfl

/-- A trace that cannot be read is no fault of the settings. -/
lemma Rig.Reading.isConfiguration_of_point {reading : Rig.Reading} {t : Trace Float}
    {e : Failure Float} (h : reading.point t = .error e) : e.isConfiguration = false := by
  unfold Rig.Reading.point LoadTraces.ofTrace at h
  cases hvalid : t.validate (max reading.scale.excitation reading.scale.shunt + 1) with
  | error e' =>
    rw [hvalid] at h
    cases h
    exact Trace.isConfiguration_of_validate hvalid
  | ok =>
    rw [hvalid] at h
    exact ImpedancePoint.isConfiguration_of_estimate h

lemma Passes.separates {reading : Rig.Reading} {left : ℕ}
    {r : Except (Failure Float) (List (ImpedancePoint Float))}
    (h : Passes sweep reading left c es r) : Separates es r := by
  induction h with
  | done => exact .ok _
  | cancelled => exact .of_not_configuration rfl
  | stopped h => exact h.separates.error
  | leftOut _ _ _ ih => exact ih.append
  | unread _ hbad => exact .of_not_configuration (Rig.Reading.isConfiguration_of_point hbad)
  | read _ _ _ ih => exact (ih.map _).append

/-- The one failure of the settings that a point could have is ruled out by its plan. -/
lemma Measures.separates {plan : AcquisitionPlan Float} (hplan : sweep.plan f = .ok plan)
    {r : Except (Failure Float) (Option (FrequencyResult Float))} (h : Measures sweep f c es r) :
    Separates es r := by
  cases h with
  | unplanned bad =>
    rw [hplan] at bad
    cases bad
  | notSetUp _ h => exact h.separates.error
  | passed _ _ rest => exact (rest.separates.map _).append

lemma Visits.separates {frequencies : List Float}
    (hplans : ∀ f ∈ frequencies, ∃ plan, sweep.plan f = .ok plan)
    {r : Except (Failure Float) (List (Float × Option (FrequencyResult Float)))}
    (h : Visits sweep frequencies c es r) : Separates es r := by
  induction h with
  | done => exact .ok _
  | cancelled => exact .of_not_configuration rfl
  | @stopped f fs es e h =>
    obtain ⟨plan, hplan⟩ := hplans f (by simp)
    exact (h.separates hplan).error
  | visited _ _ ih => exact ((ih fun f hf => hplans f (by simp [hf])).map _).append

lemma Sweeps.separates (hsweep : sweep.Sound) {initialized : Bool}
    {r : Except (Failure Float) (ResultTable Float)} (h : Sweeps sweep initialized c es r) :
    Separates es r := by
  cases h with
  | notReady h => exact h.separates.error
  | fresh _ rest => exact ((rest.separates hsweep.plans).map _).append
  | ready h => exact (h.separates hsweep.plans).map _

end

namespace Rig

variable {σ : Type} (rig : Rig σ)

lemma ensures_runSweep_separates {sweep : ValidatedSweep Float} (hsweep : sweep.Sound) :
    rig.Ensures (rig.runSweep sweep) fun _ es r => Separates es r := fun s =>
  let ⟨es, hes, h⟩ := rig.runSweep_sweeps sweep s
  ⟨es, hes, h.separates hsweep⟩

/-- The prompt makes no call, and an operator who declines is no failure of the settings. -/
lemma ensures_runCalibration_separates {sweep : ValidatedSweep Float} (hsweep : sweep.Sound)
    (agrees : String → Bool) :
    rig.Ensures (rig.runCalibration agrees sweep) fun _ es r => Separates es r := by
  unfold runCalibration
  refine .after ⟨(), Ensures.of_quiet (fun _ => ⟨rfl, rfl, rfl⟩) fun _ => ⟨rfl, rfl⟩⟩ fun _ => ?_
  split
  · exact rig.ensures_runSweep_separates hsweep
  · refine (Ensures.throw _).mono ?_
    rintro _ _ _ ⟨-, rfl⟩
    exact .of_not_configuration rfl

end Rig

/-- **Failures of the settings and failures of a run are apart.** Validation has only the former.
Every sweep that it accepts can be planned at each of its frequencies, and a sweep or a calibration
ends with a failure of the settings on no rig and in no session, unless a device returns one. -/
theorem failures_separated :
    (∀ (p : HardwareProfile Float) e, p.validate = .error e → e.isConfiguration = true) ∧
    (∀ (c : SweepConfig Float) (p : HardwareProfile Float) ws e,
      ((c.validate p).run.run ws).1 = .error e → e.isConfiguration = true) ∧
    ∀ sweep : ValidatedSweep Float, sweep.Accepted →
      (∀ f ∈ sweep.frequencies, ∀ minPeriods,
        ∃ plan, AcquisitionPlan.ofProfile sweep.profile f minPeriods = .ok plan) ∧
      ∀ {σ : Type} (rig : Rig σ),
        rig.Ensures (rig.runSweep sweep) (fun _ es r => Separates es r) ∧
        ∀ agrees, rig.Ensures (rig.runCalibration agrees sweep) fun _ es r => Separates es r := by
  refine ⟨fun p e h => SweepConfig.isConfiguration_of_validate h, fun c p ws e h => ?_,
    fun sweep valid => ⟨fun f hf => valid.exists_plan hf, fun rig => ⟨?_, fun agrees => ?_⟩⟩⟩
  · rw [SweepConfig.run_validate] at h
    exact SweepConfig.isConfiguration_of_outcome h
  · exact rig.ensures_runSweep_separates valid.sound
  · exact rig.ensures_runCalibration_separates valid.sound agrees

/-- Devices of which the oscilloscope cannot be set up. -/
def Rig.stuckScope : Rig Unit where
  perform c d := match c with
    | .configureScope _ => (.failed (.device "stuck"), d)
    | _ => (.done (), d)
  poll d := (.done none, d)

/-- A profile and settings that are refused, and a sweep that is accepted and fails in its run. -/
theorem failures_separated_stuck :
    (∃ e, { HardwareProfile.standard with bufferLength := 1 : HardwareProfile Float }.validate =
      .error e ∧ e.isConfiguration = true) ∧
    (∃ e, ((({ SweepConfig.standard with step := 0.0 } : SweepConfig Float).validate
      .standard).run.run []).1 = .error e ∧ e.isConfiguration = true) ∧
    ∃ e, ((Rig.stuckScope.runSweep .twoPoints).run.run (.start ())).1 = .error e ∧
      e.isConfiguration = false := by
  obtain ⟨hprofile, hsettings, hsweep⟩ := failures_separated
  have hbuffer : { HardwareProfile.standard with
      bufferLength := 1 : HardwareProfile Float }.validate =
      .error (.invalidProfile .bufferLength) := rfl
  have hstep : ((({ SweepConfig.standard with step := 0.0 } : SweepConfig Float).validate
      .standard).run.run []).1 = .error (.invalidStep 0.0) := rfl
  refine ⟨⟨_, hbuffer, hprofile _ _ hbuffer⟩, ⟨_, hstep, hsettings _ _ _ _ hstep⟩, ?_⟩
  have hfailed : ((Rig.stuckScope.runSweep .twoPoints).run.run (.start ())).1 matches .error _ := by
    decide +kernel
  obtain ⟨es, hes, hseparates⟩ :=
    ((hsweep _ ValidatedSweep.twoPoints_accepted).2 Rig.stuckScope).1 (.start ())
  have hoperational : Operational es := by
    refine hes.plays.operational (fun c d err herr => ?_) fun d err herr => ?_
    · cases c <;> cases herr
      rfl
    · cases herr
  split at hfailed
  · rename_i e he
    exact ⟨e, he, hseparates hoperational e he⟩
  · cases hfailed

end ImpedanceBench

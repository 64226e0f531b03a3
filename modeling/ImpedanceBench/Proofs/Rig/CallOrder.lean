import Mathlib.Algebra.Order.BigOperators.Group.List
import Mathlib.Algebra.Order.Group.Nat
import ImpedanceBench.Proofs.Rig.Measured

/-!
The order of the calls. A sweep initializes the devices if need be, and at each frequency, in order,
it sets up the two devices for that frequency and then only polls; the calls of any run are a first
part of such a sequence. A device that fails is the last one called.
-/

namespace ImpedanceBench

open History

/-- A failure of the device as a run reports it. -/
def Event.report : Event → Failure Float → Failure Float
  | .command c _ => c.report
  | .poll _ => id

/-- The calls at one frequency: the set-up for it, then groups of polls, one for each pass. -/
inductive ValidatedSweep.PointCalls (sweep : ValidatedSweep Float) (f : Float) : List Call → Prop
  | mk {plan : AcquisitionPlan Float} {groups : List ℕ} (planned : sweep.plan f = .ok plan)
    (passes : groups.length ≤ sweep.passesPerPoint.toNat)
    (polls : ∀ n ∈ groups, 1 ≤ n ∧ n ≤ sweep.config.retry.budget) :
    PointCalls sweep f ((sweep.setUp f plan).map .command ++
      groups.flatMap fun n => List.replicate n .poll)

/-- Unless it leaves a pass out, a failure of a device is the end of the run and its outcome. -/
def History.FaultEnds {β : Type} (sweep : ValidatedSweep Float) (es : List Event)
    (r : Except (Failure Float) β) : Prop :=
  ∀ pre e post err, es = pre ++ e :: post → e.failure? = some err →
    ¬ (e.call = .poll ∧ sweep.Skips err) → post = [] ∧ r = .error (e.report err)

section

variable {sweep : ValidatedSweep Float} {f : Float} {c : Bool} {es fs : List Event}

namespace ValidatedSweep

lemma PointCalls.unpolled {plan : AcquisitionPlan Float} (hplan : sweep.plan f = .ok plan) :
    sweep.PointCalls f ((sweep.setUp f plan).map .command) := by
  have hnone : sweep.PointCalls f ((sweep.setUp f plan).map .command ++
      [].flatMap fun n => List.replicate n .poll) := .mk hplan (by simp) (by simp)
  simpa using hnone

lemma exists_pointCalls {frequencies : List Float}
    (hplans : ∀ f ∈ frequencies, ∃ plan, sweep.plan f = .ok plan) :
    ∃ words, List.Forall₂ sweep.PointCalls frequencies words := by
  induction frequencies with
  | nil => exact ⟨[], .nil⟩
  | cons f fs ih =>
    obtain ⟨plan, hplan⟩ := hplans f (by simp)
    obtain ⟨words, hwords⟩ := ih fun f hf => hplans f (by simp [hf])
    exact ⟨_, .cons (.unpolled hplan) hwords⟩

lemma PointCalls.length_le {word : List Call} (h : sweep.PointCalls f word) :
    word.length ≤ 4 + sweep.passesPerPoint.toNat * sweep.config.retry.budget := by
  obtain ⟨hplan, hpasses, hpolls⟩ := h
  rename_i groups
  have hsum : (groups.flatMap fun n => List.replicate n Call.poll).length ≤
      groups.length * sweep.config.retry.budget := by
    have hle : ∀ n ∈ groups, n ≤ sweep.config.retry.budget := fun n hn => (hpolls n hn).2
    simpa [List.length_flatMap] using List.sum_le_card_nsmul groups _ hle
  have hmul := Nat.mul_le_mul_right sweep.config.retry.budget hpasses
  rw [List.length_append, List.length_map]
  change 4 + _ ≤ _
  omega

lemma length_flatten_le {frequencies : List Float} {words : List (List Call)}
    (h : List.Forall₂ sweep.PointCalls frequencies words) : words.flatten.length ≤
      frequencies.length * (4 + sweep.passesPerPoint.toNat * sweep.config.retry.budget) := by
  induction h with
  | nil => simp
  | cons hword _ ih =>
    have hlen := hword.length_le
    rw [List.flatten_cons, List.length_append, List.length_cons, Nat.succ_mul]
    omega

end ValidatedSweep

/-- An acquisition that is not cancelled at once polls within its budget. -/
lemma Acquires.length_le {policy : RetryPolicy} {made elapsed : ℕ}
    {r : Except (Failure Float) (Trace Float)} (h : Acquires policy f made elapsed c es r)
    (hmade : made < policy.budget) : es.length + made ≤ policy.budget := by
  induction h with
  | cancelled => simpa using hmade.le
  | failed | triggered | gaveUp => simp; omega
  | again _ more _ ih =>
    simp only [RetryPolicy.exhausted, Bool.or_eq_false_iff, decide_eq_false_iff_not, not_le] at more
    have hrest := ih more.1
    simp only [List.length_cons]
    omega

lemma Acquires.pos_length {policy : RetryPolicy} {made elapsed : ℕ}
    {r : Except (Failure Float) (Trace Float)} (h : Acquires policy f made elapsed false es r) :
    1 ≤ es.length := by
  cases h <;> simp

lemma Acquires.map_call {policy : RetryPolicy} {made elapsed : ℕ}
    {r : Except (Failure Float) (Trace Float)} (h : Acquires policy f made elapsed c es r) :
    es.map Event.call = List.replicate es.length .poll :=
  List.eq_replicate_iff.2 ⟨List.length_map .., by simpa using h.calls⟩

/-- The passes are groups of polls. -/
lemma Passes.groups {reading : Rig.Reading} {left : ℕ}
    {r : Except (Failure Float) (List (ImpedancePoint Float))}
    (h : Passes sweep reading left c es r) : ∃ groups : List ℕ, groups.length ≤ left ∧
      (∀ n ∈ groups, 1 ≤ n ∧ n ≤ sweep.config.retry.budget) ∧
      es.map Event.call = groups.flatMap fun n => List.replicate n .poll := by
  have hone {es : List Event} {r : Except (Failure Float) (Trace Float)}
      (h : Acquires sweep.config.retry reading.frequency 0 0 false es r) :
      1 ≤ es.length ∧ es.length ≤ sweep.config.retry.budget :=
    ⟨h.pos_length, h.length_le (by simp [RetryPolicy.budget])⟩
  induction h with
  | done | cancelled => exact ⟨[], by simp⟩
  | stopped h | unread h => exact ⟨[_], by simp, by simpa using hone h, by simp [h.map_call]⟩
  | leftOut h _ _ ih | read h _ _ ih =>
    obtain ⟨groups, hlen, hpolls, hcalls⟩ := ih
    exact ⟨_ :: groups, by simpa using hlen, by simpa using ⟨hone h, hpolls⟩,
      by simp [h.map_call, hcalls]⟩

/-- The calls at a point are as they should be, up to where the run ends. -/
lemma Measures.pointCalls {plan : AcquisitionPlan Float} (hplan : sweep.plan f = .ok plan)
    {r : Except (Failure Float) (Option (FrequencyResult Float))} (h : Measures sweep f c es r) :
    ∃ word, sweep.PointCalls f word ∧ es.map Event.call <+: word ∧
      (∀ v, r = .ok v → es.map Event.call = word) := by
  cases h with
  | unplanned bad =>
    rw [hplan] at bad
    cases bad
  | notSetUp good h =>
    exact ⟨_, .unpolled good, h.calls_prefix, nofun⟩
  | passed good h rest =>
    obtain ⟨groups, hlen, hpolls, hcalls⟩ := rest.groups
    rw [List.map_append, h.calls, hcalls]
    exact ⟨_, .mk good hlen hpolls, List.prefix_rfl, fun _ _ => rfl⟩

lemma Visits.pointCalls {frequencies : List Float}
    (hplans : ∀ f ∈ frequencies, ∃ plan, sweep.plan f = .ok plan)
    {r : Except (Failure Float) (List (Float × Option (FrequencyResult Float)))}
    (h : Visits sweep frequencies c es r) : ∃ words,
      List.Forall₂ sweep.PointCalls frequencies words ∧ es.map Event.call <+: words.flatten := by
  induction h with
  | done => exact ⟨[], .nil, by simp⟩
  | cancelled =>
    obtain ⟨words, hwords⟩ := ValidatedSweep.exists_pointCalls hplans
    exact ⟨words, hwords, by simp⟩
  | @stopped f fs es e h =>
    obtain ⟨plan, hplan⟩ := hplans f (by simp)
    obtain ⟨word, hword, hpre, -⟩ := h.pointCalls hplan
    obtain ⟨words, hwords⟩ :=
      ValidatedSweep.exists_pointCalls fun f (hf : f ∈ fs) => hplans f (by simp [hf])
    exact ⟨word :: words, .cons hword hwords, hpre.trans (by simp)⟩
  | @visited f fs es v es' r h rest ih =>
    obtain ⟨plan, hplan⟩ := hplans f (by simp)
    obtain ⟨word, hword, -, hall⟩ := h.pointCalls hplan
    obtain ⟨words, hwords, hpre⟩ := ih fun f hf => hplans f (by simp [hf])
    refine ⟨word :: words, .cons hword hwords, ?_⟩
    rw [List.map_append, hall v rfl, List.flatten_cons]
    exact (List.prefix_append_right_inj word).2 hpre

lemma Sweeps.pointCalls (hsweep : sweep.Sound) {initialized : Bool}
    {r : Except (Failure Float) (ResultTable Float)} (h : Sweeps sweep initialized c es r) :
    ∃ words, List.Forall₂ sweep.PointCalls sweep.frequencies words ∧
      es.map Event.call <+: (if initialized then [] else
        [.command .initOutput, .command .initScope]) ++ words.flatten := by
  cases h with
  | notReady h =>
    obtain ⟨words, hwords⟩ := ValidatedSweep.exists_pointCalls hsweep.plans
    exact ⟨words, hwords, h.calls_prefix.trans (by simp)⟩
  | fresh h rest =>
    obtain ⟨words, hwords, hpre⟩ := rest.pointCalls hsweep.plans
    refine ⟨words, hwords, ?_⟩
    rw [List.map_append, h.calls]
    exact (List.prefix_append_right_inj _).2 hpre
  | ready h =>
    obtain ⟨words, hwords, hpre⟩ := h.pointCalls hsweep.plans
    exact ⟨words, hwords, by simpa using hpre⟩

/-- The `i`th frequency has been set up, and since then there were only polls. -/
def ValidatedSweep.SetUpFor (sweep : ValidatedSweep Float) (i : ℕ) (f : Float)
    (calls : List Call) : Prop :=
  ∃ plan before n, sweep.plan f = .ok plan ∧ before.countP Call.opensPoint = i ∧
    calls = before ++ (sweep.setUp f plan).map .command ++ List.replicate n .poll

lemma Measures.setUpFor {r : Except (Failure Float) (Option (FrequencyResult Float))}
    (h : Measures sweep f c es r) {pre post : List Event} {reply : Reply (Option (Trace Float))}
    (hes : es = pre ++ .poll reply :: post) : sweep.SetUpFor 0 f (pre.map Event.call) := by
  cases h with
  | unplanned _ h => exact (h.no_poll hes).elim
  | notSetUp _ h => exact (h.no_poll hes).elim
  | passed good h rest =>
    rcases append_eq_cut hes with ⟨post', rfl, -⟩ | ⟨pre', rfl, rfl⟩
    · exact (h.no_poll rfl).elim
    · refine ⟨_, [], pre'.length, good, rfl, ?_⟩
      have hpolls : pre'.map Event.call = List.replicate pre'.length .poll := by
        refine List.eq_replicate_iff.2 ⟨List.length_map .., ?_⟩
        simpa using fun e he => rest.calls e (by simp [he])
      rw [List.map_append, h.calls, hpolls, List.nil_append]

lemma History.countP_of_closed (h : ∀ e ∈ es, e.opensPoint = false) :
    (es.map Event.call).countP Call.opensPoint = 0 := by
  rw [List.countP_eq_zero]
  simpa [Event.opensPoint] using h

lemma Measures.countP_opensPoint {v : Option (FrequencyResult Float)}
    (h : Measures sweep f c es (.ok v)) : (es.map Event.call).countP Call.opensPoint = 1 := by
  obtain ⟨e, es, rfl, he, hclosed⟩ := h.opens
  have hcall : e.call.opensPoint = true := he
  rw [List.map_cons, List.countP_cons_of_pos hcall, countP_of_closed hclosed]

lemma Visits.setUpFor {frequencies : List Float}
    {r : Except (Failure Float) (List (Float × Option (FrequencyResult Float)))}
    (h : Visits sweep frequencies c es r) {pre post : List Event}
    {reply : Reply (Option (Trace Float))} (hes : es = pre ++ .poll reply :: post) :
    ∃ i f, frequencies[i]? = some f ∧ sweep.SetUpFor i f (pre.map Event.call) := by
  induction h generalizing pre with
  | done => simp at hes
  | cancelled => simp at hes
  | @stopped f fs es e h => exact ⟨0, f, rfl, h.setUpFor hes⟩
  | @visited f fs es v es' r h rest ih =>
    rcases append_eq_cut hes with ⟨post', rfl, -⟩ | ⟨pre', rfl, rfl⟩
    · exact ⟨0, f, rfl, h.setUpFor rfl⟩
    · obtain ⟨i, f', hf', plan, before, n, hplan, hbefore, hcalls⟩ := ih rfl
      refine ⟨i + 1, f', hf', plan, es.map Event.call ++ before, n, hplan, ?_, by simp [hcalls]⟩
      rw [List.countP_append, h.countP_opensPoint, hbefore, Nat.add_comm]

lemma Sweeps.setUpFor {initialized : Bool} {r : Except (Failure Float) (ResultTable Float)}
    (h : Sweeps sweep initialized c es r) {pre post : List Event}
    {reply : Reply (Option (Trace Float))} (hes : es = pre ++ .poll reply :: post) :
    ∃ i f, sweep.frequencies[i]? = some f ∧ sweep.SetUpFor i f (pre.map Event.call) := by
  cases h with
  | notReady h => exact (h.no_poll hes).elim
  | ready h => exact h.setUpFor hes
  | @fresh _ es fs r h rest =>
    rcases append_eq_cut hes with ⟨post', rfl, -⟩ | ⟨pre', rfl, rfl⟩
    · exact (h.no_poll rfl).elim
    · obtain ⟨i, f, hf, plan, before, n, hplan, hbefore, hcalls⟩ := rest.setUpFor rfl
      refine ⟨i, f, hf, plan, es.map Event.call ++ before, n, hplan, ?_, by simp [hcalls]⟩
      rw [List.countP_append, countP_of_closed h.closed_of_init, hbefore, Nat.zero_add]

namespace History.FaultEnds

variable {β γ : Type} {r : Except (Failure Float) β}

lemma nil : FaultEnds sweep [] r := by
  intro pre e post err hes
  simp at hes

lemma map (h : FaultEnds sweep es r) (g : β → γ) : FaultEnds sweep es (r.map g) := by
  intro pre e post err hes he hskip
  obtain ⟨hpost, rfl⟩ := h pre e post err hes he hskip
  exact ⟨hpost, rfl⟩

lemma error {e : Failure Float} (h : FaultEnds sweep es (.error e : Except (Failure Float) β)) :
    FaultEnds sweep es (.error e : Except (Failure Float) γ) := by
  intro pre x post err hes hx hskip
  obtain ⟨hpost, hr⟩ := h pre x post err hes hx hskip
  exact ⟨hpost, by rw [Except.error.inj hr]⟩

/-- A part that goes on has no such failure. -/
lemma append {a : γ} (h : FaultEnds sweep es (.ok a : Except (Failure Float) γ))
    (h' : FaultEnds sweep fs r) : FaultEnds sweep (es ++ fs) r := by
  intro pre e post err hes he hskip
  rcases append_eq_cut hes with ⟨post', hes, -⟩ | ⟨pre', -, hfs⟩
  · cases (h pre e post' err hes he hskip).2
  · exact h' pre' e post err hfs he hskip

end History.FaultEnds

lemma Performs.faultEnds {cs : List Command} {r : Except (Failure Float) Unit}
    (h : Performs cs es r) : FaultEnds sweep es r := by
  rintro pre e post err rfl he -
  rcases h.failures with ⟨-, hnone⟩ | ⟨pre', d, reply, err', hes, hnone, herr, rfl⟩
  · rw [hnone e (by simp)] at he
    cases he
  · rcases append_eq_cut hes.symm with ⟨post', rfl, -⟩ | ⟨pre'', rfl, hlast⟩
    · rw [hnone e (by simp)] at he
      cases he
    · obtain ⟨rfl, rfl, rfl⟩ := singleton_eq_cut hlast.symm
      rw [Event.failure?_command, Reply.failure?_of_error herr, Option.some_inj] at he
      exact ⟨rfl, by rw [he]; rfl⟩

lemma Acquires.faultEnds {policy : RetryPolicy} {made elapsed : ℕ}
    {r : Except (Failure Float) (Trace Float)} (h : Acquires policy f made elapsed c es r) :
    ∀ pre e post err, es = pre ++ e :: post → e.failure? = some err →
      post = [] ∧ e.call = .poll ∧ r = .error (e.report err) := by
  induction h with
  | cancelled => simp
  | failed h =>
    intro pre e post err hes he
    obtain ⟨rfl, rfl, rfl⟩ := singleton_eq_cut hes.symm
    rw [Event.failure?_poll, Reply.failure?_of_error h, Option.some_inj] at he
    exact ⟨rfl, rfl, by rw [he]; rfl⟩
  | triggered h | gaveUp h =>
    intro pre e post err hes he
    obtain ⟨rfl, rfl, rfl⟩ := singleton_eq_cut hes.symm
    rw [Event.failure?_poll, Reply.failure?_of_ok h] at he
    cases he
  | again h _ _ ih =>
    intro pre e post err hes he
    cases pre with
    | nil =>
      cases hes
      rw [Event.failure?_poll, Reply.failure?_of_ok h] at he
      cases he
    | cons x pre =>
      obtain ⟨rfl, htail⟩ := List.cons.inj hes
      exact ih pre e post err htail he

lemma Passes.faultEnds {reading : Rig.Reading} {left : ℕ}
    {r : Except (Failure Float) (List (ImpedancePoint Float))}
    (h : Passes sweep reading left c es r) : FaultEnds sweep es r := by
  have hacq {es : List Event} {r : Except (Failure Float) (Trace Float)}
      (h : Acquires sweep.config.retry reading.frequency 0 0 false es r) :
      FaultEnds sweep es r := by
    intro pre e post err hes he _
    obtain ⟨hpost, -, hr⟩ := h.faultEnds pre e post err hes he
    exact ⟨hpost, hr⟩
  induction h with
  | done | cancelled => exact .nil
  | stopped h => exact (hacq h).error
  | leftOut h hskip _ ih =>
    -- The one failure there may be is that which leaves the pass out.
    refine .append (a := ()) ?_ ih
    intro pre e post err hes he hkept
    obtain ⟨-, hcall, hr⟩ := h.faultEnds pre e post err hes he
    have hreport : e.report err = err := by
      cases e with
      | command => cases hcall
      | poll => rfl
    rw [Except.error.inj hr, hreport] at hskip
    exact absurd ⟨hcall, hskip⟩ hkept
  | unread h => simpa using (hacq h).append .nil
  | read h _ _ ih => exact (hacq h).append (ih.map _)

lemma Measures.faultEnds {r : Except (Failure Float) (Option (FrequencyResult Float))}
    (h : Measures sweep f c es r) : FaultEnds sweep es r := by
  cases h with
  | @unplanned _ r' e _ h =>
    cases r' with
    | error => exact h.faultEnds.error
    | ok => simpa using h.faultEnds.append .nil
  | notSetUp _ h => exact h.faultEnds.error
  | passed _ h rest => exact h.faultEnds.append (rest.faultEnds.map _)

lemma Visits.faultEnds {frequencies : List Float}
    {r : Except (Failure Float) (List (Float × Option (FrequencyResult Float)))}
    (h : Visits sweep frequencies c es r) : FaultEnds sweep es r := by
  induction h with
  | done | cancelled => exact .nil
  | stopped h => exact h.faultEnds.error
  | visited h _ ih => exact h.faultEnds.append (ih.map _)

lemma Sweeps.faultEnds {initialized : Bool} {r : Except (Failure Float) (ResultTable Float)}
    (h : Sweeps sweep initialized c es r) : FaultEnds sweep es r := by
  cases h with
  | notReady h => exact h.faultEnds.error
  | fresh h rest => exact h.faultEnds.append (rest.faultEnds.map _)
  | ready h => exact h.faultEnds.map _

end

/-- The calls of a sweep keep to this order. -/
structure ValidatedSweep.Ordered (sweep : ValidatedSweep Float) (initialized : Bool)
    (es : List Event) (r : Except (Failure Float) (ResultTable Float)) : Prop where
  /-- They are a first part of the set-up and the polls of each frequency in turn. -/
  calls : ∃ words, List.Forall₂ sweep.PointCalls sweep.frequencies words ∧
    es.map Event.call <+: (if initialized then [] else
      [.command .initOutput, .command .initScope]) ++ words.flatten
  /-- No poll comes before the set-up of its own point. -/
  polls : ∀ pre reply post, es = pre ++ .poll reply :: post →
    ∃ i f, sweep.frequencies[i]? = some f ∧ sweep.SetUpFor i f (pre.map Event.call)
  length_le : es.length ≤ 2 + sweep.frequencies.length *
    (4 + sweep.passesPerPoint.toNat * sweep.config.retry.budget)
  faults : FaultEnds sweep es r

/-- **The order of the calls**, on any rig and in any session. -/
theorem Rig.runSweep_ordered {σ : Type} (rig : Rig σ) {sweep : ValidatedSweep Float}
    (valid : sweep.Accepted) (s : Session σ) :
    ∃ es, rig.Evolves s es ((rig.runSweep sweep).run.run s).2 ∧
      sweep.Ordered s.initialized es ((rig.runSweep sweep).run.run s).1 := by
  obtain ⟨es, hes, h⟩ := rig.runSweep_sweeps sweep s
  obtain ⟨words, hwords, hpre⟩ := h.pointCalls valid.sound
  refine ⟨es, hes, ⟨words, hwords, hpre⟩, ?polls, ?length, h.faultEnds⟩
  case polls =>
    intro pre reply post hpoll
    exact h.setUpFor hpoll
  case length =>
    have hlen := hpre.length_le
    have hwords := ValidatedSweep.length_flatten_le hwords
    rw [List.length_map, List.length_append] at hlen
    split at hlen <;> simp only [List.length_nil, List.length_cons] at hlen <;> omega

/-- An oscilloscope that cannot be set up is the last device called. -/
theorem Rig.runSweep_ordered_refused :
    let start : Session Script := .start ⟨[], fun
      | .configureScope _ => some (.device "stuck")
      | _ => none⟩
    ∃ es s', (Script.rig.runSweep .twoPoints).run.run start = (.error (.device "stuck"), s') ∧
      s'.calls.length = 6 ∧ Script.rig.Evolves start es s' ∧
      ValidatedSweep.twoPoints.Ordered false es (.error (.device "stuck")) := by
  intro start
  have houtcome : ((Script.rig.runSweep .twoPoints).run.run start).1 matches
      .error (.device "stuck") := by decide +kernel
  have hcalls : ((Script.rig.runSweep .twoPoints).run.run start).2.calls.length = 6 := by
    decide +kernel
  obtain ⟨es, hes, h⟩ := Script.rig.runSweep_ordered ValidatedSweep.twoPoints_accepted start
  rcases hrun : (Script.rig.runSweep .twoPoints).run.run start with ⟨r, s'⟩
  rw [hrun] at houtcome hcalls hes h
  split at houtcome
  · rename_i hr
    obtain rfl : r = .error (.device "stuck") := hr
    exact ⟨es, s', rfl, hcalls, hes, h⟩
  · cases houtcome

end ImpedanceBench

import Mathlib.Algebra.Ring.Nat
import ImpedanceBench.Proofs.Rig.Measured
import ImpedanceBench.Proofs.Rig.Progress

/-!
A sweep and its traces. The table is a function of the traces of each point, each of them used once
and in order; and where nothing fails and no acquisition runs out of its budget, the outcome is a
function of the sequence of all traces, however long each of them was waited for.
-/

namespace ImpedanceBench

open History Progress

namespace ValidatedSweep

/-- The table that the traces of each point show. -/
def tableOf (sweep : ValidatedSweep Float) (tss : List (List (Trace Float))) :
    Except (Failure Float) (ResultTable Float) := do
  let visits ← (sweep.frequencies.zip tss).mapM fun (f, ts) => do
    return (f, FrequencyResult.ofPoints f (← ts.mapM (sweep.read f)))
  return .ofVisits visits

/-- The outcome of so many passes that each read the next trace, with the traces that remain; none
if there are too few. -/
def readPasses (sweep : ValidatedSweep Float) (f : Float) : ℕ → List (Trace Float) →
    Option (Except (Failure Float) (List (ImpedancePoint Float)) × List (Trace Float))
  | 0, ts => some (.ok [], ts)
  | _ + 1, [] => none
  | left + 1, t :: ts => match sweep.read f t with
    | .error e => some (.error e, ts)
    | .ok p => (sweep.readPasses f left ts).map fun x => (x.1.map (p :: ·), x.2)

/-- The outcome of visits that go through the traces in the same way. -/
def readVisits (sweep : ValidatedSweep Float) : List Float → List (Trace Float) →
    Option (Except (Failure Float) (List (Float × Option (FrequencyResult Float))) ×
      List (Trace Float))
  | [], ts => some (.ok [], ts)
  | f :: fs, ts => match sweep.readPasses f sweep.passesPerPoint.toNat ts with
    | none => none
    | some (.error e, ts) => some (.error e, ts)
    | some (.ok ps, ts) => (sweep.readVisits fs ts).map fun x =>
      (x.1.map ((f, FrequencyResult.ofPoints f ps) :: ·), x.2)

end ValidatedSweep

/-- No device fails and nothing is cancelled. -/
def History.Calm (es : List Event) : Prop := ∀ e ∈ es, e.failure? = none ∧ e.cancels = false

section

variable {policy : RetryPolicy} {sweep : ValidatedSweep Float} {f : Float} {p : Progress}
  {es : List Event}

lemma History.calm_cons {e : Event} :
    Calm (e :: es) ↔ (e.failure? = none ∧ e.cancels = false) ∧ Calm es := List.forall_mem_cons

lemma History.Calm.of_append {fs : List Event} (h : Calm (es ++ fs)) : Calm es ∧ Calm fs :=
  ⟨fun e he => h e (by simp [he]), fun e he => h e (by simp [he])⟩

lemma History.Calm.cancels_eq (h : Calm es) : cancels es = false :=
  List.any_eq_false.2 fun e he => by simp [(h e he).2]

lemma Performs.of_calm {cs : List Command} {r : Except (Failure Float) Unit}
    (h : Performs cs es r) (calm : Calm es) : r = .ok () := by
  rcases h.failures with ⟨hr, -⟩ | ⟨pre, c, reply, e, rfl, -, he, -⟩
  · exact hr
  · have hnone := (calm (.command c reply) (by simp)).1
    simp [Event.failure?, Reply.failure?, he] at hnone

/-- A calm acquisition within its budget gives a trace. -/
lemma Acquires.of_calm {r : Except (Failure Float) (Trace Float)}
    (h : Acquires policy f p.made p.elapsed false es r) (calm : Calm es)
    (spared : Spared policy p es) : ∃ t, r = .ok t ∧ History.traces es = [t] := by
  suffices hok : ∃ t, r = .ok t by
    obtain ⟨t, rfl⟩ := hok
    exact ⟨t, rfl, h.traces⟩
  generalize hmade : p.made = made at h
  generalize helapsed : p.elapsed = elapsed at h
  generalize hc : false = c at h
  induction h generalizing p with
  | cancelled => cases hc
  | @failed made elapsed reply e h =>
    have hnone := (calm (.poll reply) (by simp)).1
    rw [Event.failure?_poll, Reply.failure?_of_error h] at hnone
    cases hnone
  | triggered => exact ⟨_, rfl⟩
  | gaveUp h spent =>
    subst hmade helapsed
    have hspared := spared [] _ [] rfl
    rw [through_nil, exhaustedBy_of_empty h, spent] at hspared
    cases hspared
  | @again made elapsed reply es r h more _ ih =>
    subst hmade helapsed
    have hmore : p.exhaustedBy policy reply = false := (exhaustedBy_of_empty h).trans more
    refine ih (p := p.wait policy reply.elapsed) (fun e he => calm e (by simp [he])) ?_ rfl rfl
      (calm (.poll reply) (by simp)).2.symm
    rw [← next_of_empty h hmore]
    exact (List.singleton_append ▸ spared : Spared policy p ([.poll reply] ++ es)).of_append.2

lemma Passes.of_calm {plan : AcquisitionPlan Float} (hplan : sweep.plan f = .ok plan)
    {left k m : ℕ} {r : Except (Failure Float) (List (ImpedancePoint Float))}
    (h : Passes sweep (.make sweep plan f) left false es r) (calm : Calm es)
    (spared : Spared sweep.config.retry ⟨k, m, 0, 0⟩ es) (ts : List (Trace Float)) :
    sweep.readPasses f left (History.traces es ++ ts) = some (r, ts) := by
  generalize hc : false = c at h
  induction h generalizing m with
  | done => rfl
  | cancelled => cases hc
  | stopped h =>
    obtain ⟨_, hr, -⟩ := h.of_calm (p := ⟨k, m, 0, 0⟩) calm spared
    cases hr
  | leftOut h =>
    obtain ⟨_, hr, -⟩ := h.of_calm (p := ⟨k, m, 0, 0⟩) calm.of_append.1 spared.of_append.1
    cases hr
  | unread h bad =>
    rw [← ValidatedSweep.read_eq hplan] at bad
    simp [h.traces, Except.toOption, ValidatedSweep.readPasses, bad]
  | read h good _ ih =>
    have hthrough := (h.through (p := ⟨k, m, 0, 0⟩)).resolve_right (by simp)
    have hspared := spared.of_append.2
    rw [hthrough] at hspared
    have hrest := ih calm.of_append.2 hspared calm.of_append.1.cancels_eq.symm
    rw [← ValidatedSweep.read_eq hplan] at good
    simp [traces_append, h.traces, Except.toOption, ValidatedSweep.readPasses, good, hrest]

/-- A calm measurement goes through the traces pass by pass. -/
lemma Measures.of_calm {plan : AcquisitionPlan Float} (hplan : sweep.plan f = .ok plan)
    {r : Except (Failure Float) (Option (FrequencyResult Float))} (h : Measures sweep f false es r)
    (calm : Calm es) (spared : Spared sweep.config.retry p es) (ts : List (Trace Float)) :
    ∃ r', r = r'.map (FrequencyResult.ofPoints f) ∧
      sweep.readPasses f sweep.passesPerPoint.toNat (History.traces es ++ ts) = some (r', ts) := by
  cases h with
  | unplanned bad =>
    rw [hplan] at bad
    cases bad
  | notSetUp _ h => cases h.of_calm calm
  | @passed es plan' fs r hplan' h rest =>
    have hspared := spared.of_append.2
    rw [h.through_setUp] at hspared
    rw [calm.of_append.1.cancels_eq] at rest
    refine ⟨r, rfl, ?_⟩
    rw [traces_append, h.traces, List.nil_append]
    exact rest.of_calm hplan' calm.of_append.2 hspared ts

lemma Visits.of_calm {frequencies : List Float}
    (hplans : ∀ f ∈ frequencies, ∃ plan, sweep.plan f = .ok plan)
    {r : Except (Failure Float) (List (Float × Option (FrequencyResult Float)))}
    (h : Visits sweep frequencies false es r) (calm : Calm es)
    (spared : Spared sweep.config.retry p es) (ts : List (Trace Float)) :
    sweep.readVisits frequencies (History.traces es ++ ts) = some (r, ts) := by
  generalize hc : false = c at h
  induction h generalizing p with
  | done => rfl
  | cancelled => cases hc
  | @stopped f fs es e h =>
    obtain ⟨plan, hplan⟩ := hplans f (by simp)
    obtain ⟨r', hr', hread⟩ := h.of_calm hplan calm spared ts
    cases r' with
    | error e' => cases hr'; simp [ValidatedSweep.readVisits, hread]
    | ok ps => cases hr'
  | @visited f fs es v es' r h rest ih =>
    obtain ⟨plan, hplan⟩ := hplans f (by simp)
    obtain ⟨r', hr', hread⟩ := h.of_calm hplan calm.of_append.1 spared.of_append.1
      (History.traces es' ++ ts)
    have hrest := ih (fun f hf => hplans f (by simp [hf])) calm.of_append.2 spared.of_append.2
      calm.of_append.1.cancels_eq.symm
    cases r' with
    | error e' => cases hr'
    | ok ps =>
      cases hr'
      simp [traces_append, ValidatedSweep.readVisits, hread, hrest]

/-- The outcome of a calm sweep that keeps within its budgets. -/
lemma Sweeps.of_calm (hsweep : sweep.Sound) {initialized : Bool}
    {r : Except (Failure Float) (ResultTable Float)} (h : Sweeps sweep initialized false es r)
    (calm : Calm es) (spared : Spared sweep.config.retry Progress.start es)
    (ts : List (Trace Float)) :
    (sweep.readVisits sweep.frequencies (History.traces es ++ ts)).map
      (fun x => x.1.map ResultTable.ofVisits) = some r := by
  cases h with
  | notReady h => cases h.of_calm calm
  | ready h => rw [h.of_calm hsweep.plans calm spared, Option.map_some]
  | @fresh _ es fs r h rest =>
    have hspared := spared.of_append.2
    rw [calm.of_append.1.cancels_eq] at rest
    rw [traces_append, h.traces, List.nil_append,
      rest.of_calm hsweep.plans calm.of_append.2 hspared, Option.map_some]

end

namespace Script

/-- The devices obey, and no poll fails or has the run cancelled. -/
structure Faultless (d : Script) : Prop where
  obeys : ∀ c, d.refuses c = none
  answers : ∀ reply ∈ d.polls, reply.failure? = none ∧ reply.cancels = false

/-- The traces that the polls are to return. -/
def traces (d : Script) : List (Trace Float) := d.polls.filterMap (·.outcome.toOption.join)

lemma Faultless.poll {d : Script} (hd : d.Faultless) : d.poll.2.Faultless ∧
    (d.poll.1.failure? = none ∧ d.poll.1.cancels = false) ∧
      d.traces = d.poll.1.outcome.toOption.join.toList ++ d.poll.2.traces := by
  obtain ⟨polls, refuses⟩ := d
  cases polls with
  | nil => exact ⟨hd, ⟨rfl, rfl⟩, rfl⟩
  | cons reply polls =>
    refine ⟨⟨hd.obeys, fun x hx => hd.answers x (List.mem_cons_of_mem _ hx)⟩,
      hd.answers reply List.mem_cons_self, ?_⟩
    cases h : reply.outcome.toOption.join <;> simp [traces, Script.poll, h]

/-- Each trace of the script is delivered once, in order. -/
lemma Faultless.plays {d d' : Script} {es : List Event} (h : Script.rig.Plays d es d')
    (hd : d.Faultless) : Calm es ∧ d.traces = History.traces es ++ d'.traces := by
  induction es generalizing d with
  | nil =>
    obtain rfl : d = d' := h
    exact ⟨by simp [Calm], rfl⟩
  | cons e es ih =>
    cases e with
    | command c reply =>
      obtain ⟨d₁, hstep, hrest⟩ := h
      have hperform : Script.rig.perform c d = (.done (), d) := by
        simp [Script.rig, perform, hd.obeys c]
      obtain ⟨rfl, rfl⟩ := Prod.mk.inj (hperform.symm.trans hstep)
      obtain ⟨hcalm, htraces⟩ := ih hrest hd
      exact ⟨calm_cons.2 ⟨⟨rfl, rfl⟩, hcalm⟩, htraces⟩
    | poll reply =>
      obtain ⟨d₁, hstep : d.poll = (reply, d₁), hrest⟩ := h
      obtain ⟨hd₁, hreply, hfirst⟩ := hd.poll
      rw [hstep] at hd₁ hreply hfirst
      obtain ⟨hcalm, htraces⟩ := ih hrest hd₁
      exact ⟨calm_cons.2 ⟨hreply, hcalm⟩, by rw [hfirst, htraces, traces_poll, List.append_assoc]⟩

end Script

/-- The table of a run accounts for every trace that was acquired: each one is read at its own
point, once and in order. -/
structure ValidatedSweep.Accounts (sweep : ValidatedSweep Float) (es : List Event)
    (table : ResultTable Float) : Prop where
  entries : ∀ e ∈ table.entries,
    ∃ (i : ℕ) (ts : List (Trace Float)) (ps : List (ImpedancePoint Float)),
      sweep.frequencies[i]? = some e.frequency ∧ (tracesByPoint es)[i]? = some ts ∧
      ts.mapM (sweep.read e.frequency) = .ok ps ∧
      FrequencyResult.ofPoints e.frequency ps = some e ∧ e.passes.toNat = ts.length
  reference : sweep.tableOf (tracesByPoint es) = .ok table
  points : (tracesByPoint es).length = sweep.frequencies.length
  traces : (tracesByPoint es).flatten = History.traces es
  passes : (table.entries.map (·.passes.toNat)).sum = (History.traces es).length

namespace ValidatedSweep.MeasuredAll

variable {sweep : ValidatedSweep Float} {tss : List (List (Trace Float))}
  {visits : List (Float × Option (FrequencyResult Float))}

lemma tableOf (h : sweep.MeasuredAll tss visits) (hfst : visits.map Prod.fst = sweep.frequencies) :
    sweep.tableOf tss = .ok (.ofVisits visits) := by
  have hvisits : (sweep.frequencies.zip tss).mapM (fun (f, ts) => do
      return (f, FrequencyResult.ofPoints f (← ts.mapM (sweep.read f)))) = .ok visits := by
    refine mapM_eq_ok_iff.2 ?_
    rw [← hfst]
    clear hfst
    induction h with
    | nil => exact .nil
    | @cons ts visit tss visits hm _ ih =>
      refine .cons ?_ ih
      obtain ⟨ps, hreads, hv⟩ := hm.reads
      simp only [mapM_eq_ok_iff.2 hreads]
      change Except.ok _ = _
      rw [← hv]
  rw [ValidatedSweep.tableOf, hvisits]
  rfl

/-- The table has as many passes as there are traces. -/
lemma sum_passes (h : sweep.MeasuredAll tss visits) :
    ((ResultTable.ofVisits visits).entries.map (·.passes.toNat)).sum = tss.flatten.length := by
  rw [List.length_flatten]
  induction h with
  | nil => rfl
  | @cons ts visit tss visits hm _ ih =>
    obtain ⟨f, _ | result⟩ := visit
    · have hts : ts = [] := hm.eq_none_iff.1 rfl
      simpa [ResultTable.ofVisits, hts] using ih
    · have hresult : result.passes.toNat = ts.length := hm.passes result rfl
      simpa [ResultTable.ofVisits, hresult] using ih

end ValidatedSweep.MeasuredAll

lemma Sweeps.accounts {sweep : ValidatedSweep Float} {initialized c : Bool} {es : List Event}
    {table : ResultTable Float} (h : Sweeps sweep initialized c es (.ok table)) :
    sweep.Accounts es table := by
  obtain ⟨visits, rfl, hfst, hmeasured, hflat⟩ := h.measured
  refine ⟨?entries, hmeasured.tableOf hfst, ?points, hflat, ?passes⟩
  case entries =>
    intro e he
    obtain ⟨visit, hvisit, hev⟩ := List.mem_filterMap.1 he
    obtain ⟨i, hi⟩ := List.mem_iff_getElem?.1 hvisit
    obtain ⟨ts, hts, hm⟩ := hmeasured.of_getElem? hi
    obtain ⟨ps, hreads, hv⟩ := hm.reads
    have hown : e.frequency = visit.1 := hm.own e hev
    have hlen := hm.passes e hev
    rw [← hown] at hreads hv
    exact ⟨i, ts, ps, by simp [← hfst, hown, hi], hts, mapM_eq_ok_iff.2 hreads, hv ▸ hev, hlen⟩
  case points =>
    rw [← hfst, List.length_map, hmeasured.length_eq]
  case passes =>
    rw [hmeasured.sum_passes, hflat]

namespace Rig

/-- A sweep of faultless devices that keeps within its budgets. -/
lemma outcome_of_faultless {sweep : ValidatedSweep Float} (valid : sweep.Accepted)
    {s : Session Script} (hs : s.devices.Faultless) (hset : s.cancelled = false) {es : List Event}
    (hes : Script.rig.Evolves s es ((Script.rig.runSweep sweep).run.run s).2)
    (spared : Spared sweep.config.retry Progress.start es) :
    (sweep.readVisits sweep.frequencies s.devices.traces).map (fun x => x.1.map .ofVisits) =
      some ((Script.rig.runSweep sweep).run.run s).1 := by
  obtain ⟨es', hes', h⟩ := Script.rig.runSweep_sweeps sweep s
  obtain rfl := hes.unique hes'
  obtain ⟨hcalm, htraces⟩ := hs.plays hes.plays
  rw [hset] at h
  rw [htraces]
  exact h.of_calm valid.sound hcalm spared _

/-- **Every trace counts once, at its own point.** A sweep that succeeds accounts for all traces,
and the outcome on faultless devices does not depend on how long each trace was waited for, as
long as the budgets last. -/
theorem runSweep_accounts {σ : Type} (rig : Rig σ) {sweep : ValidatedSweep Float}
    (valid : sweep.Accepted) :
    (∀ s table s', (rig.runSweep sweep).run.run s = (.ok table, s') →
      ∃ es, rig.Evolves s es s' ∧ sweep.Accounts es table) ∧
    ∀ (s₁ s₂ : Session Script) (es₁ es₂ : List Event),
      s₁.devices.Faultless → s₂.devices.Faultless → s₁.devices.traces = s₂.devices.traces →
      s₁.cancelled = false → s₂.cancelled = false →
      Script.rig.Evolves s₁ es₁ ((Script.rig.runSweep sweep).run.run s₁).2 →
      Script.rig.Evolves s₂ es₂ ((Script.rig.runSweep sweep).run.run s₂).2 →
      Spared sweep.config.retry Progress.start es₁ → Spared sweep.config.retry Progress.start es₂ →
      ((Script.rig.runSweep sweep).run.run s₁).1 = ((Script.rig.runSweep sweep).run.run s₂).1 := by
  refine ⟨fun s table s' hrun => ?_, ?_⟩
  · obtain ⟨es, hes, h⟩ := rig.runSweep_sweeps sweep s
    rw [hrun] at hes h
    exact ⟨es, hes, h.accounts⟩
  · intro s₁ s₂ es₁ es₂ hd₁ hd₂ htraces hset₁ hset₂ hes₁ hes₂ spared₁ spared₂
    have houtcome := outcome_of_faultless valid hd₁ hset₁ hes₁ spared₁
    rw [htraces, outcome_of_faultless valid hd₂ hset₂ hes₂ spared₂] at houtcome
    exact (Option.some.inj houtcome).symm

/-- A useless trace is reported alike whether or not an empty poll comes before it. -/
theorem runSweep_accounts_late_trigger :
    let prompt : Script := ⟨[⟨.ok (some ⟨[]⟩), false, 0⟩], fun _ => none⟩
    let late : Script := ⟨.done none :: prompt.polls, fun _ => none⟩
    (∃ table es s', (Script.rig.runSweep .twoPoints).run.run (.start .silent) = (.ok table, s') ∧
      Script.rig.Evolves (.start .silent) es s' ∧ ValidatedSweep.twoPoints.Accounts es table) ∧
    ((Script.rig.runSweep .twoPoints).run.run (.start prompt)).2.calls.length = 7 ∧
    ((Script.rig.runSweep .twoPoints).run.run (.start late)).2.calls.length = 8 ∧
    ((Script.rig.runSweep .twoPoints).run.run (.start prompt)).1 =
      ((Script.rig.runSweep .twoPoints).run.run (.start late)).1 := by
  intro prompt late
  obtain ⟨table, s', hrun, -⟩ := Script.run_silent
  have haccounts := runSweep_accounts Script.rig ValidatedSweep.twoPoints_accepted
  obtain ⟨es, hes, h⟩ := haccounts.1 _ table s' hrun
  have hprompt : ((Script.rig.runSweep .twoPoints).run.run (.start prompt)).2.calls.length = 7 := by
    decide +kernel
  have hlate : ((Script.rig.runSweep .twoPoints).run.run (.start late)).2.calls.length = 8 := by
    decide +kernel
  obtain ⟨es₁, hes₁, -⟩ := Script.rig.runSweep_sweeps .twoPoints (.start prompt)
  obtain ⟨es₂, hes₂, -⟩ := Script.rig.runSweep_sweeps .twoPoints (.start late)
  have hlen₁ : es₁.length = 7 := hes₁.length_calls.symm.trans hprompt
  have hlen₂ : es₂.length = 8 := hes₂.length_calls.symm.trans hlate
  have hbudget : ValidatedSweep.twoPoints.config.retry.budget = 10 := by decide
  refine ⟨⟨table, es, s', hrun, hes, h⟩, hprompt, hlate,
    haccounts.2 _ _ es₁ es₂ ⟨fun _ => rfl, ?_⟩ ⟨fun _ => rfl, ?_⟩ rfl rfl rfl hes₁ hes₂
      (.of_length_lt rfl (by omega)) (.of_length_lt rfl (by omega))⟩
  · simp [Session.start, prompt, Reply.failure?]
  · simp [Session.start, late, prompt, Reply.failure?, Reply.done]

end Rig

end ImpedanceBench

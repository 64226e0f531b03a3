import Mathlib.Data.List.Forall2
import ImpedanceBench.Rig.Script
import ImpedanceBench.Proofs.Sweep.Accepted
import ImpedanceBench.Proofs.Rig.Conduct

/-!
What a sweep that ran to its end has measured: at each of its frequencies, in their order, the
impedances of exactly the traces that were acquired there.
-/

namespace ImpedanceBench

open History

/-- An acquisition does nothing but poll. -/
lemma Acquires.calls {policy : RetryPolicy} {f : Float} {made elapsed : ℕ} {c : Bool}
    {es : List Event} {r : Except (Failure Float) (Trace Float)}
    (h : Acquires policy f made elapsed c es r) : ∀ e ∈ es, e.call = .poll := by
  induction h with
  | cancelled => simp
  | failed | triggered | gaveUp => simp [Event.call]
  | again _ _ _ ih => simpa [Event.call] using ih

/-- It returns the one trace that the polls have shown. -/
lemma Acquires.traces {policy : RetryPolicy} {f : Float} {made elapsed : ℕ} {c : Bool}
    {es : List Event} {r : Except (Failure Float) (Trace Float)}
    (h : Acquires policy f made elapsed c es r) : traces es = r.toOption.toList := by
  induction h with
  | cancelled => rfl
  | failed h | triggered h | gaveUp h => simp [traces_poll, h, Except.toOption]
  | again h _ _ ih => simp [traces_poll, h, Except.toOption, ih]

lemma Performs.calls {cs : List Command} {es : List Event}
    (h : Performs cs es (.ok ())) : es.map Event.call = cs.map .command := by
  generalize hr : (Except.ok () : Except (Failure Float) Unit) = r at h
  induction h with
  | done => rfl
  | failed => cases hr
  | succeeded _ _ ih => simp [Event.call, ih hr]

lemma Performs.traces {cs : List Command} {es : List Event} {r : Except (Failure Float) Unit}
    (h : Performs cs es r) : traces es = [] := by
  induction h with
  | done => rfl
  | failed => rfl
  | succeeded _ _ ih => exact ih

lemma Passes.calls {sweep : ValidatedSweep Float} {reading : Rig.Reading} {left : ℕ} {c : Bool}
    {es : List Event} {r : Except (Failure Float) (List (ImpedancePoint Float))}
    (h : Passes sweep reading left c es r) : ∀ e ∈ es, e.call = .poll := by
  induction h with
  | done | cancelled => simp
  | stopped h | unread h => exact h.calls
  | leftOut h _ _ ih | read h _ _ ih =>
    intro e he
    rcases List.mem_append.1 he with he | he
    · exact h.calls e he
    · exact ih e he

/-- The passes read each trace once, in order, and under the abort policy none is left out. -/
lemma Passes.measured {sweep : ValidatedSweep Float} {reading : Rig.Reading} {left : ℕ} {c : Bool}
    {es : List Event} {ps : List (ImpedancePoint Float)}
    (h : Passes sweep reading left c es (.ok ps)) :
    List.Forall₂ (fun t p => reading.point t = .ok p) (traces es) ps ∧ ps.length ≤ left ∧
      (sweep.config.timeoutPolicy = .abortSweep → ps.length = left) := by
  generalize hr : (Except.ok ps : Except (Failure Float) _) = r at h
  induction h generalizing ps with
  | done => cases hr; simp
  | cancelled | stopped | unread => cases hr
  | leftOut h hskip _ ih =>
    obtain ⟨hread, hle, -⟩ := ih hr
    rw [traces_append, h.traces]
    refine ⟨by simpa [Except.toOption] using hread, by omega, fun habort => ?_⟩
    rw [hskip.1] at habort
    cases habort
  | @read left es t p fs r h hgood _ ih =>
    rcases r with _ | ps' <;> cases hr
    obtain ⟨hread, hle, habort⟩ := ih rfl
    rw [traces_append, h.traces]
    refine ⟨?_, by simpa using hle, fun hpolicy => by simpa using habort hpolicy⟩
    simpa [Except.toOption] using ⟨hgood, hread⟩

/-- The result `v` is the mean of the impedances that the traces `ts` show at a frequency. -/
structure ValidatedSweep.Measured (sweep : ValidatedSweep Float) (f : Float)
    (ts : List (Trace Float)) (v : Option (FrequencyResult Float)) : Prop where
  reads : ∃ ps, List.Forall₂ (fun t p => sweep.read f t = .ok p) ts ps ∧
    v = FrequencyResult.ofPoints f ps
  length_le : ts.length ≤ sweep.passesPerPoint.toNat
  length_eq : sweep.config.timeoutPolicy = .abortSweep → ts.length = sweep.passesPerPoint.toNat

lemma FrequencyResult.frequency_of_mem {f : Float} {ps : List (ImpedancePoint Float)}
    {r : FrequencyResult Float} (h : r ∈ FrequencyResult.ofPoints f ps) : r.frequency = f := by
  unfold FrequencyResult.ofPoints at h
  split at h <;> cases h
  rfl

lemma FrequencyResult.passes_of_mem {f : Float} {ps : List (ImpedancePoint Float)}
    {r : FrequencyResult Float} (h : r ∈ FrequencyResult.ofPoints f ps) :
    r.passes = UInt64.ofNat ps.length := by
  unfold FrequencyResult.ofPoints at h
  split at h <;> cases h
  rfl

lemma FrequencyResult.ofPoints_eq_none_iff {f : Float} {ps : List (ImpedancePoint Float)} :
    FrequencyResult.ofPoints f ps = none ↔ ps = [] := by
  cases ps <;> simp [FrequencyResult.ofPoints]

namespace ValidatedSweep.Measured

variable {sweep : ValidatedSweep Float} {f : Float} {ts : List (Trace Float)}
  {v : Option (FrequencyResult Float)}

lemma own (h : sweep.Measured f ts v) : ∀ r ∈ v, r.frequency = f := by
  obtain ⟨ps, -, rfl⟩ := h.reads
  exact fun r hr => FrequencyResult.frequency_of_mem hr

lemma passes (h : sweep.Measured f ts v) : ∀ r ∈ v, r.passes.toNat = ts.length := by
  obtain ⟨ps, hreads, rfl⟩ := h.reads
  intro r hr
  have hlt : ts.length < UInt32.size := Nat.lt_of_le_of_lt h.length_le sweep.passesPerPoint.toNat_lt
  rw [FrequencyResult.passes_of_mem hr, ← hreads.length_eq]
  exact UInt64.toNat_ofNat_of_lt' (Nat.lt_trans hlt (by decide))

lemma eq_none_iff (h : sweep.Measured f ts v) : v = none ↔ ts = [] := by
  obtain ⟨ps, hreads, rfl⟩ := h.reads
  rw [FrequencyResult.ofPoints_eq_none_iff, ← List.length_eq_zero_iff, ← List.length_eq_zero_iff,
    hreads.length_eq]

end ValidatedSweep.Measured

/-- Each visit has the mean of its own traces. -/
def ValidatedSweep.MeasuredAll (sweep : ValidatedSweep Float) (tss : List (List (Trace Float)))
    (visits : List (Float × Option (FrequencyResult Float))) : Prop :=
  List.Forall₂ (fun ts visit => sweep.Measured visit.1 ts visit.2) tss visits

namespace ValidatedSweep.MeasuredAll

variable {sweep : ValidatedSweep Float} {tss : List (List (Trace Float))}
  {visits : List (Float × Option (FrequencyResult Float))}
  {visit : Float × Option (FrequencyResult Float)}

lemma of_getElem? (h : sweep.MeasuredAll tss visits) {i : ℕ} (hi : visits[i]? = some visit) :
    ∃ ts, tss[i]? = some ts ∧ sweep.Measured visit.1 ts visit.2 := by
  obtain ⟨hlt, rfl⟩ := List.getElem?_eq_some_iff.1 hi
  have hlt' : i < tss.length := by rw [h.length_eq]; exact hlt
  exact ⟨tss[i], List.getElem?_eq_getElem hlt', h.get hlt' hlt⟩

lemma of_mem (h : sweep.MeasuredAll tss visits) (hvisit : visit ∈ visits) :
    ∃ ts, sweep.Measured visit.1 ts visit.2 := by
  obtain ⟨i, hi⟩ := List.mem_iff_getElem?.1 hvisit
  obtain ⟨ts, -, hts⟩ := h.of_getElem? hi
  exact ⟨ts, hts⟩

/-- The two lists of the table, when only the number of traces at each point is known. -/
lemma counts (h : sweep.MeasuredAll tss visits) :
    (ResultTable.ofVisits visits).entries.map (fun e => (e.frequency, e.passes.toNat)) =
        ((visits.map Prod.fst).zip (tss.map List.length)).filter (0 < ·.2) ∧
      (ResultTable.ofVisits visits).skipped =
        (((visits.map Prod.fst).zip (tss.map List.length)).filter (·.2 = 0)).map Prod.fst := by
  induction h with
  | nil => exact ⟨rfl, rfl⟩
  | @cons ts visit tss visits hvisit _ ih =>
    obtain ⟨hentries, hskipped⟩ := ih
    unfold ResultTable.ofVisits at hentries hskipped ⊢
    obtain ⟨f, _ | result⟩ := visit
    · have hnone : ts = [] := hvisit.eq_none_iff.1 rfl
      subst hnone
      simpa using ⟨hentries, hskipped⟩
    · have hown : result.frequency = f := hvisit.own result rfl
      have hpasses : result.passes.toNat = ts.length := hvisit.passes result rfl
      have hsome : ts ≠ [] := fun hnone => by cases hvisit.eq_none_iff.2 hnone
      have hlength : 0 < ts.length := List.length_pos_iff.2 hsome
      simpa [hown, hpasses, hlength, hsome] using ⟨hentries, hskipped⟩

end ValidatedSweep.MeasuredAll

/-- The first command opens a point, and the rest of the set-up belongs to it. -/
lemma Performs.opens {channel : Channel} {words : GeneratorWords} {cs : List Command}
    {es : List Event} {r : Except (Failure Float) Unit}
    (h : Performs (.configureOutput channel words :: cs) es r)
    (hcs : ∀ c ∈ cs, (Call.command c).opensPoint = false) :
    ∃ e fs, es = e :: fs ∧ e.opensPoint = true ∧ ∀ x ∈ fs, x.opensPoint = false := by
  have hcalls := h.calls_prefix
  cases es with
  | nil => cases h
  | cons e fs =>
    rw [List.map_cons, List.map_cons, List.cons_prefix_cons] at hcalls
    refine ⟨e, fs, rfl, by simp [Event.opensPoint, hcalls.1, Call.opensPoint], fun x hx => ?_⟩
    obtain ⟨c, hc, heq⟩ := List.mem_map.1 (hcalls.2.subset (List.mem_map_of_mem hx))
    rw [Event.opensPoint, ← heq]
    exact hcs c hc

/-- A point opens with its first event and has no other. -/
lemma Measures.opens {sweep : ValidatedSweep Float} {f : Float} {c : Bool} {es : List Event}
    {r : Except (Failure Float) (Option (FrequencyResult Float))} (h : Measures sweep f c es r) :
    ∃ e fs, es = e :: fs ∧ e.opensPoint = true ∧ ∀ x ∈ fs, x.opensPoint = false := by
  cases h with
  | unplanned _ h | notSetUp _ h => exact h.opens (by simp [Call.opensPoint])
  | @passed es plan fs r _ hset hpasses =>
    obtain ⟨e, es, rfl, he, hclosed⟩ := hset.opens (by simp [Call.opensPoint])
    refine ⟨e, es ++ fs, rfl, he, fun x hx => ?_⟩
    rcases List.mem_append.1 hx with hx | hx
    · exact hclosed x hx
    · simp [Event.opensPoint, hpasses.calls x hx, Call.opensPoint]

lemma Measures.measured {sweep : ValidatedSweep Float} {f : Float} {c : Bool} {es : List Event}
    {v : Option (FrequencyResult Float)} (h : Measures sweep f c es (.ok v)) :
    sweep.Measured f (traces es) v := by
  generalize hr : (Except.ok v : Except (Failure Float) _) = r at h
  cases h with
  | @unplanned _ r' => cases r' <;> cases hr
  | notSetUp => cases hr
  | @passed es plan fs r hplan hset hpasses =>
    rcases r with _ | ps <;> cases hr
    obtain ⟨hread, hle, habort⟩ := hpasses.measured
    have hlen := hread.length_eq
    rw [traces_append, hset.traces, List.nil_append]
    exact ⟨⟨ps, by simpa only [ValidatedSweep.read_eq hplan] using hread, rfl⟩, by omega,
      fun hpolicy => by rw [hlen, habort hpolicy]⟩

/-- The points of a sweep are those of its visits, whatever becomes of the last one. -/
lemma Visits.points {sweep : ValidatedSweep Float} {frequencies : List Float} {c : Bool}
    {es : List Event} {r : Except (Failure Float) (List (Float × Option (FrequencyResult Float)))}
    (h : Visits sweep frequencies c es r) : (∀ x ∈ es.head?, x.opensPoint = true) ∧
      (points es).flatten = es ∧ ∀ (j : ℕ) part, (points es)[j]? = some part →
        ∃ f c r, frequencies[j]? = some f ∧ Measures sweep f c part r := by
  induction h with
  | done | cancelled => simp [History.points]
  | stopped h =>
    obtain ⟨e, es, rfl, he, hclosed⟩ := h.opens
    have hpoints : History.points (e :: es) = [e :: es] := by
      simpa [History.points] using @points_cons_append e es [] he hclosed (by simp)
    rw [hpoints]
    refine ⟨by simpa using he, by simp, fun j part hj => ?_⟩
    obtain ⟨rfl, rfl⟩ : j = 0 ∧ e :: es = part := by cases j <;> simp_all
    exact ⟨_, _, _, rfl, h⟩
  | visited h _ ih =>
    obtain ⟨hopens, hflat, hparts⟩ := ih
    obtain ⟨e, es, rfl, he, hclosed⟩ := h.opens
    rw [List.cons_append, points_cons_append he hclosed hopens]
    refine ⟨by simpa using he, by simp [hflat], fun j part hj => ?_⟩
    cases j with
    | zero =>
      cases hj
      exact ⟨_, _, _, rfl, h⟩
    | succ j => exact hparts j part hj

/-- A sweep visits its frequencies in order, and each point has its own traces. -/
lemma Visits.measured {sweep : ValidatedSweep Float} {frequencies : List Float} {c : Bool}
    {es : List Event} {visits : List (Float × Option (FrequencyResult Float))}
    (h : Visits sweep frequencies c es (.ok visits)) :
    visits.map Prod.fst = frequencies ∧ sweep.MeasuredAll (tracesByPoint es) visits ∧
      (∀ x ∈ es.head?, x.opensPoint = true) ∧ (tracesByPoint es).flatten = traces es := by
  generalize hr : (Except.ok visits : Except (Failure Float) _) = r at h
  induction h generalizing visits with
  | done =>
    cases hr
    exact ⟨rfl, .nil, by simp, rfl⟩
  | cancelled | stopped => cases hr
  | @visited f fs es v es' r h _ ih =>
    rcases r with _ | visits' <;> cases hr
    obtain ⟨rfl, hmeasured, hopens, hflat⟩ := ih rfl
    have hv := h.measured
    obtain ⟨e, es, rfl, he, hclosed⟩ := h.opens
    have hpoints : tracesByPoint (e :: es ++ es') = traces (e :: es) :: tracesByPoint es' := by
      simp [tracesByPoint, points_cons_append he hclosed hopens]
    rw [hpoints]
    exact ⟨by simp, .cons hv hmeasured, by simpa using he, by
      rw [List.flatten_cons, hflat, traces_append]⟩

/-- The devices are initialized before the first point. -/
lemma Performs.closed_of_init {es : List Event} {r : Except (Failure Float) Unit}
    (h : Performs [.initOutput, .initScope] es r) : ∀ e ∈ es, e.opensPoint = false := by
  rcases h with _ | _ | ⟨_, _ | _ | ⟨_, _ | _⟩⟩ <;>
    simp [Event.opensPoint, Event.call, Call.opensPoint]

/-- **A sweep that succeeds** has a result for each frequency that shows the traces acquired at
that point; no other trace was acquired. -/
theorem Sweeps.measured {sweep : ValidatedSweep Float} {initialized c : Bool} {es : List Event}
    {table : ResultTable Float} (h : Sweeps sweep initialized c es (.ok table)) :
    ∃ visits, table = .ofVisits visits ∧ visits.map Prod.fst = sweep.frequencies ∧
      sweep.MeasuredAll (tracesByPoint es) visits ∧ (tracesByPoint es).flatten = traces es := by
  generalize hr : (Except.ok table : Except (Failure Float) _) = r at h
  cases h with
  | notReady => cases hr
  | @fresh _ es fs r hinit hvisits =>
    rcases r with _ | visits <;> cases hr
    obtain ⟨hfst, hmeasured, -, hflat⟩ := hvisits.measured
    have hpoints : tracesByPoint (es ++ fs) = tracesByPoint fs := by
      simp [tracesByPoint, points_append_of_closed hinit.closed_of_init]
    exact ⟨visits, rfl, hfst, hpoints ▸ hmeasured, by
      rw [hpoints, hflat, traces_append, hinit.traces, List.nil_append]⟩
  | @ready _ _ r hvisits =>
    rcases r with _ | visits <;> cases hr
    obtain ⟨hfst, hmeasured, -, hflat⟩ := hvisits.measured
    exact ⟨visits, rfl, hfst, hmeasured, hflat⟩

/-- Devices that obey every command and are never triggered. -/
def Script.silent : Script := ⟨[], fun _ => none⟩

/-- On silent devices a sweep may succeed without a single result. -/
lemma Script.run_silent : ∃ table s', (Script.rig.runSweep .twoPoints).run.run (.start .silent) =
    (.ok table, s') ∧ table.skipped = [1000.0, 2000.0] := by
  have hskipped : ((Script.rig.runSweep .twoPoints).run.run (.start .silent)).1.toOption.map
      (·.skipped) = some [1000.0, 2000.0] := by decide +kernel
  rcases hrun : (Script.rig.runSweep .twoPoints).run.run (.start .silent) with ⟨_ | table, s'⟩ <;>
    rw [hrun] at hskipped
  · cases hskipped
  · exact ⟨table, s', rfl, Option.some.inj hskipped⟩

end ImpedanceBench

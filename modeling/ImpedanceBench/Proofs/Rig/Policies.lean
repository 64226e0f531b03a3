import ImpedanceBench.Proofs.Rig.Determinism
import ImpedanceBench.Proofs.Rig.Progress
import ImpedanceBench.Proofs.Rig.Table

/-!
The same sweep under both timeout policies. As long as no pass uses up its budget the runs are the
same; the first poll that uses one up ends the run that aborts, and the other one goes on.
-/

namespace ImpedanceBench

open History Progress

def SweepConfig.under (c : SweepConfig Float) (t : TimeoutPolicy) : SweepConfig Float :=
  { c with timeoutPolicy := t }

def ValidatedSweep.under (sweep : ValidatedSweep Float) (t : TimeoutPolicy) :
    ValidatedSweep Float :=
  { sweep with config := sweep.config.under t }

/-! Validation does not look at the policy. -/

namespace SweepConfig

variable (c : SweepConfig Float) (p : HardwareProfile Float) (t : TimeoutPolicy)

lemma resolve_under : (c.under t).resolve p = (c.resolve p).map (·.under t) := by
  unfold resolve under
  dsimp only
  by_cases hmode : c.start < c.stop <;> simp only [hmode, if_true, if_false]
  · cases Grid.points? c.start c.stop c.step p.maxSweepPoints with
    | none => rfl
    | some points =>
      dsimp only [bind, Except.bind, pure, Except.pure]
      split <;> rfl
  · dsimp only [bind, Except.bind, pure, Except.pure]
    split <;> rfl

lemma outcome_under : (c.under t).outcome p = (c.outcome p).map (·.under t) := by
  unfold outcome
  cases p.validate with
  | error e => rfl
  | ok =>
    have hresolve := ((c.lowerStop p).lowerSweeps p).resolve_under p t
    have hstart : (c.under t).startInRange p = c.startInRange p := rfl
    have hdefect : ((c.under t).lowerStop p).defect? p = (c.lowerStop p).defect? p := rfl
    have hlower : ((c.under t).lowerStop p).lowerSweeps p =
      ((c.lowerStop p).lowerSweeps p).under t := rfl
    dsimp only
    rw [hstart, hdefect, hlower, hresolve]
    split
    · rfl
    change (if Scalar.undefined c.stop then _ else _) = _
    split
    · rfl
    split <;> rfl

end SweepConfig

/-! The first poll that uses up a budget. -/

namespace Progress

variable {policy : RetryPolicy} {p : Progress}

/-- After the events `pre` this poll uses up the budget of its pass, as none did before. -/
structure Exhausts (policy : RetryPolicy) (p : Progress) (pre : List Event)
    (reply : Reply (Option (Trace Float))) : Prop where
  spared : Spared policy p pre
  exhausted : (p.through policy pre).exhaustedBy policy reply = true

lemma Spared.nil : Spared policy p [] := by simp [Spared]

lemma Spared.append {es fs : List Event} (h : Spared policy p es)
    (h' : Spared policy (p.through policy es) fs) : Spared policy p (es ++ fs) := by
  intro pre reply post hes
  rcases append_eq_cut hes with ⟨post', rfl, -⟩ | ⟨pre', rfl, rfl⟩
  · exact h pre reply post' rfl
  · rw [through_append]
    exact h' pre' reply post rfl

lemma Spared.single {reply : Reply (Option (Trace Float))}
    (h : p.exhaustedBy policy reply = false) : Spared policy p [.poll reply] := by
  intro pre reply' post hes
  obtain ⟨rfl, heq, -⟩ := singleton_eq_cut hes.symm
  cases heq
  exact h

lemma Exhausts.prepend {es pre : List Event} {reply : Reply (Option (Trace Float))}
    (h : Exhausts policy (p.through policy es) pre reply) (spared : Spared policy p es) :
    Exhausts policy p (es ++ pre) reply :=
  ⟨spared.append h.spared, by rw [through_append]; exact h.exhausted⟩

lemma Exhausts.not_spared {pre post : List Event} {reply : Reply (Option (Trace Float))}
    (h : Exhausts policy p pre reply) : ¬ Spared policy p (pre ++ .poll reply :: post) :=
  fun spared => by cases h.exhausted.symm.trans (spared pre reply post rfl)

/-- There is only one first poll of that kind. -/
lemma Exhausts.unique {pre pre' post post' : List Event}
    {reply reply' : Reply (Option (Trace Float))} (h : Exhausts policy p pre reply)
    (h' : Exhausts policy p pre' reply')
    (heq : pre ++ .poll reply :: post = pre' ++ .poll reply' :: post') :
    pre = pre' ∧ reply = reply' := by
  rcases append_eq_cut heq with ⟨rest, rfl, -⟩ | ⟨rest, rfl, hrest⟩
  · exact absurd h.spared h'.not_spared
  · cases rest with
    | nil =>
      cases hrest
      exact ⟨(List.append_nil pre).symm, rfl⟩
    | cons e rest =>
      cases hrest
      exact absurd h'.spared h.not_spared

end Progress

lemma Performs.spared {policy : RetryPolicy} {p : Progress} {cs : List Command} {es : List Event}
    {r : Except (Failure Float) Unit} (h : Performs cs es r) : Spared policy p es :=
  fun _ _ _ hes => (h.no_poll hes).elim

/-- The polls return no timeout of their own. -/
def History.Untimed (es : List Event) : Prop :=
  ∀ reply, .poll reply ∈ es → ∀ f n, reply.outcome ≠ .error (.acquisitionTimeout f n)

lemma History.Untimed.of_append {es fs : List Event} (h : Untimed (es ++ fs)) :
    Untimed es ∧ Untimed fs :=
  ⟨fun reply he => h reply (by simp [he]), fun reply he => h reply (by simp [he])⟩

/-- An acquisition times out exactly when its last poll uses up the budget. -/
lemma Acquires.spared_or_exhausts {policy : RetryPolicy} {p : Progress} {f : Float} {c : Bool}
    {es : List Event} {r : Except (Failure Float) (Trace Float)}
    (h : Acquires policy f p.made p.elapsed c es r) (untimed : Untimed es) :
    (Spared policy p es ∧ ∀ g n, r ≠ .error (.acquisitionTimeout g n)) ∨
      ∃ pre reply, es = pre ++ [.poll reply] ∧ Exhausts policy p pre reply ∧
        (p.through policy pre).point = p.point ∧
        r = .error (.acquisitionTimeout f ((p.through policy pre).made + 1)) := by
  generalize hmade : p.made = made at h
  generalize helapsed : p.elapsed = elapsed at h
  induction h generalizing p with
  | cancelled => exact .inl ⟨.nil, by simp⟩
  | failed ho =>
    refine .inl ⟨Spared.single (by simp [exhaustedBy, ho]), fun g n hr => ?_⟩
    cases hr
    exact untimed _ (by simp) g n ho
  | triggered ho => exact .inl ⟨Spared.single (by simp [exhaustedBy, ho]), by simp⟩
  | @gaveUp made elapsed reply ho spent =>
    subst hmade helapsed
    exact .inr ⟨[], reply, rfl, ⟨.nil, (exhaustedBy_of_empty ho).trans spent⟩, rfl, rfl⟩
  | @again made elapsed reply es r ho more _ ih =>
    subst hmade helapsed
    have hmore := (exhaustedBy_of_empty ho).trans more
    have hnext : p.through policy [.poll reply] = p.wait policy reply.elapsed :=
      next_of_empty ho hmore
    have huntimed : Untimed es := fun reply' he => untimed reply' (by simp [he])
    rcases ih (p := p.wait policy reply.elapsed) huntimed rfl rfl with
      ⟨hspared, hother⟩ | ⟨pre, last, rfl, hexhausts, hpoint, hr⟩
    · rw [← hnext] at hspared
      exact .inl ⟨(Spared.single hmore).append hspared, hother⟩
    · rw [← hnext] at hexhausts hpoint hr
      rw [← through_append] at hpoint hr
      exact .inr ⟨[.poll reply] ++ pre, last, rfl, hexhausts.prepend (Spared.single hmore),
        hpoint.trans (by rw [hnext]; rfl), hr⟩

/-- What the abort policy makes of a run under the skip policy: the same run if no pass uses up its
budget, otherwise the run up to the first poll that does, at a point of this place. -/
inductive Truncates {β : Type} (policy : RetryPolicy) (p : Progress) (place : ℕ → Float → Prop) :
    List Event → Except (Failure Float) β → List Event → Except (Failure Float) β → Prop
  | same {es r} (spared : Spared policy p es) : Truncates policy p place es r es r
  | cut {pre reply post r f} (first : Exhausts policy p pre reply)
    (at_place : place (p.through policy pre).point f) :
    Truncates policy p place (pre ++ .poll reply :: post) r (pre ++ [.poll reply])
      (.error (.acquisitionTimeout f ((p.through policy pre).made + 1)))

namespace Truncates

variable {α β : Type} {policy : RetryPolicy} {p : Progress} {place place' : ℕ → Float → Prop}
  {es es' fs : List Event} {r r' : Except (Failure Float) β}

lemma map (h : Truncates policy p place es r es' r') (g : β → α) :
    Truncates policy p place es (r.map g) es' (r'.map g) := by
  cases h with
  | same spared => exact .same spared
  | cut first at_place => exact .cut first at_place

lemma mono (h : Truncates policy p place es r es' r') (hplace : ∀ k f, place k f → place' k f) :
    Truncates policy p place' es r es' r' := by
  cases h with
  | same spared => exact .same spared
  | cut first at_place => exact .cut first (hplace _ _ at_place)

lemma prepend (h : Truncates policy (p.through policy fs) place es r es' r')
    (spared : Spared policy p fs) : Truncates policy p place (fs ++ es) r (fs ++ es') r' := by
  cases h with
  | same rest => exact .same (spared.append rest)
  | @cut pre reply post r f first at_place =>
    rw [← through_append] at at_place ⊢
    rw [← List.append_assoc, ← List.append_assoc]
    exact .cut (first.prepend spared) at_place

/-- The devices that can play the one run can play the other one too. -/
lemma plays {σ : Type} {rig : Rig σ} {d d' : σ} (h : Truncates policy p place es r es' r')
    (hes : rig.Plays d es d') : ∃ d₁, rig.Plays d es' d₁ := by
  cases h with
  | same => exact ⟨d', hes⟩
  | cut =>
    rw [← List.singleton_append, ← List.append_assoc] at hes
    obtain ⟨d₁, hcut, -⟩ := hes.of_append
    exact ⟨d₁, hcut⟩

lemma of_spared (h : Truncates policy p place es r es' r') (spared : Spared policy p es) :
    es' = es ∧ r' = r := by
  cases h with
  | same => exact ⟨rfl, rfl⟩
  | cut first => exact absurd spared first.not_spared

lemma of_exhausts {pre post : List Event} {reply : Reply (Option (Trace Float))}
    (h : Truncates policy p place (pre ++ .poll reply :: post) r es' r')
    (first : Exhausts policy p pre reply) :
    es' = pre ++ [.poll reply] ∧ ∃ f, place (p.through policy pre).point f ∧
      r' = .error (.acquisitionTimeout f ((p.through policy pre).made + 1)) := by
  generalize hes : pre ++ .poll reply :: post = es at h
  cases h with
  | same spared => exact absurd (hes ▸ spared) first.not_spared
  | cut first' at_place =>
    obtain ⟨rfl, rfl⟩ := first.unique first' hes
    exact ⟨rfl, _, at_place, rfl⟩

end Truncates

section

variable {sweep : ValidatedSweep Float} {c : Bool} {es : List Event}

lemma ValidatedSweep.not_skips_abort (e : Failure Float) : ¬ (sweep.under .abortSweep).Skips e :=
  fun h => by cases h.1

lemma Passes.truncates {reading : Rig.Reading} {left : ℕ}
    {r : Except (Failure Float) (List (ImpedancePoint Float))}
    (h : Passes (sweep.under .skipPass) reading left c es r) (untimed : Untimed es) (k m : ℕ) :
    ∃ es' r', Passes (sweep.under .abortSweep) reading left c es' r' ∧
      Truncates sweep.config.retry ⟨k, m, 0, 0⟩ (fun k' f => k' = k ∧ f = reading.frequency)
        es r es' r' := by
  induction h generalizing m with
  | done => exact ⟨_, _, .done, .same .nil⟩
  | cancelled => exact ⟨_, _, .cancelled, .same .nil⟩
  | stopped h kept =>
    rcases h.spared_or_exhausts (p := ⟨k, m, 0, 0⟩) untimed with
      ⟨spared, -⟩ | ⟨pre, reply, rfl, first, -, hr⟩
    · exact ⟨_, _, .stopped h (ValidatedSweep.not_skips_abort _), .same spared⟩
    · cases hr
      exact absurd ⟨rfl, _, _, rfl⟩ kept
  | leftOut h skipped _ _ =>
    -- Only a timeout is left out, and as the devices return none, the budget was used up.
    rcases h.spared_or_exhausts (p := ⟨k, m, 0, 0⟩) untimed.of_append.1 with
      ⟨-, hother⟩ | ⟨pre, reply, rfl, first, hpoint, hr⟩
    · obtain ⟨-, g, n, rfl⟩ := skipped
      exact absurd rfl (hother g n)
    · cases hr
      rw [List.append_assoc]
      exact ⟨_, _, .stopped h (ValidatedSweep.not_skips_abort _), .cut first ⟨hpoint, rfl⟩⟩
  | unread h bad =>
    rcases h.spared_or_exhausts (p := ⟨k, m, 0, 0⟩) untimed with
      ⟨spared, -⟩ | ⟨_, _, _, _, _, hr⟩
    · exact ⟨_, _, .unread h bad, .same spared⟩
    · cases hr
  | @read left es t p fs r h good _ ih =>
    rcases h.spared_or_exhausts (p := ⟨k, m, 0, 0⟩) untimed.of_append.1 with
      ⟨spared, -⟩ | ⟨_, _, _, _, _, hr⟩
    · have hthrough := (h.through (p := ⟨k, m, 0, 0⟩)).resolve_right (by simp)
      obtain ⟨es', r', hrest, htruncates⟩ := ih untimed.of_append.2 (m + 1)
      refine ⟨_, _, .read h good hrest, Truncates.prepend ?_ spared⟩
      exact hthrough ▸ htruncates.map (p :: ·)
    · cases hr

lemma Measures.truncates {f : Float} {r : Except (Failure Float) (Option (FrequencyResult Float))}
    (h : Measures (sweep.under .skipPass) f c es r) (untimed : Untimed es) (p : Progress) :
    ∃ es' r', Measures (sweep.under .abortSweep) f c es' r' ∧
      Truncates sweep.config.retry p (fun k g => k = p.point + 1 ∧ g = f) es r es' r' := by
  cases h with
  | unplanned bad h => exact ⟨_, _, .unplanned bad h, .same h.spared⟩
  | notSetUp good h => exact ⟨_, _, .notSetUp good h, .same h.spared⟩
  | passed good h rest =>
    obtain ⟨es', r', hrest, htruncates⟩ :=
      rest.truncates untimed.of_append.2 (p.point + 1) 0
    refine ⟨_, _, .passed good h hrest, Truncates.prepend ?_ h.spared⟩
    rw [h.through_setUp]
    exact htruncates.map _

lemma Visits.truncates {frequencies : List Float}
    {r : Except (Failure Float) (List (Float × Option (FrequencyResult Float)))}
    (h : Visits (sweep.under .skipPass) frequencies c es r) (untimed : Untimed es) (p : Progress) :
    ∃ es' r', Visits (sweep.under .abortSweep) frequencies c es' r' ∧
      Truncates sweep.config.retry p
        (fun k f => ∃ i, k = p.point + i + 1 ∧ frequencies[i]? = some f) es r es' r' := by
  induction h generalizing p with
  | done => exact ⟨_, _, .done, .same .nil⟩
  | cancelled => exact ⟨_, _, .cancelled, .same .nil⟩
  | @stopped f fs es e h =>
    obtain ⟨es', r', hmeasures, htruncates⟩ := h.truncates untimed p
    cases htruncates with
    | same spared => exact ⟨_, _, .stopped hmeasures, .same spared⟩
    | cut first at_place =>
      exact ⟨_, _, .stopped hmeasures, .cut first ⟨0, at_place.1, by simp [at_place.2]⟩⟩
  | @visited f fs es v es' r h _ ih =>
    obtain ⟨fs', v', hmeasures, htruncates⟩ := h.truncates untimed.of_append.1 p
    cases htruncates with
    | same spared =>
      have hthrough : p.through sweep.config.retry es = ⟨p.point + 1, _, 0, 0⟩ := h.through
      obtain ⟨gs, r', hrest, hnext⟩ := ih untimed.of_append.2 (p.through sweep.config.retry es)
      refine ⟨_, _, .visited hmeasures hrest, Truncates.prepend ?_ spared⟩
      refine (hnext.map _).mono fun k g ⟨i, hk, hg⟩ => ⟨i + 1, ?_, hg⟩
      rw [hk, hthrough]
      dsimp only
      omega
    | cut first at_place =>
      rw [List.append_assoc]
      exact ⟨_, _, .stopped hmeasures, .cut first ⟨0, at_place.1, by simp [at_place.2]⟩⟩

lemma Sweeps.truncates {initialized : Bool} {r : Except (Failure Float) (ResultTable Float)}
    (h : Sweeps (sweep.under .skipPass) initialized c es r) (untimed : Untimed es) :
    ∃ es' r', Sweeps (sweep.under .abortSweep) initialized c es' r' ∧
      Truncates sweep.config.retry .start
        (fun k f => sweep.frequencies[k - 1]? = some f) es r es' r' := by
  have hplace (k : ℕ) (f : Float)
      (h : ∃ i, k = Progress.start.point + i + 1 ∧ sweep.frequencies[i]? = some f) :
      sweep.frequencies[k - 1]? = some f := by
    obtain ⟨i, rfl, hf⟩ := h
    simpa [Progress.start] using hf
  cases h with
  | notReady h => exact ⟨_, _, .notReady h, .same h.spared⟩
  | ready h =>
    obtain ⟨es', r', hvisits, htruncates⟩ := h.truncates untimed .start
    exact ⟨_, _, .ready hvisits, (htruncates.map _).mono hplace⟩
  | fresh h rest =>
    obtain ⟨es', r', hvisits, htruncates⟩ := rest.truncates untimed.of_append.2 .start
    refine ⟨_, _, .fresh h hvisits, Truncates.prepend ?_ h.spared⟩
    rw [h.through_init]
    exact (htruncates.map _).mono hplace

/-! A run under the skip policy that has left nothing out. -/

lemma Passes.of_complete {reading : Rig.Reading} {left : ℕ} {ps : List (ImpedancePoint Float)}
    (h : Passes (sweep.under .skipPass) reading left c es (.ok ps)) (complete : ps.length = left) :
    Passes (sweep.under .abortSweep) reading left c es (.ok ps) := by
  generalize hr : (Except.ok ps : Except (Failure Float) _) = r at h
  induction h generalizing ps with
  | done => exact .done
  | cancelled | stopped | unread => cases hr
  | leftOut _ _ rest =>
    subst hr
    have hle := rest.measured.2.1
    omega
  | @read left es t p fs r h good rest ih =>
    rcases r with _ | ps' <;> cases hr
    exact .read h good (ih (by simpa using complete) rfl)

lemma Measures.of_complete {f : Float} {result : FrequencyResult Float}
    (h : Measures (sweep.under .skipPass) f c es (.ok (some result)))
    (complete : result.passes.toNat = sweep.passesPerPoint.toNat) :
    Measures (sweep.under .abortSweep) f c es (.ok (some result)) := by
  generalize hr : (Except.ok (some result) : Except (Failure Float) _) = r at h
  cases h with
  | @unplanned _ r' => cases r' <;> cases hr
  | notSetUp => cases hr
  | @passed es plan fs r good hset rest =>
    rcases r with _ | ps
    · cases hr
    have hresult : FrequencyResult.ofPoints f ps = some result := (Except.ok.inj hr).symm
    have hle : ps.length ≤ sweep.passesPerPoint.toNat := rest.measured.2.1
    have hlt : ps.length < UInt64.size :=
      Nat.lt_of_le_of_lt hle (Nat.lt_trans sweep.passesPerPoint.toNat_lt (by decide))
    have hlength : ps.length = sweep.passesPerPoint.toNat := by
      rw [← complete, FrequencyResult.passes_of_mem hresult, UInt64.toNat_ofNat_of_lt' hlt]
    have hstrict : Measures (sweep.under .abortSweep) f c (es ++ fs)
        ((Except.ok ps : Except (Failure Float) _).map (FrequencyResult.ofPoints f)) :=
      .passed good hset (rest.of_complete hlength)
    exact hr ▸ hstrict

lemma Visits.of_complete {frequencies : List Float}
    {visits : List (Float × Option (FrequencyResult Float))}
    (h : Visits (sweep.under .skipPass) frequencies c es (.ok visits))
    (complete : ∀ visit ∈ visits, ∃ result, visit.2 = some result ∧
      result.passes.toNat = sweep.passesPerPoint.toNat) :
    Visits (sweep.under .abortSweep) frequencies c es (.ok visits) := by
  generalize hr : (Except.ok visits : Except (Failure Float) _) = r at h
  induction h generalizing visits with
  | done =>
    cases hr
    exact .done
  | cancelled | stopped => cases hr
  | @visited f fs es v es' r h _ ih =>
    rcases r with _ | visits' <;> cases hr
    obtain ⟨result, hv, hpasses⟩ := complete (f, v) (by simp)
    obtain rfl : v = some result := hv
    have hrest := ih (fun visit hvisit => complete visit (by simp [hvisit])) rfl
    exact .visited (h.of_complete hpasses) hrest

lemma ResultTable.complete_of_ofVisits {passes : UInt32}
    {visits : List (Float × Option (FrequencyResult Float))}
    (hskipped : (ofVisits visits).skipped = [])
    (hpasses : ∀ e ∈ (ofVisits visits).entries, e.passes.toNat = passes.toNat) :
    ∀ visit ∈ visits, ∃ result, visit.2 = some result ∧ result.passes.toNat = passes.toNat := by
  intro visit hvisit
  cases hv : visit.2 with
  | none =>
    have hmem : visit.1 ∈ (ofVisits visits).skipped :=
      List.mem_map_of_mem (List.mem_filter.2 ⟨hvisit, by simp [hv]⟩)
    simp [hskipped] at hmem
  | some result => exact ⟨result, rfl, hpasses result (List.mem_filterMap.2 ⟨visit, hvisit, hv⟩)⟩

lemma Sweeps.of_complete {initialized : Bool} {table : ResultTable Float}
    (h : Sweeps (sweep.under .skipPass) initialized c es (.ok table))
    (hskipped : table.skipped = [])
    (hpasses : ∀ e ∈ table.entries, e.passes.toNat = sweep.passesPerPoint.toNat) :
    Sweeps (sweep.under .abortSweep) initialized c es (.ok table) := by
  generalize hr : (Except.ok table : Except (Failure Float) _) = r at h
  cases h with
  | notReady => cases hr
  | @ready _ _ r h =>
    rcases r with _ | visits <;> cases hr
    exact .ready (h.of_complete (ResultTable.complete_of_ofVisits hskipped hpasses))
  | @fresh _ es fs r h rest =>
    rcases r with _ | visits <;> cases hr
    exact .fresh h (rest.of_complete (ResultTable.complete_of_ofVisits hskipped hpasses))

end

lemma Script.untimed_of_silent {es : List Event} {d : Script}
    (h : Script.rig.Plays .silent es d) : Untimed es := by
  refine h.induction (P := fun d es _ => d = .silent → Untimed es) (fun _ _ => ?_)
    (fun d c es _ ih hd => ?_) (fun d es _ ih hd => ?_) rfl
  · simp [Untimed]
  · subst hd
    exact fun reply he => ih rfl reply (by simpa using he)
  · subst hd
    intro reply he
    rcases List.mem_cons.1 he with he | he
    · cases he
      exact fun f n => by rintro ⟨⟩
    · exact ih rfl reply he

/-- **The skip policy extends the abort policy.** Settings are accepted under both or under neither.
On devices whose polls return no timeout of their own, whatever they are asked, the two runs of a
sweep make the same calls and end alike as long as no pass uses up its budget. The first poll that
uses one up is the last call under the abort policy, which then reports the frequency of that point
and the polls of that pass. So a sweep succeeds under the abort policy exactly when it succeeds
under the skip policy with the same table and has left nothing out. -/
theorem Rig.runSweep_policies {σ : Type} (rig : Rig σ) {config : SweepConfig Float}
    {profile : HardwareProfile Float} {sweep : ValidatedSweep Float} {ws : List (Warning Float)}
    (valid : ((config.validate profile).run.run ws).1 = .ok sweep) (s : Session σ)
    (untimed : ∀ es d, rig.Plays s.devices es d → Untimed es) :
    let policy := sweep.config.retry
    let run := fun t => (rig.runSweep (sweep.under t)).run.run s
    (∀ t, (((config.under t).validate profile).run.run ws).1 = .ok (sweep.under t)) ∧
    (∃ es es', rig.Evolves s es (run .skipPass).2 ∧ rig.Evolves s es' (run .abortSweep).2 ∧
      (Spared policy .start es → es' = es ∧ (run .abortSweep).1 = (run .skipPass).1) ∧
      ∀ pre reply post, es = pre ++ .poll reply :: post → Exhausts policy .start pre reply →
        es' = pre ++ [.poll reply] ∧
        ∃ f, sweep.frequencies[(Progress.after policy pre).point - 1]? = some f ∧
          (run .abortSweep).1 =
            .error (.acquisitionTimeout f ((Progress.after policy pre).made + 1))) ∧
    ∀ table, (run .abortSweep).1 = .ok table ↔ (run .skipPass).1 = .ok table ∧
      table.skipped = [] ∧ ∀ e ∈ table.entries, e.passes.toNat = sweep.passesPerPoint.toNat := by
  intro policy run
  have hvalid (t : TimeoutPolicy) :
      (((config.under t).validate profile).run.run ws).1 = .ok (sweep.under t) := by
    rw [SweepConfig.run_validate] at valid ⊢
    rw [SweepConfig.outcome_under, valid]
    rfl
  obtain ⟨es, hes, hskip⟩ := rig.runSweep_sweeps (sweep.under .skipPass) s
  generalize ((rig.runSweep (sweep.under .skipPass)).run.run s).1 = r at hskip
  obtain ⟨es', r', habort, htruncates⟩ := hskip.truncates (untimed es _ hes.plays)
  obtain ⟨d, hplays⟩ := htruncates.plays hes.plays
  obtain ⟨hes', hr'⟩ := rig.run_eq_of_plays (sweep.under .abortSweep) s hplays habort
  refine ⟨hvalid, ⟨es, es', hes, hes', fun spared => ?agree, fun pre reply post heq first => ?part⟩,
    fun table => ⟨fun hok => ?complete, fun ⟨hok, hskipped, hpasses⟩ => ?strict⟩⟩
  case agree =>
    obtain ⟨heq, rfl⟩ := htruncates.of_spared spared
    exact ⟨heq, hr'⟩
  case part =>
    subst heq
    obtain ⟨heq, f, hf, rfl⟩ := htruncates.of_exhausts first
    exact ⟨heq, f, hf, hr'⟩
  case complete =>
    obtain rfl : r' = .ok table := hr'.symm.trans hok
    cases htruncates
    have accepted : (sweep.under .abortSweep).Accepted := ⟨_, _, _, hvalid .abortSweep⟩
    obtain ⟨visits, rfl, hfst, hmeasured, -⟩ := habort.measured
    exact ⟨rfl, (accepted.sound.tabulates hfst hmeasured).complete rfl⟩
  case strict =>
    obtain rfl : r = .ok table := hok
    exact (rig.run_eq_of_plays (sweep.under .abortSweep) s hes.plays
      (hskip.of_complete hskipped hpasses)).2

/-- On silent devices a sweep that succeeds by leaving out everything fails when it may not. -/
theorem Rig.runSweep_policies_silent :
    (∃ table s', (Script.rig.runSweep (ValidatedSweep.twoPoints.under .skipPass)).run.run
        (.start .silent) = (.ok table, s') ∧ table.skipped = [1000.0, 2000.0]) ∧
      ∀ table, ((Script.rig.runSweep (ValidatedSweep.twoPoints.under .abortSweep)).run.run
        (.start .silent)).1 ≠ .ok table := by
  obtain ⟨table, s', hrun, hskipped⟩ := Script.run_silent
  refine ⟨⟨table, s', hrun, hskipped⟩, fun table' hok => ?_⟩
  have hvalid : ((ValidatedSweep.twoPoints.config.validate .standard).run.run []).1 =
      .ok ValidatedSweep.twoPoints := rfl
  obtain ⟨-, -, hiff⟩ := Script.rig.runSweep_policies hvalid (.start .silent)
    fun _ _ => Script.untimed_of_silent
  obtain ⟨hok', hnone, -⟩ := (hiff table').1 hok
  change ((Script.rig.runSweep .twoPoints).run.run (.start .silent)).1 = _ at hok'
  rw [hrun] at hok'
  cases hok'
  simp [hnone] at hskipped

end ImpedanceBench

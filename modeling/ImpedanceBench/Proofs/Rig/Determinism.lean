import ImpedanceBench.Proofs.Rig.Conduct

/-!
A sweep has no choice of its own: as long as the devices answer alike, it makes the same calls, and
equal histories end alike. So whatever history of a sweep the devices can play is the one of its
run.
-/

namespace ImpedanceBench

open History

/-- The histories part, if they do, where different calls are made: the same call at the same place
has the same reply. -/
def History.Coherent (es fs : List Event) : Prop :=
  ∀ pre e post e' post', es = pre ++ e :: post → fs = pre ++ e' :: post' → e.call = e'.call → e = e'

namespace History.Coherent

variable {es es' fs fs' : List Event}

lemma of_append (h : Coherent (es ++ fs) (es' ++ fs')) : Coherent es es' := by
  rintro pre e post e' post' rfl rfl hcall
  exact h pre e (post ++ fs) e' (post' ++ fs') (by simp) (by simp) hcall

lemma of_append_left (h : Coherent (es ++ fs) es') : Coherent es es' := by
  rw [← es'.append_nil] at h
  exact h.of_append

lemma of_append_right (h : Coherent es (es' ++ fs')) : Coherent es es' := by
  rw [← es.append_nil] at h
  exact h.of_append

lemma after (h : Coherent (es ++ fs) (es ++ fs')) : Coherent fs fs' := by
  rintro pre e post e' post' rfl rfl hcall
  exact h (es ++ pre) e post e' post' (by simp) (by simp) hcall

lemma cons {e e' : Event} (h : Coherent (e :: es) (e' :: es')) (hcall : e.call = e'.call) :
    e = e' ∧ Coherent es es' := by
  obtain rfl := h [] e es e' es' rfl rfl hcall
  have hrest : Coherent ([e] ++ es) ([e] ++ es') := h
  exact ⟨rfl, hrest.after⟩

end History.Coherent

/-- The devices answer the same calls alike. -/
lemma Rig.Plays.coherent {σ : Type} {rig : Rig σ} {d d₁ d₂ : σ} {es fs : List Event}
    (h : rig.Plays d es d₁) (h' : rig.Plays d fs d₂) : Coherent es fs := by
  rintro pre e post e' post' rfl rfl hcall
  induction pre generalizing d with
  | nil =>
    cases e <;> cases e' <;> cases hcall <;>
    · obtain ⟨_, hreply, -⟩ := h
      obtain ⟨_, hreply', -⟩ := h'
      cases hreply.symm.trans hreply'
      rfl
  | cons x pre ih =>
    cases x <;>
    · obtain ⟨_, hreply, hrest⟩ := h
      obtain ⟨_, hreply', hrest'⟩ := h'
      cases hreply.symm.trans hreply'
      exact ih hrest hrest'

section

variable {sweep : ValidatedSweep Float} {f : Float} {c : Bool} {es es' : List Event}

lemma Performs.unique {cs : List Command} {r r' : Except (Failure Float) Unit}
    (h : Performs cs es r) (h' : Performs cs es' r') (coherent : Coherent es es') :
    es = es' ∧ r = r' := by
  induction h generalizing es' with
  | done =>
    cases h'
    exact ⟨rfl, rfl⟩
  | failed ho =>
    cases h' with
    | failed ho' =>
      cases (coherent.cons rfl).1
      cases ho.symm.trans ho'
      exact ⟨rfl, rfl⟩
    | succeeded ho' =>
      cases (coherent.cons rfl).1
      cases ho.symm.trans ho'
  | succeeded ho _ ih =>
    cases h' with
    | failed ho' =>
      cases (coherent.cons rfl).1
      cases ho.symm.trans ho'
    | succeeded ho' rest' =>
      obtain ⟨heq, htail⟩ := coherent.cons rfl
      cases heq
      obtain ⟨rfl, rfl⟩ := ih rest' htail
      exact ⟨rfl, rfl⟩

/-- What comes after the next poll of an acquisition. -/
lemma Acquires.of_unset {policy : RetryPolicy} {made elapsed : ℕ}
    {r : Except (Failure Float) (Trace Float)} (h : Acquires policy f made elapsed false es r) :
    ∃ reply rest, es = .poll reply :: rest ∧ match reply.outcome with
      | .error e => rest = [] ∧ r = .error e
      | .ok (some t) => rest = [] ∧ r = .ok t
      | .ok none =>
        if policy.exhausted (made + 1) (elapsed + reply.elapsed) then
          rest = [] ∧ r = .error (.acquisitionTimeout f (made + 1))
        else Acquires policy f (made + 1) (elapsed + reply.elapsed + policy.delay.toNat)
          reply.cancels rest r := by
  cases h with
  | failed h => exact ⟨_, [], rfl, by simp [h]⟩
  | triggered h => exact ⟨_, [], rfl, by simp [h]⟩
  | gaveUp h spent => exact ⟨_, [], rfl, by simp [h, spent]⟩
  | again h more rest => exact ⟨_, _, rfl, by simpa [h, more] using rest⟩

lemma Acquires.unique {policy : RetryPolicy} {made elapsed : ℕ}
    {r r' : Except (Failure Float) (Trace Float)} (h : Acquires policy f made elapsed c es r)
    (h' : Acquires policy f made elapsed c es' r') (coherent : Coherent es es') :
    es = es' ∧ r = r' := by
  induction h generalizing es' with
  | cancelled =>
    cases h'
    exact ⟨rfl, rfl⟩
  | failed ho | triggered ho =>
    obtain ⟨reply, rest, rfl, hnext⟩ := h'.of_unset
    cases (coherent.cons rfl).1
    rw [ho] at hnext
    obtain ⟨rfl, rfl⟩ := hnext
    exact ⟨rfl, rfl⟩
  | gaveUp ho spent =>
    obtain ⟨reply, rest, rfl, hnext⟩ := h'.of_unset
    cases (coherent.cons rfl).1
    simp only [ho, spent, if_true] at hnext
    obtain ⟨rfl, rfl⟩ := hnext
    exact ⟨rfl, rfl⟩
  | again ho more _ ih =>
    obtain ⟨reply, rest, rfl, hnext⟩ := h'.of_unset
    obtain ⟨heq, htail⟩ := coherent.cons rfl
    cases heq
    simp only [ho, more, Bool.false_eq_true, if_false] at hnext
    obtain ⟨rfl, rfl⟩ := ih hnext htail
    exact ⟨rfl, rfl⟩

/-- The next pass, and what comes after it. -/
lemma Passes.of_unset {reading : Rig.Reading} {left : ℕ}
    {r : Except (Failure Float) (List (ImpedancePoint Float))}
    (h : Passes sweep reading (left + 1) false es r) :
    ∃ first acquired rest, es = first ++ rest ∧
      Acquires sweep.config.retry reading.frequency 0 0 false first acquired ∧
      match acquired with
      | .error e => sweep.Skips e ∧ Passes sweep reading left (cancels first) rest r ∨
          ¬ sweep.Skips e ∧ rest = [] ∧ r = .error e
      | .ok t => match reading.point t with
        | .error e => rest = [] ∧ r = .error e
        | .ok p =>
          ∃ r', Passes sweep reading left (cancels first) rest r' ∧ r = r'.map (p :: ·) := by
  cases h with
  | stopped h kept => exact ⟨_, _, [], by simp, h, .inr ⟨kept, rfl, rfl⟩⟩
  | leftOut h skipped rest => exact ⟨_, _, _, rfl, h, .inl ⟨skipped, rest⟩⟩
  | unread h bad => exact ⟨_, _, [], by simp, h, by simp [bad]⟩
  | read h good rest => exact ⟨_, _, _, rfl, h, by simpa only [good] using ⟨_, rest, rfl⟩⟩

lemma Passes.unique {reading : Rig.Reading} {left : ℕ}
    {r r' : Except (Failure Float) (List (ImpedancePoint Float))}
    (h : Passes sweep reading left c es r) (h' : Passes sweep reading left c es' r')
    (coherent : Coherent es es') : es = es' ∧ r = r' := by
  induction h generalizing es' r' with
  | done | cancelled =>
    cases h'
    exact ⟨rfl, rfl⟩
  | stopped h kept =>
    obtain ⟨first, acquired, rest, rfl, h', hnext⟩ := h'.of_unset
    obtain ⟨rfl, rfl⟩ := h.unique h' coherent.of_append_right
    obtain ⟨skipped, -⟩ | ⟨-, rfl, rfl⟩ := hnext
    · exact absurd skipped kept
    · simp
  | leftOut h skipped _ ih =>
    obtain ⟨first, acquired, rest, rfl, h', hnext⟩ := h'.of_unset
    obtain ⟨rfl, rfl⟩ := h.unique h' coherent.of_append
    obtain ⟨-, hrest⟩ | ⟨kept, -⟩ := hnext
    · obtain ⟨rfl, rfl⟩ := ih hrest coherent.after
      exact ⟨rfl, rfl⟩
    · exact absurd skipped kept
  | unread h bad =>
    obtain ⟨first, acquired, rest, rfl, h', hnext⟩ := h'.of_unset
    obtain ⟨rfl, rfl⟩ := h.unique h' coherent.of_append_right
    simp only [bad] at hnext
    simp [hnext]
  | read h good _ ih =>
    obtain ⟨first, acquired, rest, rfl, h', hnext⟩ := h'.of_unset
    obtain ⟨rfl, rfl⟩ := h.unique h' coherent.of_append
    simp only [good] at hnext
    obtain ⟨r', hrest, rfl⟩ := hnext
    obtain ⟨rfl, rfl⟩ := ih hrest coherent.after
    exact ⟨rfl, rfl⟩

lemma Measures.unique {r r' : Except (Failure Float) (Option (FrequencyResult Float))}
    (h : Measures sweep f c es r) (h' : Measures sweep f c es' r') (coherent : Coherent es es') :
    es = es' ∧ r = r' := by
  cases h with
  | unplanned bad h =>
    cases h' with
    | unplanned bad' h' =>
      obtain ⟨rfl, rfl⟩ := h.unique h' coherent
      cases bad.symm.trans bad'
      exact ⟨rfl, rfl⟩
    | notSetUp good' | passed good' => cases bad.symm.trans good'
  | notSetUp good h =>
    cases h' with
    | unplanned bad' => cases good.symm.trans bad'
    | notSetUp good' h' =>
      cases good.symm.trans good'
      obtain ⟨rfl, hr⟩ := h.unique h' coherent
      cases hr
      exact ⟨rfl, rfl⟩
    | passed good' h' =>
      cases good.symm.trans good'
      cases (h.unique h' coherent.of_append_right).2
  | passed good h rest =>
    cases h' with
    | unplanned bad' => cases good.symm.trans bad'
    | notSetUp good' h' =>
      -- The set-up alone is determined, so it cannot fail in one history only.
      cases good.symm.trans good'
      cases (h.unique h' coherent.of_append_left).2
    | passed good' h' rest' =>
      cases good.symm.trans good'
      obtain ⟨rfl, -⟩ := h.unique h' coherent.of_append
      obtain ⟨rfl, rfl⟩ := rest.unique rest' coherent.after
      exact ⟨rfl, rfl⟩

lemma Visits.unique {frequencies : List Float}
    {r r' : Except (Failure Float) (List (Float × Option (FrequencyResult Float)))}
    (h : Visits sweep frequencies c es r) (h' : Visits sweep frequencies c es' r')
    (coherent : Coherent es es') : es = es' ∧ r = r' := by
  induction h generalizing es' r' with
  | done | cancelled =>
    cases h'
    exact ⟨rfl, rfl⟩
  | stopped h =>
    cases h' with
    | stopped h' =>
      obtain ⟨rfl, hr⟩ := h.unique h' coherent
      cases hr
      exact ⟨rfl, rfl⟩
    | visited h' => cases (h.unique h' coherent.of_append_right).2
  | visited h _ ih =>
    cases h' with
    | stopped h' => cases (h.unique h' coherent.of_append_left).2
    | visited h' rest' =>
      obtain ⟨rfl, hv⟩ := h.unique h' coherent.of_append
      cases hv
      obtain ⟨rfl, rfl⟩ := ih rest' coherent.after
      exact ⟨rfl, rfl⟩

/-- **A sweep is determined by the replies.** -/
lemma Sweeps.unique {initialized : Bool} {r r' : Except (Failure Float) (ResultTable Float)}
    (h : Sweeps sweep initialized c es r) (h' : Sweeps sweep initialized c es' r')
    (coherent : Coherent es es') : es = es' ∧ r = r' := by
  cases h with
  | notReady h =>
    cases h' with
    | notReady h' =>
      obtain ⟨rfl, hr⟩ := h.unique h' coherent
      cases hr
      exact ⟨rfl, rfl⟩
    | fresh h' => cases (h.unique h' coherent.of_append_right).2
  | fresh h rest =>
    cases h' with
    | notReady h' => cases (h.unique h' coherent.of_append_left).2
    | fresh h' rest' =>
      obtain ⟨rfl, -⟩ := h.unique h' coherent.of_append
      obtain ⟨rfl, rfl⟩ := rest.unique rest' coherent.after
      exact ⟨rfl, rfl⟩
  | ready h =>
    cases h' with
    | ready h' =>
      obtain ⟨rfl, rfl⟩ := h.unique h' coherent
      exact ⟨rfl, rfl⟩

end

/-- A history of a sweep that the devices can play is the history of its run. -/
lemma Rig.run_eq_of_plays {σ : Type} (rig : Rig σ) (sweep : ValidatedSweep Float) (s : Session σ)
    {es : List Event} {d : σ} {r : Except (Failure Float) (ResultTable Float)}
    (hes : rig.Plays s.devices es d) (h : Sweeps sweep s.initialized s.cancelled es r) :
    rig.Evolves s es ((rig.runSweep sweep).run.run s).2 ∧
      ((rig.runSweep sweep).run.run s).1 = r := by
  obtain ⟨es', hes', h'⟩ := rig.runSweep_sweeps sweep s
  obtain ⟨rfl, rfl⟩ := h.unique h' (hes.coherent hes'.plays)
  exact ⟨hes', rfl⟩

end ImpedanceBench

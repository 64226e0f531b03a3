import ImpedanceBench.Proofs.Rig.Progress

/-!
The last poll of a run that is cancelled during it. No call follows, and the outcome is settled by
that poll and by the progress before it: the poll itself ends the run, or it was the last that the
sweep needed, or the run ends as cancelled.
-/

namespace ImpedanceBench

open History Progress

/-- The ways in which a poll itself ends the run. A timeout that the device reports counts like one
of the controller. -/
inductive ValidatedSweep.Fatal (sweep : ValidatedSweep Float) (f : Float) (p : Progress)
    (reply : Reply (Option (Trace Float))) : Failure Float → Prop
  | failed {e} (h : reply.outcome = .error e) (kept : ¬ sweep.Skips e) : Fatal sweep f p reply e
  | unread {t e} (h : reply.outcome = .ok (some t)) (bad : sweep.read f t = .error e) :
    Fatal sweep f p reply e
  | gaveUp (h : reply.outcome = .ok none) (spent : p.exhaustedBy sweep.config.retry reply = true)
    (abort : sweep.config.timeoutPolicy = .abortSweep) :
    Fatal sweep f p reply (.acquisitionTimeout f (p.made + 1))

namespace ValidatedSweep

variable {sweep : ValidatedSweep Float} {f : Float} {p : Progress}
  {reply : Reply (Option (Trace Float))} {e e' : Failure Float}

lemma fatal_iff_of_error (h : reply.outcome = .error e) :
    sweep.Fatal f p reply e' ↔ e' = e ∧ ¬ sweep.Skips e := by
  constructor
  · rintro (⟨h', kept⟩ | ⟨h', -⟩ | ⟨h', -, -⟩) <;> rw [h] at h' <;> cases h'
    exact ⟨rfl, kept⟩
  · rintro ⟨rfl, kept⟩
    exact .failed h kept

lemma fatal_iff_of_trace {t : Trace Float} (h : reply.outcome = .ok (some t)) :
    sweep.Fatal f p reply e' ↔ sweep.read f t = .error e' := by
  constructor
  · rintro (⟨h', -⟩ | ⟨h', bad⟩ | ⟨h', -, -⟩) <;> rw [h] at h' <;> cases h'
    exact bad
  · exact .unread h

lemma fatal_iff_of_empty (h : reply.outcome = .ok none) :
    sweep.Fatal f p reply e' ↔ p.exhaustedBy sweep.config.retry reply = true ∧
      sweep.config.timeoutPolicy = .abortSweep ∧ e' = .acquisitionTimeout f (p.made + 1) := by
  constructor
  · intro hfatal
    cases hfatal with
    | failed h' => rw [h] at h'; cases h'
    | unread h' => rw [h] at h'; cases h'
    | gaveUp _ spent abort => exact ⟨spent, abort, rfl⟩
  · rintro ⟨spent, abort, rfl⟩
    exact .gaveUp h spent abort

lemma Fatal.unique (h : sweep.Fatal f p reply e) : ∀ e', sweep.Fatal f p reply e' → e' = e := by
  intro e' h'
  rcases ho : reply.outcome with e₀ | _ | t
  · rw [fatal_iff_of_error ho] at h h'
    rw [h.1, h'.1]
  · rw [fatal_iff_of_empty ho] at h h'
    rw [h.2.2, h'.2.2]
  · rw [fatal_iff_of_trace ho] at h h'
    exact Except.error.inj (h'.symm.trans h)

end ValidatedSweep

/-- How a run ends that is cancelled during a poll: with the failure of that poll, or else with
success if there was nothing left to do. -/
structure Verdict {β : Type} (fatal : Failure Float → Prop) (complete : Prop)
    (r : Except (Failure Float) β) : Prop where
  failed : ∀ e, fatal e → r = .error e
  finished : (∀ e, ¬ fatal e) → complete → ∃ b, r = .ok b
  cancelled : (∀ e, ¬ fatal e) → ¬ complete → r = .error .cancelled

namespace Verdict

variable {β γ : Type} {fatal : Failure Float → Prop} {complete : Prop}

lemma of_fatal {e : Failure Float} (h : fatal e) (unique : ∀ e', fatal e' → e' = e) :
    Verdict fatal complete (.error e : Except (Failure Float) β) :=
  ⟨fun e' h' => by rw [unique e' h'], fun hno => absurd h (hno e), fun hno => absurd h (hno e)⟩

lemma of_ok (hno : ∀ e, ¬ fatal e) (h : complete) (b : β) : Verdict fatal complete (.ok b) :=
  ⟨fun e he => absurd he (hno e), fun _ _ => ⟨b, rfl⟩, fun _ h' => absurd h h'⟩

lemma of_cancelled (hno : ∀ e, ¬ fatal e) (h : ¬ complete) :
    Verdict fatal complete (.error .cancelled : Except (Failure Float) β) :=
  ⟨fun e he => absurd he (hno e), fun _ h' => absurd h' h, fun _ _ => rfl⟩

lemma map {r : Except (Failure Float) β} (h : Verdict fatal complete r) (g : β → γ) :
    Verdict fatal complete (r.map g) where
  failed e he := by rw [h.failed e he]; rfl
  finished hno hc := by
    obtain ⟨b, rfl⟩ := h.finished hno hc
    exact ⟨g b, rfl⟩
  cancelled hno hc := by rw [h.cancelled hno hc]; rfl

lemma congr {complete' : Prop} {r : Except (Failure Float) β} (h : Verdict fatal complete r)
    (hiff : complete ↔ complete') : Verdict fatal complete' r :=
  ⟨h.failed, fun hno hc => h.finished hno (hiff.2 hc), fun hno hc => h.cancelled hno (hc ∘ hiff.1)⟩

lemma holds_of_ok {b : β} (h : Verdict fatal complete (.ok b : Except (Failure Float) β)) :
    (∀ e, ¬ fatal e) ∧ complete := by
  have hno : ∀ e, ¬ fatal e := fun e he => by cases h.failed e he
  refine ⟨hno, ?_⟩
  by_contra hc
  cases h.cancelled hno hc

/-- A failure of a part is a failure of the whole. -/
lemma of_error {complete' : Prop} {e : Failure Float}
    (h : Verdict fatal complete (.error e : Except (Failure Float) β))
    (himp : complete' → complete) :
    Verdict fatal complete' (.error e : Except (Failure Float) γ) := by
  have hcomplete (hno : ∀ e, ¬ fatal e) : ¬ complete := fun hc => by
    obtain ⟨_, hb⟩ := h.finished hno hc
    cases hb
  refine ⟨fun e' he => ?_, fun hno hc => absurd (himp hc) (hcomplete hno), fun hno _ => ?_⟩
  · cases h.failed e' he
    rfl
  · cases h.cancelled hno (hcomplete hno)
    rfl

end Verdict

/-- How an acquisition ends whose last poll cancels the run. -/
inductive Acquires.Ends (policy : RetryPolicy) (f : Float) (p : Progress)
    (reply : Reply (Option (Trace Float))) : Except (Failure Float) (Trace Float) → Prop
  | failed {e} (h : reply.outcome = .error e) : Ends policy f p reply (.error e)
  | triggered {t} (h : reply.outcome = .ok (some t)) : Ends policy f p reply (.ok t)
  | gaveUp (h : reply.outcome = .ok none) (spent : p.exhaustedBy policy reply = true) :
    Ends policy f p reply (.error (.acquisitionTimeout f (p.made + 1)))
  | cancelled (h : reply.outcome = .ok none) (more : p.exhaustedBy policy reply = false) :
    Ends policy f p reply (.error .cancelled)

section

variable {policy : RetryPolicy} {sweep : ValidatedSweep Float} {f : Float} {p : Progress} {c : Bool}
  {pre post : List Event} {reply : Reply (Option (Trace Float))}

lemma Acquires.of_cancels {r : Except (Failure Float) (Trace Float)}
    (h : Acquires policy f p.made p.elapsed c (pre ++ .poll reply :: post) r)
    (hreply : reply.cancels = true) :
    post = [] ∧ (p.through policy pre).point = p.point ∧ (p.through policy pre).pass = p.pass ∧
      Acquires.Ends policy f (p.through policy pre) reply r := by
  generalize hmade : p.made = made at h
  generalize helapsed : p.elapsed = elapsed at h
  generalize hes : pre ++ .poll reply :: post = es at h
  induction h generalizing p pre with
  | cancelled => simp at hes
  | failed h =>
    obtain ⟨rfl, heq, rfl⟩ := singleton_eq_cut hes
    cases heq
    exact ⟨rfl, rfl, rfl, .failed h⟩
  | triggered h =>
    obtain ⟨rfl, heq, rfl⟩ := singleton_eq_cut hes
    cases heq
    exact ⟨rfl, rfl, rfl, .triggered h⟩
  | gaveUp h spent =>
    obtain ⟨rfl, heq, rfl⟩ := singleton_eq_cut hes
    cases heq
    subst hmade helapsed
    exact ⟨rfl, rfl, rfl, .gaveUp h ((exhaustedBy_of_empty h).trans spent)⟩
  | @again made elapsed reply' es r h more rest ih =>
    subst hmade helapsed
    have hmore : p.exhaustedBy policy reply' = false := (exhaustedBy_of_empty h).trans more
    cases pre with
    | nil =>
      cases hes
      rw [hreply] at rest
      cases rest
      exact ⟨rfl, rfl, rfl, .cancelled h hmore⟩
    | cons e pre =>
      obtain ⟨rfl, htail⟩ := List.cons.inj hes
      rw [through_cons, next_of_empty h hmore]
      exact ih (p := p.wait policy reply'.elapsed) rfl rfl htail

namespace Acquires.Ends

variable {e : Failure Float} {t : Trace Float}

lemma stopped {n : ℕ} (h : Acquires.Ends sweep.config.retry f p reply (.error e))
    (kept : ¬ sweep.Skips e) : Verdict (sweep.Fatal f p reply)
      ((p.next sweep.config.retry (.poll reply)).pass = p.pass + (n + 1))
      (.error e : Except (Failure Float) (List (ImpedancePoint Float))) := by
  cases h with
  | failed h => exact .of_fatal (.failed h kept) (ValidatedSweep.Fatal.failed h kept).unique
  | gaveUp h spent =>
    have habort : sweep.config.timeoutPolicy = .abortSweep := by
      cases hpolicy : sweep.config.timeoutPolicy with
      | abortSweep => rfl
      | skipPass => exact absurd ⟨hpolicy, _, _, rfl⟩ kept
    exact .of_fatal (.gaveUp h spent habort) (ValidatedSweep.Fatal.gaveUp h spent habort).unique
  | cancelled h more =>
    refine .of_cancelled (fun e => ?_) ?_
    · simp [ValidatedSweep.fatal_iff_of_empty h, more]
    · simp [next_of_empty h more, wait]

lemma leftOut (h : Acquires.Ends sweep.config.retry f p reply (.error e)) (hskip : sweep.Skips e) :
    (∀ e', ¬ sweep.Fatal f p reply e') ∧
      p.next sweep.config.retry (.poll reply) = p.endPass 1 := by
  cases h with
  | failed h =>
    exact ⟨fun e' => by simp [ValidatedSweep.fatal_iff_of_error h, hskip], next_of_error h⟩
  | gaveUp h spent =>
    refine ⟨fun e' => ?_, next_of_exhausted spent⟩
    simp [ValidatedSweep.fatal_iff_of_empty h, hskip.1]
  | cancelled =>
    obtain ⟨-, _, _, he⟩ := hskip
    cases he

lemma unread {complete : Prop} (h : Acquires.Ends sweep.config.retry f p reply (.ok t))
    (bad : sweep.read f t = .error e) : Verdict (sweep.Fatal f p reply) complete
      (.error e : Except (Failure Float) (List (ImpedancePoint Float))) := by
  cases h with
  | triggered h => exact .of_fatal (.unread h bad) (ValidatedSweep.Fatal.unread h bad).unique

lemma read {x : ImpedancePoint Float} (h : Acquires.Ends sweep.config.retry f p reply (.ok t))
    (good : sweep.read f t = .ok x) : (∀ e', ¬ sweep.Fatal f p reply e') ∧
      p.next sweep.config.retry (.poll reply) = p.endPass 1 := by
  cases h with
  | triggered h =>
    exact ⟨fun e' => by simp [ValidatedSweep.fatal_iff_of_trace h, good], next_of_trace h⟩

end Acquires.Ends

lemma History.cancels_of_last (hreply : reply.cancels = true) :
    cancels (pre ++ [.poll reply]) = true := by
  simp [Event.cancels, hreply]

/-- After a pass that cancelled the run there is no other, so it was the last or the run ends as
cancelled. -/
lemma Passes.of_set {reading : Rig.Reading} {left m : ℕ} {es : List Event}
    {r : Except (Failure Float) (List (ImpedancePoint Float))}
    (h : Passes sweep reading left (cancels (pre ++ [.poll reply])) es r)
    (hreply : reply.cancels = true) (hpass : p.pass = m) (hend : (∀ e, ¬ sweep.Fatal f p reply e) ∧
      p.next sweep.config.retry (.poll reply) = p.endPass 1) :
    es = [] ∧ Verdict (sweep.Fatal f p reply)
      ((p.next sweep.config.retry (.poll reply)).pass = m + (left + 1)) r := by
  obtain ⟨hno, hnext⟩ := hend
  rw [cancels_of_last hreply] at h
  rw [hnext, endPass, hpass]
  cases h with
  | done => exact ⟨rfl, .of_ok hno rfl _⟩
  | cancelled => exact ⟨rfl, .of_cancelled hno (by dsimp only; omega)⟩

lemma Passes.of_cancels {reading : Rig.Reading} {left k m : ℕ} {es : List Event}
    {r : Except (Failure Float) (List (ImpedancePoint Float))} (hf : reading.frequency = f)
    (hread : ∀ t, sweep.read f t = reading.point t) (h : Passes sweep reading left c es r)
    (hes : es = pre ++ .poll reply :: post) (hreply : reply.cancels = true)
    (hp : p = (⟨k, m, 0, 0⟩ : Progress).through sweep.config.retry pre) :
    post = [] ∧ p.point = k ∧ Verdict (sweep.Fatal f p reply)
      ((p.next sweep.config.retry (.poll reply)).pass = m + left) r := by
  subst hf
  have hlast {pre post : List Event} {m : ℕ} {r : Except (Failure Float) (Trace Float)}
      (h : Acquires sweep.config.retry reading.frequency 0 0 false (pre ++ .poll reply :: post) r)
      (hp : p = (⟨k, m, 0, 0⟩ : Progress).through sweep.config.retry pre) :
      post = [] ∧ p.point = k ∧ p.pass = m ∧
        Acquires.Ends sweep.config.retry reading.frequency p reply r :=
    hp ▸ h.of_cancels (p := ⟨k, m, 0, 0⟩) hreply
  induction h generalizing pre m with
  | done => simp at hes
  | cancelled => simp at hes
  | stopped h kept =>
    obtain ⟨rfl, hpoint, rfl, hends⟩ := hlast (hes ▸ h) hp
    exact ⟨rfl, hpoint, hends.stopped kept⟩
  | unread h bad =>
    obtain ⟨rfl, hpoint, -, hends⟩ := hlast (hes ▸ h) hp
    exact ⟨rfl, hpoint, hends.unread ((hread _).trans bad)⟩
  | leftOut h hskip rest ih =>
    rcases append_eq_cut hes with ⟨post', rfl, rfl⟩ | ⟨pre', rfl, rfl⟩
    · obtain ⟨rfl, hpoint, hpass, hends⟩ := hlast h hp
      obtain ⟨rfl, hverdict⟩ := rest.of_set hreply hpass (hends.leftOut hskip)
      exact ⟨rfl, hpoint, hverdict⟩
    · obtain ⟨-, _, _, rfl⟩ := hskip
      have hthrough := (h.through (p := ⟨k, m, 0, 0⟩)).resolve_right (by simp)
      rw [through_append, hthrough] at hp
      simpa [Nat.add_assoc, Nat.add_comm 1] using ih rfl hp
  | read h good rest ih =>
    rcases append_eq_cut hes with ⟨post', rfl, rfl⟩ | ⟨pre', rfl, rfl⟩
    · obtain ⟨rfl, hpoint, hpass, hends⟩ := hlast h hp
      obtain ⟨rfl, hverdict⟩ := rest.of_set hreply hpass (hends.read ((hread _).trans good))
      exact ⟨rfl, hpoint, hverdict.map _⟩
    · have hthrough := (h.through (p := ⟨k, m, 0, 0⟩)).resolve_right (by simp)
      rw [through_append, hthrough] at hp
      obtain ⟨rfl, hpoint, hverdict⟩ := ih rfl hp
      refine ⟨rfl, hpoint, (hverdict.map _).congr ?_⟩
      rw [Nat.add_assoc, Nat.add_comm 1]

lemma Measures.of_cancels {es : List Event}
    {r : Except (Failure Float) (Option (FrequencyResult Float))} {p₀ : Progress}
    (h : Measures sweep f c es r) (hes : es = pre ++ .poll reply :: post)
    (hreply : reply.cancels = true) (hp : p = p₀.through sweep.config.retry pre) :
    post = [] ∧ p.point = p₀.point + 1 ∧ Verdict (sweep.Fatal f p reply)
      ((p.next sweep.config.retry (.poll reply)).pass = sweep.passesPerPoint.toNat) r := by
  cases h with
  | unplanned _ h => exact (h.no_poll hes).elim
  | notSetUp _ h => exact (h.no_poll hes).elim
  | passed hplan h rest =>
    rcases append_eq_cut hes with ⟨post', rfl, -⟩ | ⟨pre', rfl, hfs⟩
    · exact (h.no_poll rfl).elim
    · rw [through_append, h.through_setUp] at hp
      obtain ⟨rfl, hpoint, hverdict⟩ := Passes.of_cancels (f := f) rfl
        (fun t => ValidatedSweep.read_eq hplan t) rest hfs hreply (k := p₀.point + 1) (m := 0) hp
      exact ⟨rfl, hpoint, (hverdict.map _).congr (by rw [Nat.zero_add])⟩

/-- Nothing is left to do after this progress. -/
def Progress.Complete (sweep : ValidatedSweep Float) (points : ℕ) (p : Progress) : Prop :=
  p.point = points ∧ p.pass = sweep.passesPerPoint.toNat

lemma Visits.of_cancels {frequencies : List Float} {es : List Event}
    {r : Except (Failure Float) (List (Float × Option (FrequencyResult Float)))} {p₀ : Progress}
    (h : Visits sweep frequencies c es r) (hes : es = pre ++ .poll reply :: post)
    (hreply : reply.cancels = true) (hp : p = p₀.through sweep.config.retry pre) :
    post = [] ∧ ∃ i f, p.point = p₀.point + i + 1 ∧ frequencies[i]? = some f ∧
      Verdict (sweep.Fatal f p reply) ((p.next sweep.config.retry (.poll reply)).Complete sweep
        (p₀.point + frequencies.length)) r := by
  have hnext : (p.next sweep.config.retry (.poll reply)).point = p.point := by
    unfold Progress.next
    dsimp only
    split
    · split <;> rfl
    · rfl
  induction h generalizing pre p₀ with
  | done => simp at hes
  | cancelled => simp at hes
  | @stopped f fs es e h =>
    obtain ⟨rfl, hpoint, hverdict⟩ := h.of_cancels hes hreply hp
    exact ⟨rfl, 0, f, hpoint, rfl, hverdict.of_error fun hc => hc.2⟩
  | @visited f fs es v es' r h rest ih =>
    rcases append_eq_cut hes with ⟨post', rfl, rfl⟩ | ⟨pre', rfl, hes'⟩
    · obtain ⟨rfl, hpoint, hverdict⟩ := h.of_cancels rfl hreply hp
      obtain ⟨hno, hpass⟩ := hverdict.holds_of_ok
      rw [cancels_of_last hreply] at rest
      -- This was the last pass of its point, so all depends on whether there is another point.
      cases rest with
      | done => exact ⟨rfl, 0, f, hpoint, rfl, .of_ok hno ⟨by rw [hnext, hpoint]; rfl, hpass⟩ _⟩
      | cancelled =>
        refine ⟨rfl, 0, f, hpoint, rfl, .of_cancelled hno ?_⟩
        rintro ⟨hpoints, -⟩
        rw [hnext, hpoint, List.length_cons, List.length_cons] at hpoints
        omega
    · rw [through_append, h.through] at hp
      obtain ⟨rfl, i, f', hpoint, hf', hverdict⟩ := ih hes' hp
      dsimp only at hpoint hverdict
      refine ⟨rfl, i + 1, f', by omega, hf', (hverdict.map _).congr ?_⟩
      rw [List.length_cons, Nat.add_assoc, Nat.add_comm 1]

/-- A poll that cancels a sweep is its last call. -/
lemma Sweeps.of_cancels {initialized : Bool} {es : List Event}
    {r : Except (Failure Float) (ResultTable Float)} (h : Sweeps sweep initialized c es r)
    (hes : es = pre ++ .poll reply :: post) (hreply : reply.cancels = true)
    (hp : p = Progress.after sweep.config.retry pre) :
    post = [] ∧ ∃ f, sweep.frequencies[p.point - 1]? = some f ∧
      Verdict (sweep.Fatal f p reply) ((p.next sweep.config.retry (.poll reply)).Complete sweep
        sweep.frequencies.length) r := by
  have hvisits {c : Bool} {pre es : List Event}
      {r : Except (Failure Float) (List (Float × Option (FrequencyResult Float)))}
      (h : Visits sweep sweep.frequencies c es r) (hes : es = pre ++ .poll reply :: post)
      (hp : p = Progress.after sweep.config.retry pre) :
      post = [] ∧ ∃ f, sweep.frequencies[p.point - 1]? = some f ∧
        Verdict (sweep.Fatal f p reply) ((p.next sweep.config.retry (.poll reply)).Complete sweep
          sweep.frequencies.length) (r.map ResultTable.ofVisits) := by
    obtain ⟨rfl, i, f, hpoint, hf, hverdict⟩ := h.of_cancels hes hreply hp
    dsimp only [start] at hpoint hverdict
    rw [Nat.zero_add] at hpoint hverdict
    exact ⟨rfl, f, by rwa [hpoint, Nat.add_sub_cancel], hverdict.map _⟩
  cases h with
  | notReady h => exact (h.no_poll hes).elim
  | ready h => exact hvisits h hes hp
  | fresh h rest =>
    rcases append_eq_cut hes with ⟨post', rfl, -⟩ | ⟨pre', rfl, hfs⟩
    · exact (h.no_poll rfl).elim
    · rw [Progress.after, through_append, h.through_init] at hp
      exact hvisits rest hfs hp

end

end ImpedanceBench

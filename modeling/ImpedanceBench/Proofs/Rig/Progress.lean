import ImpedanceBench.Proofs.Rig.Conduct

/-!
How far a sweep has come, read off the events until then: the point, the pass at that point, and
what the acquisition of that pass has used of its budget. A poll ends its pass unless it is empty
and there is budget left.
-/

namespace ImpedanceBench

structure Progress where
  /-- The points that have begun. -/
  point : ℕ
  /-- The passes at the last of them that have ended. -/
  pass : ℕ
  /-- The empty polls since then, and the milliseconds that they and the waits after them took. -/
  made : ℕ
  elapsed : ℕ

namespace Progress

def start : Progress := ⟨0, 0, 0, 0⟩

/-- Whether an acquisition ends with this poll because its budget is used up. -/
def exhaustedBy (policy : RetryPolicy) (p : Progress) (reply : Reply (Option (Trace Float))) :
    Bool :=
  match reply.outcome with
  | .ok none => policy.exhausted (p.made + 1) (p.elapsed + reply.elapsed)
  | _ => false

def openPoint (p : Progress) : Progress := ⟨p.point + 1, 0, 0, 0⟩

def endPass (p : Progress) (passes : ℕ) : Progress := ⟨p.point, p.pass + passes, 0, 0⟩

/-- After an empty poll that leaves some of the budget. -/
def wait (policy : RetryPolicy) (p : Progress) (took : ℕ) : Progress :=
  ⟨p.point, p.pass, p.made + 1, p.elapsed + took + policy.delay.toNat⟩

def next (policy : RetryPolicy) (p : Progress) : Event → Progress
  | .command (.configureOutput ..) _ => p.openPoint
  | .command .. => p
  | .poll reply => match reply.outcome with
    | .ok none => if p.exhaustedBy policy reply then p.endPass 1 else p.wait policy reply.elapsed
    | _ => p.endPass 1

/-- The progress from `p` on over further events. -/
def through (policy : RetryPolicy) (p : Progress) (es : List Event) : Progress :=
  es.foldl (next policy) p

/-- The progress of a run after its first events. -/
def after (policy : RetryPolicy) (es : List Event) : Progress := start.through policy es

variable {policy : RetryPolicy} {p : Progress}

@[simp] lemma through_nil : p.through policy [] = p := rfl

@[simp] lemma through_cons (e : Event) (es : List Event) :
    p.through policy (e :: es) = (p.next policy e).through policy es := rfl

@[simp] lemma through_append (es fs : List Event) :
    p.through policy (es ++ fs) = (p.through policy es).through policy fs := List.foldl_append

section

variable {reply : Reply (Option (Trace Float))}

lemma next_of_error {e : Failure Float} (h : reply.outcome = .error e) :
    p.next policy (.poll reply) = p.endPass 1 := by simp [next, h]

lemma next_of_trace {t : Trace Float} (h : reply.outcome = .ok (some t)) :
    p.next policy (.poll reply) = p.endPass 1 := by simp [next, h]

lemma exhaustedBy_of_empty (h : reply.outcome = .ok none) : p.exhaustedBy policy reply =
    policy.exhausted (p.made + 1) (p.elapsed + reply.elapsed) := by simp [exhaustedBy, h]

lemma next_of_exhausted (h : p.exhaustedBy policy reply = true) :
    p.next policy (.poll reply) = p.endPass 1 := by
  unfold next
  dsimp only
  split <;> simp [h]

lemma next_of_empty (h : reply.outcome = .ok none) (more : p.exhaustedBy policy reply = false) :
    p.next policy (.poll reply) = p.wait policy reply.elapsed := by simp [next, h, more]

end

/-- Whether a trace was acquired in the pass that ends with this event, if one does. -/
def ending? (policy : RetryPolicy) (p : Progress) : Event → Option Bool
  | .command .. => none
  | .poll reply => match reply.outcome with
    | .error _ => some false
    | .ok (some _) => some true
    | .ok none => if p.exhaustedBy policy reply then some false else none

/-- The passes that end, in their order, each with whether a trace was acquired. -/
def endings (policy : RetryPolicy) (p : Progress) : List Event → List Bool
  | [] => []
  | e :: es => (p.ending? policy e).toList ++ (p.next policy e).endings policy es

lemma endings_append (es fs : List Event) : p.endings policy (es ++ fs) =
    p.endings policy es ++ (p.through policy es).endings policy fs := by
  induction es generalizing p with
  | nil => rfl
  | cons e es ih => simp [endings, ih]

/-- Every trace ends a pass. -/
lemma count_endings (policy : RetryPolicy) (p : Progress) (es : List Event) :
    (p.endings policy es).count true = (History.traces es).length := by
  induction es generalizing p with
  | nil => rfl
  | cons e es ih =>
    rw [endings, List.count_append, ih]
    cases e with
    | command c reply => exact Nat.zero_add _
    | poll reply =>
      rw [History.traces_poll, List.length_append, ending?]
      rcases reply.outcome with _ | _ | t
      · rfl
      · dsimp only
        split <;> rfl
      · rfl

/-- No acquisition has come to an end for lack of budget. -/
def Spared (policy : RetryPolicy) (p : Progress) (es : List Event) : Prop :=
  ∀ pre reply post, es = pre ++ .poll reply :: post →
    (p.through policy pre).exhaustedBy policy reply = false

lemma Spared.of_append {es fs : List Event} (h : Spared policy p (es ++ fs)) :
    Spared policy p es ∧ Spared policy (p.through policy es) fs := by
  constructor
  · rintro pre reply post rfl
    exact h pre reply (post ++ fs) (by simp)
  · rintro pre reply post rfl
    simpa using h (es ++ pre) reply post (by simp)

lemma made_through_le (p : Progress) (es : List Event) :
    (p.through policy es).made ≤ p.made + es.length := by
  induction es generalizing p with
  | nil => simp
  | cons e es ih =>
    have hnext : (p.next policy e).made ≤ p.made + 1 := by
      unfold next
      split
      · simp [openPoint]
      · simp
      · split
        · split <;> simp [endPass, wait]
        · simp [endPass]
    have hrest := ih (p.next policy e)
    simp only [through_cons, List.length_cons]
    omega

/-- Fewer calls than one acquisition may make do not use up its budget. -/
lemma Spared.of_length_lt {es : List Event} (hdeadline : policy.deadline = none)
    (hlen : es.length < policy.budget) : Spared policy start es := by
  rintro pre reply post rfl
  have hmade : (start.through policy pre).made ≤ start.made + pre.length :=
    made_through_le start pre
  have hstart : start.made = 0 := rfl
  simp only [List.length_append, List.length_cons] at hlen
  unfold exhaustedBy
  split
  · simp [RetryPolicy.exhausted, RetryPolicy.expired, hdeadline]
    omega
  · rfl

end Progress

open Progress

variable {policy : RetryPolicy} {p : Progress}

/-- An acquisition that is not cancelled takes up one pass. -/
lemma Acquires.through {f : Float} {c : Bool} {es : List Event}
    {r : Except (Failure Float) (Trace Float)} (h : Acquires policy f p.made p.elapsed c es r) :
    p.through policy es = p.endPass 1 ∨ r = .error .cancelled := by
  generalize hmade : p.made = made at h
  generalize helapsed : p.elapsed = elapsed at h
  induction h generalizing p with
  | cancelled => exact .inr rfl
  | failed h => exact .inl (next_of_error h)
  | triggered h => exact .inl (next_of_trace h)
  | gaveUp h spent =>
    subst hmade helapsed
    exact .inl (next_of_exhausted ((exhaustedBy_of_empty h).trans spent))
  | @again made elapsed reply es r h more _ ih =>
    subst hmade helapsed
    rw [through_cons, next_of_empty h ((exhaustedBy_of_empty h).trans more)]
    exact ih (p := p.wait policy reply.elapsed) rfl rfl

/-- An acquisition that is not cancelled ends one pass. -/
lemma Acquires.endings {f : Float} {c : Bool} {es : List Event}
    {r : Except (Failure Float) (Trace Float)} (h : Acquires policy f p.made p.elapsed c es r)
    (going : c = false) (uncancelled : History.cancels es = false) :
    p.endings policy es = [r.isOk] := by
  generalize hmade : p.made = made at h
  generalize helapsed : p.elapsed = elapsed at h
  induction h generalizing p with
  | cancelled => cases going
  | failed h | triggered h => simp [Progress.endings, ending?, h, Except.isOk, Except.toBool]
  | gaveUp h spent =>
    subst hmade helapsed
    have hspent := (exhaustedBy_of_empty h).trans spent
    simp [Progress.endings, ending?, h, hspent, Except.isOk, Except.toBool]
  | @again made elapsed reply es r h more _ ih =>
    subst hmade helapsed
    have hmore := (exhaustedBy_of_empty h).trans more
    simp only [History.cancels_cons, Bool.or_eq_false_iff] at uncancelled
    have hrest := ih (p := p.wait policy reply.elapsed) uncancelled.1 uncancelled.2 rfl rfl
    simp [Progress.endings, ending?, h, hmore, next_of_empty h hmore, hrest]

lemma Performs.endings {cs : List Command} {es : List Event} {r : Except (Failure Float) Unit}
    (h : Performs cs es r) : p.endings policy es = [] := by
  induction h generalizing p with
  | done => rfl
  | failed => rfl
  | succeeded _ _ ih => simp [Progress.endings, ending?, ih]

/-- The passes of a point take up as many passes as there are. -/
lemma Passes.through {sweep : ValidatedSweep Float} {reading : Rig.Reading} {left k m : ℕ}
    {c : Bool} {es : List Event} {ps : List (ImpedancePoint Float)}
    (h : Passes sweep reading left c es (.ok ps)) :
    (⟨k, m, 0, 0⟩ : Progress).through sweep.config.retry es = ⟨k, m + left, 0, 0⟩ := by
  generalize hr : (Except.ok ps : Except (Failure Float) _) = r at h
  induction h generalizing m ps with
  | done => rfl
  | cancelled | stopped | unread => cases hr
  | leftOut h hskip _ ih =>
    obtain ⟨-, _, _, rfl⟩ := hskip
    have hes := (h.through (p := ⟨k, m, 0, 0⟩)).resolve_right (by simp)
    rw [through_append, hes, endPass, ih hr, Nat.add_right_comm]
    rfl
  | @read left es t p fs r h _ _ ih =>
    rcases r with _ | ps' <;> cases hr
    have hes := (h.through (p := ⟨k, m, 0, 0⟩)).resolve_right (by simp)
    rw [through_append, hes, endPass, ih rfl, Nat.add_right_comm]
    rfl

/-- The set-up of a point opens it. -/
lemma Performs.through_setUp {sweep : ValidatedSweep Float} {f : Float}
    {plan : AcquisitionPlan Float} {es : List Event}
    (h : Performs (sweep.setUp f plan) es (.ok ())) : p.through policy es = p.openPoint := by
  obtain ⟨_, _, rfl, -, h⟩ := h.cons_ok
  obtain ⟨_, _, rfl, -, h⟩ := h.cons_ok
  obtain ⟨_, _, rfl, -, h⟩ := h.cons_ok
  obtain ⟨_, _, rfl, -, h⟩ := h.cons_ok
  obtain rfl := h.nil_ok
  rfl

/-- A point takes up all of its passes. -/
lemma Measures.through {sweep : ValidatedSweep Float} {f : Float} {c : Bool} {es : List Event}
    {v : Option (FrequencyResult Float)} (h : Measures sweep f c es (.ok v)) :
    p.through sweep.config.retry es = ⟨p.point + 1, sweep.passesPerPoint.toNat, 0, 0⟩ := by
  generalize hr : (Except.ok v : Except (Failure Float) _) = r at h
  cases h with
  | @unplanned _ r' => cases r' <;> cases hr
  | notSetUp => cases hr
  | @passed es plan fs r _ hset hpasses =>
    rcases r with _ | ps <;> cases hr
    rw [through_append, hset.through_setUp, openPoint, hpasses.through, Nat.zero_add]

/-- No point begins while the devices are initialized. -/
lemma Performs.through_init {es : List Event} {r : Except (Failure Float) Unit}
    (h : Performs [.initOutput, .initScope] es r) : p.through policy es = p := by
  rcases h with _ | _ | ⟨_, _ | _ | ⟨_, _ | _⟩⟩ <;> rfl

end ImpedanceBench

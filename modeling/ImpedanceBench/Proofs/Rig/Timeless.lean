import ImpedanceBench.Proofs.Rig.Conduct

/-!
What the time of the calls decides. Only a deadline is compared with it, and only after an empty
poll: where there is no deadline to wait for, or no poll is empty, a history keeps to the same rules
when its times are left out.
-/

namespace ImpedanceBench

open History

namespace Reply

variable {β : Type}

/-- The reply as if the call had taken no time. -/
def timeless (reply : Reply β) : Reply β := { reply with elapsed := 0 }

end Reply

namespace Event

def timeless : Event → Event
  | command c reply => command c reply.timeless
  | poll reply => poll reply.timeless

@[simp] lemma call_timeless (e : Event) : e.timeless.call = e.call := by cases e <;> rfl

@[simp] lemma cancels_timeless (e : Event) : e.timeless.cancels = e.cancels := by cases e <;> rfl

@[simp] lemma trace?_timeless (e : Event) : e.timeless.trace? = e.trace? := by cases e <;> rfl

@[simp] lemma opensPoint_timeless (e : Event) : e.timeless.opensPoint = e.opensPoint := by
  simp [opensPoint]

end Event

namespace History

/-- The history without its times. -/
def timeless (es : List Event) : List Event := es.map Event.timeless

@[simp] lemma timeless_append (es fs : List Event) :
    timeless (es ++ fs) = timeless es ++ timeless fs := List.map_append

@[simp] lemma cancels_timeless (es : List Event) : cancels (timeless es) = cancels es := by
  simp [cancels, timeless, Function.comp_def]

@[simp] lemma traces_timeless (es : List Event) : traces (timeless es) = traces es := by
  simp [traces, timeless, List.filterMap_map]

lemma points_timeless (es : List Event) : points (timeless es) = (points es).map timeless := by
  induction es with
  | nil => rfl
  | cons e es ih =>
    have hcons : timeless (e :: es) = e.timeless :: timeless es := rfl
    have hrest : (timeless es).takeWhile (!·.opensPoint) =
        timeless (es.takeWhile (!·.opensPoint)) := by
      simp [timeless, List.takeWhile_map, Function.comp_def]
    rw [hcons, points, points, ih, hrest, Event.opensPoint_timeless]
    split <;> rfl

@[simp] lemma tracesByPoint_timeless (es : List Event) :
    tracesByPoint (timeless es) = tracesByPoint es := by
  simp [tracesByPoint, points_timeless, Function.comp_def]

end History

/-- There is no deadline, or it has passed whenever it is looked at. -/
def RetryPolicy.Timeless (policy : RetryPolicy) : Prop :=
  policy.deadline = none ∨ policy.deadline = some 0

namespace RetryPolicy.Timeless

variable {policy : RetryPolicy}

lemma exhausted_eq (h : policy.Timeless) (made elapsed elapsed' : ℕ) :
    policy.exhausted made elapsed = policy.exhausted made elapsed' := by
  rcases h with h | h <;> simp [exhausted, expired, h]

end RetryPolicy.Timeless

/-- The time is not looked at in this history, or it does not matter. -/
def History.Unhurried (policy : RetryPolicy) (es : List Event) : Prop :=
  ∀ reply, .poll reply ∈ es → reply.outcome = .ok none → policy.Timeless

namespace History.Unhurried

variable {policy : RetryPolicy} {es fs : List Event} {e : Event}

lemma of_append_left (h : Unhurried policy (es ++ fs)) : Unhurried policy es :=
  fun reply hreply => h reply (List.mem_append_left fs hreply)

lemma of_append_right (h : Unhurried policy (es ++ fs)) : Unhurried policy fs :=
  fun reply hreply => h reply (List.mem_append_right es hreply)

lemma tail (h : Unhurried policy (e :: es)) : Unhurried policy es :=
  fun reply hreply => h reply (List.mem_cons_of_mem e hreply)

end History.Unhurried

section

variable {sweep : ValidatedSweep Float} {f : Float} {c : Bool} {es : List Event}

lemma Performs.timeless {cs : List Command} {r : Except (Failure Float) Unit}
    (h : Performs cs es r) : Performs cs (timeless es) r := by
  induction h with
  | done => exact .done
  | failed ho => exact .failed ho
  | succeeded ho _ ih => exact .succeeded ho ih

lemma Acquires.timeless {policy : RetryPolicy} {made elapsed : ℕ}
    {r : Except (Failure Float) (Trace Float)} (h : Acquires policy f made elapsed c es r)
    (unhurried : Unhurried policy es) (elapsed' : ℕ) :
    Acquires policy f made elapsed' c (timeless es) r := by
  induction h generalizing elapsed' with
  | cancelled => exact .cancelled
  | failed ho => exact .failed ho
  | triggered ho => exact .triggered ho
  | gaveUp ho spent =>
    have htime := unhurried _ List.mem_cons_self ho
    exact .gaveUp ho ((htime.exhausted_eq _ _ _).trans spent)
  | again ho more _ ih =>
    have htime := unhurried _ List.mem_cons_self ho
    exact .again ho ((htime.exhausted_eq _ _ _).trans more) (ih unhurried.tail _)

lemma Passes.timeless {reading : Rig.Reading} {left : ℕ}
    {r : Except (Failure Float) (List (ImpedancePoint Float))}
    (h : Passes sweep reading left c es r) (unhurried : Unhurried sweep.config.retry es) :
    Passes sweep reading left c (timeless es) r := by
  induction h with
  | done => exact .done
  | cancelled => exact .cancelled
  | stopped h kept => exact .stopped (h.timeless unhurried 0) kept
  | unread h bad => exact .unread (h.timeless unhurried 0) bad
  | leftOut h skipped _ ih =>
    have hrest := ih unhurried.of_append_right
    rw [timeless_append]
    rw [← cancels_timeless] at hrest
    exact .leftOut (h.timeless unhurried.of_append_left 0) skipped hrest
  | read h good _ ih =>
    have hrest := ih unhurried.of_append_right
    rw [timeless_append]
    rw [← cancels_timeless] at hrest
    exact .read (h.timeless unhurried.of_append_left 0) good hrest

lemma Measures.timeless {r : Except (Failure Float) (Option (FrequencyResult Float))}
    (h : Measures sweep f c es r) (unhurried : Unhurried sweep.config.retry es) :
    Measures sweep f c (timeless es) r := by
  cases h with
  | unplanned bad h => exact .unplanned bad h.timeless
  | notSetUp good h => exact .notSetUp good h.timeless
  | passed good h rest =>
    have hrest := rest.timeless unhurried.of_append_right
    rw [timeless_append]
    rw [← cancels_timeless] at hrest
    exact .passed good h.timeless hrest

lemma Visits.timeless {frequencies : List Float}
    {r : Except (Failure Float) (List (Float × Option (FrequencyResult Float)))}
    (h : Visits sweep frequencies c es r) (unhurried : Unhurried sweep.config.retry es) :
    Visits sweep frequencies c (timeless es) r := by
  induction h with
  | done => exact .done
  | cancelled => exact .cancelled
  | stopped h => exact .stopped (h.timeless unhurried)
  | visited h _ ih =>
    have hrest := ih unhurried.of_append_right
    rw [timeless_append]
    rw [← cancels_timeless] at hrest
    exact .visited (h.timeless unhurried.of_append_left) hrest

/-- **Times without a deadline do not matter.** -/
lemma Sweeps.timeless {initialized : Bool} {r : Except (Failure Float) (ResultTable Float)}
    (h : Sweeps sweep initialized c es r) (unhurried : Unhurried sweep.config.retry es) :
    Sweeps sweep initialized c (timeless es) r := by
  cases h with
  | notReady h => exact .notReady h.timeless
  | ready h => exact .ready (h.timeless unhurried)
  | fresh h rest =>
    have hrest := rest.timeless unhurried.of_append_right
    rw [timeless_append]
    rw [← cancels_timeless] at hrest
    exact .fresh h.timeless hrest

end

end ImpedanceBench

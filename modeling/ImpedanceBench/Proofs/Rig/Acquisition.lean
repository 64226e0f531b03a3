import Mathlib.Data.ENat.Lattice
import Mathlib.Tactic.ENatToNat
import ImpedanceBench.Proofs.Rig.Evolution
import ImpedanceBench.Rig.Script

/-!
One acquisition, on any devices. Three numbers settle it: the polls that the budget allows, the
first poll during which the run is cancelled, and the first one that is answered by a trace or a
failure. The least of them is where the acquisition ends. Of equal ones an answer counts before all,
and the budget before a cancellation.
-/

namespace ImpedanceBench

/-- The reply is a trace or a failure. -/
def Reply.answers (reply : Reply (Option (Trace Float))) : Bool :=
  match reply.outcome with
  | .ok none => false
  | _ => true

lemma Reply.answers_of_empty {reply : Reply (Option (Trace Float))} (h : reply.outcome = .ok none) :
    reply.answers = false := by simp [answers, h]

lemma Reply.answers_of_map {reply : Reply (Option (Trace Float))}
    {r : Except (Failure Float) (Trace Float)} (h : reply.outcome = r.map some) :
    reply.answers = true := by cases r <;> simp [answers, h, Except.map]

namespace Rig

variable {σ : Type} (rig : Rig σ)

/-- The devices after some polls. -/
def polled (d : σ) (n : ℕ) : σ := (fun d => (rig.poll d).2)^[n] d

/-- The reply to the poll that comes after `n` others. -/
def reply (d : σ) (n : ℕ) : Reply (Option (Trace Float)) := (rig.poll (rig.polled d n)).1

/-- The session after some polls. -/
def after (s : Session σ) (n : ℕ) : Session σ :=
  { s with
    devices := rig.polled s.devices n
    cancelled := s.cancelled || (List.range n).any fun i => (rig.reply s.devices i).cancels
    calls := List.replicate n .poll ++ s.calls }

/-- The milliseconds until the reply to the poll that comes after `n` others, with the waits between
the polls. -/
def clock (policy : RetryPolicy) : σ → ℕ → ℕ
  | d, 0 => (rig.poll d).1.elapsed
  | d, n + 1 => (rig.poll d).1.elapsed + policy.delay.toNat + clock policy (rig.poll d).2 n

open Classical in
/-- The number of the first poll with such a reply, counted from one; infinite if there is none. -/
noncomputable def firstPoll (p : Reply (Option (Trace Float)) → Bool) (d : σ) : ℕ∞ :=
  if h : ∃ n, p (rig.reply d n) = true then ((Nat.find h + 1 : ℕ) : ℕ∞) else ⊤

/-- The number of the poll during which the run is cancelled, 0 if it was before. -/
noncomputable def cancelledAt (s : Session σ) : ℕ∞ :=
  if s.cancelled then 0 else rig.firstPoll Reply.cancels s.devices

/-- The number of the first poll that gives a trace or fails. -/
noncomputable def answeredAt (s : Session σ) : ℕ∞ := rig.firstPoll Reply.answers s.devices

/-- The deadline, if there is one, is not reached by any poll that the budget allows. -/
def Timely (policy : RetryPolicy) (d : σ) : Prop :=
  ∀ n < policy.budget, policy.expired (rig.clock policy d n) = false

/-- How an acquisition goes that may poll `budget` times, after some polls that it has made. -/
structure Settles (frequency : Float) (made budget : ℕ) (s : Session σ)
    (run : Except (Failure Float) (Trace Float) × Session σ) : Prop where
  cancelled : rig.cancelledAt s = 0 → run = (.error .cancelled, s)
  /-- The trace or the failure of a poll is never dropped, even if the poll cancels the run. -/
  answered : rig.cancelledAt s ≠ 0 → rig.answeredAt s ≤ min ↑budget (rig.cancelledAt s) →
    ∃ (n : ℕ) (r : Except (Failure Float) (Trace Float)), rig.answeredAt s = ↑(n + 1) ∧
      (rig.reply s.devices n).outcome = r.map some ∧ run = (r, rig.after s (n + 1))
  interrupted : rig.cancelledAt s ≠ 0 → min ↑budget (rig.cancelledAt s) < rig.answeredAt s →
    rig.cancelledAt s < budget →
      ∃ n : ℕ, rig.cancelledAt s = n ∧ run = (.error .cancelled, rig.after s n)
  exhausted : rig.cancelledAt s ≠ 0 → min ↑budget (rig.cancelledAt s) < rig.answeredAt s →
    budget ≤ rig.cancelledAt s → run = (.error (.acquisitionTimeout frequency (made + budget)),
      { rig.after s budget with warnings := .notTriggered frequency :: s.warnings })

variable {rig}

section

variable {p : Reply (Option (Trace Float)) → Bool} {d : σ}

/-- The first poll is the one before which there is none. -/
lemma firstPoll_eq {n : ℕ} (h : p (rig.reply d n) = true)
    (before : ∀ i < n, p (rig.reply d i) = false) : rig.firstPoll p d = ↑(n + 1) := by
  have hex : ∃ n, p (rig.reply d n) = true := ⟨n, h⟩
  rw [firstPoll, dif_pos hex]
  congr
  rw [Nat.find_eq_iff]
  exact ⟨h, fun i hi => by simp [before i hi]⟩

lemma firstPoll_of_true (h : p (rig.poll d).1 = true) : rig.firstPoll p d = 1 :=
  firstPoll_eq (n := 0) h (by simp)

lemma firstPoll_of_false (h : p (rig.poll d).1 = false) :
    rig.firstPoll p d = rig.firstPoll p (rig.poll d).2 + 1 := by
  have hzero : ¬ p (rig.reply d 0) = true := by
    change ¬ p (rig.poll d).1 = true
    simp [h]
  by_cases hrest : ∃ n, p (rig.reply (rig.poll d).2 n) = true
  · have hall : ∃ n, p (rig.reply d n) = true := ⟨hrest.choose + 1, hrest.choose_spec⟩
    rw [firstPoll, firstPoll, dif_pos hall, dif_pos hrest, Nat.find_comp_succ hall hrest hzero]
    rfl
  · have hnone : ¬ ∃ n, p (rig.reply d n) = true := by
      rintro ⟨_ | n, hn⟩
      · exact hzero hn
      · exact hrest ⟨n, hn⟩
    rw [firstPoll, firstPoll, dif_neg hnone, dif_neg hrest]
    rfl

lemma firstPoll_ne_zero : rig.firstPoll p d ≠ 0 := by
  unfold firstPoll
  split
  · exact Nat.cast_ne_zero.2 (Nat.succ_ne_zero _)
  · exact ENat.top_ne_zero

end

variable {s : Session σ} {policy : RetryPolicy} {frequency : Float} {left made budget elapsed : ℕ}
  {run : Except (Failure Float) (Trace Float) × Session σ}

lemma after_one (rig : Rig σ) (s : Session σ) :
    rig.after s 1 = s.afterCall .poll (rig.poll s.devices).2 (rig.poll s.devices).1.cancels := by
  simp [after, Session.afterCall, polled, reply]

/-- One poll and then some more. -/
lemma after_succ (rig : Rig σ) (s : Session σ) (n : ℕ) :
    rig.after (rig.after s 1) n = rig.after s (n + 1) := by
  have hreplies : (List.range (n + 1)).any (fun i => (rig.reply s.devices i).cancels) =
      ((rig.reply s.devices 0).cancels ||
        (List.range n).any fun i => (rig.reply s.devices (i + 1)).cancels) := by
    rw [List.range_succ_eq_map, List.any_cons, List.any_map]
    rfl
  have hcalls : List.replicate n Call.poll ++ .poll :: s.calls =
      .poll :: (List.replicate n .poll ++ s.calls) := by
    rw [List.append_cons, ← List.replicate_succ', List.replicate_succ, List.cons_append]
  simp only [after, hreplies, List.replicate_succ, List.cons_append, List.replicate_zero,
    List.nil_append, hcalls, List.range_one, List.any_cons, List.any_nil, Bool.or_false,
    Bool.or_assoc]
  rfl

lemma cancelledAt_succ (h : s.cancelled = false) :
    rig.cancelledAt s = rig.cancelledAt (rig.after s 1) + 1 := by
  rw [cancelledAt, cancelledAt, if_neg (by simp [h]), after_one]
  cases hc : (rig.poll s.devices).1.cancels
  · rw [firstPoll_of_false hc, if_neg (by simp [Session.afterCall, h])]
    rfl
  · rw [firstPoll_of_true hc, if_pos (by simp [Session.afterCall])]
    rfl

lemma answeredAt_succ (h : (rig.poll s.devices).1.outcome = .ok none) :
    rig.answeredAt s = rig.answeredAt (rig.after s 1) + 1 :=
  firstPoll_of_false (Reply.answers_of_empty h)

lemma cancelledAt_ne_zero (h : s.cancelled = false) : rig.cancelledAt s ≠ 0 := by
  rw [cancelledAt, if_neg (by simp [h])]
  exact firstPoll_ne_zero

/-! One poll of an acquisition. -/

lemma run_attempt_of_cancelled (h : s.cancelled = true) :
    (rig.attempt policy frequency left made elapsed).run.run s = (.error .cancelled, s) := by
  unfold attempt
  rw [run_bind, run_checkCancelled, if_pos h]

lemma run_attempt_of_answer {r : Except (Failure Float) (Trace Float)} (h : s.cancelled = false)
    (answer : (rig.poll s.devices).1.outcome = r.map some) :
    (rig.attempt policy frequency left made elapsed).run.run s = (r, rig.after s 1) := by
  unfold attempt
  rw [run_bind, run_checkCancelled, if_neg (by simp [h]), after_one]
  dsimp only
  rw [run_bind, run_pollOnce, answer]
  cases r <;> rfl

lemma run_giveUp (s : Session σ) : (giveUp frequency made).run.run s =
    (.error (.acquisitionTimeout frequency made),
      { s with warnings := .notTriggered frequency :: s.warnings }) := rfl

/-- After an empty poll the acquisition is given up or goes on. -/
lemma run_attempt_of_empty (h : s.cancelled = false)
    (empty : (rig.poll s.devices).1.outcome = .ok none) :
    (rig.attempt policy frequency left made elapsed).run.run s =
      if left = 0 ∨ policy.expired (elapsed + (rig.poll s.devices).1.elapsed) = true then
        (.error (.acquisitionTimeout frequency (made + 1)),
          { rig.after s 1 with warnings := .notTriggered frequency :: s.warnings })
      else (rig.attempt policy frequency (left - 1) (made + 1)
        (elapsed + (rig.poll s.devices).1.elapsed + policy.delay.toNat)).run.run
          (rig.after s 1) := by
  rw [attempt.eq_def, run_bind, run_checkCancelled, if_neg (by simp [h]), after_one]
  dsimp only
  rw [run_bind, run_pollOnce, empty]
  cases left with
  | zero => exact run_giveUp _
  | succ left =>
    simp only [Except.map, Nat.succ_ne_zero, false_or, Nat.add_sub_cancel]
    split
    · exact run_giveUp _
    · rfl

/-! What one poll settles, and what it leaves to the others. -/

namespace Settles

lemma of_cancelled (h : s.cancelled = true) :
    rig.Settles frequency made budget s (.error .cancelled, s) := by
  have hzero : rig.cancelledAt s = 0 := if_pos h
  exact ⟨fun _ => rfl, fun hne => absurd hzero hne, fun hne => absurd hzero hne,
    fun hne => absurd hzero hne⟩

lemma of_answer {r : Except (Failure Float) (Trace Float)} (h : s.cancelled = false)
    (answer : (rig.poll s.devices).1.outcome = r.map some) (hbudget : 1 ≤ budget) :
    rig.Settles frequency made budget s (r, rig.after s 1) := by
  have hne : rig.cancelledAt s ≠ 0 := cancelledAt_ne_zero h
  have hone : rig.answeredAt s = 1 := firstPoll_of_true (Reply.answers_of_map answer)
  have hfirst : ¬ min ↑budget (rig.cancelledAt s) < rig.answeredAt s := by
    rw [hone, not_lt]
    exact le_min (by exact_mod_cast hbudget) (Order.one_le_iff_ne_zero.2 hne)
  exact ⟨fun hzero => absurd hzero hne, fun _ _ => ⟨0, r, hone, answer, rfl⟩,
    fun _ hlate => absurd hlate hfirst, fun _ hlate => absurd hlate hfirst⟩

lemma of_spent (h : s.cancelled = false) (empty : (rig.poll s.devices).1.outcome = .ok none) :
    rig.Settles frequency made 1 s (.error (.acquisitionTimeout frequency (made + 1)),
      { rig.after s 1 with warnings := .notTriggered frequency :: s.warnings }) := by
  have hne : rig.cancelledAt s ≠ 0 := cancelledAt_ne_zero h
  have hanswer := answeredAt_succ empty
  have hnext : rig.answeredAt (rig.after s 1) ≠ 0 := firstPoll_ne_zero
  refine ⟨fun hzero => absurd hzero hne, fun _ hle => ?_, fun _ _ hlt => ?_, fun _ _ _ => rfl⟩
  · rw [hanswer] at hle
    generalize rig.answeredAt (rig.after s 1) = j at *
    have hj : j + 1 ≤ 1 := le_trans hle (min_le_left _ _)
    enat_to_nat
    omega
  · generalize rig.cancelledAt s = c at *
    enat_to_nat
    omega

/-- An empty poll moves everything by one. -/
lemma of_rest (h : s.cancelled = false) (empty : (rig.poll s.devices).1.outcome = .ok none)
    (hbudget : 1 ≤ budget) (rest : rig.Settles frequency (made + 1) budget (rig.after s 1) run) :
    rig.Settles frequency made (budget + 1) s run := by
  have hcancel : rig.cancelledAt s = rig.cancelledAt (rig.after s 1) + 1 := cancelledAt_succ h
  have hanswer := answeredAt_succ empty
  have hpos : rig.answeredAt (rig.after s 1) ≠ 0 := firstPoll_ne_zero
  have hcount : made + 1 + budget = made + (budget + 1) := by omega
  obtain ⟨hcancelled, hanswered, hinterrupted, hexhausted⟩ := rest
  rw [hcount] at hexhausted
  simp only [after_succ] at hanswered hinterrupted hexhausted
  have hmin : min ↑(budget + 1) (rig.cancelledAt s) =
      min ↑budget (rig.cancelledAt (rig.after s 1)) + 1 := by
    rw [hcancel, ← min_add_add_right, Nat.cast_succ]
  have hone : (1 : ℕ∞) ≠ ⊤ := ENat.one_ne_top
  refine ⟨fun hzero => ?_, fun _ hle => ?_, fun _ hlate hlt => ?_, fun _ hlate hle => ?_⟩
  · exact absurd hzero (cancelledAt_ne_zero h)
  · rw [hanswer, hmin, ENat.add_le_add_iff_right hone] at hle
    have hnext : rig.cancelledAt (rig.after s 1) ≠ 0 := fun hzero =>
      hpos (le_zero_iff.1 (hzero ▸ le_trans hle (min_le_right _ _)))
    obtain ⟨n, r, hn, ho, hrun⟩ := hanswered hnext hle
    exact ⟨n + 1, r, by rw [hanswer, hn]; rfl, ho, hrun⟩
  · rw [hanswer, hmin, ENat.add_lt_add_iff_right hone] at hlate
    rw [hcancel, Nat.cast_succ, ENat.add_lt_add_iff_right hone] at hlt
    by_cases hnext : rig.cancelledAt (rig.after s 1) = 0
    · exact ⟨1, by rw [hcancel, hnext]; rfl, hcancelled hnext⟩
    · obtain ⟨n, hn, hrun⟩ := hinterrupted hnext hlate hlt
      exact ⟨n + 1, by rw [hcancel, hn]; rfl, hrun⟩
  · rw [hanswer, hmin, ENat.add_lt_add_iff_right hone] at hlate
    rw [hcancel, Nat.cast_succ, ENat.add_le_add_iff_right hone] at hle
    have hnext : rig.cancelledAt (rig.after s 1) ≠ 0 := fun hzero => by
      rw [hzero, le_zero_iff, Nat.cast_eq_zero] at hle
      omega
    exact hexhausted hnext hlate hle

end Settles

/-- Only an empty poll leaves anything open. -/
lemma attempt_cases {P : Except (Failure Float) (Trace Float) × Session σ → Prop}
    (hcancelled : s.cancelled = true → P (.error .cancelled, s))
    (hanswer : ∀ r : Except (Failure Float) (Trace Float), s.cancelled = false →
      (rig.poll s.devices).1.outcome = r.map some → P (r, rig.after s 1))
    (hempty : s.cancelled = false → (rig.poll s.devices).1.outcome = .ok none →
      P ((rig.attempt policy frequency left made elapsed).run.run s)) :
    P ((rig.attempt policy frequency left made elapsed).run.run s) := by
  cases h : s.cancelled with
  | true =>
    rw [run_attempt_of_cancelled h]
    exact hcancelled h
  | false =>
    rcases ho : (rig.poll s.devices).1.outcome with e | _ | t
    · rw [run_attempt_of_answer (r := .error e) h ho]
      exact hanswer _ h ho
    · exact hempty h ho
    · rw [run_attempt_of_answer (r := .ok t) h ho]
      exact hanswer _ h ho

/-- The polls that are left settle an acquisition, as long as there is time. -/
lemma settles_attempt (policy : RetryPolicy) (frequency : Float) (left made elapsed : ℕ)
    (s : Session σ)
    (timely : ∀ n ≤ left, policy.expired (elapsed + rig.clock policy s.devices n) = false) :
    rig.Settles frequency made (left + 1) s
      ((rig.attempt policy frequency left made elapsed).run.run s) := by
  have hbudget (n : ℕ) : 1 ≤ n + 1 := Nat.le_add_left 1 n
  induction left generalizing made elapsed s with
  | zero =>
    refine attempt_cases .of_cancelled (fun r h ho => .of_answer h ho (hbudget 0)) fun h empty => ?_
    rw [run_attempt_of_empty h empty, if_pos (.inl rfl)]
    exact .of_spent h empty
  | succ left ih =>
    refine attempt_cases .of_cancelled (fun r h ho => .of_answer h ho (hbudget _)) fun h empty => ?_
    have hfirst : policy.expired (elapsed + (rig.poll s.devices).1.elapsed) = false :=
      timely 0 (Nat.zero_le _)
    rw [run_attempt_of_empty h empty, if_neg (by simp [hfirst])]
    refine .of_rest h empty (hbudget left) (ih _ _ _ fun n hn => ?_)
    have hnext := timely (n + 1) (Nat.succ_le_succ hn)
    rw [clock, ← Nat.add_assoc, ← Nat.add_assoc] at hnext
    exact hnext

/-- With or without time: the polls stay within the budget, and only an acquisition that gives up
adds a warning. It reports how often it polled. -/
def Counts (frequency : Float) (made budget : ℕ) (s : Session σ)
    (run : Except (Failure Float) (Trace Float) × Session σ) : Prop :=
  ∃ polls ≤ budget, run.2.calls = List.replicate polls .poll ++ s.calls ∧
    (run.2.warnings = s.warnings ∨
      run.1 = .error (.acquisitionTimeout frequency (made + polls)) ∧
        run.2.warnings = .notTriggered frequency :: s.warnings)

lemma counts_attempt (rig : Rig σ) (policy : RetryPolicy) (frequency : Float)
    (left made elapsed : ℕ) (s : Session σ) : Counts frequency made (left + 1) s
      ((rig.attempt policy frequency left made elapsed).run.run s) := by
  induction left generalizing made elapsed s with
  | zero =>
    refine attempt_cases (fun _ => ⟨0, by omega, rfl, .inl rfl⟩)
      (fun r _ _ => ⟨1, le_rfl, rfl, .inl rfl⟩) fun h empty => ?_
    rw [run_attempt_of_empty h empty, if_pos (.inl rfl)]
    exact ⟨1, le_rfl, rfl, .inr ⟨rfl, rfl⟩⟩
  | succ left ih =>
    refine attempt_cases (fun _ => ⟨0, by omega, rfl, .inl rfl⟩)
      (fun r _ _ => ⟨1, by omega, rfl, .inl rfl⟩) fun h empty => ?_
    rw [run_attempt_of_empty h empty]
    split
    · exact ⟨1, by omega, rfl, .inr ⟨rfl, rfl⟩⟩
    · obtain ⟨n, hle, hcalls, hwarnings⟩ := ih (made + 1)
        (elapsed + (rig.poll s.devices).1.elapsed + policy.delay.toNat) (rig.after s 1)
      refine ⟨n + 1, by omega, ?_, ?_⟩
      · rw [Nat.add_sub_cancel, hcalls, List.replicate_succ', List.append_assoc]
        rfl
      · rwa [Nat.add_sub_cancel, Nat.add_comm n, ← Nat.add_assoc]

/-- Without any time a poll is all that there is. -/
lemma acquire_of_no_time (hdeadline : policy.deadline = some 0) (s : Session σ) :
    (rig.acquire policy frequency).run.run s =
      (rig.acquire { policy with maxAttempts := 1, deadline := none } frequency).run.run s := by
  have hexpired (e : ℕ) : policy.expired e = true := by simp [RetryPolicy.expired, hdeadline]
  unfold acquire
  refine attempt_cases (fun h => ?_) (fun r h ho => ?_) fun h empty => ?_
  · rw [run_attempt_of_cancelled h]
  · rw [run_attempt_of_answer h ho]
  · rw [run_attempt_of_empty h empty, run_attempt_of_empty h empty, if_pos (.inr (hexpired _)),
      if_pos (.inl rfl)]

/-- **An acquisition is settled by its first polls.** In time it ends as the budget, the first
cancellation and the first answer have it. Without time it is one of a single attempt. In any case
the attempts fit a word of 32 bits. -/
theorem acquire_settled (rig : Rig σ) (policy : RetryPolicy) (frequency : Float) (s : Session σ) :
    (rig.Timely policy s.devices → rig.Settles frequency 0 policy.budget s
      ((rig.acquire policy frequency).run.run s)) ∧
    (policy.deadline = some 0 → (rig.acquire policy frequency).run.run s =
      (rig.acquire { policy with maxAttempts := 1, deadline := none } frequency).run.run s) ∧
    policy.budget = max policy.maxAttempts.toNat 1 ∧ policy.budget < UInt32.size ∧
    Counts frequency 0 policy.budget s ((rig.acquire policy frequency).run.run s) := by
  have hbudget : policy.budget - 1 + 1 = policy.budget := Nat.sub_add_cancel (Nat.le_max_right _ _)
  have hsize : policy.budget < UInt32.size := max_lt policy.maxAttempts.toNat_lt (by decide)
  refine ⟨fun timely => ?_, fun hdeadline => acquire_of_no_time hdeadline s, rfl, hsize, ?_⟩
  · have hleft := settles_attempt policy frequency (policy.budget - 1) 0 0 s fun n hn => by
      rw [Nat.zero_add]
      exact timely n (by omega)
    rwa [hbudget] at hleft
  · have hcounts := rig.counts_attempt policy frequency (policy.budget - 1) 0 0 s
    rwa [hbudget] at hcounts

end Rig

/-- One empty poll, and then a trace during whose poll the run is cancelled. -/
def Script.late : Script :=
  ⟨[⟨.ok none, false, 5⟩, ⟨.ok (some ⟨[]⟩), true, 5⟩], fun _ => none⟩

/-- The trace is kept with ten minutes of time, and not waited for without any. -/
theorem Rig.acquire_settled_late :
    Script.rig.Timely ⟨3, 1, some 600000⟩ .late ∧
    (Script.rig.acquire ⟨3, 1, some 600000⟩ 50.0).run.run (.start .late) =
      (.ok ⟨[]⟩, Script.rig.after (.start .late) 2) ∧
    (Script.rig.after (.start .late) 2).cancelled = true ∧
    ((Script.rig.acquire ⟨9, 1, some 0⟩ 50.0).run.run (.start .late)).1 =
      .error (.acquisitionTimeout 50.0 1) := by
  have htimely : Script.rig.Timely ⟨3, 1, some 600000⟩ .late := by
    unfold Rig.Timely
    decide
  have hanswered : Script.rig.answeredAt (.start .late) = ((1 + 1 : ℕ) : ℕ∞) :=
    Rig.firstPoll_eq rfl (by decide)
  have hcancelled : Script.rig.cancelledAt (.start .late) = ((1 + 1 : ℕ) : ℕ∞) :=
    Rig.firstPoll_eq rfl (by decide)
  obtain ⟨hsettles, -, -⟩ := Script.rig.acquire_settled ⟨3, 1, some 600000⟩ 50.0 (.start .late)
  obtain ⟨-, hno, -⟩ := Script.rig.acquire_settled ⟨9, 1, some 0⟩ 50.0 (.start .late)
  obtain ⟨n, r, hn, ho, hrun⟩ := (hsettles htimely).answered
    (by rw [hcancelled]; exact Nat.cast_ne_zero.2 (by decide))
    (by rw [hanswered, hcancelled]; exact le_min (Nat.cast_le.2 (by decide)) le_rfl)
  obtain rfl : n = 1 := by
    rw [hanswered, Nat.cast_inj] at hn
    omega
  have hr : r = .ok ⟨[]⟩ := by
    rcases r with e | t <;> cases ho
    rfl
  refine ⟨htimely, hr ▸ hrun, rfl, ?_⟩
  rw [hno rfl, Rig.acquire, Rig.run_attempt_of_empty rfl rfl, if_pos (.inl rfl)]

end ImpedanceBench

import Mathlib.Algebra.Order.Floor.Div
import Mathlib.Data.List.Range
import Mathlib.Tactic.Lemma
import ImpedanceBench.Rig.Polling

/-!
The budget of an acquisition against the empty polls before a trigger. The polls are counted through
all the passes, a pass counts its own from the start: so every so many passes one gets a trace.
-/

namespace ImpedanceBench

/-- How many passes it takes from one trace to the next, when each trigger is preceded by a number
of empty polls. -/
def RetryPolicy.period (policy : RetryPolicy) (polls : ℕ) : ℕ := (polls + 1) ⌈/⌉ policy.budget

namespace RetryPolicy

variable (policy : RetryPolicy) (polls : ℕ)

lemma budget_pos : 0 < policy.budget := Nat.lt_of_lt_of_le Nat.one_pos (Nat.le_max_right _ _)

lemma period_eq : policy.period polls = polls / policy.budget + 1 := by
  rw [period, Nat.ceilDiv_eq_add_pred_div, ← Nat.add_div_right _ policy.budget_pos]
  congr 1
  omega

/-- The empty polls that are still to come before pass number `i`. -/
def pendingAt (i : ℕ) : ℕ :=
  (polls / policy.budget - i % policy.period polls) * policy.budget + polls % policy.budget

lemma pendingAt_of_mod_eq_zero {i : ℕ} (h : i % policy.period polls = 0) :
    policy.pendingAt polls i = polls := by
  rw [pendingAt, h, Nat.sub_zero]
  exact Nat.div_add_mod' polls policy.budget

lemma mod_period_le (i : ℕ) : i % policy.period polls ≤ polls / policy.budget := by
  rw [period_eq]
  exact Nat.le_of_lt_succ (Nat.mod_lt i (Nat.succ_pos _))

lemma succ_mod_period_eq_zero_iff (i : ℕ) :
    (i + 1) % policy.period polls = 0 ↔ i % policy.period polls = polls / policy.budget := by
  rw [period_eq]
  exact Nat.succ_mod_succ_eq_zero_iff

/-- A pass gets a trace exactly when the next one starts to count from the beginning. -/
lemma pendingAt_lt_iff (i : ℕ) :
    policy.pendingAt polls i < policy.budget ↔ (i + 1) % policy.period polls = 0 := by
  have hle := policy.mod_period_le polls i
  have hrest := Nat.mod_lt polls policy.budget_pos
  rw [succ_mod_period_eq_zero_iff, pendingAt]
  constructor
  · intro hlt
    by_contra hne
    have hone : 1 ≤ polls / policy.budget - i % policy.period polls := by omega
    have hbudget := Nat.mul_le_mul_right policy.budget hone
    omega
  · intro heq
    simpa [heq] using hrest

/-- A pass without a trace uses up its whole budget. -/
lemma pendingAt_succ {i : ℕ} (h : (i + 1) % policy.period polls ≠ 0) :
    policy.pendingAt polls (i + 1) = policy.pendingAt polls i - policy.budget := by
  have hlt : i % policy.period polls < polls / policy.budget :=
    Nat.lt_of_le_of_ne (policy.mod_period_le polls i)
      ((policy.succ_mod_period_eq_zero_iff polls i).not.1 h)
  have hsmall : i % policy.period polls + 1 < policy.period polls := by
    rw [period_eq] at hlt ⊢
    omega
  have hnext : (i + 1) % policy.period polls = i % policy.period polls + 1 :=
    calc (i + 1) % policy.period polls
        = (policy.period polls * (i / policy.period polls) + (i % policy.period polls + 1)) %
            policy.period polls := by rw [← Nat.add_assoc, Nat.div_add_mod]
      _ = i % policy.period polls + 1 := by rw [Nat.mul_add_mod, Nat.mod_eq_of_lt hsmall]
  have hsplit : polls / policy.budget - i % policy.period polls =
      polls / policy.budget - (i % policy.period polls + 1) + 1 := by omega
  rw [pendingAt, pendingAt, hnext, hsplit, Nat.add_mul]
  omega

end RetryPolicy

/-- Which of `n` passes from number `i` on get a trace, when every pass whose number is a multiple
of `q`, counted from one, does. -/
def everyNth (q i n : ℕ) : List Bool := (List.range' i n).map fun k => (k + 1) % q == 0

@[simp] lemma length_everyNth (q i n : ℕ) : (everyNth q i n).length = n := by simp [everyNth]

lemma eq_of_getElem?_everyNth {q i n j : ℕ} {b : Bool} (h : (everyNth q i n)[j]? = some b) :
    b = ((i + j + 1) % q == 0) := by
  rw [everyNth, List.getElem?_map, Option.map_eq_some_iff] at h
  obtain ⟨k, hk, rfl⟩ := h
  obtain ⟨-, rfl⟩ := List.getElem?_eq_some_iff.1 hk
  rw [List.getElem_range', Nat.one_mul]

lemma everyNth_add (q i m n : ℕ) :
    everyNth q i (m + n) = everyNth q i m ++ everyNth q (i + m) n := by
  rw [everyNth, ← List.range'_append_1, List.map_append]
  rfl

lemma count_everyNth (q i n : ℕ) : (everyNth q i n).count true = (i + n) / q - i / q := by
  induction n with
  | zero => simp [everyNth]
  | succ n ih =>
    have hle : i / q ≤ (i + n) / q := Nat.div_le_div_right (Nat.le_add_right i n)
    rw [everyNth_add, List.count_append, ih, ← Nat.add_assoc, Nat.succ_div]
    by_cases hdvd : q ∣ i + n + 1
    · have hlast : everyNth q (i + n) 1 = [true] := by
        simp [everyNth, Nat.mod_eq_zero_of_dvd hdvd]
      rw [hlast, if_pos hdvd, List.count_singleton_self]
      omega
    · have hlast : everyNth q (i + n) 1 = [false] := by
        simp [everyNth, Nat.dvd_iff_mod_eq_zero.not.1 hdvd]
      rw [hlast, if_neg hdvd]
      simp

end ImpedanceBench

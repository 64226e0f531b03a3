import ImpedanceBench.Rig.Basic
import ImpedanceBench.Sweep.Config

/-!
Waiting for a trigger: polls until there is a trace, within a budget of attempts and of time.
-/

namespace ImpedanceBench

namespace RetryPolicy

/-- The polls that one acquisition may make, never none. -/
def budget (policy : RetryPolicy) : Nat := max policy.maxAttempts.toNat 1

def expired (policy : RetryPolicy) (elapsed : Nat) : Bool :=
  policy.deadline.any fun d => d.toNat ≤ elapsed

end RetryPolicy

namespace Rig

variable {σ : Type}

/-- The acquisition was not triggered in `attempts` polls. -/
def giveUp (frequency : Float) (attempts : Nat) : Run σ (Trace Float) := do
  Session.warn (.notTriggered frequency)
  throw (.acquisitionTimeout frequency attempts)

/-- Polls after `made` polls and `elapsed` milliseconds, at most `left` times more than once. -/
def attempt (rig : Rig σ) (policy : RetryPolicy) (frequency : Float) :
    (left made elapsed : Nat) → Run σ (Trace Float)
  | left, made, elapsed => do
    Session.checkCancelled
    match ← rig.pollOnce with
    | (some trace, _) => return trace
    | (none, took) =>
      match left with
      | 0 => giveUp frequency (made + 1)
      | left + 1 =>
        if policy.expired (elapsed + took) then giveUp frequency (made + 1)
        else rig.attempt policy frequency left (made + 1) (elapsed + took + policy.delay.toNat)

/-- Polls until there is a trace, a failure, no budget left, or the run is cancelled. -/
def acquire (rig : Rig σ) (policy : RetryPolicy) (frequency : Float) : Run σ (Trace Float) :=
  rig.attempt policy frequency (policy.budget - 1) 0 0

end Rig

end ImpedanceBench

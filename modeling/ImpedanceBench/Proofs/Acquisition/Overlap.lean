import Mathlib.Data.List.TakeDrop
import Mathlib.Order.Lattice
import ImpedanceBench.Rig.Controller

/-!
A window and a trace of different lengths. Only the samples that both have are used: the rest of the
window changes nothing, and neither does the rest of the trace. This holds in any arithmetic, because
the operations and their order are the same; where the lengths are cut, nothing is out of range.
-/

namespace ImpedanceBench

namespace LockIn

section Lists

variable {α β γ : Type}

/-- The longer of two lists can be cut to the length of the shorter one. -/
lemma zipWith_take_right (f : α → β → γ) {xs : List α} {n : ℕ} (h : xs.length ≤ n) (ys : List β) :
    List.zipWith f xs (ys.take n) = List.zipWith f xs ys := by
  have hshort : (List.zipWith f xs ys).length ≤ n := by
    rw [List.length_zipWith]
    omega
  calc List.zipWith f xs (ys.take n) = List.zipWith f (xs.take n) (ys.take n) := by
        rw [List.take_of_length_le h]
    _ = (List.zipWith f xs ys).take n := List.take_zipWith.symm
    _ = List.zipWith f xs ys := List.take_of_length_le hshort

lemma zipWith_take_left (f : α → β → γ) (xs : List α) {ys : List β} {n : ℕ} (h : ys.length ≤ n) :
    List.zipWith f (xs.take n) ys = List.zipWith f xs ys := by
  rw [List.zipWith_comm, zipWith_take_right _ h, List.zipWith_comm]

/-- `n` samples have one step less. -/
lemma steps_take (xs : List α) (n : ℕ) : steps (xs.take n) = (steps xs).take (n - 1) := by
  have hleft : (xs.take n).length - 1 ≤ n - 1 := by
    have := List.length_take_le n xs
    omega
  have hcut : (steps (xs.take n)).take (n - 1) = steps (xs.take n) :=
    List.take_of_length_le ((length_steps _).trans_le hleft)
  rw [← hcut, steps, steps, List.tail_take_eq_take_tail, List.zip, List.take_zipWith,
    List.take_zipWith, List.take_take, List.take_take, min_eq_left (by omega), min_self]

/-- The first `n` elements of a list that has so many. -/
def slice? (xs : List α) (n : ℕ) : Option (List α) :=
  if n ≤ xs.length then some (xs.take n) else none

lemma slice?_eq {xs : List α} {n : ℕ} (h : n ≤ xs.length) : slice? xs n = some (xs.take n) :=
  if_pos h

end Lists

variable {α : Type} [Scalar α]

/-- Times beyond the values are not read. -/
lemma integrate_take (rule : IntegrationRule) {values : List α} {n : ℕ} (h : values.length ≤ n)
    (times : List α) : integrate rule values (times.take n) = integrate rule values times := by
  have hsteps : (steps values).length ≤ n - 1 := by
    rw [length_steps]
    omega
  have hintegral (area : α × α → α × α → α) :
      integral area values (times.take n) = integral area values times := by
    rw [integral, integral, steps_take, zipWith_take_right _ hsteps]
  cases rule with
  | absoluteSegments => exact hintegral _
  | signed => exact hintegral _

/-- The first `n` samples of a window. -/
def take (n : ℕ) (l : LockIn α) : LockIn α :=
  ⟨l.rule, l.times.take n, l.sines.take n, l.cosines.take n⟩

lemma make_take (m n : ℕ) (angularFrequency samplePeriod : α) (rule : IntegrationRule) :
    (make n angularFrequency samplePeriod rule).take m =
      make (min m n) angularFrequency samplePeriod rule := by
  simp only [take, make, ← List.map_take, List.take_range]

/-- The window beyond a trace is not read. -/
lemma components_take {n : ℕ} {trace : List α} (h : trace.length ≤ n) (l : LockIn α) :
    (l.take n).components trace = l.components trace := by
  have hmixed (reference : List α) :
      (List.zipWith (· * ·) trace reference).length ≤ n := by
    rw [List.length_zipWith]
    omega
  simp only [components, take, zipWith_take_right _ h, integrate_take _ (hmixed _)]

/-- The two references and the time axis of a window have one length. -/
structure Aligned (l : LockIn α) : Prop where
  sines : l.sines.length = l.times.length
  cosines : l.cosines.length = l.times.length

lemma aligned_make (n : ℕ) (angularFrequency samplePeriod : α) (rule : IntegrationRule) :
    (make n angularFrequency samplePeriod rule).Aligned := by
  constructor <;> simp [make]

/-- The components from slices of the length of the overlap; none where a slice is out of range. -/
def components? (l : LockIn α) (trace : List α) : Option (Components α) := do
  let n := min trace.length l.times.length
  let samples ← slice? trace n
  let sines ← slice? l.sines n
  let cosines ← slice? l.cosines n
  let times ← slice? l.times n
  return {
    x := integrate l.rule (List.zipWith (· * ·) samples sines) times
    y := integrate l.rule (List.zipWith (· * ·) samples cosines) times }

namespace Aligned

variable {l : LockIn α} (h : l.Aligned)

include h

/-- The trace beyond a window is not read. -/
lemma components_take_trace {n : ℕ} (hn : l.times.length ≤ n) (trace : List α) :
    l.components (trace.take n) = l.components trace := by
  rw [components, components, zipWith_take_left _ _ (h.sines.trans_le hn),
    zipWith_take_left _ _ (h.cosines.trans_le hn)]

/-- The overlap is in the range of everything that is cut to it. -/
lemma components?_eq (trace : List α) : l.components? trace = some (l.components trace) := by
  obtain ⟨n, hn⟩ : ∃ n, min trace.length l.times.length = n := ⟨_, rfl⟩
  have htrace : n ≤ trace.length := by omega
  have htimes : n ≤ l.times.length := by omega
  have hsines := htimes.trans_eq h.sines.symm
  have hcosines := htimes.trans_eq h.cosines.symm
  -- One of the trace and the window is as long as the overlap, so that one cut is enough.
  have hcut : (l.take n).components (trace.take n) = l.components trace := by
    rw [components_take (List.length_take_le n trace)]
    rcases le_total trace.length l.times.length with hle | hle
    · rw [List.take_of_length_le (by omega)]
    · exact h.components_take_trace (by omega) trace
  rw [← hcut]
  simp only [components?, hn, slice?_eq htrace, slice?_eq hsines, slice?_eq hcosines,
    slice?_eq htimes, Option.bind_eq_bind, Option.bind_some]
  rfl

end Aligned

variable (angularFrequency samplePeriod : α) (rule : IntegrationRule)

/-- A window that is long enough reads what the window of the trace's own length reads. -/
lemma components_make_of_le {trace : List α} {n : ℕ} (h : trace.length ≤ n) :
    (make n angularFrequency samplePeriod rule).components trace =
      (make trace.length angularFrequency samplePeriod rule).components trace := by
  rw [← components_take le_rfl, make_take, min_eq_left h]

/-- A window reads as much of a trace as it is long. -/
lemma components_make_take (n : ℕ) (trace : List α) :
    (make n angularFrequency samplePeriod rule).components (trace.take n) =
      (make n angularFrequency samplePeriod rule).components trace :=
  (aligned_make n angularFrequency samplePeriod rule).components_take_trace (by simp [make]) trace

/-- A window of any length reads a trace in its own window, cut to this length. -/
lemma components_make_eq (n : ℕ) (trace : List α) :
    (make n angularFrequency samplePeriod rule).components trace =
      (make (min n trace.length) angularFrequency samplePeriod rule).components
        (trace.take (min n trace.length)) := by
  have hcut : trace.take (min n trace.length) = trace.take n := List.take_eq_take_min.symm
  rw [hcut, ← List.length_take, ← components_make_of_le _ _ _ (List.length_take_le n trace),
    components_make_take]

/-- How windows of one kind read traces of other lengths. -/
structure ReadsOverlap : Prop where
  /-- Windows that are not shorter than the trace read the same of it. -/
  longer : ∀ (trace : List α) (m n : ℕ), trace.length ≤ m → trace.length ≤ n →
    (make m angularFrequency samplePeriod rule).components trace =
      (make n angularFrequency samplePeriod rule).components trace
  /-- A shorter window reads what it reads of the first samples. -/
  shorter : ∀ (trace : List α) (n : ℕ), n < trace.length →
    (make n angularFrequency samplePeriod rule).components trace =
      (make n angularFrequency samplePeriod rule).components (trace.take n)
  /-- One window for two traces reads what a demodulation of the cut traces reads. -/
  demodulated : ∀ (voltage current : List α) (n : ℕ),
    demodulate (voltage.take (min n voltage.length)) (current.take (min n current.length))
        angularFrequency samplePeriod rule =
      ((make n angularFrequency samplePeriod rule).components voltage,
        (make n angularFrequency samplePeriod rule).components current)
  inRange : ∀ (trace : List α) (n : ℕ),
    (make n angularFrequency samplePeriod rule).components? trace =
      some ((make n angularFrequency samplePeriod rule).components trace)

lemma readsOverlap : ReadsOverlap angularFrequency samplePeriod rule where
  longer trace m n hm hn := by
    rw [components_make_of_le _ _ _ hm, components_make_of_le _ _ _ hn]
  shorter trace n _ := (components_make_take _ _ _ n trace).symm
  demodulated voltage current n := by
    -- The window of a demodulation is not shorter than either of the traces that it is given.
    have hread (trace : List α) {m : ℕ} (hm : (trace.take (min n trace.length)).length ≤ m) :
        (make m angularFrequency samplePeriod rule).components
            (trace.take (min n trace.length)) =
          (make n angularFrequency samplePeriod rule).components trace := by
      rw [components_make_of_le _ _ _ hm, components_make_eq _ _ _ n trace, List.length_take,
        min_eq_left (min_le_right _ _)]
    rw [demodulate, hread voltage (le_max_left _ _), hread current (le_max_right _ _)]
  inRange trace n := (aligned_make n _ _ rule).components?_eq trace

end LockIn

/-- **Only the overlap of window and trace is read**, in any arithmetic and by both rules, without a
slice out of range. The one window that a sweep makes for all its passes at a frequency reads of a
voltage and a current what a demodulation of their first samples reads. -/
theorem LockIn.reads_only_overlap :
    (∀ {α : Type} [Scalar α] (angularFrequency samplePeriod : α) (rule : IntegrationRule),
      ReadsOverlap angularFrequency samplePeriod rule) ∧
    ∀ (sweep : ValidatedSweep Float) (plan : AcquisitionPlan Float) (frequency : Float)
      (voltage current : List Float),
      let reading := Rig.Reading.make sweep plan frequency
      demodulate (voltage.take (min reading.requested voltage.length))
          (current.take (min reading.requested current.length)) (2.0 * Scalar.pi * frequency)
          plan.samplePeriod sweep.config.integration =
        (reading.lockIn.components voltage, reading.lockIn.components current) :=
  ⟨fun {_} _ => readsOverlap, fun _ plan frequency voltage current =>
    (readsOverlap (2.0 * Scalar.pi * frequency) plan.samplePeriod _).demodulated voltage current _⟩

end ImpedanceBench

import ImpedanceBench.Proofs.Computation
import ImpedanceBench.Sweep.Validation

/-!
A run of the validation as a whole, over any kind of numbers: what comes out of it, in each of the
two modes, and the warnings that it adds to those given before. There are two of them, for an end
and for repetitions that are lowered.
-/

namespace ImpedanceBench.SweepConfig

variable {α : Type} (c : SweepConfig α) (p : HardwareProfile α) (ws : List (Warning α))

lemma run_liftExcept {β : Type} (x : Except (Failure α) β) :
    (validate.liftExcept x : Checked α β).run.run ws = (x, ws) := by
  cases x <;> rfl

def sweepsWarnings : List (Warning α) :=
  if p.maxMeasurementSweeps < c.measurementSweeps then
    [.measurementSweepsClamped c.measurementSweeps p.maxMeasurementSweeps]
  else []

lemma run_clampSweeps : (c.clampSweeps p).run.run ws =
    (.ok { c with
        measurementSweeps := max (if p.maxMeasurementSweeps < c.measurementSweeps then
          p.maxMeasurementSweeps else c.measurementSweeps) 1 },
      ws ++ c.sweepsWarnings p) := by
  unfold clampSweeps sweepsWarnings
  split
  · rfl
  · rw [List.append_nil]
    rfl

variable [Scalar α]

def stopWarnings : List (Warning α) :=
  if p.maxFrequency < c.stop then [.endClamped c.stop p.maxFrequency] else []

lemma run_clampStop : (c.clampStop p).run.run ws =
    (.ok { c with stop := if p.maxFrequency < c.stop then p.maxFrequency else c.stop },
      ws ++ c.stopWarnings p) := by
  unfold clampStop stopWarnings
  split
  · rfl
  · rw [List.append_nil]
    rfl

variable {c} in
/-- An end above the start asks for the grid, with one pass over each of its points. -/
lemma resolve_of_lt (h : c.start < c.stop) : c.resolve p =
    match Grid.points? c.start c.stop c.step p.maxSweepPoints with
    | some points => .ok ⟨{ c with measurementSweeps := 1 }, .frequency, p, points,
        UInt32.ofNat (c.averagingCount.toNat * 1)⟩
    | none => .error (.invalidStep c.step) := by
  have hpasses : ¬ UInt32.size ≤ c.averagingCount.toNat * (1 : UInt32).toNat := by
    have := c.averagingCount.toNat_lt
    change ¬ 2 ^ 32 ≤ c.averagingCount.toNat * 1
    omega
  unfold resolve
  simp only [h, if_true, hpasses, if_false]
  cases Grid.points? c.start c.stop c.step p.maxSweepPoints <;> rfl

variable {c} in
/-- Otherwise the start is measured again and again. -/
lemma resolve_of_not_lt (h : ¬ c.start < c.stop) : c.resolve p =
    if UInt32.size ≤ c.averagingCount.toNat * c.measurementSweeps.toNat then
      .error (.invalidAveraging c.averagingCount p.maxAveragingCount)
    else .ok ⟨c, .repeated, p, [c.start],
      UInt32.ofNat (c.averagingCount.toNat * c.measurementSweeps.toNat)⟩ := by
  unfold resolve
  simp only [h, if_false]
  split <;> rfl

/-- The frequencies come first, and a failure there gives no warning. -/
theorem run_validate_eq : (c.validate p).run.run ws =
    match p.validate with
    | .error e => (.error e, ws)
    | .ok () =>
      let outOfRange := fun f =>
        (.error (.frequencyOutOfRange f (DecimationBand.lowest p.bands) p.maxFrequency), ws)
      if !c.startInRange p then outOfRange c.start
      else if Scalar.undefined c.stop then outOfRange c.stop
      else
        let lowered :=
          { c with stop := if p.maxFrequency < c.stop then p.maxFrequency else c.stop }
        match lowered.defect? p with
        | some failure => (.error failure, ws ++ c.stopWarnings p)
        | none =>
          ({ lowered with
            measurementSweeps := max (if p.maxMeasurementSweeps < c.measurementSweeps then
              p.maxMeasurementSweeps else c.measurementSweeps) 1 }.resolve p,
            ws ++ c.stopWarnings p ++ c.sweepsWarnings p) := by
  unfold validate
  rw [run_bind, run_liftExcept]
  cases p.validate with
  | error e => rfl
  | ok =>
    dsimp only
    cases c.startInRange p with
    | false => rfl
    | true =>
      cases Scalar.undefined c.stop with
      | true => rfl
      | false =>
        simp only [Bool.not_true, Bool.false_eq_true, if_false]
        rw [run_bind, run_clampStop]
        dsimp only
        generalize hdefect : defect? (α := α) _ p = failure?
        cases failure? with
        | some failure => rfl
        | none =>
          dsimp only
          rw [run_bind, run_clampSweeps]
          dsimp only
          rw [run_liftExcept]
          rfl

end ImpedanceBench.SweepConfig

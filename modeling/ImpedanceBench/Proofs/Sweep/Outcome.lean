import ImpedanceBench.Proofs.Sweep.Run

/-!
The outcome of validation without its warnings: the checks in their order, those of the single
settings after the end has been lowered, and then the sweep with the repetitions lowered as well.
-/

namespace ImpedanceBench.SweepConfig

/-- The end is at most the highest frequency. -/
def lowerStop (c : SweepConfig Float) (p : HardwareProfile Float) : SweepConfig Float :=
  { c with stop := if p.maxFrequency < c.stop then p.maxFrequency else c.stop }

/-- The repetitions are at most their maximum and at least one. -/
def lowerSweeps (c : SweepConfig Float) (p : HardwareProfile Float) : SweepConfig Float :=
  let sweeps := if p.maxMeasurementSweeps < c.measurementSweeps then p.maxMeasurementSweeps
    else c.measurementSweeps
  { c with measurementSweeps := max sweeps 1 }

/-- What validation makes of some settings. -/
def outcome (c : SweepConfig Float) (p : HardwareProfile Float) :
    Except (Failure Float) (ValidatedSweep Float) :=
  let outOfRange := fun f =>
    .error (.frequencyOutOfRange f (DecimationBand.lowest p.bands) p.maxFrequency)
  match p.validate with
  | .error e => .error e
  | .ok () =>
    if !c.startInRange p then outOfRange c.start
    else if Scalar.undefined c.stop then outOfRange c.stop
    else
      match (c.lowerStop p).defect? p with
      | some failure => .error failure
      | none => ((c.lowerStop p).lowerSweeps p).resolve p

variable (c : SweepConfig Float) (p : HardwareProfile Float) (ws : List (Warning Float))

/-- The warnings given so far and those on the way do not change what comes out. -/
theorem run_validate : ((c.validate p).run.run ws).1 = c.outcome p := by
  rw [run_validate_eq]
  unfold outcome lowerSweeps lowerStop
  cases p.validate with
  | error e => rfl
  | ok =>
    cases c.startInRange p with
    | false => rfl
    | true =>
      cases Scalar.undefined c.stop with
      | true => rfl
      | false =>
        dsimp only
        generalize hdefect : defect? (α := Float) _ p = failure?
        cases failure? <;> rfl

variable {c p}

lemma isConfiguration_of_defect? {e : Failure Float} (h : c.defect? p = some e) :
    e.isConfiguration = true := by
  unfold defect? at h
  iterate 4 (split at h; · cases h; rfl)
  split at h
  · cases h
    rfl
  iterate 4 (split at h; · cases h; rfl)
  cases h

lemma isConfiguration_of_resolve {e : Failure Float} (h : c.resolve p = .error e) :
    e.isConfiguration = true := by
  by_cases hmode : c.start < c.stop
  · rw [resolve_of_lt p hmode] at h
    split at h <;> cases h
    rfl
  · rw [resolve_of_not_lt p hmode] at h
    split at h <;> cases h
    rfl

lemma isConfiguration_of_validate {e : Failure Float} (h : p.validate = .error e) :
    e.isConfiguration = true := by
  unfold HardwareProfile.validate at h
  split at h <;> cases h
  rfl

/-- Whatever the check that fails, the failure is one of the settings. -/
theorem isConfiguration_of_outcome {e : Failure Float} (h : c.outcome p = .error e) :
    e.isConfiguration = true := by
  unfold outcome at h
  dsimp only at h
  split at h
  · rename_i hprofile
    cases h
    exact isConfiguration_of_validate hprofile
  split at h
  · cases h
    rfl
  split at h
  · cases h
    rfl
  split at h
  · rename_i hdefect
    cases h
    exact isConfiguration_of_defect? hdefect
  · exact isConfiguration_of_resolve h

end ImpedanceBench.SweepConfig

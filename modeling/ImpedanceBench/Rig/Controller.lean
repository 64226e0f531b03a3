import ImpedanceBench.ResultTable
import ImpedanceBench.Rig.Polling
import ImpedanceBench.Sweep.Validation

/-!
A sweep on a rig: the devices are initialized once, and at each frequency the generator is loaded
and started, the oscilloscope is set up, and every pass acquires a trace and reads an impedance
from it.
-/

namespace ImpedanceBench.Rig

variable {σ : Type}

/-- A device that cannot be initialized is named; its own report of that is kept. -/
def initFailure (device : String) : Failure Float → Failure Float
  | .deviceInit name reason => .deviceInit name reason
  | other => .deviceInit device other.message

def init (rig : Rig σ) : Run σ Unit := do
  ExceptT.adapt (initFailure "generator") (rig.command .initOutput)
  ExceptT.adapt (initFailure "oscilloscope") (rig.command .initScope)
  modify fun s => { s with initialized := true }

/-- Plays a sine of the sweep's amplitude on its channel. -/
def drive (rig : Rig σ) (sweep : ValidatedSweep Float) (frequency : Float) : Run σ Unit := do
  let spec := SignalSpec.sine sweep.config.amplitude frequency
  let waveform := Waveform.synthesize sweep.profile spec
  (Waveform.warnings sweep.profile spec).forM Session.warn
  rig.command (.configureOutput sweep.config.channel waveform.words)
  rig.command (.loadOutput sweep.config.channel waveform.memory)
  rig.command (.enableOutput sweep.config.channel.mask)

/-- How the traces at one frequency become impedances. -/
structure Reading where
  frequency : Float
  scale : FixtureScale Float
  /-- The samples that are used of each trace. -/
  requested : Nat
  lockIn : LockIn Float

def Reading.make (sweep : ValidatedSweep Float) (plan : AcquisitionPlan Float)
    (frequency : Float) : Reading :=
  let requested := (min plan.sampleCount sweep.config.acquisitionSize).toNat
  { frequency
    scale := .standard (sweep.profile.voltsPerCount sweep.config.dcBias) sweep.config.shuntOhms
    requested
    lockIn := LockIn.make requested (2.0 * Scalar.pi * frequency) plan.samplePeriod
      sweep.config.integration }

def Reading.point (r : Reading) (trace : Trace Float) :
    Except (Failure Float) (ImpedancePoint Float) := do
  let traces ← LoadTraces.ofTrace trace r.scale r.requested
  ImpedancePoint.estimate r.frequency (r.lockIn.components traces.voltage)
    (r.lockIn.components traces.current)

/-- One acquisition; under the skip policy one that is not triggered is left out. -/
def acquirePass (rig : Rig σ) (sweep : ValidatedSweep Float) (frequency : Float) (pass : Nat) :
    Run σ (Option (Trace Float)) :=
  tryCatch (some <$> rig.acquire sweep.config.retry frequency) fun failure =>
    match failure, sweep.config.timeoutPolicy with
    | .acquisitionTimeout .., .skipPass => do
      Session.warn (.passLeftOut pass frequency failure)
      return none
    | _, _ => throw failure

/-- The points of the passes from number `pass` on, after those found so far, which come latest
first. -/
def passes (rig : Rig σ) (sweep : ValidatedSweep Float) (reading : Reading) :
    (left pass : Nat) → List (ImpedancePoint Float) → Run σ (List (ImpedancePoint Float))
  | 0, _, points => return points.reverse
  | left + 1, pass, points => do
    Session.checkCancelled
    match ← rig.acquirePass sweep reading.frequency pass with
    | none => rig.passes sweep reading left (pass + 1) points
    | some trace =>
      let point ← Session.lift (reading.point trace)
      rig.passes sweep reading left (pass + 1) (point :: points)

/-- The result at one frequency, none when every pass was left out. -/
def measurePoint (rig : Rig σ) (sweep : ValidatedSweep Float) (frequency : Float) :
    Run σ (Option (FrequencyResult Float)) := do
  rig.drive sweep frequency
  let plan ← Session.lift
    (AcquisitionPlan.ofProfile sweep.profile frequency sweep.config.minPeriods)
  rig.command (.configureScope (plan.settings sweep.config.equalization sweep.config.shaping))
  let points ← rig.passes sweep (.make sweep plan frequency) sweep.passesPerPoint.toNat 0 []
  let result := FrequencyResult.ofPoints frequency points
  if result.isNone then Session.warn (.pointSkipped frequency)
  return result

/-- Visits the frequencies in order, after those visited so far, which come latest first. -/
def visit (rig : Rig σ) (sweep : ValidatedSweep Float) :
    List Float → List (Float × Option (FrequencyResult Float)) →
      Run σ (List (Float × Option (FrequencyResult Float)))
  | [], visits => return visits.reverse
  | frequency :: rest, visits => do
    Session.checkCancelled
    let result ← rig.measurePoint sweep frequency
    rig.visit sweep rest ((frequency, result) :: visits)

def runSweep (rig : Rig σ) (sweep : ValidatedSweep Float) : Run σ (ResultTable Float) := do
  if !(← get).initialized then rig.init
  return .ofVisits (← rig.visit sweep sweep.frequencies [])

def calibrationPrompt : String := "Short connection calibration. continue? [y|n]"

/-- A sweep with a short on the fixture, after the operator has agreed. -/
def runCalibration (rig : Rig σ) (agrees : String → Bool) (sweep : ValidatedSweep Float) :
    Run σ (ResultTable Float) := do
  modify fun s => { s with prompts := calibrationPrompt :: s.prompts }
  if agrees calibrationPrompt then rig.runSweep sweep else throw .calibrationDeclined

end ImpedanceBench.Rig

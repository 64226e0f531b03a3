import ImpedanceBench.Acquisition.Plan
import ImpedanceBench.Acquisition.Trace
import ImpedanceBench.Waveform.Synthesis

/-!
A generator and an oscilloscope as the controller sees them: it gives commands, polls for a trace,
and learns of each call how it ended. What the devices do is left open; they may fail, take time,
or have the run cancelled while they are called.
-/

namespace ImpedanceBench

inductive Command where
  | initOutput
  | configureOutput (channel : Channel) (words : GeneratorWords)
  | loadOutput (channel : Channel) (memory : Array Int32)
  /-- Starts the replay on every channel whose bit is set. -/
  | enableOutput (mask : UInt8)
  | initScope
  | configureScope (settings : AcquisitionSettings)

inductive Call where
  | command (c : Command)
  | poll

/-- How a call ended. -/
structure Reply (β : Type) where
  outcome : Except (Failure Float) β
  /-- The run was cancelled during the call. -/
  cancels : Bool
  /-- The milliseconds that it took, with what a sleep before it took beyond its delay. -/
  elapsed : Nat

def Reply.done {β : Type} (b : β) : Reply β := ⟨.ok b, false, 0⟩

def Reply.failed {β : Type} (f : Failure Float) : Reply β := ⟨.error f, false, 0⟩

/-- Devices with states `σ`. A poll gives nothing while the trigger has not fired. -/
structure Rig (σ : Type) where
  perform : Command → σ → Reply Unit × σ
  poll : σ → Reply (Option (Trace Float)) × σ

/-- The devices, and what a controller keeps beside them. Lists of events have the latest first. -/
structure Session (σ : Type) where
  devices : σ
  initialized : Bool
  /-- Once set it stays. -/
  cancelled : Bool
  calls : List Call
  warnings : List (Warning Float)
  /-- The questions put to the operator. -/
  prompts : List String

def Session.start {σ : Type} (devices : σ) : Session σ := ⟨devices, false, false, [], [], []⟩

/-- A run may end in a failure; what happened until then stays in the session. -/
abbrev Run (σ β : Type) := ExceptT (Failure Float) (StateM (Session σ)) β

namespace Session

variable {σ : Type}

def afterCall (s : Session σ) (call : Call) (devices : σ) (cancels : Bool) : Session σ :=
  { s with devices, cancelled := s.cancelled || cancels, calls := call :: s.calls }

def warn (w : Warning Float) : Run σ Unit :=
  modify fun s => { s with warnings := w :: s.warnings }

/-- The run goes on with a result or ends with a failure. -/
def lift {β : Type} : Except (Failure Float) β → Run σ β
  | .ok b => pure b
  | .error e => throw e

/-- Between two calls a cancelled run ends. -/
def checkCancelled : Run σ Unit := do
  if (← get).cancelled then throw .cancelled

end Session

namespace Rig

variable {σ : Type}

def command (rig : Rig σ) (c : Command) : Run σ Unit := do
  let reply ← modifyGet fun s =>
    let (reply, devices) := rig.perform c s.devices
    (reply, s.afterCall (.command c) devices reply.cancels)
  Session.lift reply.outcome

/-- Polls once; the trace comes with the time that the call took. -/
def pollOnce (rig : Rig σ) : Run σ (Option (Trace Float) × Nat) := do
  let reply ← modifyGet fun s =>
    let (reply, devices) := rig.poll s.devices
    (reply, s.afterCall .poll devices reply.cancels)
  return (← Session.lift reply.outcome, reply.elapsed)

end Rig

end ImpedanceBench

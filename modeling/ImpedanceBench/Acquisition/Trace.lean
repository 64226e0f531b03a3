import ImpedanceBench.Number.Scalar
import ImpedanceBench.Failure

/-!
What the oscilloscope returns, and the voltage and current of the load that its two probes show.
-/

namespace ImpedanceBench

/-- The samples of each channel, in counts. -/
structure Trace (α : Type) where
  channels : List (List α)

namespace Trace

variable {α : Type}

/-- The length of the first channel. -/
def samplesPerChannel (t : Trace α) : Option Nat := t.channels.head?.map List.length

/-- Enough channels, and all of one length. -/
def validate (t : Trace α) (minChannels : Nat) : Except (Failure α) Unit :=
  if t.channels.length < minChannels then
    .error (.channelMismatch minChannels t.channels.length)
  else if t.channels.any fun c => c.length != t.samplesPerChannel.getD 0 then .error .raggedTrace
  else .ok ()

def channel (t : Trace α) (i : Nat) : List α := t.channels[i]?.getD []

end Trace

/-- Where the probes sit and how counts become volts. -/
structure FixtureScale (α : Type) where
  /-- The channel of the probe on the generator's side of the load. -/
  excitation : Nat
  /-- The channel of the probe across the shunt. -/
  shunt : Nat
  voltsPerCount : α
  shuntOhms : α

def FixtureScale.standard {α : Type} (voltsPerCount shuntOhms : α) : FixtureScale α :=
  ⟨0, 1, voltsPerCount, shuntOhms⟩

/-- The voltage across the load and the current through it, sample by sample. -/
structure LoadTraces (α : Type) where
  voltage : List α
  current : List α

namespace LoadTraces

variable {α : Type} [Scalar α]

/-- The load's traces from at most `requested` samples. The shunt carries the load's current. -/
def ofTrace (t : Trace α) (scale : FixtureScale α) (requested : Nat) :
    Except (Failure α) (LoadTraces α) := do
  t.validate (max scale.excitation scale.shunt + 1)
  let volts := fun (x : α) => x * scale.voltsPerCount
  let excitation := ((t.channel scale.excitation).take requested).map volts
  let shunt := ((t.channel scale.shunt).take requested).map volts
  return {
    voltage := List.zipWith (· - ·) excitation shunt
    current := shunt.map (· / scale.shuntOhms) }

end LoadTraces

end ImpedanceBench

import ImpedanceBench.Bench.Load
import ImpedanceBench.Bench.Noise
import ImpedanceBench.Rig.Basic

/-!
A generator and an oscilloscope with a load between them, in memory. The first probe sees the
generator's output, the second one the shunt in series with the load. How long its calls take is left open.
-/

namespace ImpedanceBench

/-- What an output of the generator was given. -/
structure GeneratorChannel where
  words : Option GeneratorWords
  memory : Option (Array Int32)

/-- How long the calls take, in milliseconds. -/
structure Timing where
  /-- The calls that are over. -/
  past : Nat
  /-- The time of each call, past ones included. -/
  takes : Nat → Nat

namespace Timing

def instant : Timing := ⟨0, fun _ => 0⟩

/-- The time of the call number `k` from now on. -/
def ahead (t : Timing) (k : Nat) : Nat := t.takes (t.past + k)

end Timing

structure SimulatedBench where
  profile : HardwareProfile Float
  load : LoadModel Float
  shuntOhms : Float
  dcBias : Float
  channelA : GeneratorChannel
  channelB : GeneratorChannel
  enabled : UInt8
  settings : Option AcquisitionSettings
  /-- The empty polls before each acquisition, and those left before the next one. -/
  notReadyPolls : UInt32
  pendingPolls : UInt32
  neverTriggers : Bool
  failsInit : Bool
  noise : Noise
  timing : Timing
  acquisitions : Nat
  reloads : Nat

/-- The replay of one buffer: at which rate its samples follow each other. -/
def replayFrequency {α : Type} [Scalar α] (p : HardwareProfile α) (words : GeneratorWords)
    (length : Nat) : α :=
  Scalar.ofNat words.stepIncrement.toNat / 65536.0 * p.dacRate / Scalar.ofNat length

namespace SimulatedBench

def make (profile : HardwareProfile Float) (load : LoadModel Float) (shuntOhms : Float) :
    SimulatedBench where
  profile
  load
  shuntOhms
  dcBias := 0.0
  channelA := ⟨none, none⟩
  channelB := ⟨none, none⟩
  enabled := 0
  settings := none
  notReadyPolls := 0
  pendingPolls := 0
  neverTriggers := false
  failsInit := false
  noise := .silent
  timing := .instant
  acquisitions := 0
  reloads := 0

def channel (b : SimulatedBench) : Channel → GeneratorChannel
  | .a => b.channelA
  | .b => b.channelB

def setChannel (b : SimulatedBench) (g : GeneratorChannel) : Channel → SimulatedBench
  | .a => { b with channelA := g }
  | .b => { b with channelB := g }

/-- What is played: the first enabled output, once it has both registers and memory. -/
def playing (b : SimulatedBench) : Option (GeneratorWords × Array Int32) := do
  let channel ← Channel.all.find? fun c => b.enabled &&& c.mask != 0
  let g := b.channel channel
  return (← g.words, ← g.memory)

/-- The place of a position in a memory that is replayed again and again. A position below `2^53`
is wrapped by its whole part. -/
def wrappedIndex (size : Nat) (position : Float) : Nat :=
  let start :=
    if 0.0 ≤ position ∧ position < 9007199254740992.0 then position
    else Scalar.remEuclid position (Scalar.ofNat size)
  (Scalar.toUInt64 start).toNat % size

/-- The sample that is replayed at a position. -/
def storedAt (memory : Array Int32) (position : Float) : Int32 :=
  memory[wrappedIndex memory.size position]?.getD 0

/-- The volts that the generator puts out at a position of its memory. -/
def voltsAt (p : HardwareProfile Float) (memory : Array Int32) (voltsPerCount position : Float) :
    Float :=
  let count := decodeSample p.dacMaxCount p.dacRebias (storedAt memory position)
  Scalar.ofInt count.toInt * voltsPerCount

/-- How the oscilloscope shows a voltage. -/
structure ScopeScale where
  voltsPerCount : Float
  /-- The counts go from `-limit` to `limit - 1`. -/
  limit : Float

def ScopeScale.ofProfile (p : HardwareProfile Float) (bias : Float) : ScopeScale where
  voltsPerCount := p.voltsPerCount bias
  limit := Scalar.twoPow ((p.adcBits.toNat : Int) - 1)

/-- The count that is shown: rounded, confined to the range, in single precision. -/
def ScopeScale.count (s : ScopeScale) (volts deviation : Float) : Float :=
  Scalar.single (Scalar.confine (-s.limit) (s.limit - 1.0)
    (Scalar.round (volts / s.voltsPerCount + deviation)))

/-- Both probes while the generator replays its memory. The shunt lags behind by the angle of the
divider, which is a part of the buffer. -/
def replay (b : SimulatedBench) (settings : AcquisitionSettings) (words : GeneratorWords)
    (memory : Array Int32) : Trace Float :=
  let p := b.profile
  let h := b.load.divider b.shuntOhms (replayFrequency p words memory.size)
  let ratio := h.norm
  let shift := h.arg / (2.0 * Scalar.pi) * Scalar.ofNat memory.size
  let voltsPerCount := 1.0 / (2.0 * p.dacCountsPerVolt)
  let scope := ScopeScale.ofProfile p b.dcBias
  let period := Scalar.ofNat settings.factor.toNat / p.adcRate
  let advance := p.dacRate * Scalar.ofNat words.stepIncrement.toNat / 65536.0
  let position := fun (k : Nat) => Scalar.ofNat k * period * advance
  let samples := List.range p.adcMaxSamples.toNat
  { channels := [
      samples.map fun k =>
        scope.count (voltsAt p memory voltsPerCount (position k)) (b.noise.deviation (2 * k)),
      samples.map fun k =>
        scope.count (ratio * voltsAt p memory voltsPerCount (position k + shift))
          (b.noise.deviation (2 * k + 1))] }

/-- Both probes with nothing playing. -/
def silence (b : SimulatedBench) : Trace Float :=
  ⟨List.replicate 2 (List.replicate b.profile.adcMaxSamples.toNat 0.0)⟩

def render (b : SimulatedBench) (settings : AcquisitionSettings) : Trace Float :=
  match b.playing with
  | some (words, memory) => b.replay settings words memory
  | none => b.silence

/-- The bench after an acquisition; a replay has used up noise. -/
def acquired (b : SimulatedBench) : SimulatedBench :=
  { b with
    pendingPolls := b.notReadyPolls
    acquisitions := b.acquisitions + 1
    noise := if b.playing.isSome && b.noise.active then b.noise.drop (2 * b.profile.adcMaxSamples.toNat)
      else b.noise }

def initReply (b : SimulatedBench) (device : String) : Reply Unit :=
  if b.failsInit then .failed (.deviceInit device "simulated init failure") else .done ()

def perform (c : Command) (b : SimulatedBench) : Reply Unit × SimulatedBench :=
  match c with
  | .initOutput => (b.initReply "generator", b)
  | .initScope => (b.initReply "oscilloscope", b)
  | .configureOutput channel words =>
    (.done (), b.setChannel { b.channel channel with words := some words } channel)
  | .loadOutput channel memory =>
    if memory.size != b.profile.bufferLength.toNat then
      (.failed (.device ("buffer of " ++ toString memory.size ++ " samples, generator memory holds "
        ++ toString b.profile.bufferLength)), b)
    else
      let b := b.setChannel { b.channel channel with memory := some memory } channel
      (.done (), { b with reloads := b.reloads + 1 })
  | .enableOutput mask => (.done (), { b with enabled := mask })
  | .configureScope settings => (.done (), { b with settings := some settings })

def poll (b : SimulatedBench) : Reply (Option (Trace Float)) × SimulatedBench :=
  match b.settings with
  | none => (.failed (.device "oscilloscope polled before configure"), b)
  | some settings =>
    if b.neverTriggers then (.done none, b)
    else if 0 < b.pendingPolls then (.done none, { b with pendingPolls := b.pendingPolls - 1 })
    else (.done (some (b.render settings)), b.acquired)

/-- The bench when a call is over. -/
def tick (b : SimulatedBench) : SimulatedBench :=
  { b with timing := { b.timing with past := b.timing.past + 1 } }

/-- A call takes its time, whatever it does. -/
def timed {β : Type} (call : SimulatedBench → Reply β × SimulatedBench) (b : SimulatedBench) :
    Reply β × SimulatedBench :=
  let (reply, after) := call b
  ({ reply with elapsed := b.timing.ahead 0 }, after.tick)

def rig : Rig SimulatedBench := ⟨fun c => timed (perform c), timed poll⟩

end SimulatedBench

end ImpedanceBench

import ImpedanceBench.Failure
import ImpedanceBench.Signal
import ImpedanceBench.Waveform.Chirp
import ImpedanceBench.Waveform.SquareEdges

/-!
One buffer of generator memory for a signal. The memory holds no sign, so negative samples are
stored with a bias; the replay registers are 16.16 numbers.
-/

namespace ImpedanceBench

/-- The generator's registers besides its memory. -/
structure GeneratorWords where
  /-- The offset in the upper half and the gain in the lower. -/
  offsetGain : Int32
  /-- Where the replay position wraps. -/
  wrapIndex : UInt32
  /-- How far the replay position moves at each clock. -/
  stepIncrement : UInt32
  deriving DecidableEq

structure Waveform where
  words : GeneratorWords
  memory : Array Int32
  /-- The peak that was written. -/
  amplitudeCounts : UInt32
  /-- The requested amplitude exceeded the converter's range. -/
  saturated : Bool

/-! Samples as the memory holds them. -/

def encodeSample (rebias value : Int32) : Int32 := if value < 0 then value + rebias else value

/-- The signed value of a stored sample: what lies above the converter's range was negative. -/
def decodeSample (maxCount : UInt32) (rebias raw : Int32) : Int32 :=
  if maxCount.toInt32 < raw then raw - rebias else raw

namespace Waveform

variable {α : Type} [Scalar α]

def registers (p : HardwareProfile α) (frequency : α) : GeneratorWords where
  offsetGain := (p.dacOffset <<< 16) + p.dacGain
  wrapIndex := Scalar.toUInt32
    (Scalar.round (65536.0 * (Scalar.ofNat p.bufferLength.toNat - 1.0) : α))
  stepIncrement := Scalar.toUInt32
    (Scalar.round (65536.0 * frequency / p.dacRate * Scalar.ofNat p.bufferLength.toNat))

/-- The whole counts of an amplitude; a negative or undefined one has none. -/
def requestedCounts (p : HardwareProfile α) (amplitude : α) : UInt64 :=
  Scalar.toUInt64 (Scalar.atLeast 0.0 (amplitude * p.dacCountsPerVolt))

def saturates (p : HardwareProfile α) (amplitude : α) : Bool :=
  p.dacMaxCount.toNat < (requestedCounts p amplitude).toNat

def counts (p : HardwareProfile α) (amplitude : α) : UInt32 :=
  if saturates p amplitude then p.dacMaxCount else (requestedCounts p amplitude).toUInt32

/-- The cosine of the position `x` in a buffer that holds one period. -/
def cosineAt (length x : α) : α := Scalar.cos (2.0 * Scalar.pi * x / length)

/-- The signed sample at a position of the buffer. -/
def signedSample (p : HardwareProfile α) (spec : SignalSpec α) (edges : SquareEdges α)
    (chirp : Chirp α) (amplitude length x : α) : Int32 :=
  let whole := fun (v : α) => Scalar.toInt32 (Scalar.round v)
  match spec.shape with
  | .sine => whole (amplitude * cosineAt length x)
  | .square => edges.sample x amplitude (Scalar.round (amplitude * cosineAt length x))
  | .triangle =>
    whole (-amplitude * (Scalar.acos (cosineAt length x) / Scalar.pi * 2.0 - 1.0))
  | .sweep => whole (amplitude * Scalar.sin (chirp.phase (x / p.dacRate)))

/-- The samples of one buffer before they are stored. -/
def signedSamples (p : HardwareProfile α) (spec : SignalSpec α) : List Int32 :=
  let length : α := Scalar.ofNat p.bufferLength.toNat
  let edges := SquareEdges.make p.squareTransition spec.start length
  let chirp := Chirp.make spec.start spec.stop (length / p.dacRate)
  let amplitude := Scalar.ofNat (counts p spec.amplitude).toNat
  (List.range p.bufferLength.toNat).map fun i =>
    signedSample p spec edges chirp amplitude length (Scalar.ofNat i)

def synthesize (p : HardwareProfile α) (spec : SignalSpec α) : Waveform where
  words := registers p spec.start
  memory := ((signedSamples p spec).map (encodeSample p.dacRebias)).toArray
  amplitudeCounts := counts p spec.amplitude
  saturated := saturates p spec.amplitude

/-- An amplitude beyond the converter's range is worth a warning. -/
def warnings (p : HardwareProfile α) (spec : SignalSpec α) : List (Warning α) :=
  if saturates p spec.amplitude then [.amplitudeClamped spec.amplitude p.dacMaxCount] else []

end Waveform

end ImpedanceBench

/-!
What the generator is asked to play, and on which of its two outputs.
-/

namespace ImpedanceBench

inductive Shape where
  | sine
  | square
  | triangle
  /-- An exponential chirp from the start to the end frequency over one buffer. -/
  | sweep
  deriving DecidableEq

def Shape.all : List Shape := [sine, square, triangle, sweep]

def Shape.name : Shape → String
  | sine => "sine"
  | square => "square"
  | triangle => "triangle"
  | sweep => "sweep"

structure SignalSpec (α : Type) where
  shape : Shape
  amplitude : α
  start : α
  /-- Read for a sweep only. -/
  stop : α

def SignalSpec.sine {α : Type} (amplitude frequency : α) : SignalSpec α :=
  ⟨.sine, amplitude, frequency, frequency⟩

inductive Channel where
  | a
  | b
  deriving DecidableEq

def Channel.all : List Channel := [a, b]

def Channel.name : Channel → String
  | a => "A"
  | b => "B"

/-- The bit of a channel in the generator's enable mask. -/
def Channel.mask : Channel → UInt8
  | a => 1
  | b => 2

end ImpedanceBench

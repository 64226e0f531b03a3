/-!
Noise of the simulated oscilloscope: a fixed sequence of numbers for each seed, spread over an
interval around zero.
-/

namespace ImpedanceBench

structure Noise where
  /-- The largest deviation in counts; without a positive one there is no noise. -/
  counts : Float
  /-- The numbers to come, in units of the largest deviation. -/
  draw : Nat → Float

namespace Noise

def silent : Noise := ⟨0.0, fun _ => 0.0⟩

def active (n : Noise) : Bool := 0.0 < n.counts

/-- The deviation of the sample number `k` from now on. -/
def deviation (n : Noise) (k : Nat) : Float := if n.active then n.counts * n.draw k else 0.0

/-- The noise after `k` samples. -/
def drop (n : Noise) (k : Nat) : Noise := { n with draw := fun i => n.draw (k + i) }

/-- Mixes the bits of a word. -/
def scramble (z : UInt64) : UInt64 :=
  let z := (z ^^^ (z >>> 30)) * 0xbf58476d1ce4e5b9
  let z := (z ^^^ (z >>> 27)) * 0x94d049bb133111eb
  z ^^^ (z >>> 31)

/-- The sequence of a seed: the upper 53 bits of its scrambled words, as numbers in `[-1, 1)`. -/
def seeded (counts : Float) (seed : UInt64) : Noise where
  counts
  draw k :=
    let word := scramble (seed + 0x9e3779b97f4a7c15 * UInt64.ofNat (k + 1))
    (word >>> 11).toFloat / 4503599627370496.0 - 1.0

end Noise

end ImpedanceBench

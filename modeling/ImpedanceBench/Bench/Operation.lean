import ImpedanceBench.Bench.Simulated

/-!
What can happen to a simulated bench: its devices are called, and its owner sets it otherwise.
-/

namespace ImpedanceBench.SimulatedBench

inductive Operation where
  | command (c : Command)
  | poll
  | setNoise (noise : Noise)
  /-- The number holds for the next acquisition already. -/
  | setNotReadyPolls (polls : UInt32)
  | setDcBias (volts : Float)
  | setLoad (load : LoadModel Float)
  | setNeverTriggers (never : Bool)
  | failInit

/-- The bench after an operation, and the trace of a poll that was triggered. -/
def operate (b : SimulatedBench) : Operation → Option (Trace Float) × SimulatedBench
  | .command c => (none, (b.perform c).2)
  | .poll => (b.poll.1.outcome.toOption.join, b.poll.2)
  | .setNoise noise => (none, { b with noise })
  | .setNotReadyPolls polls => (none, { b with notReadyPolls := polls, pendingPolls := polls })
  | .setDcBias volts => (none, { b with dcBias := volts })
  | .setLoad load => (none, { b with load })
  | .setNeverTriggers never => (none, { b with neverTriggers := never })
  | .failInit => (none, { b with failsInit := true })

/-- One operation after the other, with the traces in order. -/
def run (b : SimulatedBench) : List Operation → List (Trace Float) × SimulatedBench
  | [] => ([], b)
  | o :: os =>
    let (trace, b) := b.operate o
    let (traces, b) := b.run os
    (trace.toList ++ traces, b)

end ImpedanceBench.SimulatedBench

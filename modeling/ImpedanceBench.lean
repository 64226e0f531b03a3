import ImpedanceBench.Rig.Script
import ImpedanceBench.Main
import ImpedanceBench.Proofs.Rig.Reference
import ImpedanceBench.Proofs.Rig.CallOrder
import ImpedanceBench.Proofs.Rig.Cancellation
import ImpedanceBench.Proofs.Waveform.Memory
import ImpedanceBench.Proofs.Double.Whole
import ImpedanceBench.Proofs.Sweep.Limits
import ImpedanceBench.Proofs.Rig.Failures
import ImpedanceBench.Proofs.Rig.Baseline
import ImpedanceBench.Proofs.Bench.Independence
import ImpedanceBench.Proofs.Bench.Latency
import ImpedanceBench.Proofs.CommandLine
import ImpedanceBench.Proofs.Rig.Policies
import ImpedanceBench.Proofs.Rig.Lifecycle
import ImpedanceBench.Proofs.Rig.Acquisition
import ImpedanceBench.Proofs.Rig.Window
import ImpedanceBench.Proofs.Bench.Replay
import ImpedanceBench.Proofs.Records
import ImpedanceBench.Proofs.Exact.Polar
import ImpedanceBench.Proofs.Exact.LockIn
import ImpedanceBench.Proofs.Exact.Proportion
import ImpedanceBench.Proofs.Exact.Tone
import ImpedanceBench.Proofs.Exact.Symmetry
import ImpedanceBench.Proofs.Waveform.Slew
import ImpedanceBench.Proofs.Waveform.OffsetGain
import ImpedanceBench.Proofs.Acquisition.Bands
import ImpedanceBench.Proofs.Acquisition.Overlap
import ImpedanceBench.Proofs.Acquisition.Span
import ImpedanceBench.Proofs.Sweep.Settled
import ImpedanceBench.Proofs.Exact.Registers
import ImpedanceBench.Proofs.Exact.Grid
import ImpedanceBench.Proofs.Exact.Superposition
import ImpedanceBench.Proofs.Exact.HalfPlane
import ImpedanceBench.Proofs.Impedance.Phase
import ImpedanceBench.Proofs.Impedance.Division
import ImpedanceBench.Proofs.Acquisition.Conversion
import ImpedanceBench.Proofs.ResultTable
import ImpedanceBench.Proofs.Exact.Integral
import ImpedanceBench.Proofs.Exact.Chirp
import ImpedanceBench.Proofs.RecordForms
import ImpedanceBench.Proofs.Bench.Operations

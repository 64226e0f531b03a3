import ImpedanceBench.Bench.Simulated
import ImpedanceBench.Json.Parser
import ImpedanceBench.Json.Printer
import ImpedanceBench.Records
import ImpedanceBench.Rig.Controller

/-!
The program: one sweep on the simulated bench, described by a file, with its results as a table or
as JSON. Files, the operator's answer and the time that the devices take are arguments here, so that a
whole run is a function.
-/

namespace ImpedanceBench.CommandLine

/-- What a bench file holds. -/
structure BenchFile where
  profile : HardwareProfile Float
  sweep : SweepConfig Float
  load : LoadModel Float
  /-- The noise of the oscilloscope in counts. -/
  noise : Float

def BenchFile.standard : BenchFile := ⟨.standard, .standard, .short, 0.0⟩

/-- The bench without a file. -/
def BenchFile.demonstration : BenchFile := { BenchFile.standard with load := .resistor 4700.0 }

def BenchFile.record : Json.Record BenchFile where
  base := .standard
  complete := false
  fields := [
    HardwareProfile.record.codec.field "profile" (·.profile) fun v r => { r with profile := v },
    SweepConfig.record.codec.field "sweep" (·.sweep) fun v r => { r with sweep := v },
    LoadModel.record.codec.field "load" (·.load) fun v r => { r with load := v },
    Json.Codec.real.field "noise_counts" (·.noise) fun v r => { r with noise := v }]

/-- Why the program ends without a table. -/
inductive Fault where
  | unknownFlag (flag : String)
  | unreadableFile (path : String)
  | malformedFile (path : String)
  | invalidSweep (cause : Failure Float)
  | bringUp (cause : Failure Float)
  | calibration (cause : Failure Float)
  | measurement (cause : Failure Float)
  | correction (cause : Failure Float)

def Fault.headline : Fault → String
  | unknownFlag flag => "unknown flag " ++ flag
  | unreadableFile path => "reading bench config " ++ path
  | malformedFile path => "parsing bench config " ++ path
  | invalidSweep _ => "invalid sweep configuration"
  | bringUp _ => "bringing up the bench"
  | calibration _ => "short-circuit calibration"
  | measurement _ => "measurement sweep"
  | correction _ => "applying calibration"

def Fault.cause? : Fault → Option (Failure Float)
  | invalidSweep f | bringUp f | calibration f | measurement f | correction f => some f
  | unknownFlag _ | unreadableFile _ | malformedFile _ => none

structure Invocation where
  json : Bool
  path : Option String

namespace Invocation

/-- Flags may stand anywhere; of several paths the last one counts. -/
def add (i : Invocation) (arg : String) : Except Fault Invocation :=
  if arg = "--json" then .ok { i with json := true }
  else if arg.startsWith "--" then .error (.unknownFlag arg)
  else .ok { i with path := some arg }

def parse (args : List String) : Except Fault Invocation := args.foldlM add ⟨false, none⟩

/-- The bench of the file, if one is named. -/
def benchFile (i : Invocation) (files : String → Option String) : Except Fault BenchFile :=
  match i.path with
  | none => .ok .demonstration
  | some path =>
    match files path with
    | none => .error (.unreadableFile path)
    | some text =>
      match (Json.parse? text).bind BenchFile.record.read with
      | none => .error (.malformedFile path)
      | some file => .ok file

end Invocation

def noiseSeed : UInt64 := 0x1c2

/-- A bench that has been brought up for its sweep. -/
structure Prepared where
  sweep : ValidatedSweep Float
  load : LoadModel Float
  session : Session SimulatedBench

def prepare (timing : Timing) (file : BenchFile) : Except Fault Prepared :=
  match ((file.sweep.validate file.profile).run.run []).1 with
  | .error f => .error (.invalidSweep f)
  | .ok sweep =>
    let bench := { SimulatedBench.make file.profile file.load file.sweep.shuntOhms with
      noise := .seeded file.noise noiseSeed
      timing
      dcBias := sweep.config.dcBias }
    match SimulatedBench.rig.init.run.run (Session.start bench) with
    | (.error f, _) => .error (.bringUp f)
    | (.ok (), session) => .ok ⟨sweep, file.load, session⟩

namespace Prepared

/-- The operator is asked when the sweep has a calibration. -/
def asks (p : Prepared) : Bool := p.sweep.config.calibration

def withLoad (s : Session SimulatedBench) (load : LoadModel Float) : Session SimulatedBench :=
  { s with devices := { s.devices with load } }

def sweepTable (p : Prepared) (s : Session SimulatedBench) : Except Fault (ResultTable Float) :=
  match ((SimulatedBench.rig.runSweep p.sweep).run.run s).1 with
  | .error f => .error (.measurement f)
  | .ok table => .ok table

/-- The table of the load, less the baseline with a short in its place where one is asked for. -/
def measure (p : Prepared) (agrees : String → Bool) : Except Fault (ResultTable Float) :=
  if p.asks then
    match (SimulatedBench.rig.runCalibration agrees p.sweep).run.run (withLoad p.session .short) with
    | (.error f, _) => .error (.calibration f)
    | (.ok short, session) => do
      let measured ← p.sweepTable (withLoad session p.load)
      match measured.correctedBy short with
      | .error f => .error (.correction f)
      | .ok table => .ok table
  else p.sweepTable p.session

end Prepared

/-! The operator's answer. -/

/-- White space, in every script. -/
def isBlank (c : Char) : Bool :=
  let n := c.toNat
  (9 ≤ n && n ≤ 13) || n == 0x20 || n == 0x85 || n == 0xA0 || n == 0x1680
    || (0x2000 ≤ n && n ≤ 0x200A) || n == 0x2028 || n == 0x2029 || n == 0x202F || n == 0x205F
    || n == 0x3000

/-- The first line says `y` or `Y`, with any blanks around it. -/
def agreesIn (input : String) : Bool :=
  let line := (input.toList.takeWhile (· != '\n')).dropWhile isBlank
  match line with
  | c :: rest => (c == 'y' || c == 'Y') && rest.all isBlank
  | [] => false

/-! The table as text. -/

def padLeft (width : Nat) (s : String) : String :=
  String.ofList (List.replicate (width - s.length) ' ') ++ s

def row (cells : List (Nat × String)) : String :=
  String.intercalate " " (cells.map fun (width, text) => padLeft width text)

def header : String :=
  row [(14, "freq [Hz]"), (14, "R [ohm]"), (14, "X [ohm]"), (14, "|Z| [ohm]"), (10, "phase"),
    (7, "passes")]

def entryLine (r : FrequencyResult Float) : String :=
  row [(14, Decimal.fixedText 3 r.frequency), (14, Decimal.fixedText 4 r.meanReal),
    (14, Decimal.fixedText 4 r.meanImag), (14, Decimal.fixedText 4 r.magnitude),
    (10, Decimal.fixedText 3 r.phase), (7, toString r.passes)]

def skippedLine (frequency : Float) : String :=
  padLeft 14 (Decimal.fixedText 3 frequency) ++ " skipped (no acquisition)"

def tableLines (t : ResultTable Float) : List String :=
  header :: t.entries.map entryLine ++ t.skipped.map skippedLine

def jsonText (t : ResultTable Float) : String := Json.pretty (ResultTable.record.write t)

/-! Whole runs. -/

/-- The prompt as it is shown, with the blank before the answer. -/
def shownPrompt : String := Rig.calibrationPrompt ++ " "

structure Report where
  prompt : Option String
  json : Bool
  result : Except Fault (ResultTable Float)

def run (args : List String) (files : String → Option String) (input : String)
    (timing : Timing := .instant) : Report :=
  match Invocation.parse args with
  | .error f => ⟨none, false, .error f⟩
  | .ok i =>
    match i.benchFile files >>= prepare timing with
    | .error f => ⟨none, i.json, .error f⟩
    | .ok p =>
      ⟨if p.asks then some shownPrompt else none, i.json, p.measure fun _ => agreesIn input⟩

end ImpedanceBench.CommandLine

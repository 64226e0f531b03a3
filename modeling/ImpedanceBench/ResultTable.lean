import ImpedanceBench.Impedance

/-!
The results of a sweep, and their correction by a baseline measured with a short on the fixture.
-/

namespace ImpedanceBench

/-- The mean impedance of the passes at one frequency. -/
structure FrequencyResult (α : Type) where
  frequency : α
  meanReal : α
  meanImag : α
  passes : UInt64

namespace FrequencyResult

variable {α : Type} [Scalar α]

def ofPoints (frequency : α) (points : List (ImpedancePoint α)) : Option (FrequencyResult α) :=
  if points.isEmpty then none
  else
    let count := Scalar.ofNat points.length
    some {
      frequency
      meanReal := Scalar.sum (points.map (·.realOhms)) / count
      meanImag := Scalar.sum (points.map (·.imagOhms)) / count
      passes := UInt64.ofNat points.length }

def impedance (r : FrequencyResult α) : Phasor α := ⟨r.meanReal, r.meanImag⟩

def magnitude (r : FrequencyResult α) : α := r.impedance.norm

/-- In degrees. -/
def phase (r : FrequencyResult α) : α := Scalar.toDegrees r.impedance.arg

/-- The impedance less that of a baseline. -/
def less (r baseline : FrequencyResult α) : FrequencyResult α :=
  { r with
    meanReal := r.meanReal - baseline.meanReal
    meanImag := r.meanImag - baseline.meanImag }

end FrequencyResult

structure ResultTable (α : Type) where
  entries : List (FrequencyResult α)
  /-- The frequencies at which no pass was acquired. -/
  skipped : List α

namespace ResultTable

variable {α : Type}

def empty : ResultTable α := ⟨[], []⟩

/-- The table of the visited frequencies, each with its result unless no pass was acquired. -/
def ofVisits (visits : List (α × Option (FrequencyResult α))) : ResultTable α where
  entries := visits.filterMap (·.2)
  skipped := (visits.filter (·.2.isNone)).map (·.1)

variable [Scalar α]

/-- Two frequencies count as the same within a billionth, and within `1e-9` below 1 Hz. -/
def SameFrequency (wanted found : α) : Prop :=
  Scalar.abs (found - wanted) ≤ Scalar.atLeast 1.0 (Scalar.abs wanted) * 1e-9

instance (wanted found : α) : Decidable (SameFrequency wanted found) :=
  inferInstanceAs (Decidable (_ ≤ _))

/-- The first entry at a frequency. -/
def at? (t : ResultTable α) (frequency : α) : Option (FrequencyResult α) :=
  t.entries.find? fun e => SameFrequency frequency e.frequency

/-- An entry less the baseline's entry at its frequency, of which there must be one. -/
def correct (short : ResultTable α) (e : FrequencyResult α) :
    Except (Failure α) (FrequencyResult α) :=
  match short.at? e.frequency with
  | some baseline => .ok (e.less baseline)
  | none => .error (.missingCalibrationPoint e.frequency)

def correctedBy (measured short : ResultTable α) : Except (Failure α) (ResultTable α) := do
  let entries ← measured.entries.mapM short.correct
  return { measured with entries }

end ResultTable

end ImpedanceBench

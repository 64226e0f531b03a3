import ImpedanceBench.Phasor

/-!
The device under test: a resistance, an inductance and a capacitance in series.
-/

namespace ImpedanceBench

/-- A part that is missing is a short. -/
structure LoadModel (α : Type) where
  resistance : α
  inductance : Option α
  capacitance : Option α

namespace LoadModel

variable {α : Type} [Scalar α]

def resistor (ohms : α) : LoadModel α := ⟨ohms, none, none⟩

def short : LoadModel α := resistor 0.0

def impedance (load : LoadModel α) (frequency : α) : Phasor α :=
  let w := 2.0 * Scalar.pi * frequency
  let z : Phasor α := ⟨load.resistance, 0.0⟩
  let z := match load.inductance with
    | some l => z + ⟨0.0, w * l⟩
    | none => z
  match load.capacitance with
  | some c => z + ⟨0.0, -1.0 / (w * c)⟩
  | none => z

/-- The part of the excitation that falls on a shunt in series with the load. -/
def divider (load : LoadModel α) (shuntOhms frequency : α) : Phasor α :=
  (⟨shuntOhms, 0.0⟩ : Phasor α) / (load.impedance frequency).addReal shuntOhms

end LoadModel

end ImpedanceBench

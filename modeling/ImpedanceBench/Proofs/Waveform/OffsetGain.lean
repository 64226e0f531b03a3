import Mathlib.Algebra.Group.Nat.Defs
import Mathlib.Tactic.Lemma
import ImpedanceBench.Hardware.Validation
import ImpedanceBench.Waveform.Synthesis

/-!
The register that holds the generator's offset in its upper half and the gain in its lower half. It
is computed in 32 bits, by a shift and a sum: an offset of more than 16 bits is cut, and a gain
outside the lower half carries into the offset or borrows from it. The two come back exactly if each
fits its half, and the checks on a profile look at neither.
-/

namespace ImpedanceBench

namespace HalfWords

lemma shiftLeft_sixteen (x : Int32) : x <<< 16 = x * 65536 := by
  rw [← Int32.toBitVec_inj, Int32.toBitVec_shiftLeft, Int32.toBitVec_mul]
  exact BitVec.shiftLeft_eq_mul_twoPow x.toBitVec 16

lemma toInt_shiftLeft_sixteen (x : Int32) :
    (x <<< 16).toInt = (x.toInt * 65536).bmod (2 ^ 32) := by
  rw [shiftLeft_sixteen, Int32.toInt_mul]
  rfl

lemma toInt_shiftRight_sixteen (x : Int32) : (x >>> 16).toInt = x.toInt / 65536 := by
  rw [← Int32.toInt_toBitVec, Int32.toBitVec_shiftRight]
  change (x.toBitVec.sshiftRight 16).toInt = _
  rw [BitVec.toInt_sshiftRight, Int.shiftRight_eq_div_pow]
  rfl

lemma toInt_and_lower (x : Int32) : (x &&& 65535).toInt = x.toInt % 65536 := by
  have hlower : x.toBitVec.toNat &&& 65535 = x.toBitVec.toNat % 65536 :=
    Nat.and_two_pow_sub_one_eq_mod _ 16
  rw [← Int32.toInt_toBitVec, Int32.toBitVec_and, BitVec.toInt_and]
  change ((x.toBitVec.toNat &&& 65535 : ℕ) : ℤ).bmod _ = x.toBitVec.toInt % 65536
  rw [hlower, BitVec.toInt_eq_toNat_bmod, Int.bmod_eq_of_le (by omega) (by omega)]
  simp only [Int.bmod_def]
  omega

/-- The upper half of a wrapped number is its upper part, wrapped to 16 bits. -/
lemma bmod_ediv (x : ℤ) : x.bmod (2 ^ 32) / 65536 = (x / 65536).bmod 65536 := by
  simp only [Int.bmod_def]
  omega

lemma bmod_emod (x : ℤ) : x.bmod (2 ^ 32) % 65536 = x % 65536 := by
  simp only [Int.bmod_def]
  omega

end HalfWords

namespace GeneratorWords

/-- The upper half of the offset and gain, which has a sign. -/
def offset (w : GeneratorWords) : Int32 := w.offsetGain >>> 16

/-- The lower half, which has none. -/
def gain (w : GeneratorWords) : Int32 := w.offsetGain &&& 65535

end GeneratorWords

namespace HardwareProfile

variable {α : Type}

/-- The offset is a number of 16 bits with a sign. -/
def OffsetFits (p : HardwareProfile α) : Prop :=
  -32768 ≤ p.dacOffset.toInt ∧ p.dacOffset.toInt < 32768

/-- The gain is a number of 16 bits without a sign. -/
def GainFits (p : HardwareProfile α) : Prop :=
  0 ≤ p.dacGain.toInt ∧ p.dacGain.toInt < 65536

instance (p : HardwareProfile α) : Decidable p.OffsetFits := inferInstanceAs (Decidable (_ ∧ _))

instance (p : HardwareProfile α) : Decidable p.GainFits := inferInstanceAs (Decidable (_ ∧ _))

def withOffsetGain (p : HardwareProfile α) (offset gain : Int32) : HardwareProfile α :=
  { p with dacOffset := offset, dacGain := gain }

end HardwareProfile

namespace Waveform

open HalfWords

section

variable {α : Type}

/-- The offset and the gain of a profile reach the generator: neither step of the computation loses
anything, and the halves of the word are the two again. -/
structure Lossless (p : HardwareProfile α) (w : GeneratorWords) : Prop where
  /-- The shift drops no bits. -/
  shift : (p.dacOffset <<< 16).toInt = p.dacOffset.toInt * 65536
  /-- The sum does not overflow. -/
  sum : w.offsetGain.toInt = (p.dacOffset <<< 16).toInt + p.dacGain.toInt
  offset : w.offset = p.dacOffset
  gain : w.gain = p.dacGain

/-- What becomes of the offset and the gain in the word. -/
structure Packed (p : HardwareProfile α) (w : GeneratorWords) : Prop where
  word : w.offsetGain.toInt = (p.dacOffset.toInt * 65536 + p.dacGain.toInt).bmod (2 ^ 32)
  /-- The gain carries into the upper half or borrows from it, and 16 bits of this remain. -/
  offset : w.offset.toInt = (p.dacOffset.toInt + p.dacGain.toInt / 65536).bmod 65536
  gain : w.gain.toInt = p.dacGain.toInt % 65536
  shift_iff : (p.dacOffset <<< 16).toInt = p.dacOffset.toInt * 65536 ↔ p.OffsetFits
  sum_iff : w.offsetGain.toInt = (p.dacOffset <<< 16).toInt + p.dacGain.toInt ↔
    -32768 ≤ p.dacOffset.toInt.bmod 65536 + p.dacGain.toInt / 65536 ∧
      p.dacOffset.toInt.bmod 65536 + p.dacGain.toInt / 65536 < 32768
  offset_iff : w.offset = p.dacOffset ↔ p.OffsetFits ∧ p.GainFits
  gain_iff : w.gain = p.dacGain ↔ p.GainFits
  lossless_iff : Lossless p w ↔ p.OffsetFits ∧ p.GainFits

variable (p : HardwareProfile α)

lemma shift_eq_iff :
    (p.dacOffset <<< 16).toInt = p.dacOffset.toInt * 65536 ↔ p.OffsetFits := by
  rw [toInt_shiftLeft_sixteen, HardwareProfile.OffsetFits, Int.bmod_def]
  omega

variable [Scalar α] (f : α)

lemma toInt_offsetGain_registers : (registers p f).offsetGain.toInt =
    (p.dacOffset.toInt * 65536 + p.dacGain.toInt).bmod (2 ^ 32) := by
  change ((p.dacOffset <<< 16) + p.dacGain).toInt = _
  rw [Int32.toInt_add, toInt_shiftLeft_sixteen, Int.bmod_add_bmod]

lemma toInt_offset_registers : (registers p f).offset.toInt =
    (p.dacOffset.toInt + p.dacGain.toInt / 65536).bmod 65536 := by
  rw [GeneratorWords.offset, toInt_shiftRight_sixteen, toInt_offsetGain_registers, bmod_ediv,
    Int.add_comm (_ * _), Int.add_mul_ediv_right _ _ (by decide), Int.add_comm]

lemma toInt_gain_registers : (registers p f).gain.toInt = p.dacGain.toInt % 65536 := by
  rw [GeneratorWords.gain, toInt_and_lower, toInt_offsetGain_registers, bmod_emod,
    Int.add_comm, Int.add_mul_emod_self_right]

/-- The sum overflows if the offset that is left of the shift and the carry of the gain do. -/
lemma sum_eq_iff : (registers p f).offsetGain.toInt =
      (p.dacOffset <<< 16).toInt + p.dacGain.toInt ↔
    -32768 ≤ p.dacOffset.toInt.bmod 65536 + p.dacGain.toInt / 65536 ∧
      p.dacOffset.toInt.bmod 65536 + p.dacGain.toInt / 65536 < 32768 := by
  have hgain := p.dacGain.toInt_lt
  have hgain' := p.dacGain.le_toInt
  rw [toInt_offsetGain_registers, toInt_shiftLeft_sixteen]
  simp only [Int.bmod_def]
  omega

lemma gain_registers_iff : (registers p f).gain = p.dacGain ↔ p.GainFits := by
  rw [← Int32.toInt_inj, toInt_gain_registers, HardwareProfile.GainFits]
  omega

/-- A gain that does not fit spoils the offset as well: its carry is not zero, and too small for the
upper half to wrap all the way round. -/
lemma offset_registers_iff :
    (registers p f).offset = p.dacOffset ↔ p.OffsetFits ∧ p.GainFits := by
  have hgain := p.dacGain.toInt_lt
  have hgain' := p.dacGain.le_toInt
  rw [← Int32.toInt_inj, toInt_offset_registers, HardwareProfile.OffsetFits,
    HardwareProfile.GainFits, Int.bmod_def]
  omega

lemma lossless_registers_iff : Lossless p (registers p f) ↔ p.OffsetFits ∧ p.GainFits := by
  refine ⟨fun h => (offset_registers_iff p f).1 h.offset, fun ⟨hoffset, hgain⟩ => ?_⟩
  refine {
    shift := (shift_eq_iff p).2 hoffset
    sum := (sum_eq_iff p f).2 ?sum
    offset := (offset_registers_iff p f).2 ⟨hoffset, hgain⟩
    gain := (gain_registers_iff p f).2 hgain }
  -- nothing is cut from the offset, and the gain has no carry
  obtain ⟨hlow, hhigh⟩ := hoffset
  have hcut : p.dacOffset.toInt.bmod 65536 = p.dacOffset.toInt :=
    Int.bmod_eq_of_le (by omega) (by omega)
  have hcarry : p.dacGain.toInt / 65536 = 0 := Int.ediv_eq_zero_of_lt hgain.1 hgain.2
  rw [hcut, hcarry, Int.add_zero]
  exact ⟨hlow, hhigh⟩

/-- **The word of offset and gain.** Under any profile and for any signal the word loses nothing
exactly if the offset is a number of 16 bits with a sign and the gain one without. Acceptance says
nothing of the two: with any others in their place the profile is accepted or refused as before. -/
theorem packed_synthesize (spec : SignalSpec α) : Packed p (synthesize p spec).words ∧
    ∀ offset gain : Int32, (p.withOffsetGain offset gain).validate = p.validate := by
  refine ⟨?packed, fun _ _ => rfl⟩
  exact {
    word := toInt_offsetGain_registers p spec.start
    offset := toInt_offset_registers p spec.start
    gain := toInt_gain_registers p spec.start
    shift_iff := shift_eq_iff p
    sum_iff := sum_eq_iff p spec.start
    offset_iff := offset_registers_iff p spec.start
    gain_iff := gain_registers_iff p spec.start
    lossless_iff := lossless_registers_iff p spec.start }

end

/-- The standard offset and gain fit. -/
example : (HardwareProfile.standard : HardwareProfile Float).OffsetFits ∧
    (HardwareProfile.standard : HardwareProfile Float).GainFits := by decide

/-- The standard profile with a gain below zero. -/
def negativeGain : HardwareProfile Float := HardwareProfile.standard.withOffsetGain (-155) (-1)

/-- The profile is accepted, but its gain borrows from the offset, and the word is that of another
accepted profile. -/
theorem offset_borrowed : negativeGain.validate = .ok () ∧
    (synthesize negativeGain (.sine 2.0 1000.0)).words.offset = -156 ∧
    (synthesize negativeGain (.sine 2.0 1000.0)).words.gain = 65535 ∧
    ¬ Lossless negativeGain (synthesize negativeGain (.sine 2.0 1000.0)).words ∧
    (negativeGain.withOffsetGain (-156) 65535).validate = .ok () ∧
    (synthesize negativeGain (.sine 2.0 1000.0)).words =
      (synthesize (negativeGain.withOffsetGain (-156) 65535) (.sine 2.0 1000.0)).words := by
  have hoffset : (synthesize negativeGain (.sine 2.0 1000.0)).words.offset = -156 := rfl
  refine ⟨rfl, hoffset, rfl, fun h => ?_, rfl, rfl⟩
  exact absurd (hoffset.symm.trans h.offset) (by decide)

end Waveform

end ImpedanceBench

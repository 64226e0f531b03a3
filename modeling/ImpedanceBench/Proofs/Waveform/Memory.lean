import ImpedanceBench.Proofs.Sweep.Accepted
import ImpedanceBench.Waveform.Synthesis

/-!
Which samples can be read back from the generator's memory. A negative sample is stored with the
bias added, and a stored one is taken for negative if it lies above the converter's range. The two
agree on the whole range exactly if the bias is more than twice the maximum, which an accepted
profile need not satisfy.
-/

namespace ImpedanceBench

section

variable {maxCount : UInt32} {rebias v : Int32}

lemma toInt_encodeSample (hrebias : 0 < rebias.toInt) (v : Int32) :
    (encodeSample rebias v).toInt = if v.toInt < 0 then v.toInt + rebias.toInt else v.toInt := by
  have hv := v.le_toInt
  have hr := rebias.toInt_lt
  have hneg : v < 0 ↔ v.toInt < 0 := Int32.lt_iff_toInt_lt
  unfold encodeSample
  simp only [hneg]
  split
  · rw [Int32.toInt_add]
    exact Int.bmod_eq_of_le (by omega) (by omega)
  · rfl

lemma toInt_decodeSample (hmax : (maxCount.toNat : ℤ) < rebias.toInt) (raw : Int32) :
    (decodeSample maxCount rebias raw).toInt =
      if (maxCount.toNat : ℤ) < raw.toInt then raw.toInt - rebias.toInt else raw.toInt := by
  have hr := rebias.toInt_lt
  have hraw := raw.toInt_lt
  have hword : maxCount.toInt32.toInt = maxCount.toNat :=
    BitVec.toInt_eq_toNat_of_lt (by change 2 * maxCount.toNat < 2 ^ 32; omega)
  have hlt : maxCount.toInt32 < raw ↔ (maxCount.toNat : ℤ) < raw.toInt := by
    rw [Int32.lt_iff_toInt_lt, hword]
  unfold decodeSample
  simp only [hlt]
  split
  · rw [Int32.toInt_sub]
    exact Int.bmod_eq_of_le (by omega) (by omega)
  · rfl

/-- A sample comes back if it is not above the maximum, nor so low that the bias leaves it there. -/
lemma decodeSample_encodeSample_iff (hmax : (maxCount.toNat : ℤ) < rebias.toInt) :
    decodeSample maxCount rebias (encodeSample rebias v) = v ↔
      (maxCount.toNat : ℤ) - rebias.toInt < v.toInt ∧ v.toInt ≤ maxCount.toNat := by
  rw [← Int32.toInt_inj, toInt_decodeSample hmax, toInt_encodeSample (by omega)]
  split_ifs <;> omega

end

namespace HardwareProfile

/-- The samples that do not exceed the converter's range. -/
def levels (p : HardwareProfile Float) : Set Int32 := {v | |v.toInt| ≤ p.dacMaxCount.toNat}

/-- Reading undoes storing. -/
def Restores (p : HardwareProfile Float) (v : Int32) : Prop :=
  decodeSample p.dacMaxCount p.dacRebias (encodeSample p.dacRebias v) = v

variable {p : HardwareProfile Float}

lemma dacMaxCount_lt_dacRebias {α : Type} [Scalar α] {p : HardwareProfile α}
    (h : p.validate = .ok ()) : (p.dacMaxCount.toNat : ℤ) < p.dacRebias.toInt := by
  have hcheck : (p.dacMaxCount != 0 && decide ((p.dacMaxCount.toNat : ℤ) < p.dacRebias.toInt)) =
      true := eq_true_of_mem_checks h .dacMaxCount (by simp [checks])
  simpa using (Bool.and_eq_true_iff.1 hcheck).2

lemma restores_levels_iff (h : p.validate = .ok ()) :
    (∀ v ∈ p.levels, p.Restores v) ↔ 2 * (p.dacMaxCount.toNat : ℤ) < p.dacRebias.toInt := by
  have hmax := dacMaxCount_lt_dacRebias h
  have hr := p.dacRebias.toInt_lt
  simp only [Restores, decodeSample_encodeSample_iff hmax, levels, Set.mem_ofPred_eq, abs_le]
  refine ⟨fun hall => ?_, fun hbias v hv => by omega⟩
  have hlowest : (Int32.ofInt (-p.dacMaxCount.toNat)).toInt = -p.dacMaxCount.toNat :=
    Int32.toInt_ofInt_of_le (by omega) (by omega)
  have hbounds := hall (Int32.ofInt (-p.dacMaxCount.toNat)) (by omega)
  omega

/-- A bias that is too small stores the least level like another one. -/
lemma injOn_levels_iff (h : p.validate = .ok ()) :
    p.levels.InjOn (encodeSample p.dacRebias) ↔
      2 * (p.dacMaxCount.toNat : ℤ) < p.dacRebias.toInt := by
  have hmax := dacMaxCount_lt_dacRebias h
  have hr := p.dacRebias.toInt_lt
  refine ⟨fun hinj => ?_, fun hbias => ?_⟩
  · by_contra hbias
    have hlow : (Int32.ofInt (-p.dacMaxCount.toNat)).toInt = -p.dacMaxCount.toNat :=
      Int32.toInt_ofInt_of_le (by omega) (by omega)
    have hhigh : (Int32.ofInt (p.dacRebias.toInt - p.dacMaxCount.toNat)).toInt =
        p.dacRebias.toInt - p.dacMaxCount.toNat := Int32.toInt_ofInt_of_le (by omega) (by omega)
    have heq := @hinj (.ofInt (-p.dacMaxCount.toNat)) ?low
      (.ofInt (p.dacRebias.toInt - p.dacMaxCount.toNat)) ?high ?same
    case low => simp only [levels, Set.mem_ofPred_eq, hlow, abs_le]; omega
    case high => simp only [levels, Set.mem_ofPred_eq, hhigh, abs_le]; omega
    case same =>
      rw [← Int32.toInt_inj, toInt_encodeSample (by omega), toInt_encodeSample (by omega), hlow,
        hhigh]
      split_ifs <;> omega
    rw [← Int32.toInt_inj, hlow, hhigh] at heq
    omega
  · have hrestores := (restores_levels_iff h).2 hbias
    intro v hv w hw heq
    rw [← hrestores v hv, ← hrestores w hw, heq]

end HardwareProfile

namespace Waveform

lemma getElem?_memory (p : HardwareProfile Float) (spec : SignalSpec Float) (i : ℕ) :
    (synthesize p spec).memory[i]? =
      ((signedSamples p spec)[i]?).map (encodeSample p.dacRebias) := by
  simp [synthesize]

/-- **Reading the memory back.** Under an accepted profile the sample at any place of any buffer
comes back exactly if it is at most the maximum and the bias lifts it above the maximum when it is
negative. This holds of all levels of the converter, and they are stored as different words,
exactly if the bias is more than twice the maximum. -/
theorem decodeSample_memory {p : HardwareProfile Float} (accepted : p.validate = .ok ()) :
    (∀ (spec : SignalSpec Float) (i : ℕ) (v : Int32), (signedSamples p spec)[i]? = some v →
      ∃ raw, (synthesize p spec).memory[i]? = some raw ∧
        (decodeSample p.dacMaxCount p.dacRebias raw = v ↔
          (p.dacMaxCount.toNat : ℤ) - p.dacRebias.toInt < v.toInt ∧
            v.toInt ≤ p.dacMaxCount.toNat)) ∧
    ((∀ v ∈ p.levels, p.Restores v) ↔ 2 * (p.dacMaxCount.toNat : ℤ) < p.dacRebias.toInt) ∧
    (p.levels.InjOn (encodeSample p.dacRebias) ↔
      2 * (p.dacMaxCount.toNat : ℤ) < p.dacRebias.toInt) := by
  refine ⟨fun spec i v hv => ?_, p.restores_levels_iff accepted, p.injOn_levels_iff accepted⟩
  refine ⟨encodeSample p.dacRebias v, ?_, ?_⟩
  · rw [getElem?_memory, hv]
    rfl
  · exact decodeSample_encodeSample_iff (p.dacMaxCount_lt_dacRebias accepted)

/-- The standard bias is large enough. -/
theorem decodeSample_memory_standard :
    (HardwareProfile.standard : HardwareProfile Float).validate = .ok () ∧
      (∀ v ∈ HardwareProfile.standard.levels, HardwareProfile.standard.Restores v) ∧
      HardwareProfile.standard.levels.InjOn (encodeSample 16384) := by
  have haccepted : (HardwareProfile.standard : HardwareProfile Float).validate = .ok () := rfl
  obtain ⟨-, hrestores, hinj⟩ := decodeSample_memory haccepted
  exact ⟨haccepted, hrestores.2 (by decide), hinj.2 (by decide)⟩

/-- A profile with a bias above the maximum, but not above twice the maximum. -/
def tightBias : HardwareProfile Float where
  __ := HardwareProfile.standard
  bufferLength := 8
  dacRebias := 10667
  squareTransition :=
    { SquareTransition.standard with
      fallPosition := 0.25, floorSamples := 3, referenceFrequency := 10000000000.0 }

/-- A square wave that is replayed one sample at each clock. -/
def fastSquare : SignalSpec Float := ⟨.square, 2.0, 15625000.0, 15625000.0⟩

/-- The profile is accepted, but two samples of the falling edge are stored as the same word, and
the second one is not what is read. -/
theorem memory_collides : tightBias.validate = .ok () ∧
    (signedSamples tightBias fastSquare)[3]? = some 2667 ∧
    (signedSamples tightBias fastSquare)[5]? = some (-8000 : Int32) ∧
    (synthesize tightBias fastSquare).memory[3]? = some 2667 ∧
    (synthesize tightBias fastSquare).memory[5]? = some 2667 ∧
    decodeSample tightBias.dacMaxCount tightBias.dacRebias 2667 ≠ -8000 := by
  have hfirst : (signedSamples tightBias fastSquare)[3]? = some 2667 := by decide +kernel
  have hsecond : (signedSamples tightBias fastSquare)[5]? = some (-8000 : Int32) := by
    decide +kernel
  refine ⟨rfl, hfirst, hsecond, ?_, ?_, by decide⟩
  · rw [getElem?_memory, hfirst]
    rfl
  · rw [getElem?_memory, hsecond]
    rfl

end Waveform

end ImpedanceBench

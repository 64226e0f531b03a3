import ImpedanceBench.Proofs.Waveform.Memory

/-!
The samples of a buffer one by one, and the peak they are drawn to, over any kind of numbers.
-/

namespace ImpedanceBench.Waveform

variable {α : Type} [Scalar α] (p : HardwareProfile α)

/-- The peak is the requested one or the converter's maximum, whichever is less. -/
lemma toNat_counts (amplitude : α) : (counts p amplitude).toNat =
    min p.dacMaxCount.toNat (requestedCounts p amplitude).toNat := by
  have hmax := p.dacMaxCount.toNat_lt
  unfold counts saturates
  split
  · rename_i h
    have := of_decide_eq_true h
    omega
  · rename_i h
    have hle : ¬ p.dacMaxCount.toNat < (requestedCounts p amplitude).toNat := fun hlt =>
      h (decide_eq_true hlt)
    rw [UInt64.toNat_toUInt32]
    omega

lemma counts_le (amplitude : α) : (counts p amplitude).toNat ≤ p.dacMaxCount.toNat := by
  rw [toNat_counts]
  exact min_le_left _ _

/-- An accepted profile has no peak that a signed word does not hold. -/
lemma counts_lt {p : HardwareProfile α} (accepted : p.validate = .ok ()) (amplitude : α) :
    (counts p amplitude).toNat < 2 ^ 31 - 1 := by
  have hmax := HardwareProfile.dacMaxCount_lt_dacRebias accepted
  have hr := p.dacRebias.toInt_lt
  have hle := counts_le p amplitude
  omega

/-- The signed sample at a place of the buffer. -/
def sampleAt (spec : SignalSpec α) (i : ℕ) : Int32 :=
  let length : α := Scalar.ofNat p.bufferLength.toNat
  signedSample p spec (SquareEdges.make p.squareTransition spec.start length)
    (Chirp.make spec.start spec.stop (length / p.dacRate))
    (Scalar.ofNat (counts p spec.amplitude).toNat) length (Scalar.ofNat i)

variable (spec : SignalSpec α)

lemma signedSamples_eq :
    signedSamples p spec = (List.range p.bufferLength.toNat).map (sampleAt p spec) := rfl

@[simp] lemma length_signedSamples : (signedSamples p spec).length = p.bufferLength.toNat := by
  rw [signedSamples_eq, List.length_map, List.length_range]

@[simp] lemma size_memory : (synthesize p spec).memory.size = p.bufferLength.toNat := by
  simp [synthesize]

lemma getElem?_signedSamples {i : ℕ} (h : i < p.bufferLength.toNat) :
    (signedSamples p spec)[i]? = some (sampleAt p spec i) := by
  rw [signedSamples_eq, List.getElem?_map, List.getElem?_range h]
  rfl

lemma mem_signedSamples_iff {v : Int32} :
    v ∈ signedSamples p spec ↔ ∃ i < p.bufferLength.toNat, sampleAt p spec i = v := by
  simp [signedSamples_eq]

end ImpedanceBench.Waveform

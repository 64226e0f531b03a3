import ImpedanceBench.Proofs.Double.Packing

/-!
The sign of a double. Rounding and packing keep it, so a product of numbers has the product of
their signs even where it is rounded to zero or is too large.
-/

namespace ImpedanceBench.Double

open Float.Model UnpackedFloat

/-- An undefined number has no sign. -/
def sign? : UnpackedFloat → Option Sign
  | .notANumber => none
  | .infinity s => some s
  | .zero s => some s
  | .finite s _ _ _ => some s

/-- Only the undefined number has the last exponent and a mantissa. -/
lemma sign?_packComponents (s : Sign) {e : BitVec 11} {m : BitVec 52}
    (h : e = -1#11 → m = 0#52) :
    sign? (UnpackedFloat.unpack .binary64 (packComponents .binary64 s e m)) = some s := by
  have hsign := congrArg some (unpackSign_packComponents s e m)
  simp only [UnpackedFloat.unpack, unpackMantissa_packComponents, unpackExponent_packComponents]
  by_cases hlast : e = -1#11
  · rw [if_pos hlast, if_pos (h hlast)]
    exact hsign
  · rw [if_neg hlast]
    split
    · split <;> exact hsign
    · exact hsign

/-- Packing keeps the sign. -/
lemma sign?_pack (u : UnpackedFloat) : sign? (Float.Model.pack u).unpack = sign? u := by
  rcases u with s | _ | s | ⟨s, m, e, hm⟩
  · cases s <;> rfl
  · rfl
  · cases s <;> rfl
  change sign? (UnpackedFloat.unpack .binary64 (UnpackedFloat.pack .binary64 _)) = some s
  unfold UnpackedFloat.pack
  dsimp only
  split
  · exact sign?_packComponents s fun _ => rfl
  rename_i hfits
  split
  · refine sign?_packComponents s fun hlast => absurd (congrArg BitVec.toNat hlast) ?_
    rw [BitVec.toNat_ofNat]
    change ¬ 2 ^ 11 ≤ _ at hfits
    change _ % 2 ^ 11 ≠ 2 ^ 11 - 1
    omega
  · exact sign?_packComponents s fun hlast => absurd hlast (by decide)

lemma sign?_roundWithAccuracy (s : Sign) (m : ℕ) (e : ℤ) (accuracy : Accuracy) :
    sign? (roundWithAccuracy .binary64 s m e accuracy) = some s := by
  unfold roundWithAccuracy
  dsimp only
  split <;> rfl

lemma sign?_mul {x y : Float} {s s' : Sign} {m m' : ℕ} {e e' : ℤ} {h : 0 < m} {h' : 0 < m'}
    (hx : x.toModel.unpack = .finite s m e h) (hy : y.toModel.unpack = .finite s' m' e' h') :
    sign? (x * y).toModel.unpack = some (s * s') := by
  change sign? (Float.Model.pack (UnpackedFloat.mul .binary64 x.toModel.unpack
    y.toModel.unpack)).unpack = _
  rw [sign?_pack, hx, hy]
  exact sign?_roundWithAccuracy _ _ _ _

lemma unpack_sub_self {x : Float} {s : Sign} {m : ℕ} {e : ℤ} {h : 0 < m}
    (hx : x.toModel.unpack = .finite s m e h) : (x - x).toModel.unpack = .zero .positive := by
  have hsub : UnpackedFloat.sub .binary64 (.finite s m e h) (.finite s m e h) =
      .zero .positive := by
    simp [UnpackedFloat.sub, UnpackedFloat.normalize]
  change (Float.Model.pack (UnpackedFloat.sub .binary64 x.toModel.unpack
    x.toModel.unpack)).unpack = _
  rw [hx, hsub, unpack_pack_zero]

lemma abs_eq_self {x : Float} (hx : sign? x.toModel.unpack = some .positive) : x.abs = x := by
  have habs : x.toModel.unpack.abs = x.toModel.unpack := by
    rcases hu : x.toModel.unpack with s | _ | s | ⟨s, m, e, hm⟩ <;> rw [hu] at hx <;> cases hx <;>
      rfl
  change Float.ofModel (Float.Model.pack x.toModel.unpack.abs) = x
  rw [habs, pack_unpack]

/-- A multiple of zero is a zero of either sign, or undefined. -/
lemma mul_zero_cases (x : Float) : x * 0.0 = 0.0 ∨ x * 0.0 = -0.0 ∨ x * 0.0 = nan := by
  have hmul : x * 0.0 = Float.ofModel (Float.Model.pack (UnpackedFloat.mul .binary64
      x.toModel.unpack (.zero .positive))) := rfl
  rw [hmul]
  rcases x.toModel.unpack with (_ | _) | _ | (_ | _) | ⟨_ | _, m, e, h⟩
  · exact .inr (.inr rfl)
  · exact .inr (.inr rfl)
  · exact .inr (.inr rfl)
  · exact .inr (.inl rfl)
  · exact .inl rfl
  · exact .inr (.inl rfl)
  · exact .inl rfl

/-- A positive finite number times zero, and zero divided by such a number. -/
lemma mul_zero_of_positive {x : Float} {m : ℕ} {e : ℤ} {h : 0 < m}
    (hx : x.toModel.unpack = .finite .positive m e h) : x * 0.0 = 0.0 := by
  change Float.ofModel (Float.Model.pack (UnpackedFloat.mul .binary64 x.toModel.unpack _)) = _
  rw [hx]
  rfl

lemma zero_mul_of_positive {x : Float} {m : ℕ} {e : ℤ} {h : 0 < m}
    (hx : x.toModel.unpack = .finite .positive m e h) : 0.0 * x = 0.0 := by
  change Float.ofModel (Float.Model.pack (UnpackedFloat.mul .binary64 _ x.toModel.unpack)) = _
  rw [hx]
  rfl

lemma zero_div_of_positive {x : Float} {m : ℕ} {e : ℤ} {h : 0 < m}
    (hx : x.toModel.unpack = .finite .positive m e h) : 0.0 / x = 0.0 := by
  change Float.ofModel (Float.Model.pack (UnpackedFloat.div .binary64 _ x.toModel.unpack)) = _
  rw [hx]
  rfl

/-- Zero is not above what has the positive sign. -/
lemma le_of_unpack_eq_zero {x y : Float} {s : Sign} (hx : x.toModel.unpack = .zero s)
    (hy : sign? y.toModel.unpack = some .positive) : x ≤ y := by
  refine decide_eq_true ?_
  change x.toModel.unpack.le y.toModel.unpack = true
  rw [hx]
  rcases hu : y.toModel.unpack with s | _ | s | ⟨s, m, e, hm⟩ <;> rw [hu] at hy <;> cases hy <;> rfl

end ImpedanceBench.Double

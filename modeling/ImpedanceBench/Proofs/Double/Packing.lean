import ImpedanceBench.Proofs.Double.Order

/-!
A double is what its parts say: taking it apart and putting the parts together gives it back, so
an operation that leaves the parts of a number as they are leaves the number as it is. In the other
direction nothing is lost either, as long as the parts have the form of a double.
-/

namespace ImpedanceBench.Double

open Float.Model UnpackedFloat

/-- **Nothing is lost.** A double is made of its parts. -/
theorem pack_unpack (f : Float.Model) : Float.Model.pack f.unpack = f := by
  obtain ⟨bits, valid⟩ := f
  simp only [Float.Model.pack, Float.Model.unpack, pack_unpack_of_valid valid]

lemma eq_of_unpack_eq {x y : Float} (h : x.toModel.unpack = y.toModel.unpack) : x = y := by
  obtain ⟨x⟩ := x
  obtain ⟨y⟩ := y
  rw [← pack_unpack x, ← pack_unpack y]
  exact congrArg (fun u => Float.ofModel (Float.Model.pack u)) h

/-- A number other than zero is alone at its place. -/
lemma eq_of_place_eq {u : UnpackedFloat} {s : Sign} {m : ℕ} {e : ℤ} {h : 0 < m}
    (hu : place u = place (.finite s m e h)) : u = .finite s m e h := by
  rcases u with (_ | _) | _ | _ | ⟨_ | _, m', e', h'⟩ <;> cases s <;>
    simp_all [place]

lemma eq_of_not_lt {x y : Float} {s : Sign} {m : ℕ} {e : ℤ} {h : 0 < m}
    (hx : x.toModel.unpack = .finite s m e h) (hy : y ≤ y) (hxy : ¬ x < y) (hyx : ¬ y < x) :
    y = x := by
  obtain ⟨b, hb, -⟩ := le_iff.1 hy
  obtain ⟨a, ha⟩ := exists_rank hx
  have hab : a = b := by
    rcases lt_trichotomy a b with hab | hab | hab
    · exact absurd (lt_iff.2 ⟨a, ha, b, hb, hab⟩) hxy
    · exact hab
    · exact absurd (lt_iff.2 ⟨b, hb, a, ha, hab⟩) hyx
  have hrank : rank y = rank x := by rw [ha, hab, Option.mem_def.1 hb]
  rw [rank, rank, hx] at hrank
  exact eq_of_unpack_eq ((eq_of_place_eq hrank).trans hx.symm)

lemma unpack_pack_zero (s : Sign) : (Float.Model.pack (.zero s)).unpack = .zero s := by
  cases s <;> rfl

/-- A mantissa of 53 bits, whose leading bit is set unless the exponent is the least. -/
structure Canonical (m : ℕ) (e : ℤ) : Prop where
  lt : m < 2 ^ 53
  least : -1074 ≤ e
  most : e ≤ 971
  leading : -1074 < e → 2 ^ 52 ≤ m

lemma exponentBias_binary64 : (Format.binary64.exponentBias : ℤ) = 1023 := rfl

lemma toNat_one_append (v : BitVec 52) : (1#1 ++ v).toNat = 2 ^ 52 + v.toNat := by
  rw [BitVec.toNat_append, ← Nat.shiftLeft_add_eq_or_of_lt v.isLt]
  rfl

lemma canonical_of_unpack {f : Float.Model} {s : Sign} {m : ℕ} {e : ℤ} {h : 0 < m}
    (hf : f.unpack = .finite s m e h) : Canonical m e := by
  have hv : (@unpackMantissa .binary64 f.toBits.toBitVec).toNat < 2 ^ 52 :=
    BitVec.isLt _
  have hx : (@unpackExponent .binary64 f.toBits.toBitVec).toNat < 2 ^ 11 :=
    BitVec.isLt _
  simp only [Float.Model.unpack, UnpackedFloat.unpack, exponentBias_binary64] at hf
  split at hf
  · split at hf <;> cases hf
  rename_i hlast
  replace hlast : (@unpackExponent .binary64 f.toBits.toBitVec).toNat ≠ 2 ^ 11 - 1 :=
    fun heq => hlast (BitVec.eq_of_toNat_eq heq)
  split at hf
  · split at hf <;> cases hf
    rename_i hzero _
    rw [hzero]
    exact ⟨Nat.lt_trans hv (by decide), by decide, by decide, fun hlt => absurd hlt (by decide)⟩
  · rename_i hfirst
    replace hfirst : (@unpackExponent .binary64 f.toBits.toBitVec).toNat ≠ 0 :=
      fun heq => hfirst (BitVec.eq_of_toNat_eq heq)
    simp only [UnpackedFloat.finite.injEq] at hf
    obtain ⟨-, rfl, rfl⟩ := hf
    have hm : (1#1 ++ @unpackMantissa .binary64 f.toBits.toBitVec).toNat =
        2 ^ 52 + (@unpackMantissa .binary64 f.toBits.toBitVec).toNat := toNat_one_append _
    exact ⟨by omega, by omega, by omega, fun _ => by omega⟩

lemma unpackSign_packComponents (s : Sign) (e : BitVec 11) (m : BitVec 52) :
    Sign.ofBitVec (unpackSign (packComponents .binary64 s e m)) = s := by
  have hsign : unpackSign (packComponents .binary64 s e m) = s.toBitVec := by
    change (s.toBitVec ++ e ++ m).extractLsb' 63 1 = s.toBitVec
    rw [BitVec.extractLsb'_append_eq_of_le (by decide),
      BitVec.extractLsb'_append_eq_of_le (by decide)]
    cases s <;> rfl
  rw [hsign]
  cases s <;> rfl

lemma unpack_pack {s : Sign} {m : ℕ} {e : ℤ} {h : 0 < m} (hm : 2 ^ 52 ≤ m) (hc : Canonical m e) :
    (Float.Model.pack (.finite s m e h)).unpack = .finite s m e h := by
  have hlog : m.log2 = 52 := (Nat.log2_eq_iff (by omega)).2 ⟨hm, hc.lt⟩
  have hleast := hc.least
  have hmost := hc.most
  have hlt := hc.lt
  change UnpackedFloat.unpack .binary64 (UnpackedFloat.pack .binary64 _) = _
  have hbias : (e + Format.binary64.exponentBias +
      Format.binary64.mantissaBitsWithoutImplicit).toNat = (e + 1075).toNat := by
    change (e + 1023 + 52).toNat = _
    omega
  have hexp : (BitVec.ofNat 11 (e + 1075).toNat).toNat = (e + 1075).toNat :=
    Nat.mod_eq_of_lt (by omega)
  have hmant : (1#1 ++ BitVec.ofNat 52 m).toNat = m := by
    rw [toNat_one_append, BitVec.toNat_ofNat]
    omega
  have hfirst : BitVec.ofNat 11 (e + 1075).toNat ≠ 0#11 := fun heq => by
    have := congrArg BitVec.toNat heq
    rw [hexp] at this
    change (e + 1075).toNat = 0 at this
    omega
  have hlast : BitVec.ofNat 11 (e + 1075).toNat ≠ -1#11 := fun heq => by
    have := congrArg BitVec.toNat heq
    rw [hexp] at this
    change (e + 1075).toNat = 2047 at this
    omega
  simp only [UnpackedFloat.pack, hbias, hlog]
  have hfits : ¬ 2 ^ Format.binary64.exponentBits ≤ (e + 1075).toNat + 1 := by
    change ¬ 2048 ≤ _
    omega
  rw [if_neg hfits, if_pos (show 52 + 1 = Format.binary64.mantissaBits from rfl)]
  simp only [UnpackedFloat.unpack, unpackMantissa_packComponents, unpackExponent_packComponents]
  rw [if_neg hlast, if_neg hfirst]
  simp only [UnpackedFloat.finite.injEq, exponentBias_binary64]
  refine ⟨unpackSign_packComponents _ _ _, hmant, ?_⟩
  rw [hexp]
  change ((e + 1075).toNat : ℤ) - (1023 + 52) = e
  omega

/-- Adding no times a finite number leaves a number other than zero as it is. -/
theorem add_zero_mul {x y : Float} {s : Sign} {m : ℕ} {e : ℤ} {h : 0 < m}
    (hx : x.toModel.unpack = .finite s m e h) (hy : y.isFinite = true) :
    x + Scalar.ofNat 0 * y = x := by
  have hy' : y.toModel.unpack.isFinite = true := hy
  have hmul : ∃ s, (Scalar.ofNat 0 * y : Float).toModel.unpack = .zero s := by
    change ∃ s, (Float.Model.pack (UnpackedFloat.mul .binary64 (.zero .positive)
      y.toModel.unpack)).unpack = _
    rcases hu : y.toModel.unpack with _ | _ | s' | ⟨s', m', e', h'⟩ <;> rw [hu] at hy'
    · cases hy'
    · cases hy'
    · exact ⟨_, unpack_pack_zero _⟩
    · exact ⟨_, unpack_pack_zero _⟩
  obtain ⟨s', hs'⟩ := hmul
  change Float.ofModel (Float.Model.pack (UnpackedFloat.add .binary64 x.toModel.unpack
    (Scalar.ofNat 0 * y : Float).toModel.unpack)) = x
  rw [hs', hx]
  change Float.ofModel (Float.Model.pack (.finite s m e h)) = x
  rw [← hx, pack_unpack]

end ImpedanceBench.Double

import Mathlib
import ImpedanceBench.Number.Double

/-!
The order of the doubles. A double that is not undefined has a place in a linear order, and
comparing doubles means comparing their places, so the laws of a linear order hold between doubles
that are defined. What is known of packed doubles is in no part of the library that can be imported
alone, so that all modules on doubles rest on the whole of it.
-/

namespace ImpedanceBench.Double

open Float.Model

/-- The place of a number among the others, by its sign and whether it is zero or infinite, then
by its exponent and mantissa. -/
def place : UnpackedFloat → Option (ℤ ×ₗ ℤ ×ₗ ℤ)
  | .notANumber => none
  | .infinity .negative => some (toLex (-2, toLex (0, 0)))
  | .finite .negative m e _ => some (toLex (-1, toLex (-e, -m)))
  | .zero _ => some (toLex (0, toLex (0, 0)))
  | .finite .positive m e _ => some (toLex (1, toLex (e, m)))
  | .infinity .positive => some (toLex (2, toLex (0, 0)))

lemma compare_toLex {α β : Type} [Ord α] [Ord β] (a b : α) (x y : β) :
    compare (toLex (a, x)) (toLex (b, y)) = (compare a b).then (compare x y) := rfl

lemma compare_neg_neg (a b : ℤ) : compare (-a) (-b) = (compare a b).swap := by
  rcases lt_trichotomy a b with h | rfl | h
  · rw [compare_lt_iff_lt.2 h, compare_gt_iff_gt.2 (by omega)]; rfl
  · simp
  · rw [compare_gt_iff_gt.2 h, compare_lt_iff_lt.2 (by omega)]; rfl

lemma compare_cast (m n : ℕ) : compare (m : ℤ) n = compare m n := by
  rcases lt_trichotomy m n with h | rfl | h
  · rw [compare_lt_iff_lt.2 h, compare_lt_iff_lt.2 (by omega)]
  · simp
  · rw [compare_gt_iff_gt.2 h, compare_gt_iff_gt.2 (by omega)]

/-- Numbers compare as their places do. -/
lemma compare_eq (a b : UnpackedFloat) :
    a.compare b = (place a).bind fun x => (place b).map fun y => compare x y := by
  rcases a with (_ | _) | _ | _ | ⟨_ | _, m, e, h⟩ <;>
    rcases b with (_ | _) | _ | _ | ⟨_ | _, m', e', h'⟩ <;>
    simp [UnpackedFloat.compare, place, compare_toLex, compare_neg_neg, compare_cast,
      Ordering.swap_then] <;> rfl

/-- The place of a double; an undefined one has none. -/
def rank (x : Float) : Option (ℤ ×ₗ ℤ ×ₗ ℤ) := place x.toModel.unpack

lemma lt_iff {x y : Float} : x < y ↔ ∃ a ∈ rank x, ∃ b ∈ rank y, a < b := by
  change decide (x.toModel.unpack.lt y.toModel.unpack = true) = true ↔ _
  rw [decide_eq_true_iff, UnpackedFloat.lt, compare_eq, rank, rank]
  cases place x.toModel.unpack <;> cases place y.toModel.unpack <;> simp [compare_lt_iff_lt]

lemma le_iff {x y : Float} : x ≤ y ↔ ∃ a ∈ rank x, ∃ b ∈ rank y, a ≤ b := by
  change decide (x.toModel.unpack.le y.toModel.unpack = true) = true ↔ _
  rw [decide_eq_true_iff, UnpackedFloat.le, compare_eq, rank, rank]
  cases place x.toModel.unpack <;> cases place y.toModel.unpack <;>
    simp [Ordering.isLE_iff_ne_gt, compare_le_iff_le]

variable {x y z : Float}

lemma lt_irrefl (x : Float) : ¬ x < x := by
  rw [lt_iff]
  rintro ⟨a, ha, b, hb, h⟩
  exact h.ne (Option.mem_unique ha hb)

lemma ne_of_lt (h : x < y) : x ≠ y := by
  rintro rfl
  exact lt_irrefl x h

lemma lt_trans (h : x < y) (h' : y < z) : x < z := by
  obtain ⟨a, ha, b, hb, hab⟩ := lt_iff.1 h
  obtain ⟨b', hb', c, hc, hbc⟩ := lt_iff.1 h'
  rw [Option.mem_unique hb hb'] at hab
  exact lt_iff.2 ⟨a, ha, c, hc, hab.trans hbc⟩

lemma le_trans (h : x ≤ y) (h' : y ≤ z) : x ≤ z := by
  obtain ⟨a, ha, b, hb, hab⟩ := le_iff.1 h
  obtain ⟨b', hb', c, hc, hbc⟩ := le_iff.1 h'
  rw [Option.mem_unique hb hb'] at hab
  exact le_iff.2 ⟨a, ha, c, hc, hab.trans hbc⟩

lemma lt_of_lt_of_le (h : x < y) (h' : y ≤ z) : x < z := by
  obtain ⟨a, ha, b, hb, hab⟩ := lt_iff.1 h
  obtain ⟨b', hb', c, hc, hbc⟩ := le_iff.1 h'
  rw [Option.mem_unique hb hb'] at hab
  exact lt_iff.2 ⟨a, ha, c, hc, hab.trans_le hbc⟩

lemma le_of_lt (h : x < y) : x ≤ y := by
  obtain ⟨a, ha, b, hb, hab⟩ := lt_iff.1 h
  exact le_iff.2 ⟨a, ha, b, hb, hab.le⟩

lemma not_le_of_lt (h : x < y) : ¬ y ≤ x := fun h' => lt_irrefl x (lt_of_lt_of_le h h')

/-- Doubles below some double are defined, and then one of them is the smaller. -/
lemma lt_of_not_le (hx : x < z) (hy : y < z) (h : ¬ y ≤ x) : x < y := by
  obtain ⟨a, ha, -⟩ := lt_iff.1 hx
  obtain ⟨b, hb, -⟩ := lt_iff.1 hy
  refine lt_iff.2 ⟨a, ha, b, hb, ?_⟩
  by_contra hab
  exact h (le_iff.2 ⟨b, hb, a, ha, not_lt.1 hab⟩)

lemma le_self_of_lt (h : x < y) : x ≤ x ∧ y ≤ y := by
  obtain ⟨a, ha, b, hb, -⟩ := lt_iff.1 h
  exact ⟨le_iff.2 ⟨a, ha, a, ha, le_rfl⟩, le_iff.2 ⟨b, hb, b, hb, le_rfl⟩⟩

/-- Doubles that are comparable with themselves are defined. -/
lemma le_of_not_lt (hx : x ≤ x) (hy : y ≤ y) (h : ¬ y < x) : x ≤ y := by
  obtain ⟨a, ha, -⟩ := le_iff.1 hx
  obtain ⟨b, hb, -⟩ := le_iff.1 hy
  refine le_iff.2 ⟨a, ha, b, hb, ?_⟩
  by_contra hab
  exact h (lt_iff.2 ⟨b, hb, a, ha, not_le.1 hab⟩)

/-- Only defined doubles are compared. -/
lemma le_self_of_le (h : x ≤ y) : x ≤ x ∧ y ≤ y := by
  obtain ⟨a, ha, b, hb, -⟩ := le_iff.1 h
  exact ⟨le_iff.2 ⟨a, ha, a, ha, le_rfl⟩, le_iff.2 ⟨b, hb, b, hb, le_rfl⟩⟩

lemma le_or_le (hx : x ≤ x) (hy : y ≤ y) : x ≤ y ∨ y ≤ x := by
  by_cases h : y < x
  · exact .inr (le_of_lt h)
  · exact .inl (le_of_not_lt hx hy h)

lemma exists_rank {s : UnpackedFloat.Sign} {m : ℕ} {e : ℤ} {h : 0 < m}
    (hx : x.toModel.unpack = .finite s m e h) : ∃ a, rank x = some a := by
  rw [rank, hx]
  cases s <;> exact ⟨_, rfl⟩

lemma le_self_of_unpack {s : UnpackedFloat.Sign} {m : ℕ} {e : ℤ} {h : 0 < m}
    (hx : x.toModel.unpack = .finite s m e h) : x ≤ x :=
  let ⟨a, ha⟩ := exists_rank hx
  le_iff.2 ⟨a, ha, a, ha, le_rfl⟩

/-- A positive number that is not above a finite one has a mantissa and an exponent. -/
lemma unpack_of_pos_of_le (h0 : (0.0 : Float) < x) (h : x ≤ y) (hy : y.isFinite = true) :
    ∃ m e hm, x.toModel.unpack = .finite .positive m e hm := by
  have hpos : UnpackedFloat.lt (.zero .positive) x.toModel.unpack = true := of_decide_eq_true h0
  have hle : x.toModel.unpack.le y.toModel.unpack = true := of_decide_eq_true h
  have hfin : y.toModel.unpack.isFinite = true := hy
  rcases hx : x.toModel.unpack with (_ | _) | _ | _ | ⟨_ | _, m, e, hm⟩ <;> rw [hx] at hpos hle
  case infinity.positive =>
    rcases hu : y.toModel.unpack with _ | _ | _ | ⟨_, _, _, _⟩ <;> rw [hu] at hfin hle
    · cases hfin
    · cases hfin
    · cases hle
    · cases hle
  case finite.positive => exact ⟨m, e, hm, rfl⟩
  all_goals cases hpos

instance instTransLt : @Trans Float Float Float (· < ·) (· < ·) (· < ·) := ⟨lt_trans⟩

end ImpedanceBench.Double

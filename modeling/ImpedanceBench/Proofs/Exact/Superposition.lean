import ImpedanceBench.Proofs.Exact.LockIn

/-!
The trapezoid rule in exact arithmetic keeps sums. The area of a segment is linear in the two values
at its ends, whatever the step between them, so the integral over any time axis is, and with it the
lock-in: interference adds to what it reads, and a mixture of the references is told apart by their
own products.
-/

namespace ImpedanceBench

/-- `a` times one pair of components and `b` times another. -/
def Components.superpose (a b : ℝ) (c d : Components ℝ) : Components ℝ :=
  ⟨a * c.x + b * d.x, a * c.y + b * d.y⟩

namespace LockIn

/-- `a` times one trace and `b` times another, sample by sample. -/
def superpose (a b : ℝ) (u v : List ℝ) : List ℝ := List.zipWith (fun x y => a * x + b * y) u v

/-- The first segment is added to the others. -/
lemma integral_cons_cons (area : ℝ × ℝ → ℝ × ℝ → ℝ) (f f' : ℝ) (fs : List ℝ) (t t' : ℝ)
    (ts : List ℝ) : integral area (f :: f' :: fs) (t :: t' :: ts) =
      area (f, f') (t, t') + integral area (f' :: fs) (t' :: ts) := by
  simp only [integral, steps, Scalar.sum_real, List.tail_cons, List.zip_cons_cons,
    List.zipWith_cons_cons, List.sum_cons]

/-- An integral is as linear as the areas are. -/
lemma integral_superpose {area : ℝ × ℝ → ℝ × ℝ → ℝ} {a b : ℝ}
    (harea : ∀ f g t, area (a * f.1 + b * g.1, a * f.2 + b * g.2) t = a * area f t + b * area g t) :
    ∀ {u v : List ℝ} (_ : u.length = v.length) (times : List ℝ),
      integral area (superpose a b u v) times = a * integral area u times + b * integral area v times
  | x :: x' :: u, y :: y' :: v, h, t :: t' :: times => by
    have hrest := integral_superpose harea (Nat.succ_injective h) (t' :: times)
    rw [superpose, List.zipWith_cons_cons] at hrest ⊢
    rw [List.zipWith_cons_cons, integral_cons_cons, integral_cons_cons, integral_cons_cons, hrest,
      harea (x, x') (y, y')]
    ring
  -- Otherwise there is no segment.
  | [], [], _, _ | [_], [_], _, _ | _ :: _ :: _, _ :: _ :: _, _, []
  | _ :: _ :: _, _ :: _ :: _, _, [_] => by simp [superpose, integral, steps]

lemma trapezoid_superpose (a b : ℝ) {u v : List ℝ} (h : u.length = v.length) (times : List ℝ) :
    trapezoid (superpose a b u v) times = a * trapezoid u times + b * trapezoid v times := by
  refine integral_superpose (fun f g t => ?_) h times
  have harea (w c : ℝ) : w * (a * f.1 + b * g.1 + (a * f.2 + b * g.2)) / c =
      a * (w * (f.1 + f.2) / c) + b * (w * (g.1 + g.2) / c) := by ring
  exact harea _ _

/-- Mixing with a reference is linear in each sample. -/
lemma mix_superpose (a b : ℝ) (u v reference : List ℝ) :
    List.zipWith (· * ·) (superpose a b u v) reference =
      superpose a b (List.zipWith (· * ·) u reference) (List.zipWith (· * ·) v reference) := by
  induction reference generalizing u v with
  | nil => simp [superpose]
  | cons r reference ih =>
    cases u with
    | nil => rfl
    | cons x u =>
      cases v with
      | nil => simp [superpose]
      | cons y v =>
        have hsample : (a * x + b * y) * r = a * (x * r) + b * (y * r) := by ring
        exact congrArg₂ List.cons hsample (ih u v)

variable {l : LockIn ℝ} (signed : l.rule = .signed)

include signed

/-- The components of a superposition. -/
lemma components_superpose {u v : List ℝ} (h : u.length = v.length) (a b : ℝ) :
    l.components (superpose a b u v) = .superpose a b (l.components u) (l.components v) := by
  have hmixed (reference : List ℝ) : (List.zipWith (· * ·) u reference).length =
      (List.zipWith (· * ·) v reference).length := by
    rw [List.length_zipWith, List.length_zipWith, h]
  simp only [components, signed, integrate, mix_superpose, trapezoid_superpose _ _ (hmixed _),
    Components.superpose]

/-- What a window reads of its own references. -/
lemma components_references :
    l.components l.sines =
      ⟨trapezoid (l.sines.map (· ^ 2)) l.times,
        trapezoid (List.zipWith (· * ·) l.sines l.cosines) l.times⟩ ∧
    l.components l.cosines =
      ⟨trapezoid (List.zipWith (· * ·) l.sines l.cosines) l.times,
        trapezoid (l.cosines.map (· ^ 2)) l.times⟩ := by
  have hsquare (xs : List ℝ) : List.zipWith (· * ·) xs xs = xs.map (· ^ 2) := by
    rw [List.zipWith_self]
    simp only [sq]
  have hswap : List.zipWith (· * ·) l.cosines l.sines = List.zipWith (· * ·) l.sines l.cosines :=
    List.zipWith_comm_of_comm mul_comm
  simp only [components, signed, integrate]
  exact ⟨congrArg₂ _ (congrArg₂ _ (hsquare _) rfl) rfl,
    congrArg₂ _ (congrArg₂ _ hswap rfl) (congrArg₂ _ (hsquare _) rfl)⟩

/-- **The signed lock-in is linear.** What it reads of a superposition of two traces is the
superposition of what it reads of them, for any references and any time axis. Of a superposition of
its own references it therefore reads the same superposition of their products' integrals. -/
theorem linear_of_signed :
    (∀ u v : List ℝ, u.length = v.length → ∀ a b : ℝ,
      l.components (superpose a b u v) = .superpose a b (l.components u) (l.components v)) ∧
    (l.sines.length = l.cosines.length → ∀ a b : ℝ,
      let S := trapezoid (l.sines.map (· ^ 2)) l.times
      let M := trapezoid (List.zipWith (· * ·) l.sines l.cosines) l.times
      let C := trapezoid (l.cosines.map (· ^ 2)) l.times
      l.components (superpose a b l.sines l.cosines) = ⟨a * S + b * M, a * M + b * C⟩) := by
  refine ⟨fun u v h a b => components_superpose signed h a b, fun h a b => ?_⟩
  obtain ⟨hsines, hcosines⟩ := components_references signed
  rw [components_superpose signed h, hsines, hcosines, Components.superpose]

omit signed

/-- A window of three samples at uneven distances. -/
def uneven : LockIn ℝ := ⟨.signed, [0, 1, 3], [0, 1, 2], [1, 0, 1]⟩

/-- Twice its sines and three times its cosines, alone and with a constant interference. -/
theorem linear_of_signed_uneven :
    uneven.components [3, 2, 7] = ⟨17, 17 / 2⟩ ∧
      uneven.components [4, 3, 8] =
        .superpose 1 1 (uneven.components [3, 2, 7]) (uneven.components [1, 1, 1]) := by
  have htrapezoid (x y z : ℝ) : trapezoid [x, y, z] [0, 1, 3] = (x + y) / 2 + (y + z) := by
    have htwo : (2.0 : ℝ) = 2 := by norm_num
    change Scalar.sum [(1 - 0) * (x + y) / 2.0, (3 - 1) * (y + z) / 2.0] = _
    rw [htwo, Scalar.sum_real, List.sum_cons, List.sum_singleton]
    ring
  have hmixture : superpose 2 3 uneven.sines uneven.cosines = [3, 2, 7] := by
    norm_num [superpose, uneven]
  have hdisturbed : superpose 1 1 [3, 2, 7] [1, 1, 1] = [4, 3, 8] := by norm_num [superpose]
  obtain ⟨hlinear, hreferences⟩ := linear_of_signed (l := uneven) rfl
  constructor
  · have hread := hreferences rfl 2 3
    rw [hmixture] at hread
    rw [hread]
    simp only [uneven, List.map_cons, List.map_nil, List.zipWith_cons_cons, List.zipWith_nil_left,
      htrapezoid]
    norm_num
  · rw [← hdisturbed]
    exact hlinear [3, 2, 7] [1, 1, 1] rfl 1 1

end LockIn

end ImpedanceBench
